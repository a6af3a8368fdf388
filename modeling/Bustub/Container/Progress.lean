import Bustub.Container.LatchBalance

/-!
Calls that return.
-/

namespace Bustub

namespace ExtendibleHashTable

variable {K V : Type}

def splitBucketDepth {σ : Type} (P : PagePool σ (HashTablePage K V)) (c : HashConfig K) (key : K)
    (t : ExtendibleHashTable σ) : Nat :=
  (directory P t).getLocalDepth (keyToDirectoryIndex c key (directory P t))

theorem localDepths_splitSlots_of_mod {d : HashTableDirectoryPage} {s x : Nat}
    (hs : s < 2 ^ d.globalDepth) (hL : d.localDepths s < d.globalDepth)
    (hx : x % 2 ^ d.localDepths s = s % 2 ^ d.localDepths s) (P q : Int) :
    (splitSlots (d.incrLocalDepth s) s P q).localDepths (x % 2 ^ d.globalDepth) =
      d.localDepths s + 1 := by
  rw [(splitSlots_incrLocalDepth_apply hs rfl hL P q
    (Nat.mod_lt _ (Nat.pos_pow_of_pos _ (by decide)))).2, if_pos]
  apply HashTableDirectoryPage.mod_succ_cases
  rw [Nat.mod_mod_of_dvd _ (Nat.pow_dvd_pow 2 hL.le), hx]

section Writer

variable {σ : Type} {P : PagePool σ (HashTablePage K V)} {t t' : ExtendibleHashTable σ}

theorem writer_merge {i : Nat} (h : merge P i t = .ok t') : t'.writer = false := by
  simp only [merge, bind_eq_ok, pure_eq_ok] at h
  obtain ⟨_, -, t₂, -, h⟩ := h
  split_ifs at h <;> simp only [bind_eq_ok, pure_eq_ok, Except.ok.injEq] at h
  · exact h ▸ rfl
  · obtain ⟨_, -, _, -, rfl⟩ := h; rfl
  · obtain ⟨_, -, _, -, _, -, rfl⟩ := h; rfl
  · obtain ⟨_, -, _, -, _, -, _, -, h⟩ := h
    split_ifs at h <;> simp only [bind_eq_ok, pure_eq_ok, Except.ok.injEq, ok_bind] at h
    · obtain ⟨_, -, _, -, rfl⟩ := h; rfl
    · obtain ⟨_, -, _, -, _, -, _, -, rfl⟩ := h; rfl

variable [DecidableEq K] [DecidableEq V] (c : HashConfig K)

theorem writer_call {op : HashCall K V} {r : Bool × List V}
    (h : call P c t op = .ok (r, t')) : t'.writer = false := by
  cases op with
  | getValue key =>
    simp only [call, getValue, bind_eq_ok, rLock_eq_ok, fetchPage_eq_ok, unpinPage_eq_ok,
      pure_eq_ok, Except.ok.injEq, Prod.mk.injEq] at h
    obtain ⟨_, ⟨hw, rfl⟩, t₂, h₂, _, ⟨_, -, rfl⟩, _, ⟨-, rfl⟩, _, ⟨-, rfl⟩, -, rfl⟩ := h
    exact (latch_fetchDirectoryPage h₂).2.trans hw
  | insert key value =>
    obtain ⟨⟨b, t''⟩, hi, he⟩ := map_eq_ok.1 h
    cases he
    clear h
    generalize c.maxBucketDepth + 1 = fuel at hi
    induction fuel generalizing t with
    | zero => simp [insert] at hi
    | succ fuel ih =>
      simp only [insert, bind_eq_ok, rLock_eq_ok, fetchPage_eq_ok] at hi
      obtain ⟨_, ⟨hw, rfl⟩, t₂, h₂, _, ⟨_, -, rfl⟩, hi⟩ := hi
      have hw₂ := (latch_fetchDirectoryPage h₂).2.trans hw
      split at hi <;> simp only [bind_eq_ok, Prod.exists, unpinPage_eq_ok, pure_eq_ok,
        Except.ok.injEq, Prod.mk.injEq] at hi
      · obtain ⟨_, ⟨-, rfl⟩, _, ⟨-, rfl⟩, -, rfl⟩ := hi
        exact hw₂
      · obtain ⟨_, -, _, ⟨-, rfl⟩, _, ⟨-, rfl⟩, split, t₃, h₃, hi⟩ := hi
        cases split
        · simp only [Bool.false_eq_true, if_false, pure_eq_ok, Except.ok.injEq, Prod.mk.injEq] at hi
          obtain ⟨-, rfl⟩ := hi
          exact (latch_splitInsert c h₃).2
        · exact ih hi
  | remove key value =>
    obtain ⟨⟨b, t''⟩, hr, he⟩ := map_eq_ok.1 h
    cases he
    simp only [remove, bind_eq_ok, rLock_eq_ok, fetchPage_eq_ok] at hr
    obtain ⟨_, ⟨hw, rfl⟩, t₂, h₂, _, ⟨_, -, rfl⟩, hr⟩ := hr
    have hw₂ := (latch_fetchDirectoryPage h₂).2.trans hw
    split at hr <;> simp only [bind_eq_ok, unpinPage_eq_ok, pure_eq_ok, Except.ok.injEq,
      Prod.mk.injEq] at hr
    · obtain ⟨_, -, _, -, _, hm, -, rfl⟩ := hr
      exact writer_merge hm
    · obtain ⟨_, -, _, ⟨-, rfl⟩, _, ⟨-, rfl⟩, -, rfl⟩ := hr
      exact hw₂

theorem Reachable.writer {pool₀ : σ} (ht : Reachable P c pool₀ t) : t.writer = false := by
  induction ht with
  | init => rfl
  | step op _ hc => exact writer_call c hc

end Writer

section Memory

variable {c : HashConfig K} {t : ExtendibleHashTable (Memory (HashTablePage K V))}
  {d : HashTableDirectoryPage}

theorem Wf.splitBucketDepth_eq (h : Wf c t.pool t.directoryPageId d) (key : K) :
    splitBucketDepth Memory.pool c key t = d.localDepths (c.hash key % 2 ^ d.globalDepth) := by
  rw [splitBucketDepth, h.directory_eq, HashTableDirectoryPage.getLocalDepth_eq,
    keyToDirectoryIndex_eq]

theorem Start.fetchDirectoryPage_ok (h : Start c t) (key : K) :
    ∃ t₂ d, ExtendibleHashTable.fetchDirectoryPage Memory.pool t = .ok t₂ ∧ Wf c t₂.pool t₂.directoryPageId d ∧
      t₂.readers = t.readers ∧ t₂.writer = t.writer ∧
      splitBucketDepth Memory.pool c key t₂ = splitBucketDepth Memory.pool c key t := by
  rcases h with ⟨h0, hp⟩ | ⟨d, hw⟩
  · obtain ⟨t₂, hf⟩ : ∃ t₂, ExtendibleHashTable.fetchDirectoryPage Memory.pool t = .ok t₂ := by
      simp [ExtendibleHashTable.fetchDirectoryPage, h0, hp, Memory.empty, directory_memory,
        assertTrue, invalidPageId]
    obtain ⟨d, hw⟩ := Start.fetchDirectoryPage (.inl ⟨h0, hp⟩) hf rfl rfl
    refine ⟨t₂, d, hf, hw, ?_⟩
    simp [ExtendibleHashTable.fetchDirectoryPage, h0, hp, Memory.empty, directory_memory,
      assertTrue, invalidPageId] at hf
    subst hf
    simp [splitBucketDepth, directory_memory, h0, hp, Memory.empty, invalidPageId,
      HashTableDirectoryPage.zero]
  · exact ⟨t, d, hw.fetchDirectoryPage, hw, rfl, rfl, rfl⟩

theorem Start.rLock_bind (h : Start c t) (hw : t.writer = false) (key : K) :
    ∃ t₂ d, (∀ {β : Type} (f : ExtendibleHashTable (Memory (HashTablePage K V)) → Except Halt β),
        (rLock t >>= fun t => ExtendibleHashTable.fetchDirectoryPage Memory.pool t >>= f) = f t₂) ∧
      Wf c t₂.pool t₂.directoryPageId d ∧ t₂.readers = t.readers + 1 ∧ t₂.writer = false ∧
      splitBucketDepth Memory.pool c key t₂ = splitBucketDepth Memory.pool c key t := by
  obtain ⟨t₂, d, hf, hw₂, hr₂, hw₂', hk⟩ :=
    Start.fetchDirectoryPage_ok (t := { t with readers := t.readers + 1 }) h key
  exact ⟨t₂, d, fun f => by rw [rLock, if_neg (by simp [hw]), ok_bind, hf, ok_bind], hw₂, hr₂,
    hw₂'.trans hw, hk⟩

theorem Wf.merge_ok (h : Wf c t.pool t.directoryPageId d) (hr : t.readers = 0)
    (hw : t.writer = false) (idx : Nat) : ∃ t', ExtendibleHashTable.merge Memory.pool idx t = .ok t' := by
  rw [ExtendibleHashTable.merge, h.wLock_bind hr hw, Wf.directory_eq (t := { t with writer := true }) h]
  simp only [fetchPage_memory, unpinPage_memory, ok_bind, bucketAt_memory, deletePage_memory,
    HashTableDirectoryPage.getLocalDepth_eq, HashTableDirectoryPage.getBucketPageId_eq,
    HashTableDirectoryPage.size_eq, pure_eq_ok]
  split_ifs with h1 h2 h3 h4 <;> try exact ⟨_, rfl⟩
  have hne : d.getLocalHighBit idx ≠ idx := fun e =>
    HashTableDirectoryPage.xor_two_pow_mod_succ_ne idx (d.localDepths idx - 1)
      (congrArg (· % 2 ^ (d.localDepths idx - 1 + 1)) e)
  rw [assertTrue, if_pos (by simp [HashTableDirectoryPage.decrLocalDepth, Function.update_apply, hne,
    (not_not.1 h3).symm])]
  exact ⟨_, rfl⟩

variable [DecidableEq K] [DecidableEq V]

theorem Wf.splitInsert_ok (h : Wf c t.pool t.directoryPageId d) (hr : t.readers = 0)
    (hw : t.writer = false) (key : K) :
    ∃ r t', splitInsert Memory.pool c key t = .ok (r, t') ∧ Start c t' ∧ t'.readers = 0 ∧
      t'.writer = false ∧ (r = true → splitBucketDepth Memory.pool c key t < c.maxBucketDepth ∧
        splitBucketDepth Memory.pool c key t' = splitBucketDepth Memory.pool c key t + 1) := by
  rw [h.splitBucketDepth_eq, h.splitInsert_eq hr hw key rfl rfl]
  have hslt := Nat.mod_lt (c.hash key) (Nat.two_pow_pos d.globalDepth)
  generalize hs : c.hash key % 2 ^ d.globalDepth = s at hslt ⊢
  by_cases hmax : c.maxBucketDepth ≤ d.localDepths s
  · rw [if_pos hmax]
    exact ⟨false, _, rfl, .inr ⟨d, h⟩, hr, rfl, nofun⟩
  rw [if_neg hmax]
  have hsp := h.splittable_split hslt (by omega)
  have hL1 : (if d.localDepths s = d.globalDepth then d.incrGlobalDepth else d).localDepths s =
      d.localDepths s := by
    split_ifs
    · rw [d.incrGlobalDepth_localDepths (Nat.lt_of_lt_of_le hslt
        (Nat.pow_le_pow_right (by decide) (Nat.le_succ _))), Nat.mod_eq_of_lt hslt]
    · rfl
  refine ⟨true, _, rfl, .inr ⟨_, h.split hsp⟩, hr, rfl, fun _ => ⟨by omega,
    ((h.split hsp).splitBucketDepth_eq (t := ⟨_, t.directoryPageId, t.readers, false⟩) key).trans ?_⟩⟩
  have hx : c.hash key % 2 ^ d.localDepths s = s % 2 ^ d.localDepths s := by
    subst hs
    exact (Nat.mod_mod_of_dvd _ (Nat.pow_dvd_pow 2 (h.inv.localDepth_le _ hslt))).symm
  rw [splitSlots_incrLocalDepth_globalDepth,
    localDepths_splitSlots_of_mod hsp.slot_lt hsp.depth_lt (by rw [hL1]; exact hx), hL1]

omit [DecidableEq V] in
theorem Start.getValue_ok (h : Start c t) (hw : t.writer = false) (key : K) :
    ∃ r t', getValue Memory.pool c key t = .ok (r, t') := by
  obtain ⟨t₂, d, hb, -⟩ := h.rLock_bind hw key
  rw [getValue, hb]
  exact ⟨_, _, rfl⟩

theorem Start.insert_ok (key : K) (value : V) (fuel : Nat) (h : Start c t) (hr : t.readers = 0)
    (hw : t.writer = false) (hfuel : c.maxBucketDepth - splitBucketDepth Memory.pool c key t < fuel) :
    ∃ r t', insert Memory.pool c fuel key value t = .ok (r, t') := by
  induction fuel generalizing t with
  | zero => omega
  | succ fuel ih =>
    obtain ⟨t₂, d, hb, hw₂, hr₂, hwr₂, hk⟩ := h.rLock_bind hw key
    rw [insert, hb, hw₂.directory_eq]
    simp only [fetchPage_memory, unpinPage_memory, ok_bind, bucketAt_memory, writeBucket_memory]
    split
    · exact ⟨_, _, rfl⟩
    obtain ⟨r, t₃, hs, hS₃, hr₃, hw₃, hdepth⟩ :=
      Wf.splitInsert_ok (t := rUnlock t₂) hw₂ (by simp [rUnlock, hr₂, hr]) hwr₂ key
    have hk' : splitBucketDepth Memory.pool c key (rUnlock t₂) =
        splitBucketDepth Memory.pool c key t := hk
    rw [hs, ok_bind]
    cases r
    · exact ⟨_, _, rfl⟩
    · obtain ⟨hlt, hdeeper⟩ := hdepth rfl
      exact ih hS₃ hr₃ hw₃ (show c.maxBucketDepth - splitBucketDepth Memory.pool c key t₃ < fuel by
        omega)

theorem Start.remove_ok (h : Start c t) (hr : t.readers = 0) (hw : t.writer = false) (key : K)
    (value : V) : ∃ r t', remove Memory.pool c key value t = .ok (r, t') := by
  obtain ⟨t₂, d, hb, hw₂, hr₂, hwr₂, -⟩ := h.rLock_bind hw key
  rw [remove, hb, hw₂.directory_eq]
  simp only [fetchPage_memory, unpinPage_memory, ok_bind, bucketAt_memory, writeBucket_memory]
  split
  · obtain ⟨t₄, h₄⟩ := Wf.merge_ok (t := rUnlock { t₂ with pool := { t₂.pool with
      pages := Function.update t₂.pool.pages (keyToPageId c key d) (some (.bucket
        ((buckets t₂.pool (keyToPageId c key d)).remove key value).2)) } })
      (hw₂.removeBucket key value) (by simp [rUnlock, hr₂, hr]) hwr₂ (keyToDirectoryIndex c key d)
    rw [h₄, ok_bind]
    exact ⟨_, _, rfl⟩
  · exact ⟨_, _, rfl⟩

theorem idle_table_calls_return (h : Start c t) (hr : t.readers = 0) (hw : t.writer = false)
    (op : HashCall K V) : ∃ r t', call Memory.pool c t op = .ok (r, t') ∧ Start c t' := by
  suffices hc : ∃ r t', call Memory.pool c t op = .ok (r, t') by
    obtain ⟨r, t', hc⟩ := hc
    exact ⟨r, t', hc, .inr (call_wf h hc)⟩
  cases op with
  | getValue key => exact h.getValue_ok hw key
  | insert key value =>
    obtain ⟨r, t', hi⟩ := h.insert_ok key value (c.maxBucketDepth + 1) hr hw (by omega)
    exact ⟨_, _, by rw [call, hi]; rfl⟩
  | remove key value =>
    obtain ⟨r, t', hi⟩ := h.remove_ok hr hw key value
    exact ⟨_, _, by rw [call, hi]; rfl⟩

theorem idle_table_calls_return_split :
    Start (⟨fun k => k, 2, 0⟩ : HashConfig Nat)
        (init Memory.empty : ExtendibleHashTable (Memory (HashTablePage Nat Nat))) ∧
      (init Memory.empty : ExtendibleHashTable (Memory (HashTablePage Nat Nat))).readers = 0 ∧
      (init Memory.empty : ExtendibleHashTable (Memory (HashTablePage Nat Nat))).writer = false ∧
      ∃ r t', call Memory.pool ⟨fun k => k, 2, 0⟩ (init Memory.empty) (.insert 3 5) = .ok (r, t') ∧
        Start ⟨fun k => k, 2, 0⟩ t' :=
  ⟨.inl ⟨rfl, rfl⟩, rfl, rfl, idle_table_calls_return (.inl ⟨rfl, rfl⟩) rfl rfl _⟩

end Memory

end ExtendibleHashTable

end Bustub
