import Bustub.Container.TableInvariant

/-!
The pages a table over memory holds.
-/

namespace Bustub

namespace ExtendibleHashTable

variable {K V : Type}

def Owned (m : Memory (HashTablePage K V)) (dirId : Int) (d : HashTableDirectoryPage) : Prop :=
  ∀ p, m.pages p ≠ none → p = dirId ∨ d.names p

variable {m : Memory (HashTablePage K V)} {dirId : Int} {d : HashTableDirectoryPage}

theorem keyToPageId_names (c : HashConfig K) (key : K) (d : HashTableDirectoryPage) :
    d.names (keyToPageId c key d) :=
  ⟨_, by rw [keyToDirectoryIndex_eq]; exact Nat.mod_lt _ (Nat.two_pow_pos _),
    (HashTableDirectoryPage.getBucketPageId_eq _ _).symm⟩

theorem Owned.update (h : Owned m dirId d) {p : Int} (hp : p = dirId ∨ d.names p)
    (x : Option (HashTablePage K V)) : Owned { m with pages := Function.update m.pages p x } dirId d := by
  intro q hq
  by_cases hqp : q = p
  · exact hqp ▸ hp
  · exact h q (by simpa [Function.update_noteq hqp] using hq)

theorem Owned.merge (h : Owned m dirId d) {T : Int} {D : HashTableDirectoryPage}
    (hD : ∀ p, D.names p ↔ d.names p ∧ p ≠ T) :
    Owned ⟨Function.update (Function.update m.pages T none) dirId (some (.directory D)),
      m.nextPageId⟩ dirId D := by
  intro q hq
  by_cases hqd : q = dirId
  · exact .inl hqd
  by_cases hqT : q = T
  · subst hqT; simp [Function.update_noteq hqd] at hq
  simp only [Function.update_noteq hqd, Function.update_noteq hqT] at hq
  exact (h q hq).imp_right fun hn => (hD q).2 ⟨hn, hqT⟩

variable {c : HashConfig K}

theorem Owned.split (h : Owned m dirId d) {d₁ : HashTableDirectoryPage} {s : Nat}
    (hsp : Splittable c m d d₁ s) :
    Owned (splitPages c m dirId (splitSlots (d₁.incrLocalDepth s) s (d₁.bucketPageIds s) m.nextPageId)
      (2 ^ (d₁.localDepths s + 1) - 1) (d₁.bucketPageIds s)) dirId
      (splitSlots (d₁.incrLocalDepth s) s (d₁.bucketPageIds s) m.nextPageId) := by
  have hnames := fun p => (hsp.inv.names_split hsp.slot_lt hsp.depth_lt (p := p)
    (q := m.nextPageId)).trans (or_congr_left (hsp.names p))
  intro q hq
  by_cases hqn : q = m.nextPageId
  · exact .inr ((hnames q).2 (.inr hqn))
  by_cases hqd : q = dirId
  · exact .inl hqd
  by_cases hqP : q = d₁.bucketPageIds s
  · exact .inr ((hnames q).2 (.inl ((hsp.names q).1 ⟨s, hsp.slot_lt, hqP.symm⟩)))
  simp only [splitPages, Function.update_noteq hqn, Function.update_noteq hqd,
    Function.update_noteq hqP] at hq
  exact (h q hq).imp_right fun hn => (hnames q).2 (.inl hn)

def Tidy (c : HashConfig K) (t : ExtendibleHashTable (Memory (HashTablePage K V))) : Prop :=
  t.directoryPageId = invalidPageId ∧ t.pool = Memory.empty ∨
    ∃ d, Wf c t.pool t.directoryPageId d ∧ Owned t.pool t.directoryPageId d

variable {t t' : ExtendibleHashTable (Memory (HashTablePage K V))}

theorem Tidy.start (h : Tidy c t) : Start c t :=
  h.imp_right fun ⟨d, hw, _⟩ => ⟨d, hw⟩

theorem Tidy.fetchDirectoryPage {t₁ : ExtendibleHashTable (Memory (HashTablePage K V))}
    (h : Tidy c t) (hf : ExtendibleHashTable.fetchDirectoryPage Memory.pool t₁ = .ok t')
    (hp : t₁.pool = t.pool) (hd : t₁.directoryPageId = t.directoryPageId) :
    ∃ d, Wf c t'.pool t'.directoryPageId d ∧ Owned t'.pool t'.directoryPageId d := by
  rw [Tidy, ← hp, ← hd] at h
  rcases h with ⟨h0, hp⟩ | ⟨d, hw, ho⟩
  · obtain ⟨d, hw⟩ := Start.fetchDirectoryPage (c := c) (.inl ⟨h0, hp⟩) hf rfl rfl
    simp [ExtendibleHashTable.fetchDirectoryPage, h0, hp, Memory.empty, directory_memory,
      assertTrue, invalidPageId] at hf
    subst hf
    have hdir := hw.directory_page
    simp only [Function.update_apply, if_pos, Option.some.injEq, HashTablePage.directory.injEq] at hdir
    subst hdir
    refine ⟨_, hw, fun q hq => ?_⟩
    simp only [Function.update_apply, ne_eq] at hq
    split_ifs at hq with h1 h2
    · exact .inl h1
    · exact .inr ⟨0, by simp [HashTableDirectoryPage.zero], by simp [h2]⟩
    · exact absurd rfl hq
  · rw [hw.fetchDirectoryPage] at hf
    cases hf
    exact ⟨d, hw, ho⟩

theorem Tidy.rLocked {β : Type} {f : ExtendibleHashTable (Memory (HashTablePage K V)) → Except Halt β}
    {b : β} (h : Tidy c t)
    (hb : (rLock t >>= fun t => ExtendibleHashTable.fetchDirectoryPage Memory.pool t >>= f) =
      .ok b) :
    ∃ t₂ d, Wf c t₂.pool t₂.directoryPageId d ∧ Owned t₂.pool t₂.directoryPageId d ∧ f t₂ = .ok b := by
  obtain ⟨_, h₁, hb⟩ := bind_eq_ok.1 hb
  obtain ⟨-, rfl⟩ := rLock_eq_ok.1 h₁
  obtain ⟨t₂, h₂, hb⟩ := bind_eq_ok.1 hb
  obtain ⟨d, hw, ho⟩ := h.fetchDirectoryPage h₂ rfl rfl
  exact ⟨t₂, d, hw, ho, hb⟩

theorem merge_tidy (h : Wf c t.pool t.directoryPageId d) (ho : Owned t.pool t.directoryPageId d)
    {idx : Nat} (hm : merge Memory.pool idx t = .ok t') : Tidy c t' := by
  obtain ⟨hd, he | ⟨T, D, -, hD, hn, he⟩⟩ := merge_pool h hm
  · exact .inr ⟨d, hd ▸ he ▸ h, by rw [hd, he]; exact ho⟩
  · exact .inr ⟨D, hd ▸ hD, by rw [hd, he]; exact ho.merge hn⟩

theorem Tidy.getValue [DecidableEq K] (h : Tidy c t) {key : K} {r : Bool × List V}
    (hg : getValue Memory.pool c key t = .ok (r, t')) : Tidy c t' := by
  obtain ⟨t₂, d, hw, ho, hg⟩ := h.rLocked hg
  simp only [fetchPage_memory, unpinPage_memory, ok_bind, pure_eq_ok, Except.ok.injEq,
    Prod.mk.injEq] at hg
  obtain ⟨-, rfl⟩ := hg
  exact .inr ⟨d, hw, ho⟩

variable [DecidableEq K] [DecidableEq V]

theorem splitInsert_tidy (h : Wf c t.pool t.directoryPageId d) (ho : Owned t.pool t.directoryPageId d)
    {key : K} {r : Bool} (hs : splitInsert Memory.pool c key t = .ok (r, t')) : Tidy c t' := by
  obtain ⟨hd, ⟨-, he, -⟩ | ⟨-, d₁, s, hsp, he⟩⟩ := splitInsert_pool h hs <;> refine .inr ?_ <;>
    rw [hd, he]
  · exact ⟨d, h, ho⟩
  · exact ⟨_, h.split hsp, ho.split hsp⟩

theorem Tidy.insert (fuel : Nat) {key : K} {value : V} {r : Bool} (h : Tidy c t)
    (hi : insert Memory.pool c fuel key value t = .ok (r, t')) : Tidy c t' := by
  induction fuel generalizing t with
  | zero => simp [insert] at hi
  | succ fuel ih =>
    obtain ⟨t₂, d, hw, ho, hi⟩ := h.rLocked hi
    rw [hw.directory_eq] at hi
    simp only [fetchPage_memory, unpinPage_memory, ok_bind, bucketAt_memory,
      writeBucket_memory, pure_eq_ok] at hi
    split at hi
    · simp only [Except.ok.injEq, Prod.mk.injEq] at hi
      obtain ⟨-, rfl⟩ := hi
      exact .inr ⟨d, hw.insertBucket key value, ho.update (.inr (keyToPageId_names c key d)) _⟩
    · obtain ⟨⟨split, t₃⟩, h₃, hi⟩ := bind_eq_ok.1 hi
      have h₃' := splitInsert_tidy (t := rUnlock t₂) hw ho h₃
      split at hi
      · exact ih h₃' hi
      · simp only [pure_eq_ok, Except.ok.injEq, Prod.mk.injEq] at hi
        obtain ⟨-, rfl⟩ := hi
        exact h₃'

theorem Tidy.remove (h : Tidy c t) {key : K} {value : V} {r : Bool}
    (hr : remove Memory.pool c key value t = .ok (r, t')) : Tidy c t' := by
  obtain ⟨t₂, d, hw, ho, hr⟩ := h.rLocked hr
  rw [hw.directory_eq] at hr
  simp only [fetchPage_memory, unpinPage_memory, ok_bind, bucketAt_memory,
    writeBucket_memory] at hr
  have ho' := ho.update (.inr (keyToPageId_names c key d))
    (some (.bucket ((buckets t₂.pool (keyToPageId c key d)).remove key value).2))
  split at hr
  · obtain ⟨t₄, h₄, hr⟩ := bind_eq_ok.1 hr
    simp only [pure_eq_ok, Except.ok.injEq, Prod.mk.injEq] at hr
    obtain ⟨-, rfl⟩ := hr
    exact merge_tidy (hw.removeBucket key value) ho' h₄
  · simp only [pure_eq_ok, Except.ok.injEq, Prod.mk.injEq] at hr
    obtain ⟨-, rfl⟩ := hr
    exact .inr ⟨d, hw.removeBucket key value, ho'⟩

theorem Tidy.call (h : Tidy c t) {op : HashCall K V} {r : Bool × List V}
    (hc : call Memory.pool c t op = .ok (r, t')) : Tidy c t' := by
  cases op with
  | getValue key => exact h.getValue hc
  | insert key value =>
    obtain ⟨⟨b, t''⟩, hi, he⟩ := map_eq_ok.1 hc
    cases he
    exact h.insert _ hi
  | remove key value =>
    obtain ⟨⟨b, t''⟩, hi, he⟩ := map_eq_ok.1 hc
    cases he
    exact h.remove hi

theorem Reachable.tidy (ht : Reachable Memory.pool c Memory.empty t) : Tidy c t := by
  induction ht with
  | init => exact .inl ⟨rfl, rfl⟩
  | step op _ hc ih => exact ih.call hc

theorem reachable_pages_named (ht : Reachable Memory.pool c Memory.empty t) (p : Int) :
    t.pool.pages p ≠ none ↔ ∃ d, t.pool.pages t.directoryPageId = some (.directory d) ∧
      (p = t.directoryPageId ∨ d.names p) := by
  rcases ht.tidy with ⟨-, he⟩ | ⟨d, hw, ho⟩
  · simp [he, Memory.empty]
  constructor
  · exact fun hp => ⟨d, hw.directory_page, ho p hp⟩
  · rintro ⟨d', hd', hp | hp⟩
    · simp [hp, hd']
    · rw [hw.directory_page, Option.some.injEq, HashTablePage.directory.injEq] at hd'
      exact hw.live p (hd' ▸ hp)

theorem reachable_pages_named_insert :
    ∃ t : ExtendibleHashTable (Memory (HashTablePage Nat Nat)),
      call Memory.pool ⟨fun k => k, 1, 1⟩ (init Memory.empty) (.insert 3 5) = .ok ((true, []), t) ∧
        (t.pool.pages 1 ≠ none ↔ ∃ d, t.pool.pages t.directoryPageId = some (.directory d) ∧
          (1 = t.directoryPageId ∨ d.names 1)) := by
  obtain ⟨t, hc⟩ : ∃ t, call Memory.pool (⟨fun k => k, 1, 1⟩ : HashConfig Nat)
      (init Memory.empty) (.insert 3 5) = .ok ((true, []), t) := by
    simp [call, insert, ExtendibleHashTable.fetchDirectoryPage, init, Memory.empty,
      directory_memory, assertTrue, invalidPageId, keyToPageId, keyToDirectoryIndex_eq, rLock,
      HashTableBucketPage.insert, HashTableBucketPage.isFull, HashTableBucketPage.numReadable,
      buckets, map_eq_ok, Function.update_apply, HashTableDirectoryPage.zero,
      HashTableDirectoryPage.setBucketPageId]
  exact ⟨t, hc, reachable_pages_named (.step _ .init hc) 1⟩

end ExtendibleHashTable

end Bustub
