import Bustub.Buffer.FrameTable

/-!
The page ids `AllocatePage` hands out through `NewPage`.
-/

namespace Bustub

namespace History

open BufferPoolManagerInstance

variable {D : Type} [Zero D] {h : History D}

def idOf (h : History D) : Call → List Int
  | .newPage => match h.pool.newPgImp.1 with
    | some (p, _) => [p]
    | none => []
  | _ => []

def newPageIds (h : History D) : List Call → List Int
  | [] => []
  | c :: cs => h.idOf c ++ (h.call c).newPageIds cs

theorem newPageIds_append (h : History D) (cs ds : List Call) :
    h.newPageIds (cs ++ ds) = h.newPageIds cs ++ (cs.foldl call h).newPageIds ds := by
  induction cs generalizing h with
  | nil => rfl
  | cons c cs ih => simp [newPageIds, ih]

theorem nextPageId_call_of_nil {c : Call} (hc : h.idOf c = []) :
    (h.call c).pool.nextPageId = h.pool.nextPageId ∧ (h.call c).allocs = h.allocs := by
  cases c with
  | newPage =>
    rcases hnp : h.pool.newPgImp with ⟨_ | ⟨p, f⟩, s'⟩
    · obtain ⟨rfl, -⟩ := newPgImp_none hnp
      simp [call, hnp]
    · simp [idOf, hnp] at hc
  | fetchPage p =>
    rcases hf : h.pool.fetchPgImp p with ⟨_ | f, s'⟩
    · obtain ⟨rfl, -⟩ := fetchPgImp_none hf
      simp [call, hf]
    · have : s'.nextPageId = h.pool.nextPageId := by
        rcases hp : h.pool.pageTable p with _ | f'
        · obtain ⟨t, ht, rfl⟩ := fetchPgImp_miss hp hf
          exact (takeFrame_params ht).1
        · rw [fetchPgImp_hit hp] at hf; cases hf; rfl
      simp only [call, hf]
      split <;> simp [resident, this]
  | unpinPage p d =>
    rcases hu : h.pool.unpinPgImp p d with ⟨_ | _, s'⟩
    · obtain rfl := unpinPgImp_false hu
      simp [call, hu]
    · simp [call, hu, (unpinPgImp_true hu).choose_spec.2.2.2.2.2.2.2.1]
  | deletePage p =>
    rcases hd : h.pool.deletePgImp p with ⟨b, s'⟩
    rcases deletePgImp_eq hd with rfl | ⟨f, -, -, -, rfl⟩ <;> simp [call, hd]
  | flushPage p =>
    rcases flushPgImp_eq (s := h.pool) p with e | ⟨f, -, -, e⟩ <;> simp [call, e]
  | flushAllPages => exact ⟨rfl, rfl⟩

def NextId (h : History D) : Prop :=
  h.pool.nextPageId = allocId h.pool.numInstances h.pool.instanceIndex h.allocs

theorem NextId.call (hn : h.NextId) (c : Call) :
    (h.call c).NextId ∧ (h.call c).allocs = h.allocs + (h.idOf c).length ∧
      h.idOf c = (List.range' h.allocs (h.idOf c).length).map
        (allocId h.pool.numInstances h.pool.instanceIndex) := by
  unfold NextId
  rw [(params_call h c).1, (params_call h c).2]
  rcases hc : h.idOf c with _ | ⟨p, ps⟩
  · obtain ⟨e, ea⟩ := nextPageId_call_of_nil hc
    exact ⟨by rw [e, ea, hn], by simp [ea], rfl⟩
  · cases c with
    | newPage =>
      rcases hnp : h.pool.newPgImp with ⟨_ | ⟨q, f⟩, s'⟩
      · simp [idOf, hnp] at hc
      · simp only [idOf, hnp, List.cons.injEq] at hc
        obtain ⟨rfl, rfl⟩ := hc
        obtain ⟨t, ht, rfl, rfl⟩ := newPgImp_some hnp
        obtain ⟨hnext, hnum, hidx⟩ := takeFrame_params ht
        unfold History.call
        rw [hnp]
        dsimp only [resident, install]
        rw [hnext, hnum, hn]
        exact ⟨allocId_succ _ _ _, rfl, rfl⟩
    | _ => simp [idOf] at hc

theorem NextId.newPageIds (hn : h.NextId) (cs : List Call) :
    h.newPageIds cs = (List.range' h.allocs (h.newPageIds cs).length).map
      (allocId h.pool.numInstances h.pool.instanceIndex) := by
  induction cs generalizing h with
  | nil => rfl
  | cons c cs ih =>
    obtain ⟨hn', ha, hc⟩ := hn.call c
    have hrest := ih hn'
    rw [(params_call h c).1, (params_call h c).2, ha] at hrest
    have e := (List.range'_append h.allocs (h.idOf c).length ((h.call c).newPageIds cs).length 1).symm
    rw [Nat.one_mul, Nat.add_comm ((h.call c).newPageIds cs).length] at e
    rw [newPageIds, List.length_append, e, List.map_append, ← hc, ← hrest]

theorem Reachable.exists_calls (hr : h.Reachable) :
    ∃ (poolSize n idx : Nat) (disk : Int → D) (cs : List Call), 0 < n ∧ idx < n ∧
      h = cs.foldl History.call (History.start poolSize n idx disk) := by
  induction hr with
  | start poolSize n idx disk hn hidx => exact ⟨poolSize, n, idx, disk, [], hn, hidx, rfl⟩
  | call c _ _ ih =>
    obtain ⟨poolSize, n, idx, disk, cs, hn, hidx, rfl⟩ := ih
    exact ⟨poolSize, n, idx, disk, cs ++ [c], hn, hidx, by rw [List.foldl_append]; rfl⟩

end History

namespace BufferPoolManagerInstance

theorem allocId_of_lt {n idx k : Nat} (hk : idx + k * n < 2 ^ 31) :
    allocId n idx k = ((idx + k * n : Nat) : Int) := by
  have hlt : ((idx + k * n : Nat) : Int) % ((2 ^ 32 : Nat) : Int) = ((idx + k * n : Nat) : Int) :=
    Int.emod_eq_of_lt (by omega) (by omega)
  unfold allocId toInt32
  rw [Int.bmod_pos _ _ (by rw [hlt]; omega), hlt]

end BufferPoolManagerInstance

namespace History

open BufferPoolManagerInstance

variable {D : Type} [Zero D]

theorem page_ids_distinct_valid (poolSize n idx : Nat) (disk : Int → D) (hn : 0 < n)
    (hidx : idx < n) (cs : List Call) :
    let ids := (start poolSize n idx disk).newPageIds cs
    ids = (List.range ids.length).map (allocId n idx) ∧
      (idx + (ids.length - 1) * n < 2 ^ 31 → ids.Nodup ∧ ∀ p ∈ ids, 0 ≤ p ∧ p % n = idx ∧
        (init poolSize n idx disk : BufferPoolManagerInstance D).validatePageId p = true) := by
  intro ids
  have hids : ids = (List.range ids.length).map (allocId n idx) := by
    have hstart : (start poolSize n idx disk).NextId := by simp [NextId, start, init, allocId]
    simpa [ids, start, init, List.range_eq_range'] using hstart.newPageIds cs
  refine ⟨hids, fun hb => ?_⟩
  have hk : ∀ k ∈ List.range ids.length, idx + k * n < 2 ^ 31 := fun k hk => by
    have := Nat.mul_le_mul_right n (Nat.le_sub_one_of_lt (List.mem_range.1 hk))
    omega
  rw [hids]
  refine ⟨(List.nodup_range _).map_on fun k hk' l hl e =>
    allocId_inj hn (by have := hk k hk'; omega) (by have := hk l hl; omega) e, fun p hp => ?_⟩
  obtain ⟨k, hk', rfl⟩ := List.mem_map.1 hp
  have hmod : (idx + k * n) % n = idx := by simp [Nat.mod_eq_of_lt hidx]
  have hsmall : ((idx + k * n : Nat) : Int) % 2 ^ 32 = ((idx + k * n : Nat) : Int) :=
    Int.emod_eq_of_lt (by omega) (by have := hk k hk'; omega)
  rw [allocId_of_lt (hk k hk')]
  refine ⟨by omega, by exact_mod_cast hmod, ?_⟩
  simp only [validatePageId, hsmall, Int.toNat_ofNat]
  simp [init, hmod]

theorem page_ids_distinct_valid_three :
    0 < 3 ∧ 1 < 3 ∧
      let ids := (start 2 3 1 fun _ => (0 : Nat)).newPageIds [.newPage, .fetchPage 1, .newPage]
      ids = (List.range ids.length).map (allocId 3 1) ∧
        (1 + (ids.length - 1) * 3 < 2 ^ 31 → ids.Nodup ∧ ∀ p ∈ ids, 0 ≤ p ∧ p % 3 = 1 ∧
          (init 2 3 1 fun _ => (0 : Nat)).validatePageId p = true) :=
  ⟨by decide, by decide, page_ids_distinct_valid 2 3 1 _ (by decide) (by decide) _⟩

theorem page_ids_wrap : ∃ (poolSize n idx : Nat) (disk : Int → Nat) (cs : List Call), 0 < n ∧
    idx < n ∧ ∃ p ∈ (start poolSize n idx disk).newPageIds cs, p < 0 := by
  obtain ⟨h₀, hr₀, hs₀, -⟩ := spinning_start
  obtain ⟨h, hr, e⟩ := hr₀.iterate_spin (2 ^ 31 - 2)
  have hs := (hs₀.iterate_spin (2 ^ 31 - 2)).1
  rw [← e] at hs
  obtain ⟨poolSize, n, idx, disk, cs, hn, hidx, rfl⟩ := hr.exists_calls
  refine ⟨poolSize, n, idx, disk, cs ++ [.newPage], hn, hidx,
    (cs.foldl History.call (start poolSize n idx disk)).pool.nextPageId, ?_, by rw [hs.next]; decide⟩
  rw [newPageIds_append]
  simp [newPageIds, idOf, hs.newPgImp_fst]

end History

end Bustub
