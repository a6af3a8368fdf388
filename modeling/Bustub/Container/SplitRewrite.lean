import Bustub.Container.ExtendibleHashTable
import Mathlib.Data.List.Sort

/-!
The directory rewrite of `SplitInsert` as its loops run it.
-/

namespace Bustub

namespace ExtendibleHashTable

/-- The slots `for (uint32_t i = start; i >= 0; i -= diff) { ...; if (i < diff) break; }` visits
with `diff = 1 << depth`, one turn at a time; the guard stops it before `i - diff` would wrap. -/
def loopDown (depth start : Nat) : List Nat :=
  if start < 2 ^ depth then [start] else start :: loopDown depth (start - 2 ^ depth)
termination_by start
decreasing_by have := Nat.two_pow_pos depth; omega

def loopUp (depth size start : Nat) : List Nat :=
  if start < size then start :: loopUp depth size (start + 2 ^ depth) else []
termination_by size - start
decreasing_by have := Nat.two_pow_pos depth; omega

theorem mem_loopDown {depth start j : Nat} :
    j ∈ loopDown depth start ↔ j ≤ start ∧ (start - j) % 2 ^ depth = 0 := by
  induction start using Nat.strong_induction_on with
  | _ start ih =>
    rw [loopDown]
    split
    · rw [List.mem_singleton]
      refine ⟨by rintro rfl; simp, fun ⟨hle, hm⟩ => ?_⟩
      rw [Nat.mod_eq_of_lt (by omega)] at hm
      omega
    · rename_i h
      have e : ∀ j ≤ start - 2 ^ depth, start - j = (start - 2 ^ depth - j) + 2 ^ depth :=
        fun j hj => by generalize 2 ^ depth = m at h hj ⊢; omega
      rw [List.mem_cons, ih _ (by have := Nat.two_pow_pos depth; omega)]
      constructor
      · rintro (rfl | ⟨hle, hm⟩)
        · simp
        · exact ⟨by omega, by rw [e j hle, Nat.add_mod_right, hm]⟩
      · rintro ⟨hle, hm⟩
        by_cases hj : start - j < 2 ^ depth
        · rw [Nat.mod_eq_of_lt hj] at hm
          exact .inl (by omega)
        · exact .inr ⟨by omega, by rwa [e j (by omega), Nat.add_mod_right] at hm⟩

theorem mem_loopUp {depth size start j : Nat} :
    j ∈ loopUp depth size start ↔ j < size ∧ start ≤ j ∧ (j - start) % 2 ^ depth = 0 := by
  obtain ⟨d, hd⟩ : ∃ d, size - start = d := ⟨_, rfl⟩
  induction d using Nat.strong_induction_on generalizing start with
  | _ d ih =>
    rw [loopUp]
    split
    · rename_i h
      have e : ∀ j, start + 2 ^ depth ≤ j → j - start = (j - (start + 2 ^ depth)) + 2 ^ depth :=
        fun j hj => by generalize 2 ^ depth = m at hj ⊢; omega
      rw [List.mem_cons, ih _ (by have := Nat.two_pow_pos depth; omega) rfl]
      constructor
      · rintro (rfl | ⟨hj, hle, hm⟩)
        · simp [h]
        · exact ⟨hj, by omega, by rw [e j hle, Nat.add_mod_right, hm]⟩
      · rintro ⟨hj, hle, hm⟩
        by_cases hlt : j - start < 2 ^ depth
        · rw [Nat.mod_eq_of_lt hlt] at hm
          exact .inl (by omega)
        · exact .inr ⟨hj, by omega, by rwa [e j (by omega), Nat.add_mod_right] at hm⟩
    · simp only [List.not_mem_nil, false_iff, not_and]
      omega

theorem loopDown_sorted (depth start : Nat) : (loopDown depth start).Sorted (· > ·) := by
  induction start using Nat.strong_induction_on with
  | _ start ih =>
    rw [loopDown]
    split
    · exact List.sorted_singleton _
    · have := Nat.two_pow_pos depth
      refine List.sorted_cons.2 ⟨fun j hj => ?_, ih _ (by omega)⟩
      have := (mem_loopDown.1 hj).1
      omega

theorem loopUp_sorted (depth size start : Nat) : (loopUp depth size start).Sorted (· < ·) := by
  obtain ⟨d, hd⟩ : ∃ d, size - start = d := ⟨_, rfl⟩
  induction d using Nat.strong_induction_on generalizing start with
  | _ d ih =>
    rw [loopUp]
    split
    · have := Nat.two_pow_pos depth
      refine List.sorted_cons.2 ⟨fun j hj => ?_, ih _ (by omega) (start + 2 ^ depth) rfl⟩
      have := (mem_loopUp.1 hj).2.1
      omega
    · exact List.sorted_nil

theorem loopDown_eq (depth start : Nat) : loopDown depth start = slotsDown start (2 ^ depth) := by
  have hs : (slotsDown start (2 ^ depth)).Sorted (· > ·) :=
    List.pairwise_reverse.2 ((List.pairwise_lt_range _).filter _)
  refine List.eq_of_perm_of_sorted ((List.perm_ext_iff_of_nodup (loopDown_sorted _ _).nodup
    hs.nodup).2 fun j => ?_) (loopDown_sorted _ _) hs
  rw [mem_loopDown, mem_slotsDown]

theorem loopUp_eq (depth size start : Nat) :
    loopUp depth size start = slotsUp start (2 ^ depth) size := by
  have hs : (slotsUp start (2 ^ depth) size).Sorted (· < ·) := (List.pairwise_lt_range _).filter _
  refine List.eq_of_perm_of_sorted ((List.perm_ext_iff_of_nodup (loopUp_sorted _ _ _).nodup
    hs.nodup).2 fun j => ?_) (loopUp_sorted _ _ _) hs
  rw [mem_loopUp, mem_slotsUp]

theorem pointSlots_of_not_mem (d : HashTableDirectoryPage) {slots : List Nat} (pageId : Int)
    (src : Nat) {j : Nat} (hj : j ∉ slots) :
    (pointSlots d slots pageId src).bucketPageIds j = d.bucketPageIds j ∧
      (pointSlots d slots pageId src).localDepths j = d.localDepths j := by
  simpa [hj] using pointSlots_apply d slots pageId src j

theorem splitSlots_apply_of_ge (d : HashTableDirectoryPage) {i L : Nat}
    (hL : d.localDepths i = L + 1) (hi : i < 2 ^ d.globalDepth) (hg : L + 1 ≤ d.globalDepth)
    (splitId imageId : Int) {j : Nat} (hj : 2 ^ d.globalDepth ≤ j) :
    (splitSlots d i splitId imageId).bucketPageIds j = d.bucketPageIds j ∧
      (splitSlots d i splitId imageId).localDepths j = d.localDepths j := by
  have himg : d.getLocalHighBit i = i ^^^ 2 ^ L := by
    simp [HashTableDirectoryPage.getLocalHighBit, hL]
  have hlt : i ^^^ 2 ^ L < 2 ^ d.globalDepth :=
    Nat.xor_lt_two_pow hi (Nat.pow_lt_pow_right (by decide) (by omega))
  have hdown : ∀ s < 2 ^ d.globalDepth, ∀ diff, j ∉ slotsDown s diff :=
    fun s hs diff h => by have := (mem_slotsDown.1 h).1; omega
  have hup : ∀ s diff, j ∉ slotsUp s diff (2 ^ d.globalDepth) :=
    fun s diff h => by have := (mem_slotsUp.1 h).1; omega
  have hji : j ≠ i ^^^ 2 ^ L := by omega
  unfold splitSlots
  simp only [himg, HashTableDirectoryPage.size_eq, pointSlots_globalDepth,
    HashTableDirectoryPage.setBucketPageId_globalDepth,
    HashTableDirectoryPage.setLocalDepth_globalDepth]
  rw [(pointSlots_of_not_mem _ _ _ (hup _ _)).1, (pointSlots_of_not_mem _ _ _ (hup _ _)).2,
    (pointSlots_of_not_mem _ _ _ (hdown _ hlt _)).1, (pointSlots_of_not_mem _ _ _ (hdown _ hlt _)).2,
    (pointSlots_of_not_mem _ _ _ (hup _ _)).1, (pointSlots_of_not_mem _ _ _ (hup _ _)).2,
    (pointSlots_of_not_mem _ _ _ (hdown _ hi _)).1, (pointSlots_of_not_mem _ _ _ (hdown _ hi _)).2]
  simp [Function.update_noteq hji]

theorem splitSlots_eq (d : HashTableDirectoryPage) {i L : Nat} (hL : d.localDepths i = L + 1)
    (hi : i < 2 ^ d.globalDepth) (hg : L + 1 ≤ d.globalDepth) (splitId imageId : Int) (j : Nat) :
    (splitSlots d i splitId imageId).bucketPageIds j =
        (if j < 2 ^ d.globalDepth ∧ j % 2 ^ (L + 1) = i % 2 ^ (L + 1) then splitId
        else if j < 2 ^ d.globalDepth ∧ j % 2 ^ (L + 1) = (i ^^^ 2 ^ L) % 2 ^ (L + 1) then imageId
        else d.bucketPageIds j) ∧
      (splitSlots d i splitId imageId).localDepths j =
        (if j < 2 ^ d.globalDepth ∧ (j % 2 ^ (L + 1) = i % 2 ^ (L + 1) ∨
          j % 2 ^ (L + 1) = (i ^^^ 2 ^ L) % 2 ^ (L + 1)) then L + 1 else d.localDepths j) := by
  by_cases hj : j < 2 ^ d.globalDepth
  · simp only [hj, true_and]
    exact splitSlots_apply d hL hi hg splitId imageId hj
  · simp only [hj, false_and, if_false]
    exact splitSlots_apply_of_ge d hL hi hg splitId imageId (Nat.le_of_not_lt hj)

variable {K V : Type} [DecidableEq K] [DecidableEq V] (c : HashConfig K)

theorem split_insert_rewrite (d : HashTableDirectoryPage) {s L : Nat}
    (hL : d.localDepths s = L + 1) (hs : s < 2 ^ d.globalDepth) (hg : L + 1 ≤ d.globalDepth)
    {splitId imageId : Int} (hne : splitId ≠ imageId) (es : List (K × V)) (hnd : es.Nodup)
    (hlen : es.length ≤ c.bucketArraySize) (hes : ∀ e ∈ es, c.hash e.1 % 2 ^ L = s % 2 ^ L) :
    let d' := splitSlots d s splitId imageId
    let slotPage := fun e : K × V => d'.bucketPageIds (c.hash e.1 &&& d'.getLocalDepthMask s)
    (loopDown (L + 1) s = slotsDown s (2 ^ (L + 1)) ∧
      loopUp (L + 1) (2 ^ d.globalDepth) s = slotsUp s (2 ^ (L + 1)) (2 ^ d.globalDepth) ∧
      loopDown (L + 1) (s ^^^ 2 ^ L) = slotsDown (s ^^^ 2 ^ L) (2 ^ (L + 1)) ∧
      loopUp (L + 1) (2 ^ d.globalDepth) (s ^^^ 2 ^ L) =
        slotsUp (s ^^^ 2 ^ L) (2 ^ (L + 1)) (2 ^ d.globalDepth)) ∧
    (∀ j, d'.bucketPageIds j =
        (if j < 2 ^ d.globalDepth ∧ j % 2 ^ (L + 1) = s % 2 ^ (L + 1) then splitId
        else if j < 2 ^ d.globalDepth ∧ j % 2 ^ (L + 1) = (s ^^^ 2 ^ L) % 2 ^ (L + 1) then imageId
        else d.bucketPageIds j) ∧
      d'.localDepths j =
        (if j < 2 ^ d.globalDepth ∧ (j % 2 ^ (L + 1) = s % 2 ^ (L + 1) ∨
          j % 2 ^ (L + 1) = (s ^^^ 2 ^ L) % 2 ^ (L + 1)) then L + 1 else d.localDepths j)) ∧
    (∀ e ∈ es, slotPage e =
      if c.hash e.1 % 2 ^ (L + 1) = s % 2 ^ (L + 1) then splitId else imageId) ∧
    rehash c d' (d'.getLocalDepthMask s) splitId imageId es (.empty, .empty) =
      .ok (⟨es.filter fun e => slotPage e = splitId⟩, ⟨es.filter fun e => slotPage e = imageId⟩) := by
  intro d' slotPage
  have happ := splitSlots_eq d hL hs hg splitId imageId
  have hmask : (splitSlots d s splitId imageId).getLocalDepthMask s = 2 ^ (L + 1) - 1 := by
    simp [(happ s).2, hs]
  have hslot : ∀ e ∈ es, slotPage e =
      if c.hash e.1 % 2 ^ (L + 1) = s % 2 ^ (L + 1) then splitId else imageId := fun e he => by
    have hlt : c.hash e.1 % 2 ^ (L + 1) < 2 ^ d.globalDepth :=
      Nat.lt_of_lt_of_le (Nat.mod_lt _ (Nat.two_pow_pos _)) (Nat.pow_le_pow_right (by decide) hg)
    simp only [slotPage, d', hmask, Nat.and_pow_two_sub_one_eq_mod, (happ _).1, hlt, true_and,
      Nat.mod_mod]
    rcases HashTableDirectoryPage.mod_succ_cases (hes e he) with e' | e'
    · simp [e']
    · simp [e', HashTableDirectoryPage.xor_two_pow_mod_succ_ne]
  refine ⟨⟨loopDown_eq _ _, loopUp_eq _ _ _, loopDown_eq _ _, loopUp_eq _ _ _⟩, happ, hslot, ?_⟩
  have htarget : ∀ e ∈ es, d'.bucketPageIds (c.hash e.1 &&& d'.getLocalDepthMask s) = splitId ∨
      d'.bucketPageIds (c.hash e.1 &&& d'.getLocalDepthMask s) = imageId := fun e he => by
    rw [show d'.bucketPageIds _ = slotPage e from rfl, hslot e he]
    split <;> simp
  have hfilter : es.filter (fun e => d'.bucketPageIds (c.hash e.1 &&& d'.getLocalDepthMask s) ≠
      splitId) = es.filter fun e => d'.bucketPageIds (c.hash e.1 &&& d'.getLocalDepthMask s) =
      imageId := List.filter_congr fun e he => by
    rcases htarget e he with h | h <;> simp only [h, ne_eq, hne, Ne.symm hne, not_true,
      not_false_eq_true, decide_True, decide_False]
  rw [rehash_eq c d' _ hne es .empty .empty htarget hnd (by simp [HashTableBucketPage.empty])
    (by simp [HashTableBucketPage.empty]) (by simpa [HashTableBucketPage.empty] using hlen)
    (by simpa [HashTableBucketPage.empty] using hlen), hfilter]
  rfl

theorem split_insert_rewrite_zero :
    let c : HashConfig Nat := ⟨fun k => k, 1, 2⟩
    let d : HashTableDirectoryPage :=
      { HashTableDirectoryPage.zero with globalDepth := 1, localDepths := fun _ => 1 }
    let es : List (Nat × Nat) := [(0, 5), (1, 6)]
    d.localDepths 0 = 0 + 1 ∧ 0 < 2 ^ d.globalDepth ∧ 0 + 1 ≤ d.globalDepth ∧ (1 : Int) ≠ 2 ∧
      es.Nodup ∧ es.length ≤ c.bucketArraySize ∧ (∀ e ∈ es, c.hash e.1 % 2 ^ 0 = 0 % 2 ^ 0) ∧
      let d' := splitSlots d 0 1 2
      let slotPage := fun e : Nat × Nat => d'.bucketPageIds (c.hash e.1 &&& d'.getLocalDepthMask 0)
      (loopDown (0 + 1) 0 = slotsDown 0 (2 ^ (0 + 1)) ∧
        loopUp (0 + 1) (2 ^ d.globalDepth) 0 = slotsUp 0 (2 ^ (0 + 1)) (2 ^ d.globalDepth) ∧
        loopDown (0 + 1) (0 ^^^ 2 ^ 0) = slotsDown (0 ^^^ 2 ^ 0) (2 ^ (0 + 1)) ∧
        loopUp (0 + 1) (2 ^ d.globalDepth) (0 ^^^ 2 ^ 0) =
          slotsUp (0 ^^^ 2 ^ 0) (2 ^ (0 + 1)) (2 ^ d.globalDepth)) ∧
      (∀ j, d'.bucketPageIds j =
          (if j < 2 ^ d.globalDepth ∧ j % 2 ^ (0 + 1) = 0 % 2 ^ (0 + 1) then 1
          else if j < 2 ^ d.globalDepth ∧ j % 2 ^ (0 + 1) = (0 ^^^ 2 ^ 0) % 2 ^ (0 + 1) then 2
          else d.bucketPageIds j) ∧
        d'.localDepths j =
          (if j < 2 ^ d.globalDepth ∧ (j % 2 ^ (0 + 1) = 0 % 2 ^ (0 + 1) ∨
            j % 2 ^ (0 + 1) = (0 ^^^ 2 ^ 0) % 2 ^ (0 + 1)) then 0 + 1 else d.localDepths j)) ∧
      (∀ e ∈ es, slotPage e = if c.hash e.1 % 2 ^ (0 + 1) = 0 % 2 ^ (0 + 1) then 1 else 2) ∧
      rehash c d' (d'.getLocalDepthMask 0) 1 2 es (.empty, .empty) =
        .ok (⟨es.filter fun e => slotPage e = 1⟩, ⟨es.filter fun e => slotPage e = 2⟩) :=
  ⟨rfl, by decide, by decide, by decide, by decide, by decide, by decide,
    split_insert_rewrite _ _ rfl (by decide) (by decide) (by decide) _ (by decide) (by decide)
      (by decide)⟩

end ExtendibleHashTable

end Bustub
