import Mathlib.Logic.Function.Basic
import Mathlib.Data.Nat.Bitwise

/-!
The directory page, whose class is not in this repository: modelled from the spec, with
unbounded arrays.
-/

namespace Bustub

structure HashTableDirectoryPage where
  pageId : Int
  globalDepth : Nat
  bucketPageIds : Nat → Int
  localDepths : Nat → Nat

namespace HashTableDirectoryPage

def zero : HashTableDirectoryPage := ⟨0, 0, fun _ => 0, fun _ => 0⟩

def size (d : HashTableDirectoryPage) : Nat := 2 ^ d.globalDepth

def getGlobalDepthMask (d : HashTableDirectoryPage) : Nat := 2 ^ d.globalDepth - 1

def getBucketPageId (d : HashTableDirectoryPage) (i : Nat) : Int := d.bucketPageIds i

def setBucketPageId (d : HashTableDirectoryPage) (i : Nat) (p : Int) : HashTableDirectoryPage :=
  { d with bucketPageIds := Function.update d.bucketPageIds i p }

def getLocalDepth (d : HashTableDirectoryPage) (i : Nat) : Nat := d.localDepths i

def setLocalDepth (d : HashTableDirectoryPage) (i ld : Nat) : HashTableDirectoryPage :=
  { d with localDepths := Function.update d.localDepths i ld }

def incrLocalDepth (d : HashTableDirectoryPage) (i : Nat) : HashTableDirectoryPage :=
  d.setLocalDepth i (d.localDepths i + 1)

def decrLocalDepth (d : HashTableDirectoryPage) (i : Nat) : HashTableDirectoryPage :=
  d.setLocalDepth i (d.localDepths i - 1)

def getLocalDepthMask (d : HashTableDirectoryPage) (i : Nat) : Nat := 2 ^ d.localDepths i - 1

def getLocalHighBit (d : HashTableDirectoryPage) (i : Nat) : Nat := i ^^^ 2 ^ (d.localDepths i - 1)

def incrGlobalDepth (d : HashTableDirectoryPage) : HashTableDirectoryPage :=
  { d with
    globalDepth := d.globalDepth + 1
    bucketPageIds := fun i =>
      if d.size ≤ i ∧ i < 2 * d.size then d.bucketPageIds (i - d.size) else d.bucketPageIds i
    localDepths := fun i =>
      if d.size ≤ i ∧ i < 2 * d.size then d.localDepths (i - d.size) else d.localDepths i }

def names (d : HashTableDirectoryPage) (p : Int) : Prop :=
  ∃ i < 2 ^ d.globalDepth, d.bucketPageIds i = p

def decrGlobalDepth (d : HashTableDirectoryPage) : HashTableDirectoryPage :=
  { d with globalDepth := d.globalDepth - 1 }

def canShrink (d : HashTableDirectoryPage) : Bool :=
  (List.range d.size).all fun i => d.localDepths i < d.globalDepth

theorem canShrink_iff (d : HashTableDirectoryPage) :
    d.canShrink = true ↔ ∀ i < d.size, d.localDepths i < d.globalDepth := by
  simp [canShrink]

theorem globalDepth_pos_of_canShrink {d : HashTableDirectoryPage} (h : d.canShrink = true) :
    0 < d.globalDepth :=
  Nat.lt_of_le_of_lt (Nat.zero_le _) ((canShrink_iff d).1 h 0 (Nat.pos_pow_of_pos _ (by decide)))

/-- `while (CanShrink()) DecrGlobalDepth();`, each turn lowering the global depth, so at most
`globalDepth` turns run. -/
def shrinkLoop : Nat → HashTableDirectoryPage → HashTableDirectoryPage
  | 0, d => d
  | n + 1, d => if d.canShrink then shrinkLoop n d.decrGlobalDepth else d

def shrink (d : HashTableDirectoryPage) : HashTableDirectoryPage := shrinkLoop d.globalDepth d

section Fields

variable (d : HashTableDirectoryPage) (i j ld : Nat) (p : Int)

@[simp] theorem size_eq : d.size = 2 ^ d.globalDepth := rfl
@[simp] theorem getBucketPageId_eq : d.getBucketPageId i = d.bucketPageIds i := rfl
@[simp] theorem getLocalDepth_eq : d.getLocalDepth i = d.localDepths i := rfl
@[simp] theorem getGlobalDepthMask_eq : d.getGlobalDepthMask = 2 ^ d.globalDepth - 1 := rfl
@[simp] theorem getLocalDepthMask_eq : d.getLocalDepthMask i = 2 ^ d.localDepths i - 1 := rfl

@[simp] theorem setBucketPageId_globalDepth : (d.setBucketPageId i p).globalDepth = d.globalDepth :=
  rfl
@[simp] theorem setBucketPageId_localDepths : (d.setBucketPageId i p).localDepths = d.localDepths :=
  rfl
@[simp] theorem setBucketPageId_pageId : (d.setBucketPageId i p).pageId = d.pageId := rfl
@[simp] theorem setBucketPageId_bucketPageIds :
    (d.setBucketPageId i p).bucketPageIds = Function.update d.bucketPageIds i p := rfl
@[simp] theorem setLocalDepth_globalDepth : (d.setLocalDepth i ld).globalDepth = d.globalDepth := rfl
@[simp] theorem setLocalDepth_bucketPageIds :
    (d.setLocalDepth i ld).bucketPageIds = d.bucketPageIds := rfl
@[simp] theorem setLocalDepth_pageId : (d.setLocalDepth i ld).pageId = d.pageId := rfl
@[simp] theorem setLocalDepth_localDepths :
    (d.setLocalDepth i ld).localDepths = Function.update d.localDepths i ld := rfl
@[simp] theorem decrGlobalDepth_globalDepth : d.decrGlobalDepth.globalDepth = d.globalDepth - 1 :=
  rfl
@[simp] theorem decrGlobalDepth_bucketPageIds : d.decrGlobalDepth.bucketPageIds = d.bucketPageIds :=
  rfl
@[simp] theorem decrGlobalDepth_localDepths : d.decrGlobalDepth.localDepths = d.localDepths := rfl
@[simp] theorem decrGlobalDepth_pageId : d.decrGlobalDepth.pageId = d.pageId := rfl
@[simp] theorem incrGlobalDepth_globalDepth : d.incrGlobalDepth.globalDepth = d.globalDepth + 1 :=
  rfl
@[simp] theorem incrGlobalDepth_pageId : d.incrGlobalDepth.pageId = d.pageId := rfl

end Fields

section Doubling

variable (d : HashTableDirectoryPage) {i : Nat}

theorem incrGlobalDepth_bucketPageIds (hi : i < 2 ^ (d.globalDepth + 1)) :
    d.incrGlobalDepth.bucketPageIds i = d.bucketPageIds (i % 2 ^ d.globalDepth) := by
  have h2 : 2 ^ (d.globalDepth + 1) = 2 * 2 ^ d.globalDepth := by rw [Nat.pow_succ]; omega
  simp only [incrGlobalDepth, size]
  split
  · rw [Nat.mod_eq_sub_mod (by omega), Nat.mod_eq_of_lt (by omega)]
  · rw [Nat.mod_eq_of_lt (by omega)]

theorem incrGlobalDepth_localDepths (hi : i < 2 ^ (d.globalDepth + 1)) :
    d.incrGlobalDepth.localDepths i = d.localDepths (i % 2 ^ d.globalDepth) := by
  have h2 : 2 ^ (d.globalDepth + 1) = 2 * 2 ^ d.globalDepth := by rw [Nat.pow_succ]; omega
  simp only [incrGlobalDepth, size]
  split
  · rw [Nat.mod_eq_sub_mod (by omega), Nat.mod_eq_of_lt (by omega)]
  · rw [Nat.mod_eq_of_lt (by omega)]

theorem names_incrGlobalDepth {p : Int} : d.incrGlobalDepth.names p ↔ d.names p := by
  have hlt : ∀ i, i % 2 ^ d.globalDepth < 2 ^ d.globalDepth := fun i =>
    Nat.mod_lt _ (Nat.pos_pow_of_pos _ (by decide))
  constructor
  · rintro ⟨i, hi, rfl⟩
    exact ⟨_, hlt i, (d.incrGlobalDepth_bucketPageIds hi).symm⟩
  · rintro ⟨i, hi, rfl⟩
    have hi' : i < 2 ^ (d.globalDepth + 1) :=
      Nat.lt_of_lt_of_le hi (Nat.pow_le_pow_right (by decide) (Nat.le_succ _))
    exact ⟨i, hi', by rw [d.incrGlobalDepth_bucketPageIds hi', Nat.mod_eq_of_lt hi]⟩

end Doubling

theorem shrink_eq (d : HashTableDirectoryPage) :
    d.shrink = if d.canShrink then d.decrGlobalDepth.shrink else d := by
  unfold shrink
  rcases h : d.globalDepth with _ | n
  · have hc : d.canShrink = false := by
      cases hc : d.canShrink
      · rfl
      · have := globalDepth_pos_of_canShrink hc; omega
    simp [shrinkLoop, hc]
  · simp [shrinkLoop, decrGlobalDepth, h]

theorem shrink_spec (d : HashTableDirectoryPage) :
    d.shrink.canShrink = false ∧ d.shrink.globalDepth ≤ d.globalDepth ∧
      d.shrink.pageId = d.pageId ∧ d.shrink.bucketPageIds = d.bucketPageIds ∧
      d.shrink.localDepths = d.localDepths ∧
      ∀ g, d.shrink.globalDepth < g → g ≤ d.globalDepth →
        ∀ i < 2 ^ g, d.localDepths i < g := by
  generalize h : d.globalDepth = n
  induction n using Nat.strong_induction_on generalizing d with
  | _ n ih =>
    rw [shrink_eq]
    split
    · rename_i hc
      have hpos := globalDepth_pos_of_canShrink hc
      obtain ⟨h1, h2, h3, h4, h5, h6⟩ := ih (n - 1) (by omega) d.decrGlobalDepth (by simp [h])
      simp only [decrGlobalDepth_pageId, decrGlobalDepth_bucketPageIds,
        decrGlobalDepth_localDepths] at h3 h4 h5 h6
      refine ⟨h1, by omega, h3, h4, h5, fun g hg hgn i hi => ?_⟩
      by_cases hgd : g = n
      · subst hgd; rw [← h]; exact (canShrink_iff d).1 hc i (by rw [size_eq, h]; exact hi)
      · exact h6 g hg (by omega) i hi
    · rename_i hc
      exact ⟨by simpa using hc, by omega, rfl, rfl, rfl, fun g hg hgn => by omega⟩

section Bits

variable {i j k : Nat}

theorem xor_two_pow_mod (i k : Nat) : (i ^^^ 2 ^ k) % 2 ^ k = i % 2 ^ k := by
  apply Nat.eq_of_testBit_eq
  intro m
  simp only [Nat.testBit_mod_two_pow, Nat.testBit_xor, Nat.testBit_two_pow]
  by_cases hm : m < k
  · simp [hm, show k ≠ m by omega]
  · simp [hm]

theorem xor_two_pow_mod_succ_ne (i k : Nat) : (i ^^^ 2 ^ k) % 2 ^ (k + 1) ≠ i % 2 ^ (k + 1) := by
  intro h
  have := congrArg (Nat.testBit · k) h
  simp at this

theorem mod_succ_cases (h : j % 2 ^ k = i % 2 ^ k) :
    j % 2 ^ (k + 1) = i % 2 ^ (k + 1) ∨ j % 2 ^ (k + 1) = (i ^^^ 2 ^ k) % 2 ^ (k + 1) := by
  have hb : ∀ m < k, j.testBit m = i.testBit m := fun m hm => by
    simpa [hm] using congrArg (Nat.testBit · m) h
  by_cases hk : j.testBit k = i.testBit k
  · refine .inl (Nat.eq_of_testBit_eq fun m => ?_)
    simp only [Nat.testBit_mod_two_pow]
    rcases Nat.lt_trichotomy m k with hm | rfl | hm
    · rw [hb m hm]
    · rw [hk]
    · simp [show ¬ m < k + 1 by omega]
  · refine .inr (Nat.eq_of_testBit_eq fun m => ?_)
    simp only [Nat.testBit_mod_two_pow, Nat.testBit_xor, Nat.testBit_two_pow]
    rcases Nat.lt_trichotomy m k with hm | rfl | hm
    · simp [hb m hm, show k ≠ m by omega]
    · cases hj : j.testBit m <;> cases hi : i.testBit m <;> simp_all
    · simp [show ¬ m < k + 1 by omega]

theorem mod_of_mod_succ (h : j % 2 ^ (k + 1) = i % 2 ^ (k + 1)) : j % 2 ^ k = i % 2 ^ k := by
  rw [← Nat.mod_mod_of_dvd j (Nat.pow_dvd_pow 2 (Nat.le_succ k)), h,
    Nat.mod_mod_of_dvd i (Nat.pow_dvd_pow 2 (Nat.le_succ k))]

theorem mod_iff_mod_succ : j % 2 ^ k = i % 2 ^ k ↔
    j % 2 ^ (k + 1) = i % 2 ^ (k + 1) ∨ j % 2 ^ (k + 1) = (i ^^^ 2 ^ k) % 2 ^ (k + 1) := by
  refine ⟨mod_succ_cases, ?_⟩
  rintro (e | e)
  · exact mod_of_mod_succ e
  · rw [← xor_two_pow_mod i k]; exact mod_of_mod_succ e

end Bits

end HashTableDirectoryPage

end Bustub
