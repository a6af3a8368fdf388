import Mathlib.Data.List.Nodup

/-!
The bucket page, whose class is not in this repository: modelled from the spec by the pairs in
its readable slots.
-/

namespace Bustub

structure HashTableBucketPage (K V : Type) where
  array : List (K × V)

namespace HashTableBucketPage

variable {K V : Type}

def empty : HashTableBucketPage K V := ⟨[]⟩

def numReadable (b : HashTableBucketPage K V) : Nat := b.array.length

def isFull (b : HashTableBucketPage K V) (bucketArraySize : Nat) : Bool :=
  bucketArraySize ≤ b.numReadable

def isEmpty (b : HashTableBucketPage K V) : Bool := b.numReadable = 0

def getValue [DecidableEq K] (b : HashTableBucketPage K V) (key : K) : Bool × List V :=
  let result := (b.array.filter fun e => e.1 = key).map (·.2)
  (!result.isEmpty, result)

def insert [DecidableEq K] [DecidableEq V] (b : HashTableBucketPage K V) (bucketArraySize : Nat)
    (key : K) (value : V) : Bool × HashTableBucketPage K V :=
  if (key, value) ∈ b.array ∨ b.isFull bucketArraySize then (false, b)
  else (true, ⟨b.array ++ [(key, value)]⟩)

def remove [DecidableEq K] [DecidableEq V] (b : HashTableBucketPage K V) (key : K) (value : V) :
    Bool × HashTableBucketPage K V :=
  if (key, value) ∈ b.array then (true, ⟨b.array.erase (key, value)⟩) else (false, b)

def getArrayCopy (b : HashTableBucketPage K V) : List (K × V) := b.array

def reset (_ : HashTableBucketPage K V) : HashTableBucketPage K V := empty

section Spec

variable (b : HashTableBucketPage K V) (n : Nat) (key : K) (value : V) {e : K × V}

@[simp] theorem empty_array : (empty : HashTableBucketPage K V).array = [] := rfl

theorem isEmpty_iff : b.isEmpty = true ↔ b.array = [] := by
  simp [isEmpty, numReadable]

theorem isFull_iff : b.isFull n = true ↔ n ≤ b.array.length := by
  simp [isFull, numReadable]

variable [DecidableEq K]

theorem getValue_fst : (b.getValue key).1 = true ↔ ∃ v, (key, v) ∈ b.array := by
  simp [getValue, List.filter_eq_nil_iff]

theorem mem_getValue : value ∈ (b.getValue key).2 ↔ (key, value) ∈ b.array := by
  simp [getValue]

variable [DecidableEq V]

theorem insert_fst :
    (b.insert n key value).1 = true ↔ (key, value) ∉ b.array ∧ b.array.length < n := by
  unfold insert isFull numReadable
  by_cases hm : (key, value) ∈ b.array <;> by_cases hl : n ≤ b.array.length <;> simp [hm, hl]
  omega

theorem mem_insert : e ∈ (b.insert n key value).2.array ↔
    e ∈ b.array ∨ (b.insert n key value).1 = true ∧ e = (key, value) := by
  unfold insert
  split <;> simp

theorem length_insert_le (h : b.array.length ≤ n) : (b.insert n key value).2.array.length ≤ n := by
  unfold insert isFull numReadable
  split
  · exact h
  · simp only [decide_eq_true_eq, not_or, not_le] at *
    simp only [List.length_append, List.length_singleton]
    omega

theorem nodup_insert (h : b.array.Nodup) : (b.insert n key value).2.array.Nodup := by
  unfold insert
  split
  · exact h
  · rename_i hm
    exact h.append (List.nodup_singleton _) fun x hx hy => by
      simp only [List.mem_singleton] at hy; subst hy; exact hm (.inl hx)

theorem remove_fst : (b.remove key value).1 = true ↔ (key, value) ∈ b.array := by
  unfold remove; split <;> simp_all

theorem mem_remove (h : b.array.Nodup) :
    e ∈ (b.remove key value).2.array ↔ e ∈ b.array ∧ e ≠ (key, value) := by
  unfold remove
  split
  · exact h.mem_erase_iff.trans and_comm
  · rename_i hm
    exact ⟨fun he => ⟨he, fun hk => hm (hk ▸ he)⟩, And.left⟩

theorem sublist_remove : (b.remove key value).2.array.Sublist b.array := by
  unfold remove; split
  · exact List.erase_sublist _ _
  · exact List.Sublist.refl _

end Spec

end HashTableBucketPage

end Bustub
