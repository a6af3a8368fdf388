import Bustub.Buffer.BufferPoolManagerInstance

/-!
A pool that recycles one frame until the `int32_t` page-id counter wraps.
-/

namespace Bustub

namespace BufferPoolManagerInstance

variable {D : Type} [Zero D]

structure Spinning (v : Nat) (c : Int) (a : Nat) (s : BufferPoolManagerInstance D) : Prop where
  numInstances : s.numInstances = 1
  next : s.nextPageId = toInt32 (c + 1)
  victim : s.pages v = ⟨c, 0, false, 0⟩
  table : s.pageTable c = some v
  freeList : s.freeList = []
  lruList : s.replacer.lruList = [(a, v)]
  lruHash : ∀ f, s.replacer.lruHash f = if f = v then some a else none
  maxSize : 0 < s.replacer.maxSize
  nextNode : s.replacer.nextNode = a + 1

def spin (s : BufferPoolManagerInstance D) : BufferPoolManagerInstance D :=
  (s.newPgImp.2.unpinPgImp s.nextPageId false).2

variable {v : Nat} {c : Int} {a : Nat} {s : BufferPoolManagerInstance D}

theorem Spinning.takeFrame_eq (hs : Spinning v c a s) :
    s.takeFrame = some (v, { s with
      replacer := { s.replacer with lruHash := Function.update s.replacer.lruHash v none,
                                    lruList := [] },
      pageTable := Function.update s.pageTable c none }) := by
  simp [takeFrame, hs.freeList, LruReplacer.victim, hs.lruList, hs.victim, writeBack]

theorem Spinning.newPgImp_fst (hs : Spinning v c a s) : s.newPgImp.1 = some (s.nextPageId, v) := by
  simp [BufferPoolManagerInstance.newPgImp, hs.takeFrame_eq, allocatePage]

theorem Spinning.spin_eq (hs : Spinning v c a s) :
    s.spin = { s with
      nextPageId := toInt32 (s.nextPageId + 1),
      pages := Function.update s.pages v ⟨s.nextPageId, 0, false, 0⟩,
      pageTable := Function.update (Function.update s.pageTable c none) s.nextPageId (some v),
      replacer := ⟨s.replacer.maxSize, [(a + 1, v)], Function.update s.replacer.lruHash v (some (a + 1)),
        a + 2⟩ } := by
  have hpin : ∀ r : LruReplacer, r.lruHash v = none → r.pin v = r := fun r h => by
    simp [LruReplacer.pin, h]
  simp [spin, BufferPoolManagerInstance.newPgImp, takeFrame, hs.freeList, LruReplacer.victim,
    hs.lruList, hs.victim, writeBack, allocatePage, hs.numInstances, install, hpin, unpinPgImp,
    LruReplacer.unpin, hs.nextNode, Nat.pos_iff_ne_zero.1 hs.maxSize]

theorem Spinning.succ (hs : Spinning v (toInt32 c) a s) :
    Spinning v (toInt32 (c + 1)) (a + 1) s.spin := by
  rw [hs.spin_eq, hs.next]
  refine ⟨hs.numInstances, by simp [Int.add_assoc], by simp, by simp [Function.update_apply],
    hs.freeList, rfl, fun f => ?_, hs.maxSize, rfl⟩
  by_cases hf : f = v
  · subst hf; simp
  · simp [Function.update_noteq hf, hs.lruHash, hf]

theorem Spinning.iterate_spin (hs : Spinning v (toInt32 c) a s) (k : Nat) :
    Spinning v (toInt32 (c + k)) (a + k) (spin^[k] s) ∧ (spin^[k] s).poolSize = s.poolSize ∧
      (spin^[k] s).instanceIndex = s.instanceIndex ∧ (spin^[k] s).disk = s.disk ∧
      (∀ g ≠ v, (spin^[k] s).pages g = s.pages g) ∧
      ((∀ q ≠ toInt32 c, s.pageTable q = none) →
        ∀ q ≠ toInt32 (c + k), (spin^[k] s).pageTable q = none) := by
  induction k with
  | zero => simpa using hs
  | succ k ih =>
    obtain ⟨hk, hp, hi, hd, hg, hal⟩ := ih
    rw [Function.iterate_succ_apply']
    refine ⟨by simpa [Int.add_assoc, Nat.add_assoc] using hk.succ, ?_⟩
    rw [hk.spin_eq, hk.next]
    refine ⟨hp, hi, hd, fun g hgv => by simp [Function.update_noteq hgv, hg g hgv], fun h q hq => ?_⟩
    have hq' : q ≠ toInt32 (toInt32 (c + k) + 1) := by simpa [Int.add_assoc] using hq
    simp only [Function.update_noteq hq']
    by_cases hqk : q = toInt32 (c + k)
    · subst hqk; simp
    · rw [Function.update_noteq hqk]; exact hal h q hqk

end BufferPoolManagerInstance

end Bustub
