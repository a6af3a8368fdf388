import Bustub.Container.ExtendibleHashTable

/-!
The directory invariant, and the four directory operations that keep it.
-/

namespace Bustub

namespace ExtendibleHashTable

variable {K V : Type} (c : HashConfig K)

structure DirectoryInv (d : HashTableDirectoryPage) (bucket : Int → HashTableBucketPage K V) :
    Prop where
  localDepth_le : ∀ i < 2 ^ d.globalDepth, d.localDepths i ≤ d.globalDepth
  same_iff : ∀ i < 2 ^ d.globalDepth, ∀ j < 2 ^ d.globalDepth,
    d.bucketPageIds j = d.bucketPageIds i ↔ j % 2 ^ d.localDepths i = i % 2 ^ d.localDepths i
  same_depth : ∀ i < 2 ^ d.globalDepth, ∀ j < 2 ^ d.globalDepth,
    d.bucketPageIds j = d.bucketPageIds i → d.localDepths j = d.localDepths i
  placed : ∀ i < 2 ^ d.globalDepth, ∀ e ∈ (bucket (d.bucketPageIds i)).array,
    c.hash e.1 % 2 ^ d.localDepths i = i % 2 ^ d.localDepths i
  size_le : ∀ i < 2 ^ d.globalDepth,
    (bucket (d.bucketPageIds i)).array.length ≤ c.bucketArraySize
  nodup : ∀ i < 2 ^ d.globalDepth, (bucket (d.bucketPageIds i)).array.Nodup

variable {c} {d : HashTableDirectoryPage} {B : Int → HashTableBucketPage K V}

theorem DirectoryInv.congr (h : DirectoryInv c d B) {B' : Int → HashTableBucketPage K V}
    (hB : ∀ i < 2 ^ d.globalDepth, B' (d.bucketPageIds i) = B (d.bucketPageIds i)) :
    DirectoryInv c d B' :=
  ⟨h.localDepth_le, h.same_iff, h.same_depth, fun i hi => hB i hi ▸ h.placed i hi,
    fun i hi => hB i hi ▸ h.size_le i hi, fun i hi => hB i hi ▸ h.nodup i hi⟩

theorem DirectoryInv.update (h : DirectoryInv c d B) {i : Nat} (hi : i < 2 ^ d.globalDepth)
    {b : HashTableBucketPage K V}
    (hplaced : ∀ e ∈ b.array, c.hash e.1 % 2 ^ d.localDepths i = i % 2 ^ d.localDepths i)
    (hsize : b.array.length ≤ c.bucketArraySize) (hnd : b.array.Nodup) :
    DirectoryInv c d (Function.update B (d.bucketPageIds i) b) := by
  refine ⟨h.localDepth_le, h.same_iff, h.same_depth, fun j hj => ?_, fun j hj => ?_,
    fun j hj => ?_⟩ <;> by_cases e : d.bucketPageIds j = d.bucketPageIds i
  · rw [e, Function.update_same, h.same_depth i hi j hj e, (h.same_iff i hi j hj).1 e]
    exact hplaced
  · rw [Function.update_noteq e]; exact h.placed j hj
  · rw [e, Function.update_same]; exact hsize
  · rw [Function.update_noteq e]; exact h.size_le j hj
  · rw [e, Function.update_same]; exact hnd
  · rw [Function.update_noteq e]; exact h.nodup j hj

theorem DirectoryInv.slot_of_mem (h : DirectoryInv c d B) {i : Nat} (hi : i < 2 ^ d.globalDepth)
    {e : K × V} (he : e ∈ (B (d.bucketPageIds i)).array) :
    d.bucketPageIds (c.hash e.1 % 2 ^ d.globalDepth) = d.bucketPageIds i := by
  rw [h.same_iff i hi _ (Nat.mod_lt _ (Nat.pos_pow_of_pos _ (by decide))),
    Nat.mod_mod_of_dvd _ (Nat.pow_dvd_pow 2 (h.localDepth_le i hi))]
  exact h.placed i hi e he

theorem DirectoryInv.incrGlobalDepth (h : DirectoryInv c d B) :
    DirectoryInv c d.incrGlobalDepth B := by
  have hm : ∀ i, i % 2 ^ d.globalDepth < 2 ^ d.globalDepth := fun i =>
    Nat.mod_lt _ (Nat.pos_pow_of_pos _ (by decide))
  have hmod : ∀ i j l, l ≤ d.globalDepth →
      (j % 2 ^ d.globalDepth % 2 ^ l = i % 2 ^ d.globalDepth % 2 ^ l ↔ j % 2 ^ l = i % 2 ^ l) :=
    fun i j l hl => by simp only [Nat.mod_mod_of_dvd _ (Nat.pow_dvd_pow 2 hl)]
  have hg : d.incrGlobalDepth.globalDepth = d.globalDepth + 1 := rfl
  refine ⟨fun i hi => ?_, fun i hi j hj => ?_, fun i hi j hj => ?_, fun i hi => ?_,
    fun i hi => ?_, fun i hi => ?_⟩ <;> rw [hg] at hi
  · rw [hg, d.incrGlobalDepth_localDepths hi]
    exact Nat.le_succ_of_le (h.localDepth_le _ (hm i))
  · rw [hg] at hj
    rw [d.incrGlobalDepth_bucketPageIds hi, d.incrGlobalDepth_bucketPageIds hj,
      d.incrGlobalDepth_localDepths hi, h.same_iff _ (hm i) _ (hm j),
      hmod i j _ (h.localDepth_le _ (hm i))]
  · rw [hg] at hj
    rw [d.incrGlobalDepth_bucketPageIds hi, d.incrGlobalDepth_bucketPageIds hj,
      d.incrGlobalDepth_localDepths hi, d.incrGlobalDepth_localDepths hj]
    exact h.same_depth _ (hm i) _ (hm j)
  · rw [d.incrGlobalDepth_bucketPageIds hi, d.incrGlobalDepth_localDepths hi]
    intro e he
    rw [← hmod i (c.hash e.1) _ (h.localDepth_le _ (hm i)), Nat.mod_mod_of_dvd _
      (Nat.pow_dvd_pow 2 (h.localDepth_le _ (hm i)))]
    exact h.placed _ (hm i) e he
  · rw [d.incrGlobalDepth_bucketPageIds hi]
    exact h.size_le _ (hm i)
  · rw [d.incrGlobalDepth_bucketPageIds hi]
    exact h.nodup _ (hm i)

theorem DirectoryInv.shrink (h : DirectoryInv c d B) :
    DirectoryInv c d.shrink B ∧ ∀ i < 2 ^ d.globalDepth, d.localDepths i ≤ d.shrink.globalDepth := by
  obtain ⟨-, hle, -, hids, hlds, hbelow⟩ := d.shrink_spec
  have hsmall : ∀ i < 2 ^ d.globalDepth, d.localDepths i ≤ d.shrink.globalDepth := by
    intro i hi
    by_contra hlt
    have hj : i % 2 ^ d.localDepths i < 2 ^ d.localDepths i :=
      Nat.mod_lt _ (Nat.pos_pow_of_pos _ (by decide))
    have hjg : i % 2 ^ d.localDepths i < 2 ^ d.globalDepth :=
      Nat.lt_of_lt_of_le hj (Nat.pow_le_pow_right (by decide) (h.localDepth_le i hi))
    have hsame := h.same_depth i hi _ hjg ((h.same_iff i hi _ hjg).2 (Nat.mod_mod _ _))
    have := hbelow _ (by omega) (h.localDepth_le i hi) _ hj
    omega
  have hpow : ∀ i < 2 ^ d.shrink.globalDepth, i < 2 ^ d.globalDepth := fun i hi =>
    Nat.lt_of_lt_of_le hi (Nat.pow_le_pow_right (by decide) hle)
  refine ⟨⟨fun i hi => ?_, fun i hi j hj => ?_, fun i hi j hj => ?_, fun i hi => ?_,
    fun i hi => ?_, fun i hi => ?_⟩, hsmall⟩ <;> simp only [hids, hlds]
  · exact hsmall i (hpow i hi)
  · exact h.same_iff i (hpow i hi) j (hpow j hj)
  · exact h.same_depth i (hpow i hi) j (hpow j hj)
  · exact h.placed i (hpow i hi)
  · exact h.size_le i (hpow i hi)
  · exact h.nodup i (hpow i hi)

theorem DirectoryInv.names_shrink (h : DirectoryInv c d B) {p : Int} : d.shrink.names p ↔ d.names p := by
  obtain ⟨-, hle, -, hids, -, -⟩ := d.shrink_spec
  constructor
  · rintro ⟨i, hi, rfl⟩
    exact ⟨i, Nat.lt_of_lt_of_le hi (Nat.pow_le_pow_right (by decide) hle), by rw [hids]⟩
  · rintro ⟨i, hi, rfl⟩
    have hj : i % 2 ^ d.shrink.globalDepth < 2 ^ d.shrink.globalDepth :=
      Nat.mod_lt _ (Nat.pos_pow_of_pos _ (by decide))
    refine ⟨_, hj, ?_⟩
    rw [hids, h.same_iff i hi _ (Nat.lt_of_lt_of_le hj (Nat.pow_le_pow_right (by decide) hle))]
    exact Nat.mod_mod_of_dvd _ (Nat.pow_dvd_pow 2 (h.shrink.2 i hi))

theorem splitSlots_incrLocalDepth_apply {s L : Nat} (hs : s < 2 ^ d.globalDepth)
    (hLd : d.localDepths s = L) (hL : L < d.globalDepth) (P q : Int) {j : Nat}
    (hj : j < 2 ^ d.globalDepth) :
    (splitSlots (d.incrLocalDepth s) s P q).bucketPageIds j =
        (if j % 2 ^ (L + 1) = s % 2 ^ (L + 1) then P
        else if j % 2 ^ (L + 1) = (s ^^^ 2 ^ L) % 2 ^ (L + 1) then q else d.bucketPageIds j) ∧
      (splitSlots (d.incrLocalDepth s) s P q).localDepths j =
        (if j % 2 ^ (L + 1) = s % 2 ^ (L + 1) ∨ j % 2 ^ (L + 1) = (s ^^^ 2 ^ L) % 2 ^ (L + 1)
          then L + 1 else d.localDepths j) := by
  have e := splitSlots_apply (d.incrLocalDepth s) (i := s) (L := L)
    (by simp [HashTableDirectoryPage.incrLocalDepth, hLd]) hs (show L + 1 ≤ d.globalDepth by omega)
    P q hj
  refine ⟨by simpa [HashTableDirectoryPage.incrLocalDepth] using e.1, ?_⟩
  rw [e.2]
  split
  · rfl
  · rename_i hc
    have hjs : j ≠ s := by rintro rfl; exact hc (.inl rfl)
    simp [HashTableDirectoryPage.incrLocalDepth, Function.update_noteq hjs]

@[simp] theorem splitSlots_incrLocalDepth_globalDepth (s : Nat) (P q : Int) :
    (splitSlots (d.incrLocalDepth s) s P q).globalDepth = d.globalDepth := by
  simp [splitSlots, HashTableDirectoryPage.incrLocalDepth]

@[simp] theorem splitSlots_incrLocalDepth_pageId (s : Nat) (P q : Int) :
    (splitSlots (d.incrLocalDepth s) s P q).pageId = d.pageId := by
  simp [splitSlots, HashTableDirectoryPage.incrLocalDepth]

variable (c) in
def splitBuckets (B : Int → HashTableBucketPage K V) (d' : HashTableDirectoryPage) (mask : Nat)
    (p q : Int) : Int → HashTableBucketPage K V :=
  Function.update (Function.update B p
      ⟨(B p).array.filter fun e => d'.bucketPageIds (c.hash e.1 &&& mask) = p⟩) q
    ⟨(B p).array.filter fun e => d'.bucketPageIds (c.hash e.1 &&& mask) ≠ p⟩

theorem DirectoryInv.split (h : DirectoryInv c d B) {s : Nat} (hs : s < 2 ^ d.globalDepth)
    (hL : d.localDepths s < d.globalDepth) {q : Int}
    (hq : ∀ i < 2 ^ d.globalDepth, d.bucketPageIds i ≠ q) :
    DirectoryInv c (splitSlots (d.incrLocalDepth s) s (d.bucketPageIds s) q)
      (splitBuckets c B (splitSlots (d.incrLocalDepth s) s (d.bucketPageIds s) q)
        (2 ^ (d.localDepths s + 1) - 1) (d.bucketPageIds s) q) := by
  have hclass := h.same_iff s hs
  have hPq : d.bucketPageIds s ≠ q := hq s hs
  have hplaced := h.placed s hs
  have hsize := h.size_le s hs
  have hnodup := h.nodup s hs
  have happ := fun j => splitSlots_incrLocalDepth_apply hs rfl hL (d.bucketPageIds s) q (j := j)
  have hhalf := fun j => HashTableDirectoryPage.mod_iff_mod_succ (j := j) (i := s)
    (k := d.localDepths s)
  generalize d.localDepths s = L at hL hclass hplaced happ hhalf ⊢
  generalize d.bucketPageIds s = P at hclass hPq hplaced hsize hnodup happ ⊢
  have hdisj : ∀ j, j % 2 ^ (L + 1) = s % 2 ^ (L + 1) →
      j % 2 ^ (L + 1) ≠ (s ^^^ 2 ^ L) % 2 ^ (L + 1) := fun j e e' =>
    HashTableDirectoryPage.xor_two_pow_mod_succ_ne s L (e'.symm.trans e)
  have hg' := splitSlots_incrLocalDepth_globalDepth (d := d) s P q
  generalize splitSlots (d.incrLocalDepth s) s P q = d' at happ hg' ⊢
  -- the pairs of `P`, and where they go
  have hmask : ∀ k : K, c.hash k &&& 2 ^ (L + 1) - 1 = c.hash k % 2 ^ (L + 1) :=
    fun k => Nat.and_pow_two_sub_one_eq_mod _ _
  have hgo : ∀ e ∈ (B P).array,
      (d'.bucketPageIds (c.hash e.1 % 2 ^ (L + 1)) = P ↔
        c.hash e.1 % 2 ^ (L + 1) = s % 2 ^ (L + 1)) := by
    intro e he
    have ht : c.hash e.1 % 2 ^ (L + 1) < 2 ^ d.globalDepth :=
      Nat.lt_of_lt_of_le (Nat.mod_lt _ (Nat.pos_pow_of_pos _ (by decide)))
        (Nat.pow_le_pow_right (by decide) hL)
    rw [(happ _ ht).1, Nat.mod_mod]
    have hC := (hhalf (c.hash e.1)).1 (hplaced e he)
    split
    · exact iff_of_true rfl ‹_›
    · rename_i hA
      rw [if_pos (hC.resolve_left hA)]
      exact iff_of_false hPq.symm hA
  have hsplitB : ∀ r, splitBuckets c B d' (2 ^ (L + 1) - 1) P q r =
      if r = q then ⟨(B P).array.filter fun e => c.hash e.1 % 2 ^ (L + 1) ≠ s % 2 ^ (L + 1)⟩
      else if r = P then ⟨(B P).array.filter fun e => c.hash e.1 % 2 ^ (L + 1) = s % 2 ^ (L + 1)⟩
      else B r := by
    intro r
    have hf : ∀ (p : K × V → Prop) [DecidablePred p] (p' : K × V → Prop) [DecidablePred p'],
        (∀ e ∈ (B P).array, p e ↔ p' e) → (B P).array.filter p = (B P).array.filter p' :=
      fun p _ p' _ hp => List.filter_congr fun e he => by simp [hp e he]
    unfold splitBuckets
    by_cases hrq : r = q
    · subst hrq
      simp only [Function.update_same, if_true, hmask]
      congr 1
      exact hf _ _ fun e he => not_congr (hgo e he)
    · by_cases hrP : r = P
      · subst hrP
        simp only [Function.update_noteq hrq, Function.update_same, if_false, hrq, if_true, hmask]
        congr 1
        exact hf _ _ hgo
      · simp [Function.update_noteq hrq, Function.update_noteq hrP, hrq, hrP]
  -- the three kinds of slot
  have hA : ∀ i < 2 ^ d.globalDepth, i % 2 ^ (L + 1) = s % 2 ^ (L + 1) →
      d'.bucketPageIds i = P ∧ d'.localDepths i = L + 1 := fun i hi e => by
    simp [(happ i hi).1, (happ i hi).2, e]
  have hB : ∀ i < 2 ^ d.globalDepth, i % 2 ^ (L + 1) = (s ^^^ 2 ^ L) % 2 ^ (L + 1) →
      d'.bucketPageIds i = q ∧ d'.localDepths i = L + 1 := fun i hi e => by
    rw [(happ i hi).1, (happ i hi).2, if_neg fun e' => hdisj i e' e, if_pos e, if_pos (.inr e)]
    exact ⟨rfl, rfl⟩
  have hN : ∀ i < 2 ^ d.globalDepth, i % 2 ^ L ≠ s % 2 ^ L →
      d'.bucketPageIds i = d.bucketPageIds i ∧ d'.localDepths i = d.localDepths i ∧
        d.bucketPageIds i ≠ P ∧ d.bucketPageIds i ≠ q := fun i hi e => by
    have hc := (not_congr (hhalf i)).1 e
    rw [not_or] at hc
    simp only [(happ i hi).1, (happ i hi).2, hc.1, hc.2, if_false, or_self, true_and]
    exact ⟨fun h' => e ((hclass i hi).1 h'), hq i hi⟩
  have hcases : ∀ i, i % 2 ^ (L + 1) = s % 2 ^ (L + 1) ∨
      i % 2 ^ (L + 1) = (s ^^^ 2 ^ L) % 2 ^ (L + 1) ∨ i % 2 ^ L ≠ s % 2 ^ L := fun i => by
    by_cases e : i % 2 ^ L = s % 2 ^ L
    · rcases (hhalf i).1 e with e' | e'
      · exact .inl e'
      · exact .inr (.inl e')
    · exact .inr (.inr e)
  /- Two slots name one page just when they are of one kind: the same half of the split class,
  or outside it and naming one page before. -/
  have hsame : ∀ i < 2 ^ d.globalDepth, ∀ j < 2 ^ d.globalDepth,
      (d'.bucketPageIds j = d'.bucketPageIds i ↔ j % 2 ^ d'.localDepths i = i % 2 ^ d'.localDepths i) ∧
      (d'.bucketPageIds j = d'.bucketPageIds i → d'.localDepths j = d'.localDepths i) := by
    intro i hi j hj
    rcases hcases i with ei | ei | ei <;> rcases hcases j with ej | ej | ej
    · simp [hA i hi ei, hA j hj ej, ej.trans ei.symm]
    · simp [hA i hi ei, hB j hj ej, hPq.symm, ej, ei,
        HashTableDirectoryPage.xor_two_pow_mod_succ_ne]
    · obtain ⟨h1, -, hjP, -⟩ := hN j hj ej
      rw [(hA i hi ei).1, (hA i hi ei).2, h1]
      exact ⟨iff_of_false hjP fun e => ej (HashTableDirectoryPage.mod_of_mod_succ (e.trans ei)),
        fun e => absurd e hjP⟩
    · simp only [hB i hi ei, hA j hj ej, hPq, false_iff, false_implies, and_true]
      exact fun e => hdisj j ej (e.trans ei)
    · simp [hB i hi ei, hB j hj ej, ej.trans ei.symm]
    · obtain ⟨h1, -, -, hjq⟩ := hN j hj ej
      rw [(hB i hi ei).1, (hB i hi ei).2, h1]
      refine ⟨iff_of_false hjq fun e => ej ?_, fun e => absurd e hjq⟩
      have := HashTableDirectoryPage.mod_of_mod_succ (e.trans ei)
      rwa [HashTableDirectoryPage.xor_two_pow_mod] at this
    · obtain ⟨h1, h2, hiP, -⟩ := hN i hi ei
      have hjP : d.bucketPageIds j = P := (hclass j hj).2 ((hhalf j).2 (.inl ej))
      rw [(hA j hj ej).1, h1, h2, ← h.same_iff i hi j hj, hjP]
      exact ⟨Iff.rfl, fun e => absurd e.symm hiP⟩
    · obtain ⟨h1, h2, hiP, hiq⟩ := hN i hi ei
      have hjP : d.bucketPageIds j = P := (hclass j hj).2 ((hhalf j).2 (.inr ej))
      rw [(hB j hj ej).1, h1, h2, ← h.same_iff i hi j hj, hjP]
      exact ⟨iff_of_false (fun e => hiq e.symm) (fun e => hiP e.symm), fun e => absurd e.symm hiq⟩
    · obtain ⟨hi1, hi2, -⟩ := hN i hi ei
      obtain ⟨hj1, hj2, -⟩ := hN j hj ej
      rw [hi1, hi2, hj1, hj2]
      exact ⟨h.same_iff i hi j hj, h.same_depth i hi j hj⟩
  /- Each new bucket keeps some pairs of the split page, or is the slot's old bucket. -/
  have hsub : ∀ i < 2 ^ d.globalDepth,
      (splitBuckets c B d' (2 ^ (L + 1) - 1) P q (d'.bucketPageIds i)).array.Sublist (B P).array ∨
        splitBuckets c B d' (2 ^ (L + 1) - 1) P q (d'.bucketPageIds i) = B (d.bucketPageIds i) :=
    fun i hi => by
      rcases hcases i with ei | ei | ei
      · rw [(hA i hi ei).1, hsplitB, if_neg hPq, if_pos rfl]; exact .inl (List.filter_sublist _)
      · rw [(hB i hi ei).1, hsplitB, if_pos rfl]; exact .inl (List.filter_sublist _)
      · have hi' := hN i hi ei
        rw [hi'.1, hsplitB, if_neg hi'.2.2.2, if_neg hi'.2.2.1]; exact .inr rfl
  refine ⟨fun i hi => ?_, fun i hi j hj => (hsame i (hg' ▸ hi) j (hg' ▸ hj)).1,
    fun i hi j hj => (hsame i (hg' ▸ hi) j (hg' ▸ hj)).2, fun i hi => ?_, fun i hi => ?_,
    fun i hi => ?_⟩ <;> rw [hg'] at hi
  · rw [hg']
    rcases hcases i with ei | ei | ei
    · rw [(hA i hi ei).2]; omega
    · rw [(hB i hi ei).2]; omega
    · rw [(hN i hi ei).2.1]; exact h.localDepth_le i hi
  · intro e he
    rcases hcases i with ei | ei | ei
    · rw [(hA i hi ei).1, hsplitB, if_neg hPq, if_pos rfl] at he
      rw [(hA i hi ei).2, ei]
      exact (List.mem_filter.1 he).2 |> of_decide_eq_true
    · rw [(hB i hi ei).1, hsplitB, if_pos rfl] at he
      rw [(hB i hi ei).2, ei]
      obtain ⟨he, hne⟩ := List.mem_filter.1 he
      exact (((hhalf _).1 (hplaced e he)).resolve_left (of_decide_eq_true hne))
    · have hi' := hN i hi ei
      rw [hi'.1, hsplitB, if_neg hi'.2.2.2, if_neg hi'.2.2.1] at he
      rw [hi'.2.1]
      exact h.placed i hi e he
  · rcases hsub i hi with hl | e
    · exact hl.length_le.trans hsize
    · rw [e]; exact h.size_le i hi
  · rcases hsub i hi with hl | e
    · exact hnodup.sublist hl
    · rw [e]; exact h.nodup i hi

theorem DirectoryInv.split_target (h : DirectoryInv c d B) {s : Nat} (hs : s < 2 ^ d.globalDepth)
    (hL : d.localDepths s < d.globalDepth) (q : Int) {e : K × V}
    (he : e ∈ (B (d.bucketPageIds s)).array) :
    (splitSlots (d.incrLocalDepth s) s (d.bucketPageIds s) q).bucketPageIds
        (c.hash e.1 % 2 ^ (d.localDepths s + 1)) = d.bucketPageIds s ∨
      (splitSlots (d.incrLocalDepth s) s (d.bucketPageIds s) q).bucketPageIds
        (c.hash e.1 % 2 ^ (d.localDepths s + 1)) = q := by
  have hj : c.hash e.1 % 2 ^ (d.localDepths s + 1) < 2 ^ d.globalDepth :=
    Nat.lt_of_lt_of_le (Nat.mod_lt _ (Nat.pos_pow_of_pos _ (by decide)))
      (Nat.pow_le_pow_right (by decide) hL)
  rw [(splitSlots_incrLocalDepth_apply hs rfl hL _ q hj).1, Nat.mod_mod]
  rcases HashTableDirectoryPage.mod_succ_cases (h.placed s hs e he) with e' | e'
  · exact .inl (if_pos e')
  · rw [if_neg fun e'' => HashTableDirectoryPage.xor_two_pow_mod_succ_ne s _ (e'.symm.trans e''),
      if_pos e']
    exact .inr rfl

theorem DirectoryInv.split_tight (h : DirectoryInv c d B) {s : Nat} (hs : s < 2 ^ d.globalDepth)
    (hL : d.localDepths s < d.globalDepth) (q : Int)
    (ht : (∃ i < 2 ^ d.globalDepth, d.localDepths i = d.globalDepth) ∨
      d.localDepths s + 1 = d.globalDepth) :
    ∃ i < 2 ^ d.globalDepth,
      (splitSlots (d.incrLocalDepth s) s (d.bucketPageIds s) q).localDepths i = d.globalDepth := by
  have happ := fun j => splitSlots_incrLocalDepth_apply hs rfl hL (d.bucketPageIds s) q (j := j)
  rcases ht with ⟨i, hi, hg⟩ | hg
  · refine ⟨i, hi, ?_⟩
    have hout : ¬ i % 2 ^ d.localDepths s = s % 2 ^ d.localDepths s := fun e => by
      have := h.same_depth s hs i hi ((h.same_iff s hs i hi).2 e)
      omega
    rw [HashTableDirectoryPage.mod_iff_mod_succ] at hout
    rw [(happ _ hi).2, if_neg hout, hg]
  · exact ⟨s, hs, by rw [(happ _ hs).2, if_pos (.inl rfl), hg]⟩

theorem DirectoryInv.names_split (h : DirectoryInv c d B) {s : Nat} (hs : s < 2 ^ d.globalDepth)
    (hL : d.localDepths s < d.globalDepth) {p q : Int} :
    (splitSlots (d.incrLocalDepth s) s (d.bucketPageIds s) q).names p ↔ d.names p ∨ p = q := by
  have happ := fun j => splitSlots_incrLocalDepth_apply hs rfl hL (d.bucketPageIds s) q (j := j)
  simp only [HashTableDirectoryPage.names, splitSlots_incrLocalDepth_globalDepth]
  constructor
  · rintro ⟨i, hi, rfl⟩
    rw [(happ _ hi).1]
    split
    · exact .inl ⟨s, hs, rfl⟩
    · split
      · exact .inr rfl
      · exact .inl ⟨i, hi, rfl⟩
  · rintro (⟨i, hi, rfl⟩ | rfl)
    · by_cases e : i % 2 ^ d.localDepths s = s % 2 ^ d.localDepths s
      · refine ⟨s, hs, ?_⟩
        rw [(happ _ hs).1, if_pos rfl]
        exact ((h.same_iff s hs i hi).2 e).symm
      · refine ⟨i, hi, ?_⟩
        have e' := HashTableDirectoryPage.mod_iff_mod_succ.not.1 e
        rw [not_or] at e'
        rw [(happ _ hi).1, if_neg e'.1, if_neg e'.2]
    · have himg : s ^^^ 2 ^ d.localDepths s < 2 ^ d.globalDepth :=
        Nat.xor_lt_two_pow hs (Nat.pow_lt_pow_right (by decide) hL)
      refine ⟨_, himg, ?_⟩
      rw [(happ _ himg).1, if_neg (HashTableDirectoryPage.xor_two_pow_mod_succ_ne _ _), if_pos rfl]

theorem merge_apply (h : DirectoryInv c d B) {s M : Nat} (hs : s < 2 ^ d.globalDepth)
    (hM : d.localDepths s = M + 1) (himg : d.localDepths (s ^^^ 2 ^ M) = M + 1) {j : Nat}
    (hj : j < 2 ^ d.globalDepth) :
    (mergeSlots (((d.setBucketPageId s (d.bucketPageIds (s ^^^ 2 ^ M))).decrLocalDepth s).decrLocalDepth
        (s ^^^ 2 ^ M)) s (d.bucketPageIds s) (d.bucketPageIds (s ^^^ 2 ^ M))).bucketPageIds j =
        (if j % 2 ^ M = s % 2 ^ M then d.bucketPageIds (s ^^^ 2 ^ M) else d.bucketPageIds j) ∧
      (mergeSlots (((d.setBucketPageId s (d.bucketPageIds (s ^^^ 2 ^ M))).decrLocalDepth
        s).decrLocalDepth (s ^^^ 2 ^ M)) s (d.bucketPageIds s)
          (d.bucketPageIds (s ^^^ 2 ^ M))).localDepths j =
        (if j % 2 ^ M = s % 2 ^ M then M else d.localDepths j) := by
  have himgs : s ^^^ 2 ^ M ≠ s := fun e =>
    HashTableDirectoryPage.xor_two_pow_mod_succ_ne s M (by rw [e])
  have himglt : s ^^^ 2 ^ M < 2 ^ d.globalDepth := Nat.xor_lt_two_pow hs
    (Nat.pow_lt_pow_right (by decide) (by have := h.localDepth_le s hs; omega))
  -- the slots of the target or of its image are those that agree with `s` below `M`
  have hclass : (d.bucketPageIds j = d.bucketPageIds s ∨
      d.bucketPageIds j = d.bucketPageIds (s ^^^ 2 ^ M)) ↔ j % 2 ^ M = s % 2 ^ M := by
    rw [h.same_iff s hs j hj, h.same_iff _ himglt j hj, hM, himg]
    exact HashTableDirectoryPage.mod_iff_mod_succ.symm
  obtain ⟨e1, e2⟩ := foldl_mergeSlot_apply s (d.bucketPageIds s) (d.bucketPageIds (s ^^^ 2 ^ M))
    (List.range _) (List.nodup_range _) (((d.setBucketPageId s (d.bucketPageIds (s ^^^ 2 ^ M))).decrLocalDepth
        s).decrLocalDepth (s ^^^ 2 ^ M)) j
  unfold mergeSlots
  rw [e1, e2]
  simp only [HashTableDirectoryPage.decrLocalDepth, HashTableDirectoryPage.setLocalDepth_localDepths,
    HashTableDirectoryPage.setLocalDepth_bucketPageIds, HashTableDirectoryPage.setLocalDepth_globalDepth,
    HashTableDirectoryPage.setBucketPageId_bucketPageIds, HashTableDirectoryPage.setBucketPageId_localDepths,
    HashTableDirectoryPage.setBucketPageId_globalDepth, HashTableDirectoryPage.size_eq, List.mem_range,
    hj, true_and, Function.update_noteq himgs.symm, Function.update_same, hM]
  by_cases hjs : j = s
  · subst hjs
    simp
  · have hjimg : j % 2 ^ M = s % 2 ^ M ∨ j ≠ s ^^^ 2 ^ M := by
      by_cases e : j = s ^^^ 2 ^ M
      · exact .inl (e ▸ HashTableDirectoryPage.xor_two_pow_mod s M)
      · exact .inr e
    rw [Function.update_noteq hjs]
    by_cases hc : d.bucketPageIds j = d.bucketPageIds s ∨
        d.bucketPageIds j = d.bucketPageIds (s ^^^ 2 ^ M)
    · simp [hc, hclass.1 hc]
    · have hji : j ≠ s ^^^ 2 ^ M := hjimg.resolve_left (hclass.not.1 hc)
      simp [hc, hclass.not.1 hc, Function.update_noteq hjs, Function.update_noteq hji]

theorem DirectoryInv.merge (h : DirectoryInv c d B) {s M : Nat} (hs : s < 2 ^ d.globalDepth)
    (hM : d.localDepths s = M + 1) (himg : d.localDepths (s ^^^ 2 ^ M) = M + 1) :
    DirectoryInv c (mergeSlots (((d.setBucketPageId s (d.bucketPageIds (s ^^^ 2 ^ M))).decrLocalDepth
        s).decrLocalDepth (s ^^^ 2 ^ M)) s (d.bucketPageIds s) (d.bucketPageIds (s ^^^ 2 ^ M))) B := by
  have happ := fun j (hj : j < 2 ^ d.globalDepth) => merge_apply h hs hM himg hj
  have hg : (mergeSlots (((d.setBucketPageId s (d.bucketPageIds (s ^^^ 2 ^ M))).decrLocalDepth
      s).decrLocalDepth (s ^^^ 2 ^ M)) s (d.bucketPageIds s)
        (d.bucketPageIds (s ^^^ 2 ^ M))).globalDepth = d.globalDepth := by
    simp [mergeSlots, HashTableDirectoryPage.decrLocalDepth]
  generalize mergeSlots _ s _ _ = d' at happ hg ⊢
  have himglt : s ^^^ 2 ^ M < 2 ^ d.globalDepth := Nat.xor_lt_two_pow hs
    (Nat.pow_lt_pow_right (by decide) (by have := h.localDepth_le s hs; omega))
  have hclass : ∀ j < 2 ^ d.globalDepth, (d.bucketPageIds j = d.bucketPageIds s ∨
      d.bucketPageIds j = d.bucketPageIds (s ^^^ 2 ^ M)) ↔ j % 2 ^ M = s % 2 ^ M := fun j hj => by
    rw [h.same_iff s hs j hj, h.same_iff _ himglt j hj, hM, himg]
    exact HashTableDirectoryPage.mod_iff_mod_succ.symm
  -- the merged slots, and the others
  have hC : ∀ i < 2 ^ d.globalDepth, i % 2 ^ M = s % 2 ^ M →
      d'.bucketPageIds i = d.bucketPageIds (s ^^^ 2 ^ M) ∧ d'.localDepths i = M := fun i hi e => by
    simp [(happ i hi).1, (happ i hi).2, e]
  have hN : ∀ i < 2 ^ d.globalDepth, i % 2 ^ M ≠ s % 2 ^ M →
      d'.bucketPageIds i = d.bucketPageIds i ∧ d'.localDepths i = d.localDepths i ∧
        d.bucketPageIds i ≠ d.bucketPageIds s ∧ d.bucketPageIds i ≠ d.bucketPageIds (s ^^^ 2 ^ M) :=
    fun i hi e => by
      rw [(happ i hi).1, (happ i hi).2, if_neg e, if_neg e, ← not_or, hclass i hi]
      exact ⟨rfl, rfl, e⟩
  have hsame : ∀ i < 2 ^ d.globalDepth, ∀ j < 2 ^ d.globalDepth,
      (d'.bucketPageIds j = d'.bucketPageIds i ↔
        j % 2 ^ d'.localDepths i = i % 2 ^ d'.localDepths i) ∧
      (d'.bucketPageIds j = d'.bucketPageIds i → d'.localDepths j = d'.localDepths i) := by
    intro i hi j hj
    by_cases ei : i % 2 ^ M = s % 2 ^ M <;> by_cases ej : j % 2 ^ M = s % 2 ^ M
    · simp [hC i hi ei, hC j hj ej, ej.trans ei.symm]
    · obtain ⟨h1, -, -, hj2⟩ := hN j hj ej
      rw [(hC i hi ei).1, (hC i hi ei).2, h1]
      exact ⟨iff_of_false hj2 fun e => ej (e.trans ei), fun e => absurd e hj2⟩
    · obtain ⟨h1, h2, hi1, hi2⟩ := hN i hi ei
      rw [(hC j hj ej).1, h1, h2, ← h.same_iff i hi j hj]
      have hj' := (hclass j hj).2 ej
      refine ⟨iff_of_false (fun e => hi2 e.symm) fun e => ?_, fun e => absurd e.symm hi2⟩
      rcases hj' with e' | e'
      · exact hi1 (e.symm.trans e')
      · exact hi2 (e.symm.trans e')
    · obtain ⟨hi1, hi2, -⟩ := hN i hi ei
      obtain ⟨hj1, hj2, -⟩ := hN j hj ej
      rw [hi1, hi2, hj1, hj2]
      exact ⟨h.same_iff i hi j hj, h.same_depth i hi j hj⟩
  refine ⟨fun i hi => ?_, fun i hi j hj => (hsame i (hg ▸ hi) j (hg ▸ hj)).1,
    fun i hi j hj => (hsame i (hg ▸ hi) j (hg ▸ hj)).2, fun i hi => ?_, fun i hi => ?_,
    fun i hi => ?_⟩ <;> rw [hg] at hi <;> by_cases ei : i % 2 ^ M = s % 2 ^ M
  · rw [hg, (hC i hi ei).2]
    have := h.localDepth_le s hs
    omega
  · rw [hg, (hN i hi ei).2.1]
    exact h.localDepth_le i hi
  · rw [(hC i hi ei).1, (hC i hi ei).2]
    intro e he
    have := HashTableDirectoryPage.mod_of_mod_succ (himg ▸ h.placed _ himglt e he)
    rw [this, ei, HashTableDirectoryPage.xor_two_pow_mod]
  · rw [(hN i hi ei).1, (hN i hi ei).2.1]
    exact h.placed i hi
  · rw [(hC i hi ei).1]
    exact h.size_le _ himglt
  · rw [(hN i hi ei).1]
    exact h.size_le i hi
  · rw [(hC i hi ei).1]
    exact h.nodup _ himglt
  · rw [(hN i hi ei).1]
    exact h.nodup i hi

theorem DirectoryInv.names_merge (h : DirectoryInv c d B) {s M : Nat} (hs : s < 2 ^ d.globalDepth)
    (hM : d.localDepths s = M + 1) (himg : d.localDepths (s ^^^ 2 ^ M) = M + 1) {p : Int} :
    (mergeSlots (((d.setBucketPageId s (d.bucketPageIds (s ^^^ 2 ^ M))).decrLocalDepth
        s).decrLocalDepth (s ^^^ 2 ^ M)) s (d.bucketPageIds s) (d.bucketPageIds (s ^^^ 2 ^ M))).names p ↔
      d.names p ∧ p ≠ d.bucketPageIds s := by
  have happ := fun j (hj : j < 2 ^ d.globalDepth) => merge_apply h hs hM himg hj
  have himglt : s ^^^ 2 ^ M < 2 ^ d.globalDepth := Nat.xor_lt_two_pow hs
    (Nat.pow_lt_pow_right (by decide) (by have := h.localDepth_le s hs; omega))
  have hne : d.bucketPageIds (s ^^^ 2 ^ M) ≠ d.bucketPageIds s := by
    rw [Ne, h.same_iff s hs _ himglt, hM]
    exact HashTableDirectoryPage.xor_two_pow_mod_succ_ne s M
  have himgmod := HashTableDirectoryPage.xor_two_pow_mod s M
  have hg : (mergeSlots (((d.setBucketPageId s (d.bucketPageIds (s ^^^ 2 ^ M))).decrLocalDepth
      s).decrLocalDepth (s ^^^ 2 ^ M)) s (d.bucketPageIds s)
        (d.bucketPageIds (s ^^^ 2 ^ M))).globalDepth = d.globalDepth := by
    simp [mergeSlots, HashTableDirectoryPage.decrLocalDepth]
  simp only [HashTableDirectoryPage.names, hg]
  constructor
  · rintro ⟨i, hi, rfl⟩
    rw [(happ i hi).1]
    split
    · exact ⟨⟨_, himglt, rfl⟩, hne⟩
    · rename_i e
      refine ⟨⟨i, hi, rfl⟩, fun e' => e ?_⟩
      have := (h.same_iff s hs i hi).1 e'
      rw [hM] at this
      exact HashTableDirectoryPage.mod_of_mod_succ this
  · rintro ⟨⟨i, hi, rfl⟩, hT⟩
    by_cases e : i % 2 ^ M = s % 2 ^ M
    · refine ⟨_, himglt, ?_⟩
      rw [(happ _ himglt).1, if_pos himgmod]
      rcases HashTableDirectoryPage.mod_succ_cases e with e' | e'
      · exact absurd ((h.same_iff s hs i hi).2 (hM ▸ e')) hT
      · exact ((h.same_iff _ himglt i hi).2 (himg ▸ e')).symm
    · exact ⟨i, hi, by rw [(happ i hi).1, if_neg e]⟩

end ExtendibleHashTable

end Bustub
