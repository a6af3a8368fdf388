import Bustub.Buffer.LruReplacer

/-!
`LRUReplacer` over every sequence of its calls: `Victim` takes the frame whose stay began first.
-/

namespace Bustub

namespace LruReplacer

inductive Call
  | victim
  | pin (frameId : Nat)
  | unpin (frameId : Nat)
  | size
  deriving DecidableEq, Repr

def call (r : LruReplacer) : Call → LruReplacer
  | .victim => match r.victim with
    | some (_, r') => r'
    | none => r
  | .pin f => r.pin f
  | .unpin f => r.unpin f
  | .size => r

def replay : LruReplacer × (Nat → Nat) → Nat → List Call → LruReplacer × (Nat → Nat)
  | st, _, [] => st
  | (r, began), i, c :: cs =>
    replay (r.call c, fun g => if g ∈ r.frames then began g else i) (i + 1) cs

variable {r : LruReplacer}

theorem WellFormed.pin_of_not_mem (hr : r.WellFormed) {f : Nat} (hf : f ∉ r.frames) :
    r.pin f = r := by
  rw [hr.mem_frames, Option.not_isSome_iff_eq_none] at hf
  simp [LruReplacer.pin, hf]

theorem WellFormed.unpin_of_mem (hr : r.WellFormed) {f : Nat} (hf : f ∈ r.frames) : r.unpin f = r := by
  rw [hr.mem_frames] at hf
  simp [LruReplacer.unpin, hf]

theorem WellFormed.frames_call (hr : r.WellFormed) (c : Call) :
    (r.call c).frames.Sublist r.frames ∨
      ∃ f, c = .unpin f ∧ f ∉ r.frames ∧ (r.call c).frames = f :: r.frames := by
  cases c with
  | victim =>
    rcases h : r.victim with _ | ⟨f, r'⟩
    · simp [call, h]
    · simp only [call, h]
      exact .inl ((hr.victim h).2 ▸ List.sublist_append_left _ _)
  | pin f => exact .inl (hr.frames_pin f ▸ List.filter_sublist _)
  | unpin f =>
    simp only [call, LruReplacer.unpin]
    split_ifs with h1
    · exact .inl (List.Sublist.refl _)
    · exact .inl (List.Sublist.refl _)
    · exact .inr ⟨f, rfl, by rwa [hr.mem_frames], by simp [frames]⟩
  | size => exact .inl (List.Sublist.refl _)

theorem WellFormed.call (hr : r.WellFormed) (c : Call) : (r.call c).WellFormed := by
  cases c with
  | victim =>
    rcases h : r.victim with _ | ⟨f, r'⟩
    · simpa [LruReplacer.call, h] using hr
    · simpa [LruReplacer.call, h] using (hr.victim h).1
  | pin f => exact hr.pin f
  | unpin f => exact hr.unpin f
  | size => exact hr

@[simp] theorem maxSize_call (c : Call) : (r.call c).maxSize = r.maxSize := by
  cases c with
  | victim =>
    rcases h : r.victim with _ | ⟨f, r'⟩
    · simp [call, h]
    · simpa [call, h] using maxSize_victim h
  | _ => simp [call]

structure Ordered (n : Nat) (done : List Call) (st : LruReplacer × (Nat → Nat)) : Prop where
  wf : st.1.WellFormed
  cap : st.1.maxSize = n
  sorted : st.1.frames.Pairwise fun f g => st.2 g < st.2 f
  began : ∀ g ∈ st.1.frames, done[st.2 g]? = some (.unpin g)

theorem Ordered.began_lt {n : Nat} {done : List Call} {st : LruReplacer × (Nat → Nat)}
    (h : Ordered n done st) {g : Nat} (hg : g ∈ st.1.frames) : st.2 g < done.length := by
  have := h.began g hg
  by_contra hlt
  rw [List.getElem?_eq_none (by omega)] at this
  cases this

theorem Ordered.call {n : Nat} {done : List Call} {began : Nat → Nat} (h : Ordered n done (r, began))
    (c : Call) :
    Ordered n (done ++ [c])
      (r.call c, fun g => if g ∈ r.frames then began g else done.length) := by
  have hkeep : ∀ g ∈ r.frames, (done ++ [c])[began g]? = some (.unpin g) := fun g hg => by
    rw [List.getElem?_append_left (h.began_lt hg)]
    exact h.began g hg
  refine ⟨h.wf.call c, (maxSize_call c).trans h.cap, ?_, ?_⟩
  · rcases h.wf.frames_call c with hs | ⟨f, rfl, hf, hfr⟩
    · refine (h.sorted.sublist hs).imp_of_mem fun {a b} ha hb hab => ?_
      simpa [hs.subset ha, hs.subset hb] using hab
    · rw [hfr, List.pairwise_cons]
      refine ⟨fun g hg => ?_, h.sorted.imp_of_mem fun {a b} ha hb hab => ?_⟩
      · simpa [hf, hg] using h.began_lt hg
      · simpa [ha, hb] using hab
  · rcases h.wf.frames_call c with hs | ⟨f, rfl, hf, hfr⟩
    · intro g hg
      simpa [hs.subset hg] using hkeep g (hs.subset hg)
    · intro g hg
      rw [hfr, List.mem_cons] at hg
      rcases hg with rfl | hg
      · simp [hf]
      · simpa [hg] using hkeep g hg

theorem Ordered.replay {n : Nat} {done : List Call} {st : LruReplacer × (Nat → Nat)}
    (h : Ordered n done st) (cs : List Call) :
    Ordered n (done ++ cs) (replay st done.length cs) := by
  induction cs generalizing done st with
  | nil => simpa [LruReplacer.replay] using h
  | cons c cs ih =>
    obtain ⟨r, began⟩ := st
    simpa [LruReplacer.replay] using ih (h.call c)

theorem Ordered.victim {n : Nat} {done : List Call} {st : LruReplacer × (Nat → Nat)}
    (h : Ordered n done st) (hne : st.1.frames ≠ []) :
    ∃ f r', st.1.victim = some (f, r') ∧ f ∈ st.1.frames ∧
      (∀ g ∈ st.1.frames, g ≠ f → st.2 f < st.2 g) ∧ r'.frames = st.1.frames.erase f := by
  obtain ⟨⟨f, r'⟩, hv⟩ := Option.ne_none_iff_exists'.1 (mt victim_eq_none.1 hne)
  obtain ⟨-, hfr⟩ := h.wf.victim hv
  have hs := h.sorted
  have hnd := h.wf.frames_nodup
  rw [hfr] at hs hnd
  have hf : f ∉ r'.frames := by simpa using (List.nodup_append.1 hnd).2.2
  refine ⟨f, r', hv, by simp [hfr], fun g hg hgf => ?_, ?_⟩
  · rw [hfr, List.mem_append, List.mem_singleton] at hg
    exact (List.pairwise_append.1 hs).2.2 g (hg.resolve_right hgf) f (List.mem_singleton_self f)
  · rw [hfr, List.erase_append_right _ hf]
    simp

theorem lru_replacement_order (n : Nat) (calls : List Call) :
    let r := (replay (init n, fun _ => 0) 0 calls).1
    let began := (replay (init n, fun _ => 0) 0 calls).2
    r.WellFormed ∧ r.maxSize = n ∧ r.size = r.frames.length ∧
      (∀ f, f ∉ r.frames → r.pin f = r) ∧ (∀ f ∈ r.frames, r.unpin f = r) ∧
      (∀ g ∈ r.frames, calls[began g]? = some (.unpin g)) ∧
      (r.frames ≠ [] → ∃ f r', r.victim = some (f, r') ∧ f ∈ r.frames ∧
        (∀ g ∈ r.frames, g ≠ f → began f < began g) ∧ r'.frames = r.frames.erase f) := by
  have h0 : Ordered n [] (init n, fun _ => 0) :=
    ⟨wellFormed_init n, rfl, by simp [init, frames], by simp [init, frames]⟩
  have h := h0.replay calls
  exact ⟨h.wf, h.cap, by simp [size, frames], fun f hf => h.wf.pin_of_not_mem hf,
    fun f hf => h.wf.unpin_of_mem hf, h.began, h.victim⟩

example : ((replay (init 3, fun _ => 0) 0 [.unpin 1, .unpin 2, .pin 1, .unpin 1]).1.victim.map
    Prod.fst) = some 2 := by decide

end LruReplacer

end Bustub
