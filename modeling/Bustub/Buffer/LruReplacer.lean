import Bustub.Common.Config
import Mathlib.Data.List.Nodup

/-!
`buffer/lru_replacer.cpp`. A node of `lru_list_` is a pair of its address and its frame.
-/

namespace Bustub

structure LruReplacer where
  maxSize : Nat
  lruList : List (Nat × Nat)
  lruHash : Nat → Option Nat
  nextNode : Nat

namespace LruReplacer

def init (numPages : Nat) : LruReplacer := ⟨numPages, [], fun _ => none, 0⟩

def victim (r : LruReplacer) : Option (Nat × LruReplacer) :=
  match r.lruList.getLast? with
  | none => none
  | some (_, f) => some (f, { r with lruHash := Function.update r.lruHash f none,
                                     lruList := r.lruList.dropLast })

def pin (f : Nat) (r : LruReplacer) : LruReplacer :=
  match r.lruHash f with
  | none => r
  | some a => { r with lruList := r.lruList.filter (fun x => x.1 ≠ a),
                       lruHash := Function.update r.lruHash f none }

def unpin (f : Nat) (r : LruReplacer) : LruReplacer :=
  if (r.lruHash f).isSome then r
  else if r.lruList.length ≥ r.maxSize then r
  else { r with lruList := (r.nextNode, f) :: r.lruList,
                lruHash := Function.update r.lruHash f (some r.nextNode),
                nextNode := r.nextNode + 1 }

def size (r : LruReplacer) : Nat := r.lruList.length

def frames (r : LruReplacer) : List Nat := r.lruList.map Prod.snd

structure WellFormed (r : LruReplacer) : Prop where
  hash_iff : ∀ f a, r.lruHash f = some a ↔ (a, f) ∈ r.lruList
  addr_nodup : (r.lruList.map Prod.fst).Nodup
  frames_nodup : r.frames.Nodup
  addr_lt : ∀ x ∈ r.lruList, x.1 < r.nextNode
  size_le : r.lruList.length ≤ r.maxSize

theorem wellFormed_init (n : Nat) : (init n).WellFormed :=
  ⟨by simp [init], by simp [init], by simp [init, frames], by simp [init], by simp [init]⟩

@[simp] theorem maxSize_pin (f : Nat) (r : LruReplacer) : (r.pin f).maxSize = r.maxSize := by
  unfold pin; split <;> rfl

@[simp] theorem maxSize_unpin (f : Nat) (r : LruReplacer) : (r.unpin f).maxSize = r.maxSize := by
  unfold unpin; split_ifs <;> rfl

theorem maxSize_victim {r r' : LruReplacer} {f : Nat} (h : r.victim = some (f, r')) :
    r'.maxSize = r.maxSize := by
  unfold victim at h
  split at h
  · cases h
  · cases h; rfl

variable {r : LruReplacer}

theorem WellFormed.mem_frames (hr : r.WellFormed) (f : Nat) :
    f ∈ r.frames ↔ (r.lruHash f).isSome := by
  simp only [frames, List.mem_map, Option.isSome_iff_exists, hr.hash_iff]
  exact ⟨fun ⟨x, hx, e⟩ => ⟨x.1, e ▸ hx⟩, fun ⟨a, ha⟩ => ⟨_, ha, rfl⟩⟩

theorem WellFormed.frame_eq (hr : r.WellFormed) {a : Nat} {f g : Nat}
    (hf : (a, f) ∈ r.lruList) (hg : (a, g) ∈ r.lruList) : f = g :=
  congrArg Prod.snd (List.inj_on_of_nodup_map hr.addr_nodup hf hg rfl)

theorem WellFormed.lruList_pin (hr : r.WellFormed) (f : Nat) :
    (r.pin f).lruList = r.lruList.filter (fun x => x.2 ≠ f) := by
  unfold LruReplacer.pin
  split
  · rename_i hf
    refine (List.filter_eq_self.2 fun x hx => ?_).symm
    have : (r.lruHash x.2).isSome := (hr.mem_frames _).1 (List.mem_map_of_mem _ hx)
    simp only [ne_eq, decide_eq_true_eq]
    rintro rfl
    simp_all
  · rename_i a ha
    refine List.filter_congr fun x hx => ?_
    have hfa := (hr.hash_iff f a).1 ha
    simp only [ne_eq, decide_eq_decide]
    constructor
    · rintro hxa rfl
      exact hxa (Option.some.inj (((hr.hash_iff _ _).2 hx).symm.trans ha))
    · rintro hxf rfl
      exact hxf (hr.frame_eq hx hfa)

theorem WellFormed.frames_pin (hr : r.WellFormed) (f : Nat) :
    (r.pin f).frames = r.frames.filter (fun g => g ≠ f) := by
  simp only [frames, hr.lruList_pin, List.filter_map]
  rfl

theorem WellFormed.pin (hr : r.WellFormed) (f : Nat) : (r.pin f).WellFormed := by
  have hsub : (r.pin f).lruList.Sublist r.lruList := hr.lruList_pin f ▸ List.filter_sublist _
  refine ⟨fun g b => ?_, hr.addr_nodup.sublist (hsub.map _), hr.frames_nodup.sublist (hsub.map _),
    fun x hx => ?_, hsub.length_le.trans ?_⟩
  · rw [hr.lruList_pin, List.mem_filter]
    unfold LruReplacer.pin
    split
    · rename_i hf
      simp only [hr.hash_iff, decide_eq_true_eq, iff_self_and]
      rintro hb rfl
      simp [(hr.hash_iff _ _).2 hb] at hf
    · rename_i a ha
      by_cases hg : g = f
      · subst hg; simp
      · simp [Function.update_noteq hg, hr.hash_iff, hg]
  · unfold LruReplacer.pin
    split <;> exact hr.addr_lt x (hsub.subset hx)
  · simpa using hr.size_le

theorem WellFormed.unpin (hr : r.WellFormed) (f : Nat) : (r.unpin f).WellFormed := by
  unfold LruReplacer.unpin
  split_ifs with h1 h2
  · exact hr
  · exact hr
  · have hf : f ∉ r.frames := by rw [hr.mem_frames]; exact h1
    have hn : r.nextNode ∉ r.lruList.map Prod.fst := fun h => by
      obtain ⟨x, hx, e⟩ := List.mem_map.1 h
      exact absurd (hr.addr_lt x hx) (by omega)
    refine ⟨fun g b => ?_, List.nodup_cons.2 ⟨hn, hr.addr_nodup⟩,
      List.nodup_cons.2 ⟨hf, hr.frames_nodup⟩, ?_, by simp; omega⟩
    · by_cases hg : g = f
      · subst hg
        simp only [Function.update_same, Option.some.injEq, List.mem_cons, Prod.mk.injEq, and_true]
        refine ⟨fun e => .inl e.symm, ?_⟩
        rintro (e | hb)
        · exact e.symm
        · exact absurd (List.mem_map_of_mem Prod.snd hb) hf
      · simp [Function.update_noteq hg, hr.hash_iff, hg]
    · intro x hx
      rcases List.mem_cons.1 hx with rfl | hx
      · simp
      · exact (hr.addr_lt x hx).trans (Nat.lt_succ_self _)

theorem WellFormed.victim (hr : r.WellFormed) {f : Nat} {r' : LruReplacer}
    (h : r.victim = some (f, r')) : r'.WellFormed ∧ r.frames = r'.frames ++ [f] := by
  unfold LruReplacer.victim at h
  split at h
  · cases h
  · rename_i a g hl
    obtain ⟨ys, hys⟩ := List.getLast?_eq_some_iff.1 hl
    simp only [Option.some.injEq, Prod.mk.injEq] at h
    obtain ⟨rfl, rfl⟩ := h
    have hfr : r.frames = ys.map Prod.snd ++ [g] := by simp [frames, hys]
    have hnd := hfr ▸ hr.frames_nodup
    have hg : g ∉ ys.map Prod.snd := by simpa using (List.nodup_append.1 hnd).2.2
    have hnda := hr.addr_nodup
    rw [hys, List.map_append] at hnda
    refine ⟨⟨fun k b => ?_, ?_, ?_, fun x hx => ?_, ?_⟩, by simp [hfr, frames, hys]⟩
    · by_cases hk : k = g
      · subst hk
        simp only [Function.update_same, hys, List.dropLast_concat, reduceCtorEq, false_iff]
        exact fun hb => hg (List.mem_map_of_mem Prod.snd hb)
      · simp only [Function.update_noteq hk, hr.hash_iff, hys, List.dropLast_concat,
          List.mem_append, List.mem_singleton, Prod.mk.injEq]
        exact ⟨fun h => h.resolve_right fun e => hk e.2, .inl⟩
    · simpa [hys] using hnda.sublist (List.sublist_append_left _ _)
    · simpa [frames, hys] using (List.nodup_append.1 hnd).1
    · simp only [hys, List.dropLast_concat] at hx
      exact hr.addr_lt x (by rw [hys]; exact List.mem_append_left _ hx)
    · have := hr.size_le
      simp only [hys, List.length_append, List.length_singleton, List.dropLast_concat] at this ⊢
      omega

theorem victim_eq_none : r.victim = none ↔ r.frames = [] := by
  unfold LruReplacer.victim frames
  split
  · simp_all [List.getLast?_eq_none_iff]
  · rename_i h
    simp only [reduceCtorEq, false_iff, List.map_eq_nil_iff]
    rintro e
    simp [e] at h

theorem WellFormed.mem_frames_pin (hr : r.WellFormed) (f g : Nat) :
    g ∈ (r.pin f).frames ↔ g ∈ r.frames ∧ g ≠ f := by
  simp [hr.frames_pin]

theorem WellFormed.mem_frames_unpin (hr : r.WellFormed) (f g : Nat)
    (hroom : f ∈ r.frames ∨ r.size < r.maxSize) :
    g ∈ (r.unpin f).frames ↔ g ∈ r.frames ∨ g = f := by
  unfold LruReplacer.unpin
  split_ifs with h1 h2
  · rw [← hr.mem_frames] at h1
    exact ⟨.inl, by rintro (h | rfl) <;> assumption⟩
  · rcases hroom with h | h
    · exact absurd ((hr.mem_frames f).1 h) h1
    · simp [size] at h; omega
  · simp [frames, or_comm]

end LruReplacer

end Bustub
