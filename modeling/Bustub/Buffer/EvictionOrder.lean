import Bustub.Buffer.PageStore

/-!
The order in which the buffer pool evicts: with the free list empty, the frame taken is the one
whose page was unpinned to zero the longest ago and not fetched since.
-/

namespace Bustub

theorem LruReplacer.WellFormed.frames_unpin {r : LruReplacer} (hw : r.WellFormed) {f : Nat}
    (hf : f ∉ r.frames) (hroom : r.size < r.maxSize) : (r.unpin f).frames = f :: r.frames := by
  rw [hw.mem_frames, Option.not_isSome_iff_eq_none] at hf
  simp only [LruReplacer.size] at hroom
  simp [LruReplacer.unpin, hf, Nat.not_le.2 hroom, LruReplacer.frames]

namespace BufferPoolManagerInstance

variable {D : Type} {s t : BufferPoolManagerInstance D}

structure KeepsFrames (s t : BufferPoolManagerInstance D) : Prop where
  sublist : t.replacer.frames.Sublist s.replacer.frames
  pageId : ∀ f ∈ t.replacer.frames, (t.pages f).pageId = (s.pages f).pageId

theorem KeepsFrames.refl (s : BufferPoolManagerInstance D) : KeepsFrames s s :=
  ⟨List.Sublist.refl _, fun _ _ => rfl⟩

theorem KeepsFrames.trans {u : BufferPoolManagerInstance D} (h : KeepsFrames s t)
    (h' : KeepsFrames t u) : KeepsFrames s u :=
  ⟨h'.sublist.trans h.sublist, fun f hf => (h'.pageId f hf).trans (h.pageId f (h'.sublist.subset hf))⟩

theorem keepsFrames_of_pageId (hr : t.replacer = s.replacer)
    (hp : ∀ f, (t.pages f).pageId = (s.pages f).pageId) : KeepsFrames s t :=
  ⟨hr ▸ List.Sublist.refl _, fun f _ => hp f⟩

theorem keepsFrames_pin (hw : s.replacer.WellFormed) {f : Nat} (hr : t.replacer = s.replacer.pin f)
    (hp : ∀ g ≠ f, t.pages g = s.pages g) : KeepsFrames s t := by
  refine ⟨hr ▸ hw.frames_pin f ▸ List.filter_sublist _, fun g hg => ?_⟩
  rw [hr, hw.mem_frames_pin] at hg
  rw [hp g hg.2]

theorem keepsFrames_takeFrame (hw : s.replacer.WellFormed) {f : Nat} (h : s.takeFrame = some (f, t)) :
    KeepsFrames s t ∧ t.replacer.WellFormed := by
  unfold takeFrame at h
  split at h
  · cases h; exact ⟨keepsFrames_of_pageId rfl fun _ => rfl, hw⟩
  · split at h
    · cases h
    · rename_i r hv
      cases h
      exact ⟨⟨(hw.victim hv).2 ▸ List.sublist_append_left _ _, fun _ _ => rfl⟩, (hw.victim hv).1⟩

theorem keepsFrames_install (hw : t.replacer.WellFormed) (f : Nat) (p : Int) (data : D) :
    KeepsFrames t (t.install f p data) :=
  keepsFrames_pin hw rfl fun g hg => by simp [install, Function.update_noteq hg]

theorem keepsFrames_newPgImp [Zero D] (hw : s.replacer.WellFormed) : KeepsFrames s s.newPgImp.2 := by
  unfold newPgImp
  split
  · exact .refl _
  · rename_i f t ht
    obtain ⟨hk, ht⟩ := keepsFrames_takeFrame hw ht
    let t' := { t with nextPageId := toInt32 (t.nextPageId + t.numInstances) }
    exact hk.trans ((keepsFrames_of_pageId (s := t) (t := t') rfl fun _ => rfl).trans
      (keepsFrames_install (t := t') ht f t.nextPageId 0))

theorem keepsFrames_fetchPgImp (hw : s.replacer.WellFormed) (p : Int) :
    KeepsFrames s (s.fetchPgImp p).2 := by
  unfold fetchPgImp
  split
  · exact keepsFrames_pin hw rfl fun g hg => by simp [Function.update_noteq hg]
  · split
    · exact .refl _
    · rename_i f t ht
      obtain ⟨hk, ht⟩ := keepsFrames_takeFrame hw ht
      exact hk.trans (keepsFrames_install ht f p _)

theorem fetchPgImp_frames_ne (hs : FrameInv s) (p : Int) :
    ∀ g ∈ (s.fetchPgImp p).2.replacer.frames, ((s.fetchPgImp p).2.pages g).pageId ≠ p := by
  intro g hg he
  have hk := keepsFrames_fetchPgImp hs.wf p
  have hg' := hk.sublist.subset hg
  rw [hk.pageId g hg] at he
  have hlt := (hs.evictable g hg').1
  have htab : s.pageTable p = some g :=
    he ▸ (hs.used g hlt fun h => (hs.free g h).2.1 hg').1
  simp [fetchPgImp_hit htab, hs.wf.mem_frames_pin] at hg

theorem unpinPgImp_frames (hs : FrameInv s) (p : Int) (d : Bool) :
    KeepsFrames s (s.unpinPgImp p d).2 ∨
      ∃ f, s.pageTable p = some f ∧ f ∉ s.replacer.frames ∧
        (s.unpinPgImp p d).2.replacer.frames = f :: s.replacer.frames ∧
        ((s.unpinPgImp p d).2.pages f).pageId = p ∧
        ∀ g ∈ s.replacer.frames, ((s.unpinPgImp p d).2.pages g).pageId = (s.pages g).pageId := by
  unfold unpinPgImp
  split
  · exact .inl (.refl _)
  · rename_i f hf
    have hpage : ∀ (q : Page D) g, q.pageId = (s.pages f).pageId →
        (Function.update s.pages f q g).pageId = (s.pages g).pageId := fun q g hq => by
      by_cases hg : g = f
      · subst hg; simpa using hq
      · simp [Function.update_noteq hg]
    dsimp only
    split
    · exact .inl (.refl _)
    · rename_i hpos
      split
      · have hnf : f ∉ s.replacer.frames := fun h => hpos (by rw [(hs.evictable f h).2])
        refine .inr ⟨f, hf, hnf, hs.wf.frames_unpin hnf (hs.room (hs.table p f hf).1 hnf), ?_,
          fun g _ => hpage _ g rfl⟩
        simp [(hs.table p f hf).2.2]
      · exact .inl (keepsFrames_of_pageId rfl fun g => hpage _ g rfl)

theorem keepsFrames_deletePgImp [Zero D] (hw : s.replacer.WellFormed) (p : Int) :
    KeepsFrames s (s.deletePgImp p).2 := by
  unfold deletePgImp
  split
  · exact .refl _
  · dsimp only
    split
    · exact .refl _
    · exact keepsFrames_pin hw rfl fun g hg => by simp [Function.update_noteq hg]

theorem keepsFrames_flushPgImp (p : Int) : KeepsFrames s (s.flushPgImp p).2 := by
  unfold flushPgImp
  split
  · exact .refl _
  · split
    · exact .refl _
    · rename_i f _
      refine keepsFrames_of_pageId rfl fun g => ?_
      by_cases hg : g = f
      · subst hg; simp
      · simp [Function.update_noteq hg]

theorem takeFrame_poolSize {f : Nat} (h : s.takeFrame = some (f, t)) : t.poolSize = s.poolSize := by
  unfold takeFrame at h
  split at h
  · cases h; rfl
  · split at h
    · cases h
    · cases h; rfl

end BufferPoolManagerInstance

namespace History

open BufferPoolManagerInstance

variable {D : Type} [Zero D] {h : History D}

theorem frames_call (hs : FrameInv h.pool) (c : Call) :
    KeepsFrames h.pool (h.call c).pool ∨
      ∃ p d f, c = .unpinPage p d ∧ h.pool.pageTable p = some f ∧ f ∉ h.pool.replacer.frames ∧
        (h.call c).pool.replacer.frames = f :: h.pool.replacer.frames ∧
        ((h.call c).pool.pages f).pageId = p ∧
        ∀ g ∈ h.pool.replacer.frames, ((h.call c).pool.pages g).pageId = (h.pool.pages g).pageId := by
  cases c with
  | newPage => rw [pool_call_newPage]; exact .inl (keepsFrames_newPgImp hs.wf)
  | fetchPage p => rw [pool_call_fetchPage]; exact .inl (keepsFrames_fetchPgImp hs.wf p)
  | unpinPage p d =>
    rw [pool_call_unpinPage]
    rcases unpinPgImp_frames hs p d with hk | ⟨f, hf⟩
    · exact .inl hk
    · exact .inr ⟨p, d, f, rfl, hf⟩
  | deletePage p => exact .inl (keepsFrames_deletePgImp hs.wf p)
  | flushPage p => exact .inl (keepsFrames_flushPgImp p)
  | flushAllPages => exact .inl (keepsFrames_of_pageId rfl fun _ => rfl)

theorem poolSize_call (h : History D) (c : Call) : (h.call c).pool.poolSize = h.pool.poolSize := by
  cases c with
  | newPage =>
    rw [pool_call_newPage]; unfold newPgImp; split
    · rfl
    · rename_i ht; have := takeFrame_poolSize ht; exact this
  | fetchPage p =>
    rw [pool_call_fetchPage]; unfold fetchPgImp; split
    · rfl
    · split
      · rfl
      · rename_i ht; have := takeFrame_poolSize ht; exact this
  | unpinPage p d =>
    rw [pool_call_unpinPage]; unfold unpinPgImp; split
    · rfl
    · dsimp only; split
      · rfl
      · split <;> rfl
  | deletePage p =>
    show (h.pool.deletePgImp p).2.poolSize = _; unfold deletePgImp; split
    · rfl
    · dsimp only; split <;> rfl
  | flushPage p => show (h.pool.flushPgImp p).2.poolSize = _; unfold flushPgImp; split <;> (try split) <;> rfl
  | flushAllPages => rfl

def ValidCalls (h : History D) : List Call → Prop
  | [] => True
  | c :: cs => h.Valid c ∧ (h.call c).ValidCalls cs

theorem Reachable.foldl (hr : h.Reachable) {cs : List Call} (hv : h.ValidCalls cs) :
    (cs.foldl History.call h).Reachable := by
  induction cs generalizing h with
  | nil => exact hr
  | cons c cs ih => exact ih (hr.call c hv.1) hv.2

theorem allocs_le_foldl (h : History D) (cs : List Call) : h.allocs ≤ (cs.foldl History.call h).allocs := by
  induction cs generalizing h with
  | nil => exact le_rfl
  | cons c cs ih => exact (allocs_le_call h c).trans (ih _)

theorem params_foldl (h : History D) (cs : List Call) :
    (cs.foldl History.call h).pool.numInstances = h.pool.numInstances ∧
      (cs.foldl History.call h).pool.poolSize = h.pool.poolSize := by
  induction cs generalizing h with
  | nil => exact ⟨rfl, rfl⟩
  | cons c cs ih =>
    obtain ⟨h1, h2⟩ := ih (h.call c)
    exact ⟨h1.trans (params_call h c).1, h2.trans (poolSize_call h c)⟩

def stays : History D × (Nat → Nat) → Nat → List Call → History D × (Nat → Nat)
  | st, _, [] => st
  | (h, began), i, c :: cs =>
    stays (h.call c, fun f => if f ∈ h.pool.replacer.frames then began f else i) (i + 1) cs

theorem fst_stays (st : History D × (Nat → Nat)) (i : Nat) (cs : List Call) :
    (stays st i cs).1 = cs.foldl History.call st.1 := by
  induction cs generalizing st i with
  | nil => rfl
  | cons c cs ih => exact ih _ _

structure Stays (done : List Call) (st : History D × (Nat → Nat)) : Prop where
  sorted : st.1.pool.replacer.frames.Pairwise fun f g => st.2 g < st.2 f
  entered : ∀ f ∈ st.1.pool.replacer.frames,
    ∃ d, done[st.2 f]? = some (.unpinPage (st.1.pool.pages f).pageId d)
  untouched : ∀ f ∈ st.1.pool.replacer.frames, ∀ j, st.2 f < j → j < done.length →
    done[j]? ≠ some (.fetchPage (st.1.pool.pages f).pageId)

variable {done : List Call} {began : Nat → Nat}

omit [Zero D] in
theorem Stays.began_lt (hst : Stays done (h, began)) {f : Nat} (hf : f ∈ h.pool.replacer.frames) :
    began f < done.length := by
  obtain ⟨d, hd⟩ := hst.entered f hf
  dsimp only at hd
  by_contra hlt
  rw [List.getElem?_eq_none (by omega)] at hd
  cases hd

omit [Zero D] in
theorem Stays.kept (hst : Stays done (h, began)) {c : Call} {h' : History D} {g : Nat}
    (hg : g ∈ h.pool.replacer.frames) (hp : (h'.pool.pages g).pageId = (h.pool.pages g).pageId)
    (hc : c ≠ .fetchPage (h.pool.pages g).pageId) :
    (∃ d, (done ++ [c])[began g]? = some (.unpinPage (h'.pool.pages g).pageId d)) ∧
      ∀ j, began g < j → j < (done ++ [c]).length →
        (done ++ [c])[j]? ≠ some (.fetchPage (h'.pool.pages g).pageId) := by
  rw [hp]
  obtain ⟨d, hd⟩ := hst.entered g hg
  refine ⟨⟨d, by rw [List.getElem?_append_left (hst.began_lt hg)]; exact hd⟩, fun j hj hjl => ?_⟩
  rw [List.length_append, List.length_singleton] at hjl
  rcases Nat.lt_succ_iff_lt_or_eq.1 hjl with hjl | rfl
  · rw [List.getElem?_append_left hjl]; exact hst.untouched g hg j hj hjl
  · simpa using hc

theorem Stays.call (hst : Stays done (h, began)) (hs : FrameInv h.pool) (c : Call) :
    Stays (done ++ [c])
      (h.call c, fun f => if f ∈ h.pool.replacer.frames then began f else done.length) := by
  have hold : ∀ {a b}, a ∈ h.pool.replacer.frames → b ∈ h.pool.replacer.frames → began b < began a →
      (if b ∈ h.pool.replacer.frames then began b else done.length) <
        (if a ∈ h.pool.replacer.frames then began a else done.length) := fun ha hb hab => by
    simpa [ha, hb] using hab
  rcases frames_call hs c with hk | ⟨p, d, f, rfl, hf, hnf, hfr, hpf, hpg⟩
  · have hc : ∀ g ∈ (h.call c).pool.replacer.frames, c ≠ .fetchPage (h.pool.pages g).pageId := by
      rintro g hg rfl
      have hp := hk.pageId g hg
      rw [pool_call_fetchPage] at hg hp
      exact fetchPgImp_frames_ne hs _ g hg hp
    refine ⟨(hst.sorted.sublist hk.sublist).imp_of_mem fun ha hb hab =>
      hold (hk.sublist.subset ha) (hk.sublist.subset hb) hab, fun g hg => ?_, fun g hg => ?_⟩
    · simpa [hk.sublist.subset hg] using
        (hst.kept (hk.sublist.subset hg) (hk.pageId g hg) (hc g hg)).1
    · simpa [hk.sublist.subset hg] using
        (hst.kept (hk.sublist.subset hg) (hk.pageId g hg) (hc g hg)).2
  · refine ⟨?_, fun g hg => ?_, fun g hg => ?_⟩ <;> dsimp only at * <;> rw [hfr] at *
    · refine List.pairwise_cons.2 ⟨fun g hg => ?_, hst.sorted.imp_of_mem fun ha hb hab => hold ha hb hab⟩
      simpa [hg, hnf] using hst.began_lt hg
    · rcases List.mem_cons.1 hg with rfl | hg
      · rw [pool_call_unpinPage] at hpf
        exact ⟨d, by simp [hnf, hpf]⟩
      · simpa [hg] using (hst.kept hg (hpg g hg) (by simp)).1
    · rcases List.mem_cons.1 hg with rfl | hg
      · intro j hj hjl
        simp only [hnf, if_false, List.length_append, List.length_singleton] at hj hjl
        omega
      · simpa [hg] using (hst.kept hg (hpg g hg) (by simp)).2

theorem Stays.stays {st : History D × (Nat → Nat)} (hst : Stays done st) (hr : st.1.Reachable)
    {cs : List Call} (hv : st.1.ValidCalls cs)
    (hb : (cs.foldl History.call st.1).allocs * st.1.pool.numInstances < 2 ^ 32) :
    Stays (done ++ cs) (stays st done.length cs) := by
  induction cs generalizing done st with
  | nil => simpa [stays] using hst
  | cons c cs ih =>
    obtain ⟨h, began⟩ := st
    have hb' : (cs.foldl History.call (h.call c)).allocs * h.pool.numInstances < 2 ^ 32 := hb
    have hs := (hr.inv (Nat.lt_of_le_of_lt (Nat.mul_le_mul_right _
      ((allocs_le_call h c).trans (allocs_le_foldl _ cs))) hb')).frame
    have := ih (hst.call hs c) (hr.call c hv.1) hv.2 (by rwa [(params_call h c).1])
    simpa [stays] using this

theorem pool_evicts_least_recently_unpinned (poolSize n idx : Nat) (disk : Int → D) (hn : 0 < n)
    (hidx : idx < n) (cs : List Call) (hv : (start poolSize n idx disk).ValidCalls cs)
    (hb : (cs.foldl History.call (start poolSize n idx disk)).allocs * n < 2 ^ 32) :
    let s := (stays (start poolSize n idx disk, fun _ => 0) 0 cs).1.pool
    let began := (stays (start poolSize n idx disk, fun _ => 0) 0 cs).2
    (∀ f, f ∈ s.replacer.frames ↔ f < poolSize ∧ f ∉ s.freeList ∧ (s.pages f).pinCount = 0) ∧
    (∀ f ∈ s.replacer.frames, (∃ d, cs[began f]? = some (.unpinPage (s.pages f).pageId d)) ∧
      ∀ j, began f < j → j < cs.length → cs[j]? ≠ some (.fetchPage (s.pages f).pageId)) ∧
    (s.freeList = [] → s.replacer.frames ≠ [] → ∃ f t, s.takeFrame = some (f, t) ∧
      f ∈ s.replacer.frames ∧ ∀ g ∈ s.replacer.frames, g ≠ f → began f < began g) := by
  intro s began
  have hr₀ := Reachable.start poolSize n idx disk hn hidx
  have h₀ : Stays [] (start poolSize n idx disk, fun _ => 0) :=
    ⟨by simp [start, init, LruReplacer.init, LruReplacer.frames],
      by simp [start, init, LruReplacer.init, LruReplacer.frames],
      by simp [start, init, LruReplacer.init, LruReplacer.frames]⟩
  have hst : Stays cs (stays (start poolSize n idx disk, fun _ => 0) 0 cs) := by
    simpa using h₀.stays hr₀ hv hb
  have hfr : FrameInv s := by
    have := ((hr₀.foldl hv).inv (by rwa [(params_foldl _ cs).1])).frame
    show FrameInv (stays _ 0 cs).1.pool
    rwa [fst_stays]
  have hsize : s.poolSize = poolSize := by
    show (stays _ 0 cs).1.pool.poolSize = _
    rw [fst_stays, (params_foldl _ cs).2]; rfl
  refine ⟨fun f => ⟨fun hf => ?_, fun ⟨hlt, hfree, h0⟩ => ?_⟩,
    fun f hf => ⟨hst.entered f hf, hst.untouched f hf⟩, fun hfree hne => ?_⟩
  · obtain ⟨hlt, h0⟩ := hfr.evictable f hf
    exact ⟨hsize ▸ hlt, fun h => (hfr.free f h).2.1 hf, h0⟩
  · by_contra hn
    have := (hfr.used f (hsize ▸ hlt) hfree).2 hn
    omega
  · obtain ⟨⟨f, r'⟩, hvic⟩ := Option.ne_none_iff_exists'.1 (mt LruReplacer.victim_eq_none.1 hne)
    have hfrm := (hfr.wf.victim hvic).2
    have hsorted : (r'.frames ++ [f]).Pairwise fun f g => began g < began f := hfrm ▸ hst.sorted
    obtain ⟨t, ht⟩ : ∃ t, s.takeFrame = some (f, t) := by
      unfold takeFrame; rw [hfree]; simp only [hvic]; exact ⟨_, rfl⟩
    refine ⟨f, t, ht, by simp [hfrm], fun g hg hgf => ?_⟩
    rw [hfrm, List.mem_append, List.mem_singleton] at hg
    exact (List.pairwise_append.1 hsorted).2.2 g (hg.resolve_right hgf) f (List.mem_singleton_self f)

example : ((stays (start 2 1 0 fun _ => (0 : Nat), fun _ => 0) 0
    [.newPage, .newPage, .unpinPage 1 false, .unpinPage 0 false]).1.pool.takeFrame.map Prod.fst) =
      some 1 := by decide

theorem pool_evicts_least_recently_unpinned_two :
    let cs : List Call := [.newPage, .newPage, .unpinPage 1 false, .unpinPage 0 false]
    0 < 1 ∧ 0 < 1 ∧ (start 2 1 0 fun _ => (0 : Nat)).ValidCalls cs ∧
      (cs.foldl History.call (start 2 1 0 fun _ => (0 : Nat))).allocs * 1 < 2 ^ 32 ∧
      let s := (stays (start 2 1 0 fun _ => (0 : Nat), fun _ => 0) 0 cs).1.pool
      let began := (stays (start 2 1 0 fun _ => (0 : Nat), fun _ => 0) 0 cs).2
      (∀ f, f ∈ s.replacer.frames ↔ f < 2 ∧ f ∉ s.freeList ∧ (s.pages f).pinCount = 0) ∧
      (∀ f ∈ s.replacer.frames, (∃ d, cs[began f]? = some (.unpinPage (s.pages f).pageId d)) ∧
        ∀ j, began f < j → j < cs.length → cs[j]? ≠ some (.fetchPage (s.pages f).pageId)) ∧
      (s.freeList = [] → s.replacer.frames ≠ [] → ∃ f t, s.takeFrame = some (f, t) ∧
        f ∈ s.replacer.frames ∧ ∀ g ∈ s.replacer.frames, g ≠ f → began f < began g) :=
  have hv : (start 2 1 0 fun _ => (0 : Nat)).ValidCalls
      [.newPage, .newPage, .unpinPage 1 false, .unpinPage 0 false] :=
    ⟨trivial, trivial, trivial, trivial, trivial⟩
  have hb : ([.newPage, .newPage, .unpinPage 1 false, .unpinPage 0 false].foldl History.call
      (start 2 1 0 fun _ => (0 : Nat))).allocs * 1 < 2 ^ 32 := by decide
  ⟨by decide, by decide, hv, hb,
    pool_evicts_least_recently_unpinned 2 1 0 _ (by decide) (by decide) _ hv hb⟩

end History

end Bustub
