import Bustub.Buffer.BufferPoolManagerInstance
import Mathlib.Data.List.Perm.Subperm

/-!
Each frame of the pool is free, evictable or pinned, kept by every operation.
-/

namespace Bustub

namespace BufferPoolManagerInstance

variable {D : Type}

structure FrameInv (s : BufferPoolManagerInstance D) : Prop where
  wf : s.replacer.WellFormed
  maxSize_eq : s.replacer.maxSize = s.poolSize
  free_nodup : s.freeList.Nodup
  free : ∀ f ∈ s.freeList, f < s.poolSize ∧ f ∉ s.replacer.frames ∧
    (s.pages f).pageId = invalidPageId ∧ (s.pages f).pinCount = 0
  evictable : ∀ f ∈ s.replacer.frames, f < s.poolSize ∧ (s.pages f).pinCount = 0
  used : ∀ f < s.poolSize, f ∉ s.freeList →
    s.pageTable (s.pages f).pageId = some f ∧ (f ∉ s.replacer.frames → 0 < (s.pages f).pinCount)
  table : ∀ p f, s.pageTable p = some f → f < s.poolSize ∧ f ∉ s.freeList ∧ (s.pages f).pageId = p

theorem frameInv_init [Zero D] (poolSize n idx : Nat) (disk : Int → D) :
    FrameInv (init poolSize n idx disk) where
  wf := LruReplacer.wellFormed_init _
  maxSize_eq := rfl
  free_nodup := List.nodup_range _
  free f hf := ⟨List.mem_range.1 hf, by simp [init, LruReplacer.init, LruReplacer.frames], rfl, rfl⟩
  evictable f hf := by simp [init, LruReplacer.init, LruReplacer.frames] at hf
  used f hf hfree := absurd (List.mem_range.2 hf) hfree
  table p f h := by simp [init] at h

variable {s : BufferPoolManagerInstance D}

theorem FrameInv.room (hs : FrameInv s) {f : Nat} (hf : f < s.poolSize)
    (hn : f ∉ s.replacer.frames) : s.replacer.size < s.replacer.maxSize := by
  have hsub : s.replacer.frames ⊆ (List.range s.poolSize).erase f := fun g hg =>
    (List.mem_erase_of_ne (by rintro rfl; exact hn hg)).2 (List.mem_range.2 (hs.evictable g hg).1)
  have hlen := (List.subperm_of_subset hs.wf.frames_nodup hsub).length_le
  rw [List.length_erase_of_mem (List.mem_range.2 hf), List.length_range] at hlen
  simp only [LruReplacer.frames, List.length_map] at hlen
  show s.replacer.lruList.length < s.replacer.maxSize
  rw [hs.maxSize_eq]
  omega

theorem FrameInv.table_inj (hs : FrameInv s) {p q : Int} {f : Nat} (hp : s.pageTable p = some f)
    (hq : s.pageTable q = some f) : p = q := (hs.table p f hp).2.2.symm.trans (hs.table q f hq).2.2

theorem FrameInv.resident (hs : FrameInv s) {p : Int} {f : Nat}
    (h : s.pageTable p = some f) : (s.pages f).pageId = p := (hs.table p f h).2.2

theorem FrameInv.unique (hs : FrameInv s) {p : Int} {f g : Nat}
    (h : s.pageTable p = some f) (hg : g < s.poolSize) (hgf : g ∉ s.freeList)
    (hpg : (s.pages g).pageId = p) : g = f := by
  have := (hs.used g hg hgf).1
  rw [hpg, h] at this
  exact (Option.some.inj this).symm

theorem FrameInv.update_frame (hs : FrameInv s) {s' : BufferPoolManagerInstance D} {f : Nat}
    (hpool : s'.poolSize = s.poolSize) (hfree : s'.freeList = s.freeList)
    (htable : s'.pageTable = s.pageTable) (hpages : ∀ g, g ≠ f → s'.pages g = s.pages g)
    (hid : (s'.pages f).pageId = (s.pages f).pageId) (hwf : s'.replacer.WellFormed)
    (hmax : s'.replacer.maxSize = s.replacer.maxSize)
    (hrep : ∀ g, g ≠ f → (g ∈ s'.replacer.frames ↔ g ∈ s.replacer.frames))
    (hf : f ∉ s.freeList) (hflt : f < s.poolSize)
    (hfrep : f ∈ s'.replacer.frames ↔ (s'.pages f).pinCount = 0) : FrameInv s' := by
  refine ⟨hwf, hmax.trans (hpool ▸ hs.maxSize_eq), hfree ▸ hs.free_nodup, fun g hg => ?_,
    fun g hg => ?_, fun g hg hgf => ?_, fun q g hq => ?_⟩
  · rw [hfree] at hg
    have hgf : g ≠ f := by rintro rfl; exact hf hg
    rw [hpool, hrep g hgf, hpages g hgf]; exact hs.free g hg
  · by_cases hgf : g = f
    · subst hgf; exact ⟨hpool ▸ hflt, hfrep.1 hg⟩
    · rw [hpool, hpages g hgf]; exact hs.evictable g ((hrep g hgf).1 hg)
  · rw [hpool] at hg; rw [hfree] at hgf
    by_cases hgg : g = f
    · subst hgg
      refine ⟨by rw [htable, hid]; exact (hs.used g hg hgf).1, fun hn => ?_⟩
      exact Nat.pos_of_ne_zero fun h0 => hn (hfrep.2 h0)
    · rw [htable, hpages g hgg, hrep g hgg]; exact hs.used g hg hgf
  · rw [htable] at hq
    obtain ⟨h1, h2, h3⟩ := hs.table q g hq
    refine ⟨hpool ▸ h1, hfree ▸ h2, ?_⟩
    by_cases hgf : g = f
    · subst hgf; rw [hid, h3]
    · rw [hpages g hgf, h3]

theorem FrameInv.flushAllPgsImp (hs : FrameInv s) : FrameInv s.flushAllPgsImp :=
  ⟨hs.wf, hs.maxSize_eq, hs.free_nodup, hs.free, hs.evictable, hs.used, hs.table⟩

theorem FrameInv.evictable_iff (hs : FrameInv s) {p : Int} {f : Nat} (h : s.pageTable p = some f) :
    f ∈ s.replacer.frames ↔ (s.pages f).pinCount = 0 := by
  obtain ⟨hlt, hfree, -⟩ := hs.table p f h
  refine ⟨fun hf => (hs.evictable f hf).2, fun h0 => ?_⟩
  by_contra hn
  exact absurd ((hs.used f hlt hfree).2 hn) (by omega)

theorem FrameInv.flushPgImp (hs : FrameInv s) (p : Int) : FrameInv (s.flushPgImp p).2 := by
  unfold BufferPoolManagerInstance.flushPgImp
  split
  · exact hs
  · split
    · exact hs
    · rename_i f hf
      obtain ⟨hlt, hfree, -⟩ := hs.table p f hf
      refine hs.update_frame (f := f) rfl rfl rfl (fun g hg => by simp [hg]) (by simp) hs.wf rfl
        (fun _ _ => Iff.rfl) hfree hlt ?_
      simpa using hs.evictable_iff hf

theorem FrameInv.unpinPgImp (hs : FrameInv s) (p : Int) (d : Bool) :
    FrameInv (s.unpinPgImp p d).2 := by
  unfold BufferPoolManagerInstance.unpinPgImp
  split
  · exact hs
  · rename_i f hf
    obtain ⟨hlt, hfree, -⟩ := hs.table p f hf
    have hfrep := hs.evictable_iff hf
    dsimp only
    split
    · exact hs
    · rename_i hpin
      have hnot : f ∉ s.replacer.frames := fun h => hpin (by simp [hfrep.1 h])
      split
      · rename_i hz
        refine hs.update_frame (f := f) rfl rfl rfl (fun g hg => by simp [hg]) (by simp)
          (hs.wf.unpin f) (by simp) (fun g hg => ?_) hfree hlt ?_
        · simp [hs.wf.mem_frames_unpin f g (.inr (hs.room hlt hnot)), hg]
        · simp only [Function.update_same]
          exact ⟨fun _ => by simpa using hz, fun _ =>
            (hs.wf.mem_frames_unpin f f (.inr (hs.room hlt hnot))).2 (.inr rfl)⟩
      · rename_i hz
        refine hs.update_frame (f := f) rfl rfl rfl (fun g hg => by simp [hg]) (by simp) hs.wf rfl
          (fun _ _ => Iff.rfl) hfree hlt ?_
        simp only [Function.update_same]
        exact ⟨fun h => absurd h hnot, fun h => absurd (by simpa using h) hz⟩

theorem FrameInv.fetch_hit (hs : FrameInv s) {p : Int} {f : Nat} (hf : s.pageTable p = some f) :
    FrameInv { s with pages := Function.update s.pages f
                        { s.pages f with pinCount := (s.pages f).pinCount + 1 },
                      replacer := s.replacer.pin f } := by
  obtain ⟨hlt, hfree, -⟩ := hs.table p f hf
  refine hs.update_frame (f := f) rfl rfl rfl (fun g hg => by simp [hg]) (by simp) (hs.wf.pin f)
    (by simp) (fun g hg => by simp [hs.wf.mem_frames_pin, hg]) hfree hlt ?_
  simp [hs.wf.mem_frames_pin]

structure Taken (s t : BufferPoolManagerInstance D) (f : Nat) : Prop where
  poolSize_eq : t.poolSize = s.poolSize
  pages_eq : t.pages = s.pages
  maxSize_eq : t.replacer.maxSize = s.replacer.maxSize
  wf : t.replacer.WellFormed
  lt : f < s.poolSize
  unpinned : (s.pages f).pinCount = 0
  free_iff : ∀ g, g ∈ t.freeList ↔ g ∈ s.freeList ∧ g ≠ f
  free_nodup : t.freeList.Nodup
  frames_iff : ∀ g, g ∈ t.replacer.frames ↔ g ∈ s.replacer.frames ∧ g ≠ f
  table_eq : ∀ q, t.pageTable q = if s.pageTable q = some f then none else s.pageTable q
  disk_eq : t.disk = if f ∈ s.freeList then s.disk else writeBack s.disk (s.pages f)

theorem Taken.withNext {t : BufferPoolManagerInstance D} {f : Nat} (ht : Taken s t f) (x : Int) :
    Taken s { t with nextPageId := x } f :=
  ⟨ht.poolSize_eq, ht.pages_eq, ht.maxSize_eq, ht.wf, ht.lt, ht.unpinned, ht.free_iff,
    ht.free_nodup, ht.frames_iff, ht.table_eq, ht.disk_eq⟩

theorem FrameInv.takeFrame {t : BufferPoolManagerInstance D} {f : Nat} (hs : FrameInv s)
    (h : s.takeFrame = some (f, t)) : Taken s t f := by
  unfold BufferPoolManagerInstance.takeFrame at h
  split at h
  · rename_i g rest hl
    cases h
    have hf : f ∈ s.freeList := hl ▸ List.mem_cons_self _ _
    have hnd := hl ▸ hs.free_nodup
    obtain ⟨hlt, hnf, -, hpin⟩ := hs.free f hf
    refine ⟨rfl, rfl, rfl, hs.wf, hlt, hpin, fun g => ?_, (List.nodup_cons.1 hnd).2,
      fun g => ⟨fun hg => ⟨hg, by rintro rfl; exact hnf hg⟩, And.left⟩, fun q => ?_, by simp [hf]⟩
    · rw [hl, List.mem_cons]
      exact ⟨fun hg => ⟨.inr hg, by rintro rfl; exact (List.nodup_cons.1 hnd).1 hg⟩,
        fun ⟨hg, hne⟩ => hg.resolve_left hne⟩
    · split
      · rename_i hq; exact absurd hf (hs.table q f hq).2.1
      · rfl
  · rename_i hl
    split at h
    · cases h
    · rename_i g r hv
      cases h
      obtain ⟨hwf, hfr⟩ := hs.wf.victim hv
      have hf : f ∈ s.replacer.frames := by simp [hfr]
      have hnd := hfr ▸ hs.wf.frames_nodup
      obtain ⟨hlt, hpin⟩ := hs.evictable f hf
      have hfree : f ∉ s.freeList := by simp [hl]
      refine ⟨rfl, rfl, ?_, hwf, hlt, hpin, by simp [hl], by simp [hl], fun g => ?_, fun q => ?_,
        by simp [hl]⟩
      · have := LruReplacer.maxSize_victim hv; exact this
      · rw [hfr, List.mem_append, List.mem_singleton]
        refine ⟨fun hg => ⟨.inl hg, by rintro rfl; exact (List.nodup_append.1 hnd).2.2 hg (List.mem_singleton_self _)⟩,
          fun ⟨hg, hne⟩ => hg.resolve_right hne⟩
      · have hused := (hs.used f hlt hfree).1
        by_cases hq : q = (s.pages f).pageId
        · subst hq; simp [hused]
        · show Function.update s.pageTable _ none q = _
          rw [Function.update_noteq hq]
          split
          · rename_i hqf; exact absurd (hs.resident hqf).symm hq
          · rfl

theorem FrameInv.install_of_taken {t : BufferPoolManagerInstance D} {f : Nat} {p : Int} (hs : FrameInv s)
    (ht : Taken s t f) (hp : t.pageTable p = none) (data : D) : FrameInv (t.install f p data) := by
  have hfs : f ∉ t.freeList := fun h => ((ht.free_iff f).1 h).2 rfl
  refine ⟨ht.wf.pin f, by simp [install, ht.maxSize_eq, hs.maxSize_eq, ht.poolSize_eq],
    ht.free_nodup, fun g hg => ?_, fun g hg => ?_, fun g hg hgf => ?_, fun q g hq => ?_⟩
  · obtain ⟨hg, hne⟩ := (ht.free_iff g).1 hg
    have := hs.free g hg
    simp only [install, ht.wf.mem_frames_pin, ht.frames_iff, Function.update_noteq hne,
      ht.pages_eq, ht.poolSize_eq]
    exact ⟨this.1, fun h => this.2.1 h.1.1, this.2.2⟩
  · simp only [install, ht.wf.mem_frames_pin, ht.frames_iff] at hg
    simp only [install, Function.update_noteq hg.2, ht.pages_eq, ht.poolSize_eq]
    exact hs.evictable g hg.1.1
  · simp only [install, ht.poolSize_eq] at hg hgf ⊢
    by_cases hgf' : g = f
    · subst hgf'; simp [Function.update_apply]
    · have hgs : g ∉ s.freeList := fun h => hgf ((ht.free_iff g).2 ⟨h, hgf'⟩)
      obtain ⟨hu, hpin⟩ := hs.used g hg hgs
      have htg : t.pageTable (s.pages g).pageId = some g := by simp [ht.table_eq, hu, hgf']
      have hne : (s.pages g).pageId ≠ p := by rintro e; rw [e, hp] at htg; cases htg
      rw [Function.update_noteq hgf', ht.pages_eq, Function.update_noteq hne, htg]
      simp only [ht.wf.mem_frames_pin, ht.frames_iff, true_and]
      exact fun h => hpin fun h' => h ⟨⟨h', hgf'⟩, hgf'⟩
  · simp only [install] at hq ⊢
    by_cases hqp : q = p
    · subst hqp
      simp only [Function.update_same, Option.some.injEq] at hq
      subst hq
      simp [ht.poolSize_eq, ht.lt, hfs]
    · rw [Function.update_noteq hqp, ht.table_eq] at hq
      split at hq
      · cases hq
      · rename_i hqf
        obtain ⟨h1, h2, h3⟩ := hs.table q g hq
        have hgf : g ≠ f := by rintro rfl; exact hqf hq
        simp only [ht.poolSize_eq, Function.update_noteq hgf, ht.pages_eq, h1, h3, true_and, and_true]
        exact fun h => h2 ((ht.free_iff g).1 h).1

theorem Taken.install_table {t : BufferPoolManagerInstance D} {f g : Nat} {p q : Int}
    (ht : Taken s t f) {data : D} (h : (t.install f p data).pageTable q = some g) :
    (q = p ∧ g = f) ∨ (q ≠ p ∧ g ≠ f ∧ s.pageTable q = some g) := by
  simp only [install] at h
  by_cases hq : q = p
  · subst hq; simp at h; exact .inl ⟨rfl, h.symm⟩
  · rw [Function.update_noteq hq, ht.table_eq] at h
    split at h
    · cases h
    · rename_i hqf
      exact .inr ⟨hq, by rintro rfl; exact hqf h, h⟩

theorem Taken.install_pages {t : BufferPoolManagerInstance D} {f g : Nat} {p : Int}
    (ht : Taken s t f) {data : D} (hg : g ≠ f) : (t.install f p data).pages g = s.pages g := by
  simp [install, Function.update_noteq hg, ht.pages_eq]

theorem Taken.table_none {t : BufferPoolManagerInstance D} {f : Nat} {p : Int} (ht : Taken s t f)
    (hp : s.pageTable p = none) : t.pageTable p = none := by
  simp [ht.table_eq, hp]

theorem FrameInv.newPgImp [Zero D] (hs : FrameInv s) (hfresh : s.pageTable s.nextPageId = none) :
    FrameInv s.newPgImp.2 := by
  unfold BufferPoolManagerInstance.newPgImp
  split
  · exact hs
  · rename_i f t ht
    have hT := hs.takeFrame ht
    have hT' := hT.withNext (toInt32 (t.nextPageId + t.numInstances))
    dsimp only [allocatePage]
    exact hs.install_of_taken hT' (by simpa [(takeFrame_params ht).1] using hT.table_none hfresh) 0

theorem FrameInv.fetchPgImp (hs : FrameInv s) (p : Int) : FrameInv (s.fetchPgImp p).2 := by
  unfold BufferPoolManagerInstance.fetchPgImp
  split
  · exact hs.fetch_hit ‹_›
  · rename_i hp
    split
    · exact hs
    · rename_i f t ht
      have hT := hs.takeFrame ht
      exact hs.install_of_taken hT (hT.table_none hp) _

theorem FrameInv.deletePgImp [Zero D] (hs : FrameInv s) (p : Int) : FrameInv (s.deletePgImp p).2 := by
  unfold BufferPoolManagerInstance.deletePgImp
  split
  · exact hs
  · rename_i f hf
    dsimp only
    split
    · exact hs
    · rename_i hpin
      dsimp only
      obtain ⟨hlt, hfree, hid⟩ := hs.table p f hf
      rw [hid]
      have hnd : (s.freeList ++ [f]).Nodup := List.nodup_append.2 ⟨hs.free_nodup, List.nodup_singleton _,
        fun g hg hg' => hfree (List.mem_singleton.1 hg' ▸ hg)⟩
      refine ⟨hs.wf.pin f, by simp [hs.maxSize_eq], hnd, fun g hg => ?_, fun g hg => ?_,
        fun g hg hgf => ?_, fun q g hq => ?_⟩
      · dsimp only at hg ⊢
        simp only [List.mem_append, List.mem_singleton] at hg
        rcases hg with hg | rfl
        · have hgf : g ≠ f := by rintro rfl; exact hfree hg
          have := hs.free g hg
          rw [Function.update_noteq hgf, hs.wf.mem_frames_pin]
          exact ⟨this.1, fun h => this.2.1 h.1, this.2.2⟩
        · simp [hs.wf.mem_frames_pin, emptyPage, hlt]
      · dsimp only at hg ⊢
        rw [hs.wf.mem_frames_pin] at hg
        rw [Function.update_noteq hg.2]
        exact hs.evictable g hg.1
      · dsimp only at hg hgf ⊢
        simp only [List.mem_append, List.mem_singleton, not_or] at hgf
        obtain ⟨hu, hpin'⟩ := hs.used g hg hgf.1
        have hne : (s.pages g).pageId ≠ p := by
          rintro e; rw [e, hf] at hu; exact hgf.2 (Option.some.inj hu).symm
        rw [Function.update_noteq hgf.2, Function.update_noteq hne, hu, hs.wf.mem_frames_pin]
        exact ⟨rfl, fun h => hpin' fun h' => h ⟨h', hgf.2⟩⟩
      · dsimp only at hq ⊢
        by_cases hqp : q = p
        · subst hqp; simp at hq
        · rw [Function.update_noteq hqp] at hq
          obtain ⟨h1, h2, h3⟩ := hs.table q g hq
          have hgf : g ≠ f := by rintro rfl; exact hqp (h3.symm.trans hid)
          rw [Function.update_noteq hgf]
          simp only [List.mem_append, List.mem_singleton, h1, h3, hgf, h2, or_self,
            not_false_eq_true, and_self]

end BufferPoolManagerInstance

end Bustub
