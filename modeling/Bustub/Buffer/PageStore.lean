import Bustub.Buffer.FrameTable

/-!
The buffer pool seen as a page store: `view` is what a client finds for a page.
-/

namespace Bustub

namespace BufferPoolManagerInstance

variable {D : Type}

def view (s : BufferPoolManagerInstance D) (p : Int) : D :=
  match s.pageTable p with
  | some f => (s.pages f).data
  | none => s.disk p

def writeData (s : BufferPoolManagerInstance D) (p : Int) (data : D) : BufferPoolManagerInstance D :=
  match s.pageTable p with
  | some f => { s with pages := Function.update s.pages f { s.pages f with data := data } }
  | none => s

def Settled (s : BufferPoolManagerInstance D) : Prop :=
  ∀ p f, s.pageTable p = some f → (s.pages f).pinCount = 0 → (s.pages f).isDirty = false →
    (s.pages f).data = s.disk p

variable {s t : BufferPoolManagerInstance D} {p q : Int} {f : Nat}

theorem view_of_some (h : s.pageTable p = some f) : s.view p = (s.pages f).data := by
  simp [view, h]

theorem view_of_none (h : s.pageTable p = none) : s.view p = s.disk p := by
  simp [view, h]

theorem view_eq_of_data (htab : t.pageTable = s.pageTable)
    (hdata : ∀ g, (t.pages g).data = (s.pages g).data)
    (hdisk : ∀ q, s.pageTable q = none → t.disk q = s.disk q) : t.view = s.view := by
  funext q
  rcases hq : s.pageTable q with _ | g
  · rw [view_of_none (htab ▸ hq), view_of_none hq, hdisk q hq]
  · rw [view_of_some (htab ▸ hq), view_of_some hq, hdata]

theorem data_update {x : Page D} (hx : x.data = (s.pages f).data) (g : Nat) :
    (Function.update s.pages f x g).data = (s.pages g).data := by
  by_cases hg : g = f
  · subst hg; simpa using hx
  · rw [Function.update_noteq hg]

theorem Taken.table_ne (ht : Taken s t f) (q : Int) : t.pageTable q ≠ some f := by
  rw [ht.table_eq]; split <;> simp_all

theorem Taken.disk_of_ne (hs : FrameInv s) (ht : Taken s t f) (hq : s.pageTable q ≠ some f) :
    t.disk q = s.disk q := by
  rw [ht.disk_eq]
  split
  · rfl
  · rename_i hf
    unfold writeBack
    split
    · exact Function.update_noteq (fun e => hq (by rw [e]; exact (hs.used f ht.lt hf).1)) _ _
    · rfl

theorem Taken.view_eq (hs : FrameInv s) (hset : Settled s) (ht : Taken s t f) : t.view = s.view := by
  funext q
  by_cases hq : s.pageTable q = some f
  · rw [view_of_none (by simp [ht.table_eq, hq]), view_of_some hq, ht.disk_eq,
      if_neg (hs.table q f hq).2.1, writeBack]
    split
    · rw [hs.resident hq, Function.update_same]
    · next hd => exact (hset q f hq ht.unpinned (by simpa using hd)).symm
  · rcases hs' : s.pageTable q with _ | g
    · rw [view_of_none (by simp [ht.table_eq, hs']), view_of_none hs', ht.disk_of_ne hs hq]
    · rw [view_of_some (f := g) (by rw [ht.table_eq, if_neg hq, hs']), view_of_some hs',
        ht.pages_eq]

theorem view_install {d : D} (hf : ∀ q, t.pageTable q ≠ some f) :
    (t.install f p d).view = Function.update t.view p d := by
  funext q
  by_cases hq : q = p
  · subst hq; simp [view, install]
  · rw [Function.update_noteq hq]
    rcases ht : t.pageTable q with _ | g
    · rw [view_of_none (by simp [install, Function.update_noteq hq, ht]), view_of_none ht]; rfl
    · have hg : g ≠ f := by rintro rfl; exact hf q ht
      rw [view_of_some (f := g) (by simp [install, Function.update_noteq hq, ht]), view_of_some ht]
      simp [install, Function.update_noteq hg]

theorem view_fetchPgImp_hit (h : s.pageTable p = some f) : (s.fetchPgImp p).2.view = s.view := by
  rw [fetchPgImp_hit h]
  exact view_eq_of_data rfl (data_update rfl) fun _ _ => rfl

theorem view_unpinPgImp (d : Bool) : (s.unpinPgImp p d).2.view = s.view := by
  rcases hu : s.unpinPgImp p d with ⟨_ | _, s'⟩
  · rw [unpinPgImp_false hu]
  · obtain ⟨f, -, -, hpages, htab, hdisk, -⟩ := unpinPgImp_true hu
    exact view_eq_of_data htab (fun g => by rw [hpages]; apply data_update; rfl)
      fun q _ => by rw [hdisk]

theorem view_flushPgImp (p : Int) : (s.flushPgImp p).2.view = s.view := by
  rcases flushPgImp_eq (s := s) p with h | ⟨f, -, hf, h⟩
  · rw [h]
  · rw [h]
    refine view_eq_of_data rfl (data_update rfl) fun q hq => Function.update_noteq ?_ _ _
    rintro rfl; simp [hf] at hq

theorem view_flushAllPgsImp : s.flushAllPgsImp.view = s.view :=
  view_eq_of_data rfl (fun _ => rfl) fun q hq => by simp [flushAllPgsImp, hq]

theorem view_deletePgImp [Zero D] (hs : FrameInv s) (hset : Settled s) (p : Int) :
    (s.deletePgImp p).2.view = s.view := by
  rcases hd : s.deletePgImp p with ⟨b, s'⟩
  rcases deletePgImp_eq hd with rfl | ⟨f, hf, hpin, -, rfl⟩
  · rfl
  have hid := hs.resident hf
  dsimp only
  rw [writeBack, hid]
  funext q
  by_cases hq : q = p
  · subst hq
    rw [view_of_none (by simp), view_of_some hf]
    split
    · simp
    · next hd => exact (hset q f hf hpin (by simpa using hd)).symm
  · rcases hs' : s.pageTable q with _ | g
    · rw [view_of_none (by simp [Function.update_noteq hq, hs']), view_of_none hs']
      split
      · simp [Function.update_noteq hq]
      · rfl
    · have hg : g ≠ f := by rintro rfl; exact hq (hs.table_inj hs' hf)
      rw [view_of_some (f := g) (by simp [Function.update_noteq hq, hs']), view_of_some hs']
      simp [Function.update_noteq hg]

theorem view_fetchPgImp (hs : FrameInv s) (hset : Settled s) (p : Int) :
    (s.fetchPgImp p).2.view = s.view := by
  rcases hp : s.pageTable p with _ | f
  · rcases hf : s.fetchPgImp p with ⟨_ | f, s'⟩
    · rw [(fetchPgImp_none hf).1]
    · obtain ⟨t, ht, rfl⟩ := fetchPgImp_miss hp hf
      have hT := hs.takeFrame ht
      rw [view_install hT.table_ne, hT.view_eq hs hset, hT.disk_of_ne hs (by simp [hp]),
        ← view_of_none hp, Function.update_eq_self]
  · exact view_fetchPgImp_hit hp

theorem disk_fetchPgImp (hs : FrameInv s) (p : Int) (hq : s.pageTable q = none) :
    (s.fetchPgImp p).2.disk q = s.disk q := by
  rcases hp : s.pageTable p with _ | f
  · rcases hf : s.fetchPgImp p with ⟨_ | f, s'⟩
    · rw [(fetchPgImp_none hf).1]
    · obtain ⟨t, ht, rfl⟩ := fetchPgImp_miss hp hf
      exact ((hs.takeFrame ht).disk_of_ne hs (by simp [hq]) : t.disk q = s.disk q)
  · rw [fetchPgImp_hit hp]

theorem disk_newPgImp [Zero D] (hs : FrameInv s) (hq : s.pageTable q = none) :
    s.newPgImp.2.disk q = s.disk q := by
  rcases hn : s.newPgImp with ⟨_ | ⟨p, f⟩, s'⟩
  · rw [(newPgImp_none hn).1]
  · obtain ⟨t, ht, -, rfl⟩ := newPgImp_some hn
    exact ((hs.takeFrame ht).disk_of_ne hs (by simp [hq]) : t.disk q = s.disk q)

theorem disk_deletePgImp [Zero D] (hs : FrameInv s) (p : Int) (hq : s.pageTable q = none) :
    (s.deletePgImp p).2.disk q = s.disk q := by
  rcases hd : s.deletePgImp p with ⟨b, s'⟩
  rcases deletePgImp_eq hd with rfl | ⟨f, hf, -, -, rfl⟩
  · rfl
  · show writeBack s.disk (s.pages f) q = s.disk q
    unfold writeBack
    split
    · exact Function.update_noteq (by rw [hs.resident hf]; rintro rfl; simp [hf] at hq) _ _
    · rfl

theorem disk_flushPgImp (p : Int) (hq : s.pageTable q = none) : (s.flushPgImp p).2.disk q = s.disk q := by
  rcases flushPgImp_eq (s := s) p with h | ⟨f, -, hf, h⟩
  · rw [h]
  · rw [h]
    exact Function.update_noteq (by rintro rfl; simp [hf] at hq) _ _

theorem view_writeData (hs : FrameInv s) (h : s.pageTable p = some f) (d : D) :
    (s.writeData p d).view = Function.update s.view p d := by
  funext q
  rw [writeData]
  simp only [h]
  by_cases hq : q = p
  · subst hq; simp [view, h]
  · rw [Function.update_noteq hq]
    rcases hs' : s.pageTable q with _ | g
    · simp [view, hs']
    · have hg : g ≠ f := by rintro rfl; exact hq (hs.table_inj hs' h)
      simp [view, hs', Function.update_noteq hg]

structure Tracked (s : BufferPoolManagerInstance D) (modified : Int → Nat) : Prop where
  clean : ∀ p f, s.pageTable p = some f → (s.pages f).isDirty = false → modified p = 0 →
    (s.pages f).data = s.disk p
  le : ∀ p f, s.pageTable p = some f → modified p ≤ (s.pages f).pinCount
  zero : ∀ p, s.pageTable p = none → modified p = 0

theorem Tracked.settled {m : Int → Nat} (htr : Tracked s m) : Settled s := fun p f hp h0 hd =>
  htr.clean p f hp hd (Nat.le_zero.1 (h0 ▸ htr.le p f hp))

theorem view_newPgImp [Zero D] (hs : FrameInv s) (hset : Settled s)
    (h : s.newPgImp = (some (p, f), t)) : t.view = Function.update s.view p 0 := by
  obtain ⟨t', ht, rfl, rfl⟩ := newPgImp_some h
  have hT := (hs.takeFrame ht).withNext (toInt32 (t'.nextPageId + t'.numInstances))
  rw [view_install hT.table_ne, hT.view_eq hs hset]

theorem writeData_of_some {d : D} (h : s.pageTable p = some f) :
    s.writeData p d = { s with pages := Function.update s.pages f { s.pages f with data := d } } := by
  simp [writeData, h]

@[simp] theorem numInstances_writeData {d : D} : (s.writeData p d).numInstances = s.numInstances := by
  unfold writeData; split <;> rfl

@[simp] theorem instanceIndex_writeData {d : D} :
    (s.writeData p d).instanceIndex = s.instanceIndex := by
  unfold writeData; split <;> rfl

@[simp] theorem nextPageId_writeData {d : D} : (s.writeData p d).nextPageId = s.nextPageId := by
  unfold writeData; split <;> rfl

@[simp] theorem pageTable_writeData {d : D} : (s.writeData p d).pageTable = s.pageTable := by
  unfold writeData; split <;> rfl

@[simp] theorem disk_writeData {d : D} : (s.writeData p d).disk = s.disk := by
  unfold writeData; split <;> rfl

@[simp] theorem pinCount_writeData {d : D} (g : Nat) :
    ((s.writeData p d).pages g).pinCount = (s.pages g).pinCount := by
  unfold writeData; split
  · simp only [Function.update_apply]; split <;> simp_all
  · rfl

theorem disk_unpinPgImp (d : Bool) : (s.unpinPgImp p d).2.disk = s.disk := by
  rcases hu : s.unpinPgImp p d with ⟨_ | _, s'⟩
  · rw [unpinPgImp_false hu]
  · exact (unpinPgImp_true hu).choose_spec.2.2.2.2.1

theorem FrameInv.writeData (hs : FrameInv s) (p : Int) (d : D) : FrameInv (s.writeData p d) := by
  rcases hp : s.pageTable p with _ | f
  · simpa [BufferPoolManagerInstance.writeData, hp] using hs
  · obtain ⟨hlt, hfree, -⟩ := hs.table p f hp
    rw [writeData_of_some hp]
    exact hs.update_frame rfl rfl rfl (fun g hg => Function.update_noteq hg _ _) (by simp) hs.wf rfl
      (fun _ _ => Iff.rfl) hfree hlt (by simpa using hs.evictable_iff hp)

variable {m : Int → Nat}

theorem Tracked.install_of_taken (hs : FrameInv s) (htr : Tracked s m) (ht : Taken s t f)
    (hp : s.pageTable p = none) {d : D} (hd : d = t.disk p) : Tracked (t.install f p d) m := by
  refine ⟨fun q g hq hdirty hm => ?_, fun q g hq => ?_, fun q hq => ?_⟩
  · rcases ht.install_table hq with ⟨rfl, rfl⟩ | ⟨-, hgf, hq⟩
    · simpa [install] using hd
    · rw [ht.install_pages hgf] at hdirty ⊢
      exact (htr.clean q g hq hdirty hm).trans (ht.disk_of_ne hs (by simpa [hq] using hgf)).symm
  · rcases ht.install_table hq with ⟨rfl, rfl⟩ | ⟨-, hgf, hq⟩
    · simp [htr.zero q hp]
    · rw [ht.install_pages hgf]; exact htr.le q g hq
  · have hqp : q ≠ p := by rintro rfl; simp [install] at hq
    have hq : t.pageTable q = none := by simpa [install, Function.update_noteq hqp] using hq
    rw [ht.table_eq] at hq
    split at hq
    · next hqf => simpa [ht.unpinned] using htr.le q f hqf
    · exact htr.zero q hq

theorem Tracked.fetchPgImp (hs : FrameInv s) (htr : Tracked s m) (p : Int) :
    Tracked (s.fetchPgImp p).2 m := by
  rcases hp : s.pageTable p with _ | f
  · rcases hf : s.fetchPgImp p with ⟨_ | f, s'⟩
    · rw [(fetchPgImp_none hf).1]; exact htr
    · obtain ⟨t, ht, rfl⟩ := fetchPgImp_miss hp hf
      exact htr.install_of_taken hs (hs.takeFrame ht) hp rfl
  · rw [fetchPgImp_hit hp]
    refine ⟨fun q g hq hd hm => ?_, fun q g hq => ?_, htr.zero⟩
    · by_cases hg : g = f
      · subst hg; simpa using htr.clean q g hq (by simpa using hd) hm
      · simp only [Function.update_noteq hg] at hd ⊢; exact htr.clean q g hq hd hm
    · by_cases hg : g = f
      · subst hg; simpa using (htr.le q g hq).trans (Nat.le_succ _)
      · simp only [Function.update_noteq hg]; exact htr.le q g hq

theorem Tracked.unpinPgImp (hs : FrameInv s) (htr : Tracked s m) (p : Int) (d : Bool)
    (hv : d = false → m p = 0 ∨ ∃ f, s.pageTable p = some f ∧ m p < (s.pages f).pinCount) :
    Tracked (s.unpinPgImp p d).2
      (if d && (s.unpinPgImp p d).1 then Function.update m p (m p - 1) else m) := by
  rcases hu : s.unpinPgImp p d with ⟨_ | _, s'⟩
  · rw [unpinPgImp_false hu]; simpa using htr
  obtain ⟨f, hf, hpos, hpages, htab, hdisk, -⟩ := unpinPgImp_true hu
  have hm : ∀ q ≠ p, (if d && true then Function.update m p (m p - 1) else m) q = m q := by
    intro q hq; split <;> simp [Function.update_noteq hq]
  refine ⟨fun q g hq hdirty hmq => ?_, fun q g hq => ?_, fun q hq => ?_⟩ <;>
    rw [htab] at hq
  · rw [hpages, hdisk] at *
    by_cases hg : g = f
    · subst hg
      obtain rfl := hs.table_inj hq hf
      simp only [Function.update_same, Bool.or_eq_false_iff] at hdirty ⊢
      obtain ⟨hdirty, rfl⟩ := hdirty
      exact htr.clean q g hq hdirty (by simpa using hmq)
    · have hqp : q ≠ p := by rintro rfl; exact hg (Option.some.inj (hq.symm.trans hf))
      rw [Function.update_noteq hg] at hdirty ⊢
      exact htr.clean q g hq hdirty (hm q hqp ▸ hmq)
  · rw [hpages]
    by_cases hg : g = f
    · subst hg
      obtain rfl := hs.table_inj hq hf
      have := htr.le q g hq
      simp only [Function.update_same]
      cases d
      · rcases hv rfl with h0 | ⟨f', hf', hlt⟩
        · simp [h0]
        · obtain rfl := Option.some.inj (hf'.symm.trans hq); simp; omega
      · simp; omega
    · have hqp : q ≠ p := by rintro rfl; exact hg (Option.some.inj (hq.symm.trans hf))
      rw [Function.update_noteq hg, hm q hqp]; exact htr.le q g hq
  · have hqp : q ≠ p := by rintro rfl; simp [hf] at hq
    rw [hm q hqp]; exact htr.zero q hq

theorem Tracked.deletePgImp [Zero D] (hs : FrameInv s) (htr : Tracked s m) (p : Int) :
    Tracked (s.deletePgImp p).2 m := by
  rcases hd : s.deletePgImp p with ⟨b, s'⟩
  rcases deletePgImp_eq hd with rfl | ⟨f, hf, hpin, -, rfl⟩
  · exact htr
  have hid := hs.resident hf
  have hres : ∀ q g, Function.update s.pageTable (s.pages f).pageId none q = some g →
      q ≠ p ∧ g ≠ f ∧ s.pageTable q = some g := fun q g hq => by
    rw [hid] at hq
    have hqp : q ≠ p := by rintro rfl; simp at hq
    rw [Function.update_noteq hqp] at hq
    exact ⟨hqp, by rintro rfl; exact hqp (hs.table_inj hq hf), hq⟩
  refine ⟨fun q g hq hdirty hm => ?_, fun q g hq => ?_, fun q hq => ?_⟩
  · obtain ⟨hqp, hg, hq⟩ := hres q g hq
    dsimp only at hdirty ⊢
    rw [Function.update_noteq hg] at hdirty ⊢
    rw [writeBack, hid]
    split
    · rw [Function.update_noteq hqp]; exact htr.clean q g hq hdirty hm
    · exact htr.clean q g hq hdirty hm
  · obtain ⟨-, hg, hq⟩ := hres q g hq
    dsimp only
    rw [Function.update_noteq hg]; exact htr.le q g hq
  · dsimp only at hq
    rw [hid] at hq
    by_cases hqp : q = p
    · subst hqp; exact Nat.le_zero.1 (hpin ▸ htr.le q f hf)
    · rw [Function.update_noteq hqp] at hq; exact htr.zero q hq

theorem Tracked.flushPgImp (hs : FrameInv s) (htr : Tracked s m) (p : Int) :
    Tracked (s.flushPgImp p).2 m := by
  rcases flushPgImp_eq (s := s) p with h | ⟨f, -, hf, h⟩
  · rw [h]; exact htr
  rw [h]
  refine ⟨fun q g hq hdirty hm => ?_, fun q g hq => ?_, htr.zero⟩ <;> dsimp only at hq ⊢
  · by_cases hg : g = f
    · subst hg; obtain rfl := hs.table_inj hq hf; simp
    · have hqp : q ≠ p := by rintro rfl; exact hg (Option.some.inj (hq.symm.trans hf))
      dsimp only at hdirty
      rw [Function.update_noteq hg] at hdirty ⊢
      rw [Function.update_noteq hqp]; exact htr.clean q g hq hdirty hm
  · by_cases hg : g = f
    · subst hg; simpa using htr.le q g hq
    · rw [Function.update_noteq hg]; exact htr.le q g hq

theorem Tracked.flushAllPgsImp (htr : Tracked s m) : Tracked s.flushAllPgsImp m := by
  refine ⟨fun q g (hq : s.pageTable q = some g) (hd : (s.pages g).isDirty = false) hm => ?_, htr.le,
    htr.zero⟩
  simpa [BufferPoolManagerInstance.flushAllPgsImp, hq, hd] using htr.clean q g hq hd hm

theorem Tracked.newPgImp [Zero D] (hs : FrameInv s) (htr : Tracked s m)
    (hfresh : s.pageTable s.nextPageId = none) (hzero : s.disk s.nextPageId = 0) :
    Tracked s.newPgImp.2 m := by
  rcases hn : s.newPgImp with ⟨_ | ⟨p, f⟩, s'⟩
  · rw [(newPgImp_none hn).1]; exact htr
  obtain ⟨t, ht, rfl, rfl⟩ := newPgImp_some hn
  have hT := (hs.takeFrame ht).withNext (toInt32 (t.nextPageId + t.numInstances))
  have hnext := (takeFrame_params ht).1
  rw [← hnext] at hfresh hzero
  exact htr.install_of_taken hs hT hfresh ((hT.disk_of_ne hs (by simp [hfresh])).trans hzero).symm

theorem Tracked.writeData (hs : FrameInv s) (htr : Tracked s m) (h : s.pageTable p = some f)
    (hpos : 0 < (s.pages f).pinCount) (d : D) :
    Tracked (s.writeData p d) (Function.update m p (max (m p) 1)) := by
  rw [writeData_of_some h]
  refine ⟨fun q g hq hdirty hm => ?_, fun q g hq => ?_, fun q hq => ?_⟩ <;> dsimp only at hq ⊢
  · dsimp only at hdirty
    by_cases hqp : q = p
    · subst hqp; simp at hm
    · have hg : g ≠ f := by rintro rfl; exact hqp (hs.table_inj hq h)
      rw [Function.update_noteq hqp] at hm
      rw [Function.update_noteq hg] at hdirty ⊢
      exact htr.clean q g hq hdirty hm
  · by_cases hqp : q = p
    · subst hqp
      obtain rfl := Option.some.inj (hq.symm.trans h)
      have := htr.le q g hq
      simp; omega
    · have hg : g ≠ f := by rintro rfl; exact hqp (hs.table_inj hq h)
      rw [Function.update_noteq hqp, Function.update_noteq hg]; exact htr.le q g hq
  · have hqp : q ≠ p := by rintro rfl; simp [h] at hq
    rw [Function.update_noteq hqp]; exact htr.zero q hq

end BufferPoolManagerInstance

namespace History

open BufferPoolManagerInstance

variable {D : Type} {h : History D}

theorem Inv.unallocated (hi : h.Inv) {k : Nat} (hk : h.allocs ≤ k)
    (hb : h.pool.instanceIndex + k * h.pool.numInstances < 2 ^ 32) :
    h.pool.pageTable (allocId h.pool.numInstances h.pool.instanceIndex k) = none := by
  rcases hp : h.pool.pageTable (allocId h.pool.numInstances h.pool.instanceIndex k) with _ | f
  · rfl
  · obtain ⟨j, hj, e⟩ := hi.allocated _ f hp
    have hjk : j * h.pool.numInstances ≤ k * h.pool.numInstances :=
      Nat.mul_le_mul_right _ (by omega)
    have := allocId_inj hi.pos hb (by omega) e
    omega

theorem Inv.allocId_ne (hi : h.Inv) {j k : Nat} (hjk : j < k)
    (hb : h.pool.instanceIndex + k * h.pool.numInstances < 2 ^ 32) :
    allocId h.pool.numInstances h.pool.instanceIndex j ≠
      allocId h.pool.numInstances h.pool.instanceIndex k := fun e => by
  have : j * h.pool.numInstances ≤ k * h.pool.numInstances := Nat.mul_le_mul_right _ hjk.le
  have := allocId_inj hi.pos (by omega) hb e
  omega

theorem Inv.writeData (hi : h.Inv) (p : Int) (d : D) :
    ({ h with pool := h.pool.writeData p d } : History D).Inv :=
  ⟨hi.frame.writeData p d, by simpa using hi.pos, by simpa using hi.idx_lt, by simpa using hi.next,
    by simpa using hi.allocated, by simpa using hi.pins⟩

@[simp] theorem pool_call_fetchPage [Zero D] (h : History D) (p : Int) :
    (h.call (.fetchPage p)).pool = (h.pool.fetchPgImp p).2 := by
  dsimp only [call]; split <;> (try split) <;> simp_all [resident]

@[simp] theorem pool_call_deletePage [Zero D] (h : History D) (p : Int) :
    (h.call (.deletePage p)).pool = (h.pool.deletePgImp p).2 := rfl

@[simp] theorem pool_call_flushPage [Zero D] (h : History D) (p : Int) :
    (h.call (.flushPage p)).pool = (h.pool.flushPgImp p).2 := rfl

@[simp] theorem pool_call_flushAllPages [Zero D] (h : History D) :
    (h.call .flushAllPages).pool = h.pool.flushAllPgsImp := rfl

theorem view_call [Zero D] (h : History D) (hs : FrameInv h.pool) (hset : Settled h.pool) {c : Call}
    (hc : c ≠ .newPage) : (h.call c).pool.view = h.pool.view := by
  cases c with
  | newPage => exact absurd rfl hc
  | fetchPage p => simpa using view_fetchPgImp hs hset p
  | unpinPage p d => simpa using view_unpinPgImp d
  | deletePage p => simpa using view_deletePgImp hs hset p
  | flushPage p => simpa using view_flushPgImp p
  | flushAllPages => simpa using view_flushAllPgsImp

theorem disk_call [Zero D] (h : History D) (hs : FrameInv h.pool) (c : Call) {q : Int}
    (hq : h.pool.pageTable q = none) : (h.call c).pool.disk q = h.pool.disk q := by
  cases c with
  | newPage => simpa using disk_newPgImp hs hq
  | fetchPage p => simpa using disk_fetchPgImp hs p hq
  | unpinPage p d => simp [disk_unpinPgImp]
  | deletePage p => simpa using disk_deletePgImp hs p hq
  | flushPage p => simpa using disk_flushPgImp p hq
  | flushAllPages => simp [flushAllPgsImp, hq]

theorem allocs_call [Zero D] (h : History D) (c : Call) (hc : c ≠ .newPage) :
    (h.call c).allocs = h.allocs := by
  cases c <;> simp only [call] <;> (try split) <;> (try split) <;> simp_all [resident]

end History

/-- Clients of one pool. Next to the run, `modified p` counts the pins held on `p` under which
its bytes changed, and `store p` holds the bytes last written to `p`, zeros since its
`NewPage`. -/
structure Session (D : Type) where
  hist : History D
  modified : Int → Nat
  store : Int → D

inductive Op (D : Type)
  | call (c : Call)
  | write (pageId : Int) (data : D)

namespace Session

open BufferPoolManagerInstance

variable {D : Type}

def released (m : Session D) : Call → Int → Nat
  | .unpinPage p true =>
    if (m.hist.pool.unpinPgImp p true).1 then Function.update m.modified p (m.modified p - 1)
    else m.modified
  | _ => m.modified

theorem released_unpinPage (m : Session D) (p : Int) (d : Bool) :
    m.released (.unpinPage p d) = if d && (m.hist.pool.unpinPgImp p d).1 then
      Function.update m.modified p (m.modified p - 1) else m.modified := by
  cases d <;> rfl

def created [Zero D] (m : Session D) : Call → Int → D
  | .newPage =>
    match m.hist.pool.newPgImp.1 with
    | some (p, _) => Function.update m.store p 0
    | none => m.store
  | _ => m.store

def step [Zero D] (m : Session D) : Op D → Session D
  | .call c => ⟨m.hist.call c, m.released c, m.created c⟩
  | .write p d => ⟨{ m.hist with pool := m.hist.pool.writeData p d },
      Function.update m.modified p (max (m.modified p) 1), Function.update m.store p d⟩

@[simp] theorem hist_step_call [Zero D] (m : Session D) (c : Call) :
    (m.step (.call c)).hist = m.hist.call c := rfl

@[simp] theorem modified_step_call [Zero D] (m : Session D) (c : Call) :
    (m.step (.call c)).modified = m.released c := rfl

@[simp] theorem store_step_call [Zero D] (m : Session D) (c : Call) :
    (m.step (.call c)).store = m.created c := rfl

@[simp] theorem pool_step_write [Zero D] (m : Session D) (p : Int) (d : D) :
    (m.step (.write p d)).hist.pool = m.hist.pool.writeData p d := rfl

@[simp] theorem allocs_step_write [Zero D] (m : Session D) (p : Int) (d : D) :
    (m.step (.write p d)).hist.allocs = m.hist.allocs := rfl

@[simp] theorem store_step_write [Zero D] (m : Session D) (p : Int) (d : D) :
    (m.step (.write p d)).store = Function.update m.store p d := rfl

def Valid (m : Session D) : Op D → Prop
  | .call c => m.hist.Valid c ∧ ∀ p, c = .unpinPage p false → m.modified p = 0 ∨
      ∃ f, m.hist.pool.pageTable p = some f ∧ m.modified p < (m.hist.pool.pages f).pinCount
  | .write p _ => ∃ f, m.hist.pool.pageTable p = some f ∧ 0 < (m.hist.pool.pages f).pinCount

def start [Zero D] (poolSize n idx : Nat) : Session D :=
  ⟨History.start poolSize n idx fun _ => 0, fun _ => 0, fun _ => 0⟩

inductive Reachable [Zero D] : Session D → Prop
  | start (poolSize n idx : Nat) (hn : 0 < n) (hidx : idx < n) : Reachable (start poolSize n idx)
  | step {m : Session D} (o : Op D) : Reachable m → m.Valid o → Reachable (m.step o)

structure Inv [Zero D] (m : Session D) : Prop where
  hist : m.hist.Inv
  tracked : Tracked m.hist.pool m.modified
  view_eq : ∀ k < m.hist.allocs,
    m.hist.pool.view (allocId m.hist.pool.numInstances m.hist.pool.instanceIndex k) =
      m.store (allocId m.hist.pool.numInstances m.hist.pool.instanceIndex k)
  fresh : ∀ k, m.hist.allocs ≤ k →
    m.hist.pool.instanceIndex + k * m.hist.pool.numInstances < 2 ^ 32 →
      m.hist.pool.disk (allocId m.hist.pool.numInstances m.hist.pool.instanceIndex k) = 0

variable [Zero D] {m : Session D}

theorem inv_start (poolSize n idx : Nat) (hn : 0 < n) (hidx : idx < n) :
    (start poolSize n idx : Session D).Inv where
  hist := History.inv_start poolSize n idx _ hn hidx
  tracked := ⟨fun p f h => by simp [start, History.start, init] at h,
    fun p f h => by simp [start, History.start, init] at h, fun _ _ => rfl⟩
  view_eq k hk := by simp [start, History.start] at hk
  fresh _ _ _ := rfl

theorem Inv.of_view (hi : m.Inv) {m' : Session D} (hh : m'.hist.Inv)
    (htr : Tracked m'.hist.pool m'.modified) (hallocs : m'.hist.allocs = m.hist.allocs)
    (hparams : m'.hist.pool.numInstances = m.hist.pool.numInstances ∧
      m'.hist.pool.instanceIndex = m.hist.pool.instanceIndex)
    (hview : m'.hist.pool.view = m.hist.pool.view) (hstore : m'.store = m.store)
    (hdisk : ∀ q, m.hist.pool.pageTable q = none → m'.hist.pool.disk q = m.hist.pool.disk q) :
    m'.Inv := by
  obtain ⟨hn, hidx⟩ := hparams
  refine ⟨hh, htr, fun k hk => ?_, fun k hk hb => ?_⟩
  · rw [hview, hstore, hn, hidx]; exact hi.view_eq k (hallocs ▸ hk)
  · rw [hn, hidx] at hb ⊢
    rw [hallocs] at hk
    rw [hdisk _ (hi.hist.unallocated hk hb)]
    exact hi.fresh k hk hb

theorem Inv.newPage (hi : m.Inv)
    (hb : (m.hist.call .newPage).allocs * m.hist.pool.numInstances < 2 ^ 32) :
    (m.step (.call .newPage)).Inv := by
  have hh := hi.hist.newPage hb
  rcases hnp : m.hist.pool.newPgImp with ⟨_ | ⟨p, f⟩, s'⟩
  · have e : m.step (.call .newPage) = m := by
      obtain ⟨e, -⟩ := newPgImp_none hnp
      simp [step, History.call, hnp, released, created, e]
    rw [e]; exact hi
  have hs := hi.hist.frame
  have hallocs : (m.hist.call .newPage).allocs = m.hist.allocs + 1 := by
    simp [History.call, hnp, History.resident]
  have hpool : (m.hist.call .newPage).pool = s' := by simp [hnp]
  have hstore : m.created .newPage = Function.update m.store p 0 := by simp [created, hnp]
  obtain ⟨hn, hidx⟩ := History.params_call m.hist .newPage
  rw [hpool] at hn hidx
  rw [hallocs] at hb
  obtain ⟨t, ht, hp, -⟩ := newPgImp_some hnp
  have hp' := hp.trans ((takeFrame_params ht).1.trans hi.hist.next)
  have hbk : m.hist.pool.instanceIndex + m.hist.allocs * m.hist.pool.numInstances < 2 ^ 32 := by
    have := hi.hist.idx_lt; rw [Nat.succ_mul] at hb; omega
  have hzero : m.hist.pool.disk m.hist.pool.nextPageId = 0 := by
    rw [hi.hist.next]; exact hi.fresh _ le_rfl hbk
  have htr := hi.tracked.newPgImp hs (hi.hist.fresh hb) hzero
  rw [hnp] at htr
  refine ⟨hh, hpool ▸ htr, fun k hk => ?_, fun k hk hbk' => ?_⟩
  · simp only [hist_step_call, store_step_call, hallocs] at hk ⊢
    rw [hpool, hstore, hn, hidx, view_newPgImp hs hi.tracked.settled hnp]
    rcases Nat.lt_succ_iff_lt_or_eq.1 hk with hk | rfl
    · have hne := hi.hist.allocId_ne hk hbk
      rw [← hp'] at hne
      rw [Function.update_noteq hne, Function.update_noteq hne]
      exact hi.view_eq k hk
    · rw [← hp', Function.update_same, Function.update_same]
  · simp only [hist_step_call, hallocs, hpool, hn, hidx] at hk hbk' ⊢
    have hk' : m.hist.allocs ≤ k := by omega
    have := disk_newPgImp hs (hi.hist.unallocated hk' hbk')
    rw [hnp] at this
    exact this.trans (hi.fresh k hk' hbk')

theorem Inv.call (hi : m.Inv) {c : Call} (hv : m.Valid (.call c))
    (hb : (m.hist.call c).allocs * m.hist.pool.numInstances < 2 ^ 32) :
    (m.step (.call c)).Inv := by
  by_cases hc : c = .newPage
  · subst hc; exact hi.newPage hb
  have hs := hi.hist.frame
  have htr : Tracked (m.hist.call c).pool (m.released c) := by
    cases c with
    | newPage => exact absurd rfl hc
    | fetchPage p => simpa [released] using hi.tracked.fetchPgImp hs p
    | unpinPage p d =>
      simpa [released_unpinPage] using hi.tracked.unpinPgImp hs p d fun hd => hv.2 p (by rw [hd])
    | deletePage p => simpa [released] using hi.tracked.deletePgImp hs p
    | flushPage p => simpa [released] using hi.tracked.flushPgImp hs p
    | flushAllPages => simpa [released] using hi.tracked.flushAllPgsImp
  refine hi.of_view (hi.hist.call hv.1 hb) htr (History.allocs_call _ _ hc)
    (History.params_call _ _) (m.hist.view_call hs hi.tracked.settled hc) ?_
    fun q hq => m.hist.disk_call hs c hq
  cases c <;> first | rfl | exact absurd rfl hc

theorem Inv.write (hi : m.Inv) {p : Int} {d : D} (hv : m.Valid (.write p d)) :
    (m.step (.write p d)).Inv := by
  obtain ⟨f, hf, hpos⟩ := hv
  have hs := hi.hist.frame
  refine ⟨hi.hist.writeData p d, hi.tracked.writeData hs hf hpos d, fun k hk => ?_,
    fun k hk hb => ?_⟩
  · simp only [pool_step_write, allocs_step_write, store_step_write, numInstances_writeData,
      instanceIndex_writeData, view_writeData hs hf] at hk ⊢
    by_cases e : allocId m.hist.pool.numInstances m.hist.pool.instanceIndex k = p
    · rw [e, Function.update_same, Function.update_same]
    · rw [Function.update_noteq e, Function.update_noteq e]; exact hi.view_eq k hk
  · simp only [pool_step_write, allocs_step_write, numInstances_writeData, instanceIndex_writeData,
      disk_writeData] at hk hb ⊢
    exact hi.fresh k hk hb

theorem allocs_le_step (m : Session D) (o : Op D) : m.hist.allocs ≤ (m.step o).hist.allocs := by
  cases o with
  | call c => exact History.allocs_le_call m.hist c
  | write p d => exact le_rfl

theorem numInstances_step (m : Session D) (o : Op D) :
    (m.step o).hist.pool.numInstances = m.hist.pool.numInstances := by
  cases o with
  | call c => exact (History.params_call m.hist c).1
  | write p d => exact numInstances_writeData

theorem Reachable.inv (hr : m.Reachable)
    (hb : m.hist.allocs * m.hist.pool.numInstances < 2 ^ 32) : m.Inv := by
  induction hr with
  | start poolSize n idx hn hidx => exact inv_start poolSize n idx hn hidx
  | @step m o _ hv ih =>
    rw [numInstances_step] at hb
    have hi := ih (lt_of_le_of_lt (Nat.mul_le_mul_right _ (allocs_le_step m o)) hb)
    cases o with
    | call c => exact hi.call hv hb
    | write p d => exact hi.write hv

omit [Zero D] in
theorem fetchPgImp_pageTable {s s' : BufferPoolManagerInstance D} {p : Int} {f : Nat}
    (h : s.fetchPgImp p = (some f, s')) : s'.pageTable p = some f := by
  rcases hp : s.pageTable p with _ | g
  · obtain ⟨t, -, rfl⟩ := fetchPgImp_miss hp h
    simp [install]
  · rw [fetchPgImp_hit hp] at h
    cases h
    exact hp

theorem page_store_refinement (hr : m.Reachable)
    (hb : m.hist.allocs * m.hist.pool.numInstances < 2 ^ 32) :
    (∀ k < m.hist.allocs,
      m.hist.pool.view (allocId m.hist.pool.numInstances m.hist.pool.instanceIndex k) =
        m.store (allocId m.hist.pool.numInstances m.hist.pool.instanceIndex k)) ∧
    (∀ p f s', m.Valid (.call (.fetchPage p)) → m.hist.pool.fetchPgImp p = (some f, s') →
      (s'.pages f).data = m.store p) ∧
    (∀ c, m.Valid (.call c) → (m.hist.call c).allocs * m.hist.pool.numInstances < 2 ^ 32 →
      ∀ k < m.hist.allocs,
        (m.hist.call c).pool.view (allocId m.hist.pool.numInstances m.hist.pool.instanceIndex k) =
          m.hist.pool.view (allocId m.hist.pool.numInstances m.hist.pool.instanceIndex k)) ∧
    (∀ p f, m.hist.pool.pageTable p = some f →
      (m.hist.pool.flushPgImp p).2.disk p = (m.hist.pool.flushPgImp p).2.view p) ∧
    (∀ p f, m.hist.pool.pageTable p = some f →
      ((m.hist.pool.pages f).isDirty = true ∨ m.modified p = 0) →
      m.hist.pool.flushAllPgsImp.disk p = m.hist.pool.flushAllPgsImp.view p) := by
  have hi := hr.inv hb
  have hs := hi.hist.frame
  refine ⟨hi.view_eq, fun p f s' hv h => ?_, fun c hv hb' k hk => ?_, fun p f hp => ?_,
    fun p f hp hd => ?_⟩
  · obtain ⟨⟨k, hk, e⟩, -⟩ := hv
    have := congrFun (view_fetchPgImp hs hi.tracked.settled p) p
    rw [h, view_of_some (fetchPgImp_pageTable h)] at this
    rw [this, e]
    exact hi.view_eq k hk
  · by_cases hc : c = .newPage
    · subst hc
      rcases hnp : m.hist.pool.newPgImp with ⟨_ | ⟨p, f⟩, s'⟩
      · simp [History.call, hnp, (newPgImp_none hnp).1]
      obtain ⟨t, ht, hp, -⟩ := newPgImp_some hnp
      have hallocs : (m.hist.call .newPage).allocs = m.hist.allocs + 1 := by
        simp [History.call, hnp, History.resident]
      rw [hallocs, Nat.succ_mul] at hb'
      have hne := hi.hist.allocId_ne hk (by have := hi.hist.idx_lt; omega)
      rw [← hi.hist.next, ← (takeFrame_params ht).1, ← hp] at hne
      simp only [History.pool_call_newPage, hnp]
      rw [view_newPgImp hs hi.tracked.settled hnp, Function.update_noteq hne]
    · rw [m.hist.view_call hs hi.tracked.settled hc]
  · simp [flushPgImp, hi.hist.resident_valid hb hp, hp, view]
  · rw [view_flushAllPgsImp, view_of_some hp]
    simp only [flushAllPgsImp, hp]
    rcases hd with hd | hm
    · simp [hd]
    · split
      · rfl
      · next hd => exact (hi.tracked.clean p f hp (by simpa using hd) hm).symm

theorem page_store_refinement_evict :
    let m := ((((start 1 1 0 : Session Nat).step (.call .newPage)).step (.write 0 7)).step
      (.call (.unpinPage 0 true))).step (.call .newPage)
    m.Reachable ∧ m.hist.allocs * m.hist.pool.numInstances < 2 ^ 32 ∧
    m.hist.pool.pageTable 0 = none ∧ m.hist.pool.disk 0 = 7 ∧
    (∀ k < m.hist.allocs,
      m.hist.pool.view (allocId m.hist.pool.numInstances m.hist.pool.instanceIndex k) =
        m.store (allocId m.hist.pool.numInstances m.hist.pool.instanceIndex k)) ∧
    (∀ p f s', m.Valid (.call (.fetchPage p)) → m.hist.pool.fetchPgImp p = (some f, s') →
      (s'.pages f).data = m.store p) ∧
    (∀ c, m.Valid (.call c) → (m.hist.call c).allocs * m.hist.pool.numInstances < 2 ^ 32 →
      ∀ k < m.hist.allocs,
        (m.hist.call c).pool.view (allocId m.hist.pool.numInstances m.hist.pool.instanceIndex k) =
          m.hist.pool.view (allocId m.hist.pool.numInstances m.hist.pool.instanceIndex k)) ∧
    (∀ p f, m.hist.pool.pageTable p = some f →
      (m.hist.pool.flushPgImp p).2.disk p = (m.hist.pool.flushPgImp p).2.view p) ∧
    (∀ p f, m.hist.pool.pageTable p = some f →
      ((m.hist.pool.pages f).isDirty = true ∨ m.modified p = 0) →
      m.hist.pool.flushAllPgsImp.disk p = m.hist.pool.flushAllPgsImp.view p) :=
  have hr : Reachable (((((start 1 1 0 : Session Nat).step (.call .newPage)).step (.write 0 7)).step
      (.call (.unpinPage 0 true))).step (.call .newPage)) :=
    ((((Reachable.start 1 1 0 (by decide) (by decide)).step (.call .newPage)
      ⟨trivial, fun _ h => by cases h⟩).step (.write 0 7) ⟨0, by decide, by decide⟩).step
      (.call (.unpinPage 0 true)) ⟨trivial, fun _ h => by cases h⟩).step (.call .newPage)
      ⟨trivial, fun _ h => by cases h⟩
  ⟨hr, by decide, by decide, by decide, page_store_refinement hr (by decide)⟩

theorem Reachable.iterate_spin {v : Nat} {c : Int} {a : Nat} (hr : m.Reachable)
    (hs : Spinning v (toInt32 c) a m.hist.pool) (hm : ∀ q, m.modified q = 0) (k : Nat) :
    ∃ m' : Session D, m'.Reachable ∧ m'.hist.pool = spin^[k] m.hist.pool ∧
      m.hist.allocs ≤ m'.hist.allocs ∧ (∀ q, m'.modified q = 0) ∧
      ∀ j, 0 < j → j ≤ k → m'.store (toInt32 (c + j)) = 0 := by
  induction k with
  | zero => exact ⟨m, hr, rfl, le_rfl, hm, fun j h0 hj => absurd hj (by omega)⟩
  | succ k ih =>
    obtain ⟨m', hr', e, hal, hm', hst⟩ := ih
    have hk := (hs.iterate_spin k).1
    rw [← e] at hk
    let m₁ := m'.step (.call .newPage)
    refine ⟨m₁.step (.call (.unpinPage m'.hist.pool.nextPageId false)),
      (hr'.step (.call .newPage) ⟨trivial, by simp⟩).step (.call (.unpinPage _ false))
        ⟨trivial, fun p hp => .inl ?_⟩, ?_,
      hal.trans ((allocs_le_step _ _).trans (allocs_le_step _ _)), fun q => hm' q, fun j h0 hj => ?_⟩
    · exact hm' p
    · rw [Function.iterate_succ_apply', ← e]
      simp [m₁, spin]
    · have hst₁ : m₁.store = Function.update m'.store m'.hist.pool.nextPageId 0 := by
        simp [m₁, created, hk.newPgImp_fst]
      simp only [store_step_call, created, hst₁]
      by_cases hj' : toInt32 (c + j) = m'.hist.pool.nextPageId
      · rw [hj', Function.update_same]
      · rw [Function.update_noteq hj']
        refine hst j h0 (Nat.le_of_lt_succ (Nat.lt_of_le_of_ne hj fun hjk => hj' ?_))
        rw [hk.next, hjk]
        simp [Int.add_assoc]

theorem page_store_refinement_wraps :
    ∃ m : Session Nat, m.Reachable ∧ m.Valid (.call (.fetchPage 0)) ∧
      ∃ f s', m.hist.pool.fetchPgImp 0 = (some f, s') ∧ (s'.pages f).data ≠ m.store 0 := by
  let m₀ : Session Nat := (((((start 1 1 0).step (.call .newPage)).step (.write 0 1)).step
    (.call (.unpinPage 0 true))).step (.call .newPage)).step (.call (.unpinPage 1 false))
  have hr₀ : m₀.Reachable :=
    (((((Reachable.start 1 1 0 (by decide) (by decide)).step (.call .newPage) ⟨trivial, by simp⟩).step
      (.write 0 1) ⟨0, rfl, by decide⟩).step (.call (.unpinPage 0 true)) ⟨trivial, by simp⟩).step
      (.call .newPage) ⟨trivial, by simp⟩).step (.call (.unpinPage 1 false))
      ⟨trivial, fun p hp => .inl (by cases hp; rfl)⟩
  have hs₀ : Spinning 0 (toInt32 1) 1 m₀.hist.pool := by
    refine ⟨rfl, rfl, rfl, rfl, rfl, rfl, fun f => ?_, by decide, rfl⟩
    show Function.update (Function.update (Function.update (fun _ => none) 0 (some 0)) 0 none) 0
      (some 1) f = _
    simp [Function.update_apply]
  have hm₀ : ∀ q, m₀.modified q = 0 := fun q => by
    show Function.update (Function.update (fun _ => 0) 0 1) 0 0 q = 0
    simp [Function.update_apply]
  have hal₀ : ∀ q ≠ toInt32 1, m₀.hist.pool.pageTable q = none := fun q hq => by
    have hq : q ≠ 1 := hq
    show Function.update (Function.update (Function.update (fun _ => none) 0 (some 0)) 0 none) 1
      (some 0) q = none
    simp [Function.update_apply, hq]
  obtain ⟨m, hr, e, hal, -, hst⟩ := hr₀.iterate_spin hs₀ hm₀ (2 ^ 32)
  obtain ⟨hs, -, hidx, hd, -, hone⟩ := hs₀.iterate_spin (2 ^ 32)
  rw [← e] at hs hidx hd hone
  have h1 : toInt32 (1 + ((2 ^ 32 : Nat) : Int)) = 1 := by decide
  rw [h1] at hs hone
  have h0 : m.hist.pool.pageTable 0 = none := hone hal₀ 0 (by decide)
  have hstore : m.store 0 = 0 := by
    have h := hst (2 ^ 32 - 1) (by decide) (by decide)
    have h' : toInt32 (1 + ((2 ^ 32 - 1 : Nat) : Int)) = 0 := by decide
    rwa [h'] at h
  have hv : m.Valid (.call (.fetchPage 0)) := ⟨⟨0, lt_of_lt_of_le (by decide) hal, by
    rw [hs.numInstances, hidx]; decide⟩, by simp⟩
  rcases hf : m.hist.pool.fetchPgImp 0 with ⟨_ | f, s'⟩
  · have := (fetchPgImp_none hf).2.2
    rw [hs.takeFrame_eq] at this
    cases this
  obtain ⟨t, ht, rfl⟩ := fetchPgImp_miss h0 hf
  rw [hs.takeFrame_eq, Option.some.injEq, Prod.mk.injEq] at ht
  obtain ⟨rfl, rfl⟩ := ht
  refine ⟨m, hr, hv, 0, _, hf, ?_⟩
  simp only [install, Function.update_same, hstore, hd]
  decide

end Session

end Bustub
