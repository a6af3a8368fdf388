import Bustub.Buffer.LruReplacer

/-!
`buffer/buffer_pool_manager_instance.cpp`, with the disk as part of the state: `disk p` is the
block last written for page `p`.
-/

namespace Bustub

structure Page (D : Type) where
  pageId : Int
  pinCount : Nat
  isDirty : Bool
  data : D

structure BufferPoolManagerInstance (D : Type) where
  poolSize : Nat
  numInstances : Nat
  instanceIndex : Nat
  nextPageId : Int
  pages : Nat → Page D
  pageTable : Int → Option Nat
  freeList : List Nat
  replacer : LruReplacer
  disk : Int → D

namespace BufferPoolManagerInstance

variable {D : Type}

def emptyPage [Zero D] : Page D := ⟨invalidPageId, 0, false, 0⟩

def init [Zero D] (poolSize numInstances instanceIndex : Nat) (disk : Int → D) :
    BufferPoolManagerInstance D where
  poolSize := poolSize
  numInstances := numInstances
  instanceIndex := instanceIndex
  nextPageId := toInt32 instanceIndex
  pages := fun _ => emptyPage
  pageTable := fun _ => none
  freeList := List.range poolSize
  replacer := LruReplacer.init poolSize
  disk := disk

def allocatePage (s : BufferPoolManagerInstance D) : Int × BufferPoolManagerInstance D :=
  (s.nextPageId, { s with nextPageId := toInt32 (s.nextPageId + s.numInstances) })

/-- The condition `ValidatePageId` asserts: `page_id % num_instances_` is computed on the
page id converted to `uint32_t`. -/
def validatePageId (s : BufferPoolManagerInstance D) (pageId : Int) : Bool :=
  (pageId % 2 ^ 32).toNat % s.numInstances == s.instanceIndex

def writeBack (disk : Int → D) (page : Page D) : Int → D :=
  if page.isDirty then Function.update disk page.pageId page.data else disk

def takeFrame (s : BufferPoolManagerInstance D) : Option (Nat × BufferPoolManagerInstance D) :=
  match s.freeList with
  | f :: rest => some (f, { s with freeList := rest })
  | [] =>
    match s.replacer.victim with
    | none => none
    | some (f, r) =>
      some (f, { s with replacer := r, disk := writeBack s.disk (s.pages f),
                        pageTable := Function.update s.pageTable (s.pages f).pageId none })

def install (s : BufferPoolManagerInstance D) (f : Nat) (pageId : Int) (data : D) :
    BufferPoolManagerInstance D :=
  { s with pages := Function.update s.pages f ⟨pageId, 1, false, data⟩,
           pageTable := Function.update s.pageTable pageId (some f),
           replacer := s.replacer.pin f }

@[simp] theorem install_numInstances (s : BufferPoolManagerInstance D) (f : Nat) (p : Int) (d : D) :
    (s.install f p d).numInstances = s.numInstances := rfl

@[simp] theorem install_instanceIndex (s : BufferPoolManagerInstance D) (f : Nat) (p : Int) (d : D) :
    (s.install f p d).instanceIndex = s.instanceIndex := rfl

def newPgImp [Zero D] (s : BufferPoolManagerInstance D) :
    Option (Int × Nat) × BufferPoolManagerInstance D :=
  match s.takeFrame with
  | none => (none, s)
  | some (f, s) =>
    let (newPageId, s) := s.allocatePage
    (some (newPageId, f), s.install f newPageId 0)

def fetchPgImp (pageId : Int) (s : BufferPoolManagerInstance D) :
    Option Nat × BufferPoolManagerInstance D :=
  match s.pageTable pageId with
  | some f =>
    (some f, { s with pages := Function.update s.pages f
                        { s.pages f with pinCount := (s.pages f).pinCount + 1 },
                      replacer := s.replacer.pin f })
  | none =>
    match s.takeFrame with
    | none => (none, s)
    | some (f, s) => (some f, s.install f pageId (s.disk pageId))

def unpinPgImp (pageId : Int) (isDirty : Bool) (s : BufferPoolManagerInstance D) :
    Bool × BufferPoolManagerInstance D :=
  match s.pageTable pageId with
  | none => (false, s)
  | some f =>
    let page := s.pages f
    if page.pinCount ≤ 0 then (false, s)
    else
      let page := { page with pinCount := page.pinCount - 1, isDirty := page.isDirty || isDirty }
      let s := { s with pages := Function.update s.pages f page }
      (true, if page.pinCount ≤ 0 then { s with replacer := s.replacer.unpin f } else s)

def deletePgImp [Zero D] (pageId : Int) (s : BufferPoolManagerInstance D) :
    Bool × BufferPoolManagerInstance D :=
  match s.pageTable pageId with
  | none => (true, s)
  | some f =>
    let page := s.pages f
    if page.pinCount > 0 then (false, s)
    else
      (true, { s with disk := writeBack s.disk page, replacer := s.replacer.pin f,
                      pageTable := Function.update s.pageTable page.pageId none,
                      pages := Function.update s.pages f emptyPage,
                      freeList := s.freeList ++ [f] })

def flushPgImp (pageId : Int) (s : BufferPoolManagerInstance D) :
    Bool × BufferPoolManagerInstance D :=
  if pageId = invalidPageId then (false, s)
  else
    match s.pageTable pageId with
    | none => (false, s)
    | some f =>
      (true, { s with disk := Function.update s.disk pageId (s.pages f).data,
                      pages := Function.update s.pages f { s.pages f with isDirty := false } })

def flushAllPgsImp (s : BufferPoolManagerInstance D) : BufferPoolManagerInstance D :=
  { s with disk := fun p =>
      match s.pageTable p with
      | some f => if (s.pages f).isDirty then (s.pages f).data else s.disk p
      | none => s.disk p }

variable {s s' : BufferPoolManagerInstance D}

theorem takeFrame_params {t : BufferPoolManagerInstance D} {f : Nat}
    (h : s.takeFrame = some (f, t)) : t.nextPageId = s.nextPageId ∧
      t.numInstances = s.numInstances ∧ t.instanceIndex = s.instanceIndex := by
  unfold BufferPoolManagerInstance.takeFrame at h
  split at h
  · cases h; exact ⟨rfl, rfl, rfl⟩
  · split at h
    · cases h
    · cases h; exact ⟨rfl, rfl, rfl⟩

theorem newPgImp_none [Zero D] (h : s.newPgImp = (none, s')) : s' = s ∧ s.takeFrame = none := by
  unfold newPgImp at h
  split at h
  · cases h; exact ⟨rfl, ‹_›⟩
  · cases h

theorem newPgImp_some [Zero D] {p : Int} {f : Nat} (h : s.newPgImp = (some (p, f), s')) :
    ∃ t, s.takeFrame = some (f, t) ∧ p = t.nextPageId ∧
      s' = { t with nextPageId := toInt32 (t.nextPageId + t.numInstances) }.install f p 0 := by
  unfold newPgImp at h
  split at h
  · cases h
  · rename_i f' t ht
    simp only [allocatePage, Prod.mk.injEq, Option.some.injEq] at h
    obtain ⟨⟨rfl, rfl⟩, rfl⟩ := h
    exact ⟨t, ht, rfl, rfl⟩

theorem fetchPgImp_hit {p : Int} {f : Nat} (hf : s.pageTable p = some f) :
    s.fetchPgImp p = (some f, { s with
      pages := Function.update s.pages f ({ s.pages f with pinCount := (s.pages f).pinCount + 1 }),
      replacer := s.replacer.pin f }) := by
  simp [fetchPgImp, hf]

theorem fetchPgImp_none {p : Int} (h : s.fetchPgImp p = (none, s')) :
    s' = s ∧ s.pageTable p = none ∧ s.takeFrame = none := by
  unfold fetchPgImp at h
  split at h
  · cases h
  · rename_i hp
    split at h
    · cases h; exact ⟨rfl, hp, ‹_›⟩
    · cases h

theorem fetchPgImp_miss {p : Int} {f : Nat} (hp : s.pageTable p = none)
    (h : s.fetchPgImp p = (some f, s')) :
    ∃ t, s.takeFrame = some (f, t) ∧ s' = t.install f p (t.disk p) := by
  simp only [fetchPgImp, hp] at h
  split at h
  · cases h
  · rename_i f' t ht
    simp only [Prod.mk.injEq, Option.some.injEq] at h
    obtain ⟨rfl, rfl⟩ := h
    exact ⟨t, ht, rfl⟩

theorem unpinPgImp_false {p : Int} {d : Bool} (h : s.unpinPgImp p d = (false, s')) : s' = s := by
  unfold unpinPgImp at h
  split at h
  · cases h; rfl
  · dsimp only at h
    split at h
    · cases h; rfl
    · cases h

theorem unpinPgImp_true {p : Int} {d : Bool} (h : s.unpinPgImp p d = (true, s')) :
    ∃ f, s.pageTable p = some f ∧ 0 < (s.pages f).pinCount ∧
      s'.pages = Function.update s.pages f
        ({ s.pages f with pinCount := (s.pages f).pinCount - 1, isDirty := (s.pages f).isDirty || d }) ∧
      s'.pageTable = s.pageTable ∧ s'.disk = s.disk ∧ s'.freeList = s.freeList ∧
      s'.poolSize = s.poolSize ∧ s'.nextPageId = s.nextPageId ∧
      s'.numInstances = s.numInstances ∧ s'.instanceIndex = s.instanceIndex := by
  unfold unpinPgImp at h
  split at h
  · cases h
  · rename_i f hf
    dsimp only at h
    split at h
    · cases h
    · rename_i hpin
      simp only [Prod.mk.injEq, true_and] at h
      subst h
      refine ⟨f, hf, by omega, ?_⟩
      split <;> exact ⟨rfl, rfl, rfl, rfl, rfl, rfl, rfl, rfl⟩

theorem deletePgImp_eq [Zero D] {p : Int} {b : Bool} (h : s.deletePgImp p = (b, s')) :
    s' = s ∨ ∃ f, s.pageTable p = some f ∧ (s.pages f).pinCount = 0 ∧ b = true ∧
      s' = { s with disk := writeBack s.disk (s.pages f), replacer := s.replacer.pin f,
                    pageTable := Function.update s.pageTable (s.pages f).pageId none,
                    pages := Function.update s.pages f emptyPage,
                    freeList := s.freeList ++ [f] } := by
  unfold deletePgImp at h
  split at h
  · cases h; exact .inl rfl
  · rename_i f hf
    dsimp only at h
    split at h
    · cases h; exact .inl rfl
    · rename_i hpin
      simp only [Prod.mk.injEq] at h
      obtain ⟨rfl, rfl⟩ := h
      exact .inr ⟨f, hf, by omega, rfl, rfl⟩

theorem flushPgImp_eq (p : Int) :
    (s.flushPgImp p).2 = s ∨ ∃ f, p ≠ invalidPageId ∧ s.pageTable p = some f ∧
      s.flushPgImp p = (true, { s with
        disk := Function.update s.disk p (s.pages f).data,
        pages := Function.update s.pages f ({ s.pages f with isDirty := false }) }) := by
  unfold flushPgImp
  split
  · exact .inl rfl
  · rename_i hp
    split
    · exact .inl rfl
    · rename_i f hf
      exact .inr ⟨f, hp, hf, rfl⟩

theorem params_newPgImp [Zero D] (s : BufferPoolManagerInstance D) :
    s.newPgImp.2.numInstances = s.numInstances ∧ s.newPgImp.2.instanceIndex = s.instanceIndex := by
  rcases h : s.newPgImp with ⟨_ | ⟨p, f⟩, s'⟩
  · obtain ⟨rfl, -⟩ := newPgImp_none h; exact ⟨rfl, rfl⟩
  · obtain ⟨t, ht, -, rfl⟩ := newPgImp_some h; exact (takeFrame_params ht).2

theorem params_fetchPgImp (s : BufferPoolManagerInstance D) (p : Int) :
    (s.fetchPgImp p).2.numInstances = s.numInstances ∧
      (s.fetchPgImp p).2.instanceIndex = s.instanceIndex := by
  rcases h : s.fetchPgImp p with ⟨_ | f, s'⟩
  · obtain ⟨rfl, -⟩ := fetchPgImp_none h; exact ⟨rfl, rfl⟩
  · rcases hp : s.pageTable p with _ | f'
    · obtain ⟨t, ht, rfl⟩ := fetchPgImp_miss hp h; exact (takeFrame_params ht).2
    · rw [fetchPgImp_hit hp] at h; cases h; exact ⟨rfl, rfl⟩

theorem params_unpinPgImp (s : BufferPoolManagerInstance D) (p : Int) (d : Bool) :
    (s.unpinPgImp p d).2.numInstances = s.numInstances ∧
      (s.unpinPgImp p d).2.instanceIndex = s.instanceIndex := by
  rcases h : s.unpinPgImp p d with ⟨_ | _, s'⟩
  · obtain rfl := unpinPgImp_false h; exact ⟨rfl, rfl⟩
  · obtain ⟨-, -, -, -, -, -, -, -, -, hn, hidx⟩ := unpinPgImp_true h; exact ⟨hn, hidx⟩

theorem params_deletePgImp [Zero D] (s : BufferPoolManagerInstance D) (p : Int) :
    (s.deletePgImp p).2.numInstances = s.numInstances ∧
      (s.deletePgImp p).2.instanceIndex = s.instanceIndex := by
  rcases h : s.deletePgImp p with ⟨b, s'⟩
  rcases deletePgImp_eq h with rfl | ⟨f, -, -, -, rfl⟩ <;> exact ⟨rfl, rfl⟩

theorem params_flushPgImp (s : BufferPoolManagerInstance D) (p : Int) :
    (s.flushPgImp p).2.numInstances = s.numInstances ∧
      (s.flushPgImp p).2.instanceIndex = s.instanceIndex := by
  rcases flushPgImp_eq (s := s) p with h | ⟨f, -, -, h⟩ <;> rw [h] <;> exact ⟨rfl, rfl⟩

end BufferPoolManagerInstance

end Bustub
