import Bustub.Container.BufferPoolTable

/-!
The pins the table leaves on the frames of a buffer pool instance.
-/

namespace Bustub

/-- The pool as the build with `NDEBUG` calls it: the `UnpinPage` and `DeletePage` calls made inside
`assert` are dropped. The rehash `Insert`s of `SplitInsert`, also inside `assert`, are still made
here, so only `GetValue`, which makes none, is run under it. -/
def PagePool.ndebug {σ D : Type} (P : PagePool σ D) : PagePool σ D :=
  { P with unpinPage := fun _ _ s => (true, s), deletePage := fun _ s => (true, s) }

namespace ExtendibleHashTable

variable {K V : Type}

section Ndebug

variable {σ : Type} (P : PagePool σ (HashTablePage K V)) (t : ExtendibleHashTable σ)

@[simp] theorem fetchPage_ndebug (p : Int) : fetchPage P.ndebug p t = fetchPage P p t := rfl

@[simp] theorem unpinPage_ndebug (p : Int) (d : Bool) : unpinPage P.ndebug p d t = .ok t := rfl

@[simp] theorem directory_ndebug : directory P.ndebug t = directory P t := rfl

@[simp] theorem bucketAt_ndebug (p : Int) : bucketAt P.ndebug t p = bucketAt P t p := rfl

end Ndebug

section Pins

open BufferPoolManagerInstance

variable {t : ExtendibleHashTable (BufferPoolManagerInstance (HashTablePage K V))} {p : Int} {f : Nat}

theorem fetchPage_resident (h : t.pool.pageTable p = some f) :
    ∃ s, fetchPage BufferPoolManagerInstance.pool p t = .ok { t with pool := s } ∧
      s.pageTable = t.pool.pageTable ∧ s.view = t.pool.view ∧
      ∀ g, (s.pages g).pinCount = (t.pool.pages g).pinCount + if g = f then 1 else 0 := by
  refine ⟨(t.pool.fetchPgImp p).2, by simp [fetchPage, fetchPgImp_hit h],
    by simp [fetchPgImp_hit h], view_fetchPgImp_hit h, fun g => ?_⟩
  rw [fetchPgImp_hit h]
  by_cases hg : g = f
  · subst hg; simp
  · simp [hg]

theorem unpinPage_resident (h : t.pool.pageTable p = some f) (hpos : 0 < (t.pool.pages f).pinCount)
    (d : Bool) :
    ∃ s, unpinPage BufferPoolManagerInstance.pool p d t = .ok { t with pool := s } ∧
      s.pageTable = t.pool.pageTable ∧ s.view = t.pool.view ∧
      ∀ g, (s.pages g).pinCount = (t.pool.pages g).pinCount - if g = f then 1 else 0 := by
  obtain ⟨s, hu, ht, hp⟩ := unpinPgImp_of_pos h hpos d
  refine ⟨s, by simp [unpinPage, hu], ht,
    by simpa [hu] using view_unpinPgImp (s := t.pool) (p := p) d, fun g => ?_⟩
  by_cases hg : g = f
  · subst hg; simp [hp]
  · simp [hp, hg]

theorem reachable_getValue_frames :
    ∃ t, Reachable BufferPoolManagerInstance.pool (⟨fun k => k, 1, 1⟩ : HashConfig Nat)
        (BufferPoolManagerInstance.init 2 1 0 fun _ => (0 : HashTablePage Nat Nat)) t ∧
      t.writer = false ∧ t.readers = 0 ∧ t.directoryPageId ≠ invalidPageId ∧
      t.pool.pageTable t.directoryPageId = some 0 ∧
      (directory BufferPoolManagerInstance.pool t).pageId = t.directoryPageId ∧
      (directory BufferPoolManagerInstance.pool t).size = 1 ∧
      ∀ key, t.pool.pageTable (keyToPageId ⟨fun k => k, 1, 1⟩ key
        (directory BufferPoolManagerInstance.pool t)) = some 1 := by
  have hv : toInt32 ((0 : Nat) : Int) ≠ invalidPageId := by simp [toInt32, invalidPageId]
  rcases (frameSlots_runs_fresh (by decide : 2 ≤ 2) Nat.one_pos (by decide)
    (fun _ => (0 : HashTablePage Nat Nat)) hv).step ⟨fun k => k, 1, 1⟩ (by decide) (.getValue 3) with
    ⟨r, t, a, hx, hy, h⟩ | ⟨e, -, hy⟩
  · have ha : a.readers = 0 :=
      (congrArg (fun x => match x with | .ok (_, a) => a.readers | .error _ => 1) hy).symm
    have hd := OneSlotPool.directory_eq_oneSlot h.dir h.holds
    refine ⟨t, .step _ .init hx, h.writer, h.readers.trans ha, h.dir ▸ hv, h.dir ▸ h.holds.dirTable,
      by rw [hd, h.dir]; rfl, by rw [hd]; rfl, fun key => ?_⟩
    rw [hd, keyToPageId_oneSlot]
    exact h.holds.bucketTable
  · cases hy

theorem merge_past_size_leaks_directory_pin {i : Nat} (hw : t.writer = false) (hr : t.readers = 0)
    (hv : t.directoryPageId ≠ invalidPageId) (hf : t.pool.pageTable t.directoryPageId = some f)
    (hi : (directory BufferPoolManagerInstance.pool t).size ≤ i) :
    ∃ t', merge BufferPoolManagerInstance.pool i t = .ok t' ∧ t'.pool.view = t.pool.view ∧
      ∀ g, (t'.pool.pages g).pinCount = (t.pool.pages g).pinCount + if g = f then 1 else 0 := by
  obtain ⟨s, hs, -, hview, hpins⟩ := fetchPage_resident (t := { t with writer := true }) hf
  have hd : ∀ r w, directory BufferPoolManagerInstance.pool
      { t with pool := s, readers := r, writer := w } = directory BufferPoolManagerInstance.pool t :=
    fun _ _ => by simp [directory, hview]
  refine ⟨{ t with pool := s }, ?_, hview, hpins⟩
  rw [hr] at hs
  rw [HashTableDirectoryPage.size] at hi
  simp [merge, wLock, hw, hr, fetchDirectoryPage, hv, assertTrue, hs, hd, hi, wUnlock]

theorem merge_past_size_leaks_directory_pin_one :
    ∃ t, Reachable BufferPoolManagerInstance.pool (⟨fun k => k, 1, 1⟩ : HashConfig Nat)
        (BufferPoolManagerInstance.init 2 1 0 fun _ => (0 : HashTablePage Nat Nat)) t ∧
      t.writer = false ∧ t.readers = 0 ∧ t.directoryPageId ≠ invalidPageId ∧
      t.pool.pageTable t.directoryPageId = some 0 ∧
      (directory BufferPoolManagerInstance.pool t).size ≤ 1 ∧
      ∃ t', merge BufferPoolManagerInstance.pool 1 t = .ok t' ∧ t'.pool.view = t.pool.view ∧
        ∀ g, (t'.pool.pages g).pinCount = (t.pool.pages g).pinCount + if g = 0 then 1 else 0 := by
  obtain ⟨t, ht, hw, hr, hv, hf, -, hs, -⟩ := reachable_getValue_frames
  exact ⟨t, ht, hw, hr, hv, hf, hs.le,
    merge_past_size_leaks_directory_pin hw hr hv hf hs.le⟩

variable [DecidableEq K] (c : HashConfig K)

theorem getValue_ndebug_leaks_pins {key : K} {g : Nat} (hw : t.writer = false)
    (hv : t.directoryPageId ≠ invalidPageId)
    (hd : (directory BufferPoolManagerInstance.pool t).pageId = t.directoryPageId)
    (hf : t.pool.pageTable t.directoryPageId = some f)
    (hg : t.pool.pageTable (keyToPageId c key (directory BufferPoolManagerInstance.pool t)) =
      some g) :
    ∃ r t₁ t₂, getValue BufferPoolManagerInstance.pool c key t = .ok (r, t₁) ∧
      getValue BufferPoolManagerInstance.pool.ndebug c key t = .ok (r, t₂) ∧
      t₁.pool.view = t.pool.view ∧ t₂.pool.view = t.pool.view ∧
      (∀ h, (t₁.pool.pages h).pinCount = (t.pool.pages h).pinCount) ∧
      ∀ h, (t₂.pool.pages h).pinCount =
        (t.pool.pages h).pinCount + (if h = f then 1 else 0) + if h = g then 1 else 0 := by
  obtain ⟨s, dirId, n, w⟩ := t
  subst hw
  obtain ⟨s₁, h₁, ht₁, hv₁, hp₁⟩ := fetchPage_resident (t := ⟨s, dirId, n + 1, false⟩) hf
  have hdir : directory BufferPoolManagerInstance.pool ⟨s₁, dirId, n + 1, false⟩ =
      directory BufferPoolManagerInstance.pool ⟨s, dirId, n, false⟩ := by simp [directory, hv₁]
  obtain ⟨s₂, h₂, ht₂, hv₂, hp₂⟩ := fetchPage_resident (t := ⟨s₁, dirId, n + 1, false⟩)
    (by rw [ht₁]; exact hg)
  obtain ⟨s₃, h₃, ht₃, hv₃, hp₃⟩ := unpinPage_resident (t := ⟨s₂, dirId, n + 1, false⟩)
    (by rw [ht₂, ht₁]; exact hg) (by simp [hp₂]) false
  obtain ⟨s₄, h₄, -, hv₄, hp₄⟩ := unpinPage_resident (t := ⟨s₃, dirId, n + 1, false⟩)
    (by rw [ht₃, ht₂, ht₁]; exact hf) (by simp only [hp₃, hp₂, hp₁]; split_ifs <;> omega) false
  refine ⟨(bucketAt BufferPoolManagerInstance.pool ⟨s₂, dirId, n + 1, false⟩
      (keyToPageId c key (directory BufferPoolManagerInstance.pool ⟨s, dirId, n, false⟩))).getValue key,
    rUnlock ⟨s₄, dirId, n + 1, false⟩, rUnlock ⟨s₂, dirId, n + 1, false⟩, ?_, ?_,
    by simp [rUnlock, hv₄, hv₃, hv₂, hv₁], by simp [rUnlock, hv₂, hv₁], fun h => ?_, fun h => ?_⟩
  · simp [getValue, rLock, fetchDirectoryPage, hv, assertTrue, h₁, hdir, h₂, h₃, hd, h₄]
  · simp [getValue, rLock, fetchDirectoryPage, hv, assertTrue, h₁, hdir, h₂]
  · simp only [rUnlock, hp₄, hp₃, hp₂, hp₁]; split_ifs <;> omega
  · simp only [rUnlock, hp₂, hp₁]

theorem getValue_ndebug_leaks_pins_one :
    ∃ t, Reachable BufferPoolManagerInstance.pool (⟨fun k => k, 1, 1⟩ : HashConfig Nat)
        (BufferPoolManagerInstance.init 2 1 0 fun _ => (0 : HashTablePage Nat Nat)) t ∧
      t.writer = false ∧ t.directoryPageId ≠ invalidPageId ∧
      (directory BufferPoolManagerInstance.pool t).pageId = t.directoryPageId ∧
      t.pool.pageTable t.directoryPageId = some 0 ∧
      t.pool.pageTable (keyToPageId ⟨fun k => k, 1, 1⟩ 3
        (directory BufferPoolManagerInstance.pool t)) = some 1 ∧
      ∃ r t₁ t₂, getValue BufferPoolManagerInstance.pool ⟨fun k => k, 1, 1⟩ 3 t = .ok (r, t₁) ∧
        getValue BufferPoolManagerInstance.pool.ndebug ⟨fun k => k, 1, 1⟩ 3 t = .ok (r, t₂) ∧
        t₁.pool.view = t.pool.view ∧ t₂.pool.view = t.pool.view ∧
        (∀ h, (t₁.pool.pages h).pinCount = (t.pool.pages h).pinCount) ∧
        ∀ h, (t₂.pool.pages h).pinCount =
          (t.pool.pages h).pinCount + (if h = 0 then 1 else 0) + if h = 1 then 1 else 0 := by
  obtain ⟨t, ht, hw, -, hv, hf, hd, -, hg⟩ := reachable_getValue_frames
  exact ⟨t, ht, hw, hv, hd, hf, hg 3, getValue_ndebug_leaks_pins _ hw hv hd hf (hg 3)⟩

end Pins

section Runs

variable [DecidableEq K] [DecidableEq V] {c : HashConfig K} {poolSize n idx : Nat}
  {disk : Int → HashTablePage K V}
  {t : ExtendibleHashTable (BufferPoolManagerInstance (HashTablePage K V))}

theorem Reachable.frameTable (hc : 0 < c.bucketArraySize) (hsize : 2 ≤ poolSize) (hn : 0 < n)
    (hn32 : n < 2 ^ 32) (hv : toInt32 idx ≠ invalidPageId)
    (ht : Reachable BufferPoolManagerInstance.pool c (BufferPoolManagerInstance.init poolSize n idx disk) t) :
    t = ExtendibleHashTable.init (BufferPoolManagerInstance.init poolSize n idx disk) ∨
      ∃ a, (frameSlots (K := K) (V := V) (toInt32 idx) (toInt32 (idx + n)) hv).Table t a := by
  induction ht with
  | init => exact .inl rfl
  | @step t₀ _ _ op _ hcall ih =>
    obtain ⟨a, h⟩ : ∃ a, (frameSlots (K := K) (V := V) (toInt32 idx) (toInt32 (idx + n)) hv).Runs
        t₀ a := by
      rcases ih with rfl | ⟨a, h⟩
      · exact ⟨_, frameSlots_runs_fresh hsize hn hn32 disk hv⟩
      · exact ⟨a, h.runs⟩
    obtain ⟨a', -, h'⟩ := (h.step c hc op).ok_left hcall
    exact .inr ⟨a', h'⟩

theorem reachable_pins_released (hc : 0 < c.bucketArraySize) (hsize : 2 ≤ poolSize)
    (hidx : idx < n) (hn32 : n < 2 ^ 32)
    (ht : Reachable BufferPoolManagerInstance.pool c (BufferPoolManagerInstance.init poolSize n idx disk) t) :
    t = init (BufferPoolManagerInstance.init poolSize n idx disk) ∨
      t.directoryPageId = toInt32 idx ∧ t.writer = false ∧
        t.pool.pageTable (toInt32 idx) = some 0 ∧ (t.pool.pages 0).pinCount = 0 ∧
        t.pool.pageTable (toInt32 (idx + n)) = some 1 ∧ (t.pool.pages 1).pinCount = 0 := by
  rcases ht.frameTable hc hsize (by omega) hn32 (toInt32_ne_invalid_of_lt hidx hn32) with
    e | ⟨a, h⟩
  · exact .inl e
  · exact .inr ⟨h.dir, h.writer, h.holds.dirTable, h.holds.dirPins, h.holds.bucketTable,
      h.holds.bucketPins⟩

theorem reachable_pins_released_getValue :
    ∃ t, 0 < (⟨fun k => k, 1, 1⟩ : HashConfig Nat).bucketArraySize ∧ 2 ≤ 2 ∧ 0 < 1 ∧
      1 < 2 ^ 32 ∧
      Reachable BufferPoolManagerInstance.pool (⟨fun k => k, 1, 1⟩ : HashConfig Nat)
        (BufferPoolManagerInstance.init 2 1 0 fun _ => (0 : HashTablePage Nat Nat)) t ∧
      (t = init (BufferPoolManagerInstance.init 2 1 0 fun _ => (0 : HashTablePage Nat Nat)) ∨
        t.directoryPageId = toInt32 (0 : Nat) ∧ t.writer = false ∧
          t.pool.pageTable (toInt32 (0 : Nat)) = some 0 ∧ (t.pool.pages 0).pinCount = 0 ∧
          t.pool.pageTable (toInt32 ((0 : Nat) + (1 : Nat))) = some 1 ∧
          (t.pool.pages 1).pinCount = 0) := by
  obtain ⟨t, ht, -⟩ := reachable_getValue_frames
  exact ⟨t, by decide, by decide, by decide, by decide, ht,
    reachable_pins_released (by decide) (by decide) (by decide) (by decide) ht⟩

end Runs

end ExtendibleHashTable

end Bustub
