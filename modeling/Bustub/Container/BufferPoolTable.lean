import Bustub.Container.TableInvariant
import Bustub.Buffer.PageStore

/-!
The table over a buffer pool instance nobody else uses, against the table over memory.
-/

namespace Bustub

namespace BufferPoolManagerInstance

variable {D : Type} [Zero D]

def pool : PagePool (BufferPoolManagerInstance D) D where
  newPage s := match s.newPgImp with
    | (some (p, _), s') => some (p, s')
    | (none, _) => none
  fetchPage p s := match s.fetchPgImp p with
    | (some _, s') => some s'
    | (none, _) => none
  unpinPage := unpinPgImp
  deletePage := deletePgImp
  data := view
  setData p x s := s.writeData p x

variable {s : BufferPoolManagerInstance D} {p : Int} {f : Nat}

@[simp] theorem newPage_pool (s : BufferPoolManagerInstance D) :
    (pool : PagePool (BufferPoolManagerInstance D) D).newPage s = match s.newPgImp with
      | (some (p, _), s') => some (p, s')
      | (none, _) => none := rfl

@[simp] theorem unpinPage_pool (s : BufferPoolManagerInstance D) (p : Int) (d : Bool) :
    (pool : PagePool (BufferPoolManagerInstance D) D).unpinPage p d s = s.unpinPgImp p d := rfl

@[simp] theorem data_pool (s : BufferPoolManagerInstance D) (p : Int) :
    (pool : PagePool (BufferPoolManagerInstance D) D).data s p = s.view p := rfl

@[simp] theorem setData_pool (s : BufferPoolManagerInstance D) (p : Int) (x : D) :
    (pool : PagePool (BufferPoolManagerInstance D) D).setData p x s = s.writeData p x := rfl

@[simp] theorem fetchPage_pool (s : BufferPoolManagerInstance D) (p : Int) :
    (pool : PagePool (BufferPoolManagerInstance D) D).fetchPage p s = match s.fetchPgImp p with
      | (some _, s') => some s'
      | (none, _) => none := rfl

theorem fetchPage_pool_of_table (h : s.pageTable p = some f) :
    (pool : PagePool (BufferPoolManagerInstance D) D).fetchPage p s = some { s with
      pages := Function.update s.pages f { s.pages f with pinCount := (s.pages f).pinCount + 1 },
      replacer := s.replacer.pin f } := by
  simp [fetchPgImp_hit h]

omit [Zero D] in
theorem unpinPgImp_of_pos (h : s.pageTable p = some f) (hpos : 0 < (s.pages f).pinCount)
    (d : Bool) : ∃ s', s.unpinPgImp p d = (true, s') ∧ s'.pageTable = s.pageTable ∧
      s'.pages = Function.update s.pages f { s.pages f with
        pinCount := (s.pages f).pinCount - 1, isDirty := (s.pages f).isDirty || d } := by
  simp only [unpinPgImp, h, Nat.not_le.2 hpos, if_false]
  exact ⟨_, rfl, by split <;> rfl, by split <;> rfl⟩

end BufferPoolManagerInstance

namespace ExtendibleHashTable

variable {K V σ : Type}

def results {α : Type} (step : α → HashCall K V → Except Halt ((Bool × List V) × α))
    (x : α) : List (HashCall K V) → List (Except Halt (Bool × List V))
  | [] => []
  | op :: ops =>
    match step x op with
    | .ok (r, x') => .ok r :: results step x' ops
    | .error e => [.error e]

def SameResult {α β : Type} (R : α → β → Prop) (x : Except Halt ((Bool × List V) × α))
    (y : Except Halt ((Bool × List V) × β)) : Prop :=
  (∃ r x' y', x = .ok (r, x') ∧ y = .ok (r, y') ∧ R x' y') ∨ ∃ e, x = .error e ∧ y = .error e

theorem SameResult.mono {α β : Type} {R R' : α → β → Prop} (hR : ∀ x y, R x y → R' x y)
    {x : Except Halt ((Bool × List V) × α)} {y : Except Halt ((Bool × List V) × β)}
    (h : SameResult R x y) : SameResult R' x y := by
  rcases h with ⟨r, x', y', hx, hy, h⟩ | h
  · exact .inl ⟨r, x', y', hx, hy, hR x' y' h⟩
  · exact .inr h

theorem SameResult.ok_left {α β : Type} {R : α → β → Prop} {x : Except Halt ((Bool × List V) × α)}
    {y : Except Halt ((Bool × List V) × β)} (h : SameResult R x y) {r : Bool × List V} {x' : α}
    (hx : x = .ok (r, x')) : ∃ y', y = .ok (r, y') ∧ R x' y' := by
  rcases h with ⟨r, x₁, y₁, h₁, hy, h⟩ | ⟨e, h₁, -⟩ <;> rw [hx] at h₁ <;> cases h₁
  exact ⟨y₁, hy, h⟩

theorem SameResult.error_right {α β : Type} {R : α → β → Prop}
    {x : Except Halt ((Bool × List V) × α)} {y : Except Halt ((Bool × List V) × β)}
    (h : SameResult R x y) {e : Halt} (hy : y = .error e) : x = .error e := by
  rcases h with ⟨r, x₁, y₁, -, h₁, -⟩ | ⟨e', hx, h₁⟩ <;> rw [hy] at h₁ <;> cases h₁
  exact hx

theorem results_eq {α β : Type} {f : α → HashCall K V → Except Halt ((Bool × List V) × α)}
    {g : β → HashCall K V → Except Halt ((Bool × List V) × β)} (R : α → β → Prop)
    (hstep : ∀ x y op, R x y → SameResult R (f x op) (g y op)) {x : α} {y : β} (h : R x y)
    (ops : List (HashCall K V)) : results f x ops = results g y ops := by
  induction ops generalizing x y with
  | nil => rfl
  | cons op ops ih =>
    rcases hstep x y op h with ⟨r, x', y', hf, hg, h'⟩ | ⟨e, hf, hg⟩
    · simp [results, hf, hg, ih h']
    · simp [results, hf, hg]

def oneSlot (dirId bucketId : Int) : HashTableDirectoryPage :=
  { HashTableDirectoryPage.zero with pageId := dirId }.setBucketPageId 0 bucketId

@[simp] theorem pageId_oneSlot (dirId bucketId : Int) :
    (oneSlot dirId bucketId).pageId = dirId := rfl

theorem keyToDirectoryIndex_oneSlot (c : HashConfig K) (key : K) (dirId bucketId : Int) :
    keyToDirectoryIndex c key (oneSlot dirId bucketId) = 0 := by
  simp [keyToDirectoryIndex_eq, oneSlot, HashTableDirectoryPage.zero, Nat.mod_one]

theorem keyToPageId_oneSlot (c : HashConfig K) (key : K) (dirId bucketId : Int) :
    keyToPageId c key (oneSlot dirId bucketId) = bucketId := by
  rw [keyToPageId, keyToDirectoryIndex_oneSlot]; rfl

structure OneBucket (K V : Type) where
  bucket : HashTableBucketPage K V
  readers : Nat
  empty : readers = 0 → bucket.array = []

namespace OneBucket

def fresh : OneBucket K V := ⟨.empty, 0, fun _ => rfl⟩

variable [DecidableEq K] [DecidableEq V]

theorem remove_empty (a : OneBucket K V) (key : K) (value : V) :
    a.readers = 0 → (a.bucket.remove key value).2.array = [] := fun h =>
  List.sublist_nil.1 ((a.empty h) ▸ HashTableBucketPage.sublist_remove a.bucket key value)

def call (c : HashConfig K) (a : OneBucket K V) :
    HashCall K V → Except Halt ((Bool × List V) × OneBucket K V)
  | .getValue key => .ok (a.bucket.getValue key, a)
  | .insert key value =>
    if a.bucket.isFull c.bucketArraySize then .error .deadlock
    else
      let r := a.bucket.insert c.bucketArraySize key value
      .ok ((r.1, []), ⟨r.2, a.readers + 1, fun h => absurd h (Nat.succ_ne_zero _)⟩)
  | .remove key value =>
    let r := a.bucket.remove key value
    if r.2.isEmpty ∧ 0 < a.readers then .error .deadlock
    else .ok ((r.1, []), ⟨r.2, a.readers, a.remove_empty key value⟩)

end OneBucket

structure OneSlotPool (P : PagePool σ (HashTablePage K V)) (dirId bucketId : Int) where
  Holds : Nat → Nat → HashTableBucketPage K V → σ → Prop
  valid : dirId ≠ invalidPageId
  directory {i j b s} : Holds i j b s → P.data s dirId = .directory (oneSlot dirId bucketId)
  bucket {i j b s} : Holds i j b s → (P.data s bucketId).asBucket = b
  fetchDirectory {i j b s} : Holds i j b s →
    ∃ s', P.fetchPage dirId s = some s' ∧ Holds (i + 1) j b s'
  fetchBucket {i j b s} : Holds i j b s →
    ∃ s', P.fetchPage bucketId s = some s' ∧ Holds i (j + 1) b s'
  unpinDirectory {i j b s} (d : Bool) : Holds (i + 1) j b s →
    ∃ s', P.unpinPage dirId d s = (true, s') ∧ Holds i j b s'
  unpinBucket {i j b s} (d : Bool) : Holds i (j + 1) b s →
    ∃ s', P.unpinPage bucketId d s = (true, s') ∧ Holds i j b s'
  setBucket {i j b s} (b' : HashTableBucketPage K V) : Holds i (j + 1) b s →
    Holds i (j + 1) b' (P.setData bucketId (.bucket b') s)

namespace OneSlotPool

variable {P : PagePool σ (HashTablePage K V)} {dirId bucketId : Int}
  (L : OneSlotPool P dirId bucketId)

structure Table (t : ExtendibleHashTable σ) (a : OneBucket K V) : Prop where
  dir : t.directoryPageId = dirId
  holds : L.Holds 0 0 a.bucket t.pool
  readers : t.readers = a.readers
  writer : t.writer = false

structure Runs (t : ExtendibleHashTable σ) (a : OneBucket K V) : Prop where
  fetches : ∀ r w, ∃ t', fetchDirectoryPage P { t with readers := r, writer := w } = .ok t' ∧
    t'.directoryPageId = dirId ∧ L.Holds 1 0 a.bucket t'.pool ∧ t'.readers = r ∧ t'.writer = w
  readers : t.readers = a.readers
  writer : t.writer = false

variable {L} {t : ExtendibleHashTable σ} {a : OneBucket K V}

theorem directory_eq_oneSlot {i j : Nat} {b : HashTableBucketPage K V}
    (hd : t.directoryPageId = dirId) (h : L.Holds i j b t.pool) :
    ExtendibleHashTable.directory P t = oneSlot dirId bucketId := by
  simp [ExtendibleHashTable.directory, hd, L.directory h]

theorem Table.runs (h : L.Table t a) : L.Runs t a := by
  refine ⟨fun r w => ?_, h.readers, h.writer⟩
  obtain ⟨s', hf, hs'⟩ := L.fetchDirectory h.holds
  exact ⟨{ t with readers := r, writer := w, pool := s' }, by
    simp [fetchDirectoryPage, h.dir, L.valid, assertTrue, fetchPage, hf], h.dir, hs', rfl, rfl⟩

theorem Table.merge (h : L.Table t a) (h0 : t.readers = 0) :
    ∃ t', merge P 0 t = .ok t' ∧ L.Table t' a := by
  obtain ⟨t₁, hf, hd₁, h₁, hr₁, hw₁⟩ := h.runs.fetches 0 true
  obtain ⟨s₂, hu₂, h₂⟩ := L.unpinDirectory false h₁
  refine ⟨wUnlock { t₁ with pool := s₂ }, ?_, hd₁, h₂,
    hr₁.trans (h0.symm.trans h.readers), rfl⟩
  simp [ExtendibleHashTable.merge, wLock, h.writer, h0, hf, directory_eq_oneSlot hd₁ h₁,
    unpinPage, hu₂, oneSlot, HashTableDirectoryPage.zero]

theorem merge_deadlock (i : Nat) (h : t.readers ≠ 0) : merge P i t = .error .deadlock := by
  rw [merge, wLock, if_pos (.inr h)]; rfl

variable [DecidableEq K] [DecidableEq V]

theorem splitInsert_deadlock (c : HashConfig K) (key : K) (h : t.readers ≠ 0) :
    splitInsert P c key t = .error .deadlock := by
  rw [splitInsert, wLock, if_pos (.inr h)]; rfl

variable (c : HashConfig K)

theorem Runs.getValue (h : L.Runs t a) (key : K) :
    SameResult L.Table (call P c t (.getValue key)) (a.call c (.getValue key)) := by
  obtain ⟨t₁, hf, hd₁, h₁, hr₁, hw₁⟩ := h.fetches (t.readers + 1) false
  obtain ⟨s₂, hf₂, h₂⟩ := L.fetchBucket h₁
  obtain ⟨s₃, hu₃, h₃⟩ := L.unpinBucket false h₂
  obtain ⟨s₄, hu₄, h₄⟩ := L.unpinDirectory false h₃
  refine .inl ⟨_, rUnlock { t₁ with pool := s₄ }, a, ?_, rfl,
    ⟨hd₁, h₄, by simp [rUnlock, hr₁, h.readers], hw₁⟩⟩
  simp [call, ExtendibleHashTable.getValue, rLock, h.writer, hf, directory_eq_oneSlot hd₁ h₁,
    keyToPageId_oneSlot, fetchPage, hf₂, bucketAt, L.bucket h₂, unpinPage, hu₃, hu₄]

theorem Runs.insert (hc : 0 < c.bucketArraySize) (h : L.Runs t a) (key : K) (value : V) :
    SameResult L.Table (call P c t (.insert key value)) (a.call c (.insert key value)) := by
  obtain ⟨t₁, hf, hd₁, h₁, hr₁, hw₁⟩ := h.fetches (t.readers + 1) false
  obtain ⟨s₂, hf₂, h₂⟩ := L.fetchBucket h₁
  by_cases hfull : a.bucket.isFull c.bucketArraySize = true
  · have hr : t.readers ≠ 0 := fun h0 => by
      have := (HashTableBucketPage.isFull_iff _ _).1 hfull
      rw [a.empty (h.readers ▸ h0)] at this
      exact absurd this (Nat.not_le.2 hc)
    obtain ⟨s₃, hu₃, h₃⟩ := L.unpinBucket false h₂
    obtain ⟨s₄, hu₄, h₄⟩ := L.unpinDirectory false h₃
    have hsplit : splitInsert P c key (rUnlock { t₁ with pool := s₄ }) = .error .deadlock :=
      splitInsert_deadlock c key (by simpa [rUnlock, hr₁] using hr)
    refine .inr ⟨.deadlock, ?_, by simp [OneBucket.call, hfull]⟩
    simp only [call, Except.map, ExtendibleHashTable.insert, rLock, h.writer, Bool.false_eq_true,
      ↓reduceIte, fetchPage, bucketAt, Bool.not_eq_eq_eq_not, Bool.not_true, unpinPage, pure_eq_ok,
      ok_bind, hf, directory_eq_oneSlot hd₁ h₁, keyToPageId_oneSlot, hf₂, pageId_oneSlot,
      L.bucket h₂, hfull, Bool.true_eq_false, hu₃, hu₄, hsplit, error_bind]
  · let r := a.bucket.insert c.bucketArraySize key value
    obtain ⟨s₃, hu₃, h₃⟩ := L.unpinBucket true (L.setBucket r.2 h₂)
    obtain ⟨s₄, hu₄, h₄⟩ := L.unpinDirectory false h₃
    refine .inl ⟨(r.1, []), { t₁ with pool := s₄ },
      ⟨r.2, a.readers + 1, fun h => absurd h (Nat.succ_ne_zero _)⟩, ?_,
      by simp [OneBucket.call, hfull], ⟨hd₁, h₄, by simp [hr₁, h.readers], hw₁⟩⟩
    simp only [call, Except.map, ExtendibleHashTable.insert, rLock, h.writer, Bool.false_eq_true,
      ↓reduceIte, fetchPage, bucketAt, Bool.not_eq_eq_eq_not, Bool.not_true, unpinPage, writeBucket,
      pure_eq_ok, ok_bind, hf, directory_eq_oneSlot hd₁ h₁, keyToPageId_oneSlot, hf₂, pageId_oneSlot,
      L.bucket h₂, hfull, hu₃, hu₄, r]

theorem Runs.remove (h : L.Runs t a) (key : K) (value : V) :
    SameResult L.Table (call P c t (.remove key value)) (a.call c (.remove key value)) := by
  obtain ⟨t₁, hf, hd₁, h₁, hr₁, hw₁⟩ := h.fetches (t.readers + 1) false
  obtain ⟨s₂, hf₂, h₂⟩ := L.fetchBucket h₁
  let r := a.bucket.remove key value
  obtain ⟨s₃, hu₃, h₃⟩ := L.unpinBucket true (L.setBucket r.2 h₂)
  obtain ⟨s₄, hu₄, h₄⟩ := L.unpinDirectory false h₃
  have hT : L.Table (rUnlock { t₁ with pool := s₄ })
      ⟨r.2, a.readers, a.remove_empty key value⟩ :=
    ⟨hd₁, h₄, by simp [rUnlock, hr₁, h.readers], hw₁⟩
  have hcall : ∀ x, (if r.2.isEmpty then merge P 0 (rUnlock { t₁ with pool := s₄ })
      else .ok (rUnlock { t₁ with pool := s₄ })) = x →
      call P c t (.remove key value) = x.map fun t' => ((r.1, []), t') := fun x hx => by
    rw [← hx]
    simp only [call, ExtendibleHashTable.remove, rLock, h.writer, Bool.false_eq_true, ↓reduceIte,
      fetchPage, bucketAt, unpinPage, writeBucket, pure_eq_ok, ok_bind, hf, directory_eq_oneSlot hd₁ h₁,
      keyToPageId_oneSlot, hf₂, pageId_oneSlot, keyToDirectoryIndex_oneSlot, L.bucket h₂, hu₃, hu₄, r]
    split
    · rcases merge P 0 (rUnlock { t₁ with pool := s₄ }) with e | t' <;> rfl
    · rfl
  by_cases hE : r.2.isEmpty = true
  · by_cases hR : a.readers = 0
    · obtain ⟨t', hm, hT'⟩ := hT.merge (hT.readers.trans hR)
      refine .inl ⟨_, t', _, hcall (.ok t') (by rw [if_pos hE, hm]), ?_, hT'⟩
      simp only [OneBucket.call]
      rw [if_neg fun h => (Nat.pos_iff_ne_zero.1 h.2) hR]
    · refine .inr ⟨.deadlock, hcall (.error .deadlock)
        (by rw [if_pos hE, merge_deadlock 0 (hT.readers.trans_ne hR)]), ?_⟩
      simp only [OneBucket.call]
      rw [if_pos ⟨hE, Nat.pos_of_ne_zero hR⟩]
  · refine .inl ⟨_, _, _, hcall (.ok _) (by rw [if_neg hE]), ?_, hT⟩
    simp only [OneBucket.call]
    rw [if_neg fun h => hE h.1]

theorem Runs.step (hc : 0 < c.bucketArraySize) (h : L.Runs t a) (op : HashCall K V) :
    SameResult L.Table (ExtendibleHashTable.call P c t op) (a.call c op) := by
  cases op with
  | getValue key => exact h.getValue c key
  | insert key value => exact h.insert c hc key value
  | remove key value => exact h.remove c key value

theorem Runs.call (hc : 0 < c.bucketArraySize) (h : L.Runs t a) (op : HashCall K V) :
    SameResult L.Runs (ExtendibleHashTable.call P c t op) (a.call c op) :=
  (h.step c hc op).mono fun _ _ h => Table.runs h

theorem Runs.results (hc : 0 < c.bucketArraySize) (h : L.Runs t a)
    (ops : List (HashCall K V)) :
    results (ExtendibleHashTable.call P c) t ops = results (OneBucket.call c) a ops :=
  results_eq L.Runs (fun _ _ op h => h.call c hc op) h ops

end OneSlotPool

def memorySlots : OneSlotPool (Memory.pool : PagePool (Memory (HashTablePage K V)) _) 0 1 where
  Holds _ _ b m := m.pages 0 = some (.directory (oneSlot 0 1)) ∧ buckets m 1 = b
  valid := by simp [invalidPageId]
  directory h := by simp [Memory.pool, h.1]
  bucket h := h.2
  fetchDirectory h := ⟨_, rfl, h⟩
  fetchBucket h := ⟨_, rfl, h⟩
  unpinDirectory _ h := ⟨_, rfl, h⟩
  unpinBucket _ h := ⟨_, rfl, h⟩
  setBucket _ h := ⟨by simp [Memory.pool, h.1], by simp [buckets, Memory.pool]⟩

theorem memorySlots_runs_fresh :
    (memorySlots (K := K) (V := V)).Runs (init Memory.empty) OneBucket.fresh :=
  ⟨fun r w => by
    simp [memorySlots, fetchDirectoryPage, init, Memory.empty, directory_memory, assertTrue,
      invalidPageId, oneSlot, buckets, Function.update_apply, OneBucket.fresh], rfl, rfl⟩

@[mk_iff] structure FramesHold (dirId bucketId : Int) (i j : Nat) (b : HashTableBucketPage K V)
    (s : BufferPoolManagerInstance (HashTablePage K V)) : Prop where
  dirTable : s.pageTable dirId = some 0
  bucketTable : s.pageTable bucketId = some 1
  dirPins : (s.pages 0).pinCount = i
  dirData : (s.pages 0).data = .directory (oneSlot dirId bucketId)
  bucketPins : (s.pages 1).pinCount = j
  bucketData : (s.pages 1).data.asBucket = b

open BufferPoolManagerInstance in
def frameSlots (dirId bucketId : Int) (hv : dirId ≠ invalidPageId) :
    OneSlotPool (BufferPoolManagerInstance.pool :
      PagePool (BufferPoolManagerInstance (HashTablePage K V)) _) dirId bucketId where
  Holds := FramesHold dirId bucketId
  valid := hv
  directory h := by simp [view_of_some h.dirTable, h.dirData]
  bucket h := by simp [view_of_some h.bucketTable, h.bucketData]
  fetchDirectory h := ⟨_, fetchPage_pool_of_table h.dirTable,
    ⟨h.dirTable, h.bucketTable, by simp [h.dirPins], by simp [h.dirData],
      by simp [Function.update_apply, h.bucketPins],
      by simp [Function.update_apply, h.bucketData]⟩⟩
  fetchBucket h := ⟨_, fetchPage_pool_of_table h.bucketTable,
    ⟨h.dirTable, h.bucketTable, by simp [Function.update_apply, h.dirPins],
      by simp [Function.update_apply, h.dirData], by simp [h.bucketPins], by simp [h.bucketData]⟩⟩
  unpinDirectory d h := by
    obtain ⟨s', hu, ht, hp⟩ := unpinPgImp_of_pos h.dirTable (by rw [h.dirPins]; omega) d
    exact ⟨s', hu, ⟨ht ▸ h.dirTable, ht ▸ h.bucketTable, by simp [hp, h.dirPins],
      by simp [hp, h.dirData], by simp [hp, Function.update_apply, h.bucketPins],
      by simp [hp, Function.update_apply, h.bucketData]⟩⟩
  unpinBucket d h := by
    obtain ⟨s', hu, ht, hp⟩ := unpinPgImp_of_pos h.bucketTable (by rw [h.bucketPins]; omega) d
    exact ⟨s', hu, ⟨ht ▸ h.dirTable, ht ▸ h.bucketTable,
      by simp [hp, Function.update_apply, h.dirPins],
      by simp [hp, Function.update_apply, h.dirData], by simp [hp, h.bucketPins],
      by simp [hp, h.bucketData]⟩⟩
  setBucket b' h := by
    simp only [setData_pool, writeData_of_some h.bucketTable]
    exact ⟨h.dirTable, h.bucketTable, by simp [Function.update_apply, h.dirPins],
      by simp [Function.update_apply, h.dirData], by simp [h.bucketPins], by simp⟩

theorem fetchDirectoryPage_frames {s : BufferPoolManagerInstance (HashTablePage K V)} {n r : Nat}
    {w : Bool} {rest : List Nat} {dirId bucketId : Int} (hv : dirId ≠ invalidPageId)
    (hne : bucketId ≠ dirId) (hfl : s.freeList = 0 :: 1 :: rest) (hnext : s.nextPageId = dirId)
    (hnum : s.numInstances = n) (htab : s.pageTable = fun _ => none)
    (hbucket : toInt32 (dirId + n) = bucketId) :
    ∃ t', fetchDirectoryPage BufferPoolManagerInstance.pool
        { pool := s, directoryPageId := invalidPageId, readers := r, writer := w } = .ok t' ∧
      t'.directoryPageId = dirId ∧ FramesHold dirId bucketId 1 0 .empty t'.pool ∧
      t'.readers = r ∧ t'.writer = w := by
  simp [fetchDirectoryPage, newPage, BufferPoolManagerInstance.newPgImp,
    BufferPoolManagerInstance.takeFrame, hfl, hnext, hnum, htab, hbucket,
    BufferPoolManagerInstance.allocatePage, BufferPoolManagerInstance.install, writeDirectory,
    ExtendibleHashTable.directory, BufferPoolManagerInstance.view,
    BufferPoolManagerInstance.writeData,
    hne, hne.symm, unpinPage, BufferPoolManagerInstance.unpinPgImp, assertTrue, hv, fetchPage,
    BufferPoolManagerInstance.fetchPgImp, framesHold_iff, Function.update_noteq]
  rfl

theorem emod_eq_of_toInt32_eq {x y : Int} (h : toInt32 x = toInt32 y) :
    x % 2 ^ 32 = y % 2 ^ 32 := by
  have := congrArg (fun z : Int => z % ((2 ^ 32 : Nat) : Int)) h
  simp only [toInt32, Int.bmod_emod] at this
  exact_mod_cast this

theorem toInt32_ne_invalid_of_lt {n idx : Nat} (hidx : idx < n) (hn32 : n < 2 ^ 32) :
    toInt32 idx ≠ invalidPageId := by
  simpa [BufferPoolManagerInstance.allocId] using
    BufferPoolManagerInstance.allocId_ne_invalid (n := n) (k := 0)
      (show idx + 0 * n < 2 ^ 32 - 1 by omega)

theorem frameSlots_runs_fresh {poolSize n idx : Nat} (hsize : 2 ≤ poolSize) (hn : 0 < n)
    (hn32 : n < 2 ^ 32) (disk : Int → HashTablePage K V)
    (hv : toInt32 idx ≠ invalidPageId) :
    (frameSlots (toInt32 idx) (toInt32 (idx + n)) hv).Runs
      (init (BufferPoolManagerInstance.init poolSize n idx disk)) OneBucket.fresh := by
  have hne : toInt32 (idx + n) ≠ toInt32 idx := fun h => by
    have := emod_eq_of_toInt32_eq h
    omega
  obtain ⟨k, rfl⟩ : ∃ k, poolSize = k + 2 := ⟨poolSize - 2, by omega⟩
  have hfl : (BufferPoolManagerInstance.init (D := HashTablePage K V) (k + 2) n idx
      disk).freeList = 0 :: 1 :: (List.range k).map (Nat.succ ∘ Nat.succ) := by
    simp [BufferPoolManagerInstance.init, List.range_succ_eq_map]
  refine ⟨fun r w => fetchDirectoryPage_frames (n := n) hv hne hfl ?_ ?_ ?_ (by simp), rfl,
    rfl⟩ <;> simp [init, BufferPoolManagerInstance.init]

variable [DecidableEq K] [DecidableEq V]

theorem buffer_pool_table_matches_memory (c : HashConfig K) (hc : 0 < c.bucketArraySize)
    {poolSize n idx : Nat} (hsize : 2 ≤ poolSize) (hn : 0 < n) (hn32 : n < 2 ^ 32)
    (hidx : idx < n)
    (disk : Int → HashTablePage K V) (ops : List (HashCall K V)) :
    results (call BufferPoolManagerInstance.pool c)
        (init (BufferPoolManagerInstance.init poolSize n idx disk)) ops =
      results (call Memory.pool c) (init Memory.empty) ops := by
  have hv : toInt32 idx ≠ invalidPageId := by
    simpa [BufferPoolManagerInstance.allocId] using
      BufferPoolManagerInstance.allocId_ne_invalid (n := n) (k := 0)
        (show idx + 0 * n < 2 ^ 32 - 1 by omega)
  rw [(frameSlots_runs_fresh hsize hn hn32 disk hv).results c hc,
    memorySlots_runs_fresh.results c hc]

theorem buffer_pool_table_matches_memory_three :
    0 < (⟨fun k => k, 1, 1⟩ : HashConfig Nat).bucketArraySize ∧ 2 ≤ 3 ∧ 0 < 1 ∧ 1 < 2 ^ 32 ∧
      0 < 1 ∧
      results (call BufferPoolManagerInstance.pool ⟨fun k => k, 1, 1⟩)
          (init (BufferPoolManagerInstance.init 3 1 0 fun _ => (0 : HashTablePage Nat Nat)))
          [.insert 3 5, .getValue 3, .remove 3 5] =
        results (call Memory.pool ⟨fun k => k, 1, 1⟩) (init Memory.empty)
          [.insert 3 5, .getValue 3, .remove 3 5] :=
  ⟨by decide, by decide, by decide, by decide, by decide,
    buffer_pool_table_matches_memory _ (by decide) (by decide) (by decide) (by decide)
      (by decide) _ _⟩

end ExtendibleHashTable

end Bustub
