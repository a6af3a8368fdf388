import Bustub.Container.BufferPoolTable

/-!
The table latch over whole calls: `Insert` leaves a reader behind.
-/

namespace Bustub

namespace ExtendibleHashTable

variable {K V σ : Type} {P : PagePool σ (HashTablePage K V)} {t t' : ExtendibleHashTable σ}

section Primitives

theorem newPage_eq_ok {p : Int} :
    newPage P t = .ok (p, t') ↔ ∃ s, P.newPage t.pool = some (p, s) ∧ t' = { t with pool := s } := by
  unfold newPage
  rcases P.newPage t.pool with _ | ⟨q, s⟩
  · simp
  · simp only [Except.ok.injEq, Prod.mk.injEq, Option.some.injEq]
    constructor
    · rintro ⟨rfl, rfl⟩; exact ⟨s, ⟨rfl, rfl⟩, rfl⟩
    · rintro ⟨s, ⟨rfl, rfl⟩, rfl⟩; exact ⟨rfl, rfl⟩

theorem fetchPage_eq_ok {p : Int} :
    fetchPage P p t = .ok t' ↔ ∃ s, P.fetchPage p t.pool = some s ∧ t' = { t with pool := s } := by
  unfold fetchPage
  rcases P.fetchPage p t.pool with _ | s <;> simp [eq_comm]

theorem unpinPage_eq_ok {p : Int} {d : Bool} :
    unpinPage P p d t = .ok t' ↔
      (P.unpinPage p d t.pool).1 = true ∧ t' = { t with pool := (P.unpinPage p d t.pool).2 } := by
  unfold unpinPage
  dsimp only
  split <;> rename_i h
  · simp only [Except.ok.injEq]; exact ⟨fun e => ⟨h, e.symm⟩, fun ⟨_, e⟩ => e.symm⟩
  · simp only [reduceCtorEq, false_iff]; exact fun h' => h h'.1

@[simp] theorem readers_writeDirectory (d : HashTableDirectoryPage) :
    (writeDirectory P t d).readers = t.readers := rfl

@[simp] theorem writer_writeDirectory (d : HashTableDirectoryPage) :
    (writeDirectory P t d).writer = t.writer := rfl

@[simp] theorem readers_writeBucket (p : Int) (b : HashTableBucketPage K V) :
    (writeBucket P t p b).readers = t.readers := rfl

@[simp] theorem writer_writeBucket (p : Int) (b : HashTableBucketPage K V) :
    (writeBucket P t p b).writer = t.writer := rfl

end Primitives

theorem latch_fetchDirectoryPage (h : fetchDirectoryPage P t = .ok t') :
    t'.readers = t.readers ∧ t'.writer = t.writer := by
  unfold fetchDirectoryPage at h
  split at h <;> simp only [bind_eq_ok, Prod.exists, newPage_eq_ok, fetchPage_eq_ok,
    unpinPage_eq_ok, pure_eq_ok, ok_bind] at h
  · obtain ⟨_, _, ⟨_, -, rfl⟩, _, _, ⟨_, -, rfl⟩, _, ⟨-, rfl⟩, _, ⟨-, rfl⟩, _, -, _, -, rfl⟩ := h
    exact ⟨rfl, rfl⟩
  · obtain ⟨_, -, _, -, rfl⟩ := h
    exact ⟨rfl, rfl⟩

variable [DecidableEq K] [DecidableEq V] (c : HashConfig K)

theorem latch_splitInsert {key : K} {b : Bool} (h : splitInsert P c key t = .ok (b, t')) :
    t'.readers = t.readers ∧ t'.writer = false := by
  simp only [splitInsert, bind_eq_ok, Prod.exists, wLock_eq_ok] at h
  obtain ⟨_, ⟨-, rfl⟩, t₂, h₂, h⟩ := h
  obtain ⟨hr₂, -⟩ := latch_fetchDirectoryPage h₂
  split at h <;> simp only [bind_eq_ok, Prod.exists, newPage_eq_ok, fetchPage_eq_ok,
    unpinPage_eq_ok, pure_eq_ok, ok_bind, Except.ok.injEq, Prod.mk.injEq] at h
  · obtain ⟨_, ⟨-, rfl⟩, -, rfl⟩ := h
    exact ⟨hr₂, rfl⟩
  · obtain ⟨_, ⟨_, -, rfl⟩, _, _, ⟨_, -, rfl⟩, _, _, -, _, ⟨-, rfl⟩, _, ⟨-, rfl⟩, _, ⟨-, rfl⟩,
      -, rfl⟩ := h
    exact ⟨hr₂, rfl⟩

theorem insert_leaks_read_latch (fuel : Nat) {key : K} {value : V}
    (h : insert P c fuel key value t = .ok (true, t')) : t'.readers = t.readers + 1 := by
  induction fuel generalizing t with
  | zero => simp [insert] at h
  | succ fuel ih =>
    simp only [insert, bind_eq_ok, rLock_eq_ok, fetchPage_eq_ok] at h
    obtain ⟨_, ⟨-, rfl⟩, t₂, h₂, _, ⟨_, -, rfl⟩, h⟩ := h
    obtain ⟨hr₂, -⟩ := latch_fetchDirectoryPage h₂
    split at h <;> simp only [bind_eq_ok, Prod.exists, unpinPage_eq_ok, pure_eq_ok,
      Except.ok.injEq, Prod.mk.injEq] at h
    · obtain ⟨_, ⟨-, rfl⟩, _, ⟨-, rfl⟩, -, rfl⟩ := h
      exact hr₂
    · obtain ⟨_, -, _, ⟨-, rfl⟩, _, ⟨-, rfl⟩, split, t₅, h₅, h⟩ := h
      have hr₅ := (latch_splitInsert c h₅).1
      simp only [rUnlock, hr₂, Nat.add_sub_cancel] at hr₅
      cases split
      · simp at h
      · rw [ih h, hr₅]

theorem insert_leaks_read_latch_fresh :
    ∃ t', insert Memory.pool ⟨fun k => k, 1, 1⟩ 1 3 5
        (init Memory.empty : ExtendibleHashTable (Memory (HashTablePage Nat Nat))) =
        .ok (true, t') ∧ t'.readers = 1 := by
  obtain ⟨t', h⟩ : ∃ t', insert Memory.pool ⟨fun k => k, 1, 1⟩ 1 3 5
      (init Memory.empty : ExtendibleHashTable (Memory (HashTablePage Nat Nat))) =
      .ok (true, t') := ⟨_, rfl⟩
  exact ⟨t', h, insert_leaks_read_latch _ 1 h⟩

section Memory

variable {c} {t : ExtendibleHashTable (Memory (HashTablePage K V))}

theorem Reachable.oneBucket (hc : 0 < c.bucketArraySize)
    (ht : Reachable Memory.pool c Memory.empty t) :
    t = ExtendibleHashTable.init Memory.empty ∨ ∃ a, (memorySlots (K := K) (V := V)).Table t a := by
  induction ht with
  | init => exact .inl rfl
  | @step t₀ _ _ op _ hcall ih =>
    obtain ⟨a, h⟩ : ∃ a, (memorySlots (K := K) (V := V)).Runs t₀ a := by
      rcases ih with rfl | ⟨a, h⟩
      · exact ⟨_, memorySlots_runs_fresh⟩
      · exact ⟨a, h.runs⟩
    obtain ⟨a', -, h'⟩ := (h.step c hc op).ok_left hcall
    exact .inr ⟨a', h'⟩

omit [DecidableEq K] [DecidableEq V] in
theorem bucketAt_of_memorySlots {a : OneBucket K V}
    (h : (memorySlots (K := K) (V := V)).Table t a) (key : K) :
    bucketAt Memory.pool t (keyToPageId c key (directory Memory.pool t)) = a.bucket := by
  rw [OneSlotPool.directory_eq_oneSlot h.dir h.holds, keyToPageId_oneSlot]
  exact h.holds.2

omit [DecidableEq K] [DecidableEq V] in
theorem bucketAt_init (p : Int) :
    bucketAt Memory.pool (init Memory.empty : ExtendibleHashTable (Memory (HashTablePage K V))) p =
      .empty := rfl

theorem insert_into_full_bucket_deadlocks (hc : 0 < c.bucketArraySize)
    (ht : Reachable Memory.pool c Memory.empty t) {key : K} (value : V)
    (hfull : (bucketAt Memory.pool t (keyToPageId c key (directory Memory.pool t))).isFull
      c.bucketArraySize = true) :
    call Memory.pool c t (.insert key value) = .error .deadlock := by
  rcases ht.oneBucket hc with rfl | ⟨a, h⟩
  · rw [bucketAt_init, HashTableBucketPage.isFull_iff] at hfull
    exact absurd hfull (by simpa using hc.ne')
  · rw [bucketAt_of_memorySlots h] at hfull
    exact (h.runs.step c hc _).error_right (by simp [OneBucket.call, hfull])

theorem reachable_insert_three_five :
    ∃ t : ExtendibleHashTable (Memory (HashTablePage Nat Nat)),
      Reachable Memory.pool ⟨fun k => k, 1, 1⟩ Memory.empty t ∧ ∀ key : Nat,
        bucketAt Memory.pool t (keyToPageId ⟨fun k => k, 1, 1⟩ key (directory Memory.pool t)) =
          ⟨[(3, 5)]⟩ := by
  rcases memorySlots_runs_fresh.step (⟨fun k => k, 1, 1⟩ : HashConfig Nat) (by decide)
    (.insert 3 5) with ⟨r, t, a, hx, hy, h⟩ | ⟨e, -, hy⟩
  · refine ⟨t, .step _ .init hx, fun key => ?_⟩
    have hb := congrArg (fun x => match x with | .ok (_, a) => a.bucket | .error _ => .empty) hy
    rw [bucketAt_of_memorySlots h]
    exact hb.symm.trans rfl
  · cases hy

theorem insert_into_full_bucket_deadlocks_one :
    ∃ t : ExtendibleHashTable (Memory (HashTablePage Nat Nat)),
      Reachable Memory.pool ⟨fun k => k, 1, 1⟩ Memory.empty t ∧
      (bucketAt Memory.pool t (keyToPageId ⟨fun k => k, 1, 1⟩ 4 (directory Memory.pool t))).isFull
        1 = true ∧
      call Memory.pool ⟨fun k => k, 1, 1⟩ t (.insert 4 6) = .error .deadlock := by
  obtain ⟨t, ht, hb⟩ := reachable_insert_three_five
  have hfull : (bucketAt Memory.pool t (keyToPageId ⟨fun k => k, 1, 1⟩ 4
      (directory Memory.pool t))).isFull 1 = true := by rw [hb]; decide
  exact ⟨t, ht, hfull, insert_into_full_bucket_deadlocks (by decide) ht 6 hfull⟩

theorem remove_emptying_bucket_deadlocks (hc : 0 < c.bucketArraySize)
    (ht : Reachable Memory.pool c Memory.empty t) {key : K} {value : V}
    (hne : (bucketAt Memory.pool t (keyToPageId c key (directory Memory.pool t))).array ≠ [])
    (hempty : ((bucketAt Memory.pool t (keyToPageId c key (directory Memory.pool t))).remove key
      value).2.isEmpty = true) :
    call Memory.pool c t (.remove key value) = .error .deadlock := by
  rcases ht.oneBucket hc with rfl | ⟨a, h⟩
  · exact absurd rfl hne
  · rw [bucketAt_of_memorySlots h] at hne hempty
    have hr : 0 < a.readers := Nat.pos_of_ne_zero fun h0 => hne (a.empty h0)
    exact (h.runs.step c hc _).error_right (by simp [OneBucket.call, hempty, hr])

theorem remove_emptying_bucket_deadlocks_one :
    ∃ t : ExtendibleHashTable (Memory (HashTablePage Nat Nat)),
      Reachable Memory.pool ⟨fun k => k, 1, 1⟩ Memory.empty t ∧
      (bucketAt Memory.pool t (keyToPageId ⟨fun k => k, 1, 1⟩ 3 (directory Memory.pool t))).array ≠
        [] ∧
      ((bucketAt Memory.pool t (keyToPageId ⟨fun k => k, 1, 1⟩ 3 (directory Memory.pool t))).remove 3
        5).2.isEmpty = true ∧
      call Memory.pool ⟨fun k => k, 1, 1⟩ t (.remove 3 5) = .error .deadlock := by
  obtain ⟨t, ht, hb⟩ := reachable_insert_three_five
  have hne : (bucketAt Memory.pool t (keyToPageId ⟨fun k => k, 1, 1⟩ 3
      (directory Memory.pool t))).array ≠ [] := by rw [hb]; decide
  have hempty : ((bucketAt Memory.pool t (keyToPageId ⟨fun k => k, 1, 1⟩ 3
      (directory Memory.pool t))).remove 3 5).2.isEmpty = true := by rw [hb]; decide
  exact ⟨t, ht, hne, hempty, remove_emptying_bucket_deadlocks (by decide) ht hne hempty⟩

end Memory

end ExtendibleHashTable

end Bustub
