import Bustub.Concurrency.TwoPhaseLocking
import Bustub.Concurrency.WaitChecks

/-!
What `Unlock` leaves in the queue when a transaction asked for a rid twice.
-/

namespace Bustub

theorem exists_mem_eraseP_of_two_le_countP {α : Type} {p : α → Bool} {l : List α}
    (h : 2 ≤ l.countP p) : ∃ a ∈ l.eraseP p, p a := by
  obtain ⟨a, ha, hpa⟩ := List.countP_pos_iff.1 (by omega : 0 < l.countP p)
  obtain ⟨b, l₁, l₂, h₁, hb, rfl, he⟩ := List.exists_of_eraseP ha hpa
  rw [he]
  rw [List.countP_append, List.countP_cons_of_pos _ _ hb, List.countP_eq_zero.2 h₁] at h
  obtain ⟨c, hc, hpc⟩ := List.countP_pos_iff.1 (by omega : 0 < l₂.countP p)
  exact ⟨c, List.mem_append_right _ hc, hpc⟩

namespace LockManager

variable {s s' s'' : LockManager} {txn rid r u : Nat}

structure SetsKept (u rid : Nat) (s s' : LockManager) : Prop where
  shared : s'.sharedLockSet u rid = s.sharedLockSet u rid
  exclusive : s'.exclusiveLockSet u rid = s.exclusiveLockSet u rid

theorem SetsKept.trans (h : SetsKept u rid s s') (h' : SetsKept u rid s' s'') :
    SetsKept u rid s s'' :=
  ⟨h'.shared.trans h.shared, h'.exclusive.trans h.exclusive⟩

theorem checks_keep_locks {c : LockCall} (hp : s.pc txn = .start c r)
    (hs : s.runThread txn = some s') : s'.lockTable = s.lockTable ∧
      s'.sharedLockSet = s.sharedLockSet ∧ s'.exclusiveLockSet = s.exclusiveLockSet := by
  cases c <;> simp only [LockManager.runThread, hp, Option.some.injEq] at hs <;> subst hs
  · unfold lockShared; split_ifs <;> exact ⟨rfl, rfl, rfl⟩
  · unfold lockExclusive; split_ifs <;> exact ⟨rfl, rfl, rfl⟩
  · unfold lockUpgrade; split_ifs <;> exact ⟨rfl, rfl, rfl⟩
  · unfold unlock; split <;> exact ⟨rfl, rfl, rfl⟩

section Entries

variable (hne : ¬(u = txn ∧ rid = r))
include hne

theorem setsKept_enqueue (m : LockMode) : SetsKept u rid s (s.enqueue txn r m) := by
  constructor <;> cases m <;> simp [enqueue, update_update_apply, hne]

theorem setsKept_waitLoop (c : LockCall) : SetsKept u rid s (s.waitLoop txn c r) := by
  unfold waitLoop
  generalize (if c = .lockUpgrade then needWaitUpdate txn (s.lockTable r)
    else needWait txn (s.lockTable r)) = v
  have hw : SetsKept u rid s (s.wound r v.2) := by unfold wound; split <;> exact ⟨rfl, rfl⟩
  dsimp only
  split
  · exact hw.trans ⟨rfl, rfl⟩
  · refine hw.trans ?_
    generalize s.wound r v.2 = s₁
    cases c <;> try exact ⟨rfl, rfl⟩
    simp only [grant, grantUpgrade]
    split
    · constructor <;> simp [acquired, finish, update_update_apply, hne]
    · exact ⟨rfl, rfl⟩

theorem setsKept_unlockLatched : SetsKept u rid s (s.unlockLatched txn r) := by
  unfold unlockLatched
  split
  · dsimp only
    split <;> constructor <;> simp [released, finish, setState, notifyAll, update_update_apply, hne]
  · exact ⟨rfl, rfl⟩

end Entries

theorem setsKept_runThread (hu : u ≠ txn) (hs : s.runThread txn = some s') :
    SetsKept u rid s s' := by
  have hne : ∀ r, ¬(u = txn ∧ rid = r) := fun _ h => hu h.1
  cases hpc : s.pc txn with
  | idle => simp [LockManager.runThread, hpc] at hs
  | waiting c r => simp [LockManager.runThread, hpc] at hs
  | start c r =>
    obtain ⟨-, hsh, hx⟩ := checks_keep_locks hpc hs
    exact ⟨by rw [hsh], by rw [hx]⟩
  | latching c r =>
    cases c <;> simp only [LockManager.runThread, hpc, Option.some.injEq] at hs <;> subst hs
    · exact (setsKept_enqueue (hne r) _).trans (setsKept_waitLoop (hne r) _)
    · exact (setsKept_enqueue (hne r) _).trans (setsKept_waitLoop (hne r) _)
    · exact setsKept_waitLoop (hne r) _
    · exact setsKept_unlockLatched (hne r)
  | woken c r =>
    simp only [LockManager.runThread, hpc, Option.some.injEq] at hs
    subst hs
    split
    · exact ⟨rfl, rfl⟩
    · exact setsKept_waitLoop (hne r) _

theorem othersKept_next {a : Action} (hs : s.next a = some s') : OthersKept a.txn s s' := by
  cases a with
  | invoke t c r =>
    simp only [LockManager.next] at hs
    split at hs <;> simp only [Option.some.injEq, reduceCtorEq] at hs
    subst hs
    exact .goTo _
  | run t => exact .runThread hs

theorem lockTable_unlockLatched_of_ne (h : rid ≠ r) :
    (s.unlockLatched txn r).lockTable rid = s.lockTable rid := by
  unfold unlockLatched
  split
  · dsimp only
    split <;> simp [released, finish, setState, notifyAll, Function.update_noteq h]
  · rfl

theorem unlockLatched_self (h : (s.lockTable rid).any (·.txnId = txn)) :
    (s.unlockLatched txn rid).lockTable rid = (s.lockTable rid).eraseP (·.txnId = txn) ∧
      (s.unlockLatched txn rid).sharedLockSet txn rid = false ∧
      (s.unlockLatched txn rid).exclusiveLockSet txn rid = false := by
  unfold unlockLatched
  rw [if_pos h]
  dsimp only
  split <;> simp [released, finish, setState, notifyAll]

structure Leftover (s : LockManager) (t rid : Nat) : Prop where
  shrunk : s.Shrunk t
  queued : s.Queued t rid
  shared : s.sharedLockSet t rid = false
  exclusive : s.exclusiveLockSet t rid = false
  pc : s.pc t ≠ .latching .unlock rid

variable {t : Nat}

theorem Leftover.of_kept (h : s.Leftover t rid) (hsh : s'.Shrunk t) (hq : s'.Queued t rid)
    (hk : SetsKept t rid s s') (hp : s'.pc t ≠ .latching .unlock rid) : s'.Leftover t rid :=
  ⟨hsh, hq, hk.shared.trans h.shared, hk.exclusive.trans h.exclusive, hp⟩

theorem Leftover.other (h : s.Leftover t rid) {a : Action} (ha : a.txn ≠ t)
    (hs : s.next a = some s') : s'.Leftover t rid := by
  have hb := Bystander.next ha hs
  refine h.of_kept (h.shrunk.bystander hb)
    ((othersKept_next hs).queued t (Ne.symm ha) rid h.queued) ?_ ?_
  · cases a with
    | invoke u c r =>
      simp only [LockManager.next] at hs
      split at hs <;> simp only [Option.some.injEq, reduceCtorEq] at hs
      subst hs
      exact ⟨rfl, rfl⟩
    | run u => exact setsKept_runThread (Ne.symm ha) hs
  · rcases hb.pc with e | ⟨c, r, -, e⟩ <;> rw [e]
    · exact h.pc
    · exact nofun

theorem Leftover.runThread_self (h : s.Leftover t rid) (hs : s.runThread t = some s') :
    s'.Leftover t rid ∧ s'.lockTable rid = s.lockTable rid := by
  have hsh := h.shrunk.runThread hs
  cases hpc : s.pc t with
  | idle => simp [LockManager.runThread, hpc] at hs
  | waiting c r => simp [LockManager.runThread, hpc] at hs
  | woken c r => have hp := h.shrunk.pc; rw [hpc] at hp; cases hp
  | start c r =>
    obtain ⟨hq, hsh', hx⟩ := checks_keep_locks hpc hs
    refine ⟨h.of_kept hsh.1 (by rw [Queued, hq]; exact h.queued) ⟨by rw [hsh'], by rw [hx]⟩ ?_,
      by rw [hq]⟩
    by_cases hc : c = .unlock
    · subst hc
      simp only [LockManager.runThread, hpc, Option.some.injEq] at hs
      subst hs
      unfold unlock
      by_cases hr : r = rid
      · subst hr; simp [h.shared, h.exclusive]
      · split <;> simp [hr]
    · rw [(hsh.2 c r hc hpc).pc]; exact nofun
  | latching c r =>
    have hp := h.shrunk.pc
    rw [hpc] at hp
    cases c <;> simp [Pc.canGrant] at hp
    have hr : rid ≠ r := fun e => h.pc (e ▸ hpc)
    simp only [LockManager.runThread, hpc, Option.some.injEq] at hs
    subst hs
    exact ⟨h.of_kept hsh.1 (by rw [Queued, lockTable_unlockLatched_of_ne hr]; exact h.queued)
      (setsKept_unlockLatched fun e => hr e.2) (by simp), lockTable_unlockLatched_of_ne hr⟩

theorem Leftover.next (h : s.Leftover t rid) {a : Action} (hs : s.next a = some s') :
    s'.Leftover t rid := by
  by_cases ha : a.txn = t
  · cases a with
    | invoke u c r =>
      simp only [Action.txn] at ha
      subst ha
      have hsh := h.shrunk.next hs
      simp only [LockManager.next] at hs
      split at hs <;> simp only [Option.some.injEq, reduceCtorEq] at hs
      subst hs
      exact ⟨hsh, h.queued, h.shared, h.exclusive, by simp⟩
    | run u =>
      simp only [Action.txn] at ha
      subst ha
      exact (h.runThread_self hs).1
  · exact h.other ha hs

theorem Leftover.reaches (h : s.Leftover t rid) (hr : s.Reaches s') : s'.Leftover t rid := by
  induction hr with
  | refl => exact h
  | tail _ hs ih => obtain ⟨a, hs⟩ := hs; exact ih.next hs

def HeadOf (s : LockManager) (t : Nat) (m : LockMode) (rid : Nat) : Prop :=
  ∃ g rest, s.lockTable rid = ⟨t, m, g⟩ :: rest

section Head

variable {m : LockMode}

theorem HeadOf.of_table (h : s.HeadOf t m rid) (hq : s'.lockTable rid = s.lockTable rid) :
    s'.HeadOf t m rid := by
  rw [HeadOf, hq]; exact h

theorem HeadOf.enqueue (h : s.HeadOf t m rid) (m' : LockMode) : (s.enqueue txn r m').HeadOf t m rid := by
  obtain ⟨g, rest, hq⟩ := h
  by_cases hr : rid = r
  · subst hr; exact ⟨g, rest ++ [⟨txn, m', false⟩], by simp [LockManager.enqueue, hq]⟩
  · exact ⟨g, rest, by simp [LockManager.enqueue, Function.update_noteq hr, hq]⟩

theorem HeadOf.grant (h : s.HeadOf t m rid) (c : LockCall) : (s.grant txn c r).HeadOf t m rid := by
  obtain ⟨g, rest, hq⟩ := h
  have hall : (s.grantAll txn r).HeadOf t m rid := by
    by_cases hr : rid = r
    · subst hr
      refine ⟨if t = txn then true else g,
        rest.map fun r => if r.txnId = txn then { r with granted := true } else r, ?_⟩
      simp only [LockManager.grantAll, Function.update_same, hq, List.map_cons]
      split <;> rfl
    · exact ⟨g, rest, by simp [LockManager.grantAll, Function.update_noteq hr, hq]⟩
  cases c
  case lockUpgrade =>
    refine ⟨g, rest, ?_⟩
    simp only [LockManager.grant, LockManager.grantUpgrade]
    split <;> simpa using hq
  case unlock => exact ⟨g, rest, hq⟩
  all_goals exact hall.of_table (by simp [LockManager.grant])

theorem HeadOf.waitLoop (h : s.HeadOf t m rid) (c : LockCall) :
    (s.waitLoop txn c r).HeadOf t m rid := by
  unfold LockManager.waitLoop
  generalize (if c = .lockUpgrade then needWaitUpdate txn (s.lockTable r)
    else needWait txn (s.lockTable r)) = v
  have hw : (s.wound r v.2).HeadOf t m rid := h.of_table (by unfold wound; split <;> rfl)
  dsimp only
  split
  · exact hw.of_table rfl
  · exact hw.grant c

theorem HeadOf.unlockLatched (h : s.HeadOf t m rid) (hu : txn ≠ t) :
    (s.unlockLatched txn r).HeadOf t m rid := by
  by_cases hr : rid = r
  · subst hr
    obtain ⟨g, rest, hq⟩ := h
    unfold LockManager.unlockLatched
    split
    · refine ⟨g, rest.eraseP (·.txnId = txn), ?_⟩
      dsimp only
      split <;> simp [released, finish, setState, notifyAll, hq, Ne.symm hu]
    · exact ⟨g, rest, hq⟩
  · exact h.of_table (lockTable_unlockLatched_of_ne hr)

theorem HeadOf.runThread (h : s.HeadOf t m rid) (hu : txn ≠ t) (hs : s.runThread txn = some s') :
    s'.HeadOf t m rid := by
  cases hpc : s.pc txn with
  | idle => simp [LockManager.runThread, hpc] at hs
  | waiting c r => simp [LockManager.runThread, hpc] at hs
  | start c r => exact h.of_table (by rw [(checks_keep_locks hpc hs).1])
  | latching c r =>
    cases c <;> simp only [LockManager.runThread, hpc, Option.some.injEq] at hs <;> subst hs
    · exact (h.enqueue _).waitLoop _
    · exact (h.enqueue _).waitLoop _
    · exact h.waitLoop _
    · exact h.unlockLatched hu
  | woken c r =>
    simp only [LockManager.runThread, hpc, Option.some.injEq] at hs
    subst hs
    split
    · exact h.of_table rfl
    · exact h.waitLoop _

end Head

theorem leftover_unlockLatched (hrr : s.isolationLevel t = .repeatableRead)
    (htwo : 2 ≤ (s.lockTable rid).countP (·.txnId = t)) :
    (s.unlockLatched t rid).result t = some (.ret true) ∧ (s.unlockLatched t rid).Leftover t rid := by
  have hany : (s.lockTable rid).any (·.txnId = t) = true := by
    obtain ⟨q, hq, hqt⟩ := List.countP_pos_iff.1 (by omega : 0 < (s.lockTable rid).countP (·.txnId = t))
    exact List.any_eq_true.2 ⟨q, hq, hqt⟩
  have hres : (s.unlockLatched t rid).result t = some (.ret true) := by
    rw [result_unlockLatched_self, hany]
  obtain ⟨hq, hsh, hx⟩ := unlockLatched_self hany
  obtain ⟨q, hmem, hqt⟩ := exists_mem_eraseP_of_two_le_countP htwo
  exact ⟨hres, shrunk_unlockLatched hrr hres, ⟨q, hq ▸ hmem, by simpa using hqt⟩, hsh, hx,
    by simp⟩

theorem unlock_leaves_second_request {s₁ : LockManager} (hrr : s.isolationLevel t = .repeatableRead)
    (hp : s.pc t = .latching .unlock rid) (htwo : 2 ≤ (s.lockTable rid).countP (·.txnId = t))
    (hs : s.next (.run t) = some s₁) :
    s₁.result t = some (.ret true) ∧ ∀ s₂, s₁.Reaches s₂ →
      s₂.Queued t rid ∧ s₂.sharedLockSet t rid = false ∧ s₂.exclusiveLockSet t rid = false ∧
        (s₂.pc t = .start .unlock rid → s₂.next (.run t) = some (s₂.released t rid false)) := by
  simp only [LockManager.next, LockManager.runThread, hp, Option.some.injEq] at hs
  subst hs
  obtain ⟨hres, h⟩ := leftover_unlockLatched hrr htwo
  refine ⟨hres, fun s₂ h₂ => ?_⟩
  have h' := h.reaches h₂
  refine ⟨h'.queued, h'.shared, h'.exclusive, fun hp₂ => ?_⟩
  simp [LockManager.next, LockManager.runThread, hp₂, unlock, h'.shared, h'.exclusive]

theorem unlock_leaves_second_request_one :
    ∃ s s₁ : LockManager, s.Reachable ∧ s.isolationLevel 1 = .repeatableRead ∧
      s.pc 1 = .latching .unlock 0 ∧ 2 ≤ (s.lockTable 0).countP (·.txnId = 1) ∧
      s.next (.run 1) = some s₁ ∧
      s₁.result 1 = some (.ret true) ∧ ∀ s₂, s₁.Reaches s₂ →
        s₂.Queued 1 0 ∧ s₂.sharedLockSet 1 0 = false ∧ s₂.exclusiveLockSet 1 0 = false ∧
          (s₂.pc 1 = .start .unlock 0 → s₂.next (.run 1) = some (s₂.released 1 0 false)) := by
  obtain ⟨s, s₁, hr, hs, hp⟩ := reach_step_of_run (fun _ => .repeatableRead)
    (l := [.invoke 1 .lockShared 0, .run 1, .run 1, .invoke 1 .lockExclusive 0, .run 1, .run 1,
      .invoke 1 .unlock 0, .run 1]) (a := .run 1)
    (p := fun s _ => s.isolationLevel 1 == .repeatableRead && s.pc 1 == .latching .unlock 0 &&
      decide (2 ≤ (s.lockTable 0).countP (·.txnId = 1)))
    (by decide)
  simp only [Bool.and_eq_true, beq_iff_eq, decide_eq_true_eq] at hp
  exact ⟨s, s₁, hr, hp.1.1, hp.1.2, hp.2, hs, unlock_leaves_second_request hp.1.1 hp.1.2 hp.2 hs⟩

theorem HeadOf.next (h : s.HeadOf t m rid) (hl : s.Leftover t rid) {a : Action}
    (hs : s.next a = some s') : s'.HeadOf t m rid := by
  cases a with
  | invoke u c r =>
    simp only [LockManager.next] at hs
    split at hs <;> simp only [Option.some.injEq, reduceCtorEq] at hs
    subst hs
    exact h.of_table rfl
  | run u =>
    by_cases hu : u = t
    · subst hu; exact h.of_table (hl.runThread_self hs).2
    · exact h.runThread hu hs

theorem HeadOf.reaches (h : s.HeadOf t m rid) (hl : s.Leftover t rid) (hr : s.Reaches s') :
    s'.HeadOf t m rid ∧ s'.Leftover t rid := by
  induction hr with
  | refl => exact ⟨h, hl⟩
  | tail _ hs ih => obtain ⟨a, hs⟩ := hs; exact ⟨ih.1.next ih.2 hs, ih.2.next hs⟩

theorem needWait_older_head {g : Bool} {rest : List LockRequest} (htu : t < u) :
    (needWait u (⟨t, .exclusive, g⟩ :: rest)).1 = true := by
  rw [needWait, List.getLast?_eq_getLast _ (List.cons_ne_nil _ _)]
  simp [ahead, List.takeWhile_cons, Nat.ne_of_lt htu, htu]

theorem needWaitUpdate_older_head {g : Bool} {rest : List LockRequest} (htu : t < u) :
    (needWaitUpdate u (⟨t, m, g⟩ :: rest)).1 = true := by
  simp [needWaitUpdate, ahead, List.takeWhile_cons, Nat.ne_of_lt htu, htu]

theorem HeadOf.nextCheck_waits (h : s.HeadOf t .exclusive rid) (htu : t < u) {c : LockCall}
    {q : List LockRequest} (hc : s.nextCheck u = some (c, rid, q)) (hs : s.runThread u = some s') :
    s'.pc u = .waiting c rid := by
  obtain ⟨s₀, hrun, hq⟩ := nextCheck_runThread hc
  rw [hrun, Option.some.injEq] at hs
  subst hs
  obtain ⟨g, rest, hh⟩ := h
  obtain ⟨rest', hq'⟩ : ∃ rest', q = ⟨t, .exclusive, g⟩ :: rest' := by
    rcases nextCheck_eq_some hc with ⟨-, -, rfl⟩ | ⟨-, -, rfl⟩ | ⟨-, -, rfl⟩ | ⟨-, -, rfl⟩ <;>
      simp [hh]
  unfold LockManager.waitLoop
  rw [hq, hq']
  split
  · rw [if_pos (needWaitUpdate_older_head htu)]; simp
  · rw [if_pos (needWait_older_head htu)]; simp

theorem leftover_blocks_younger {s₁ : LockManager} {m : LockMode} {g g' : Bool}
    {rest : List LockRequest} (hrr : s.isolationLevel t = .repeatableRead)
    (hp : s.pc t = .latching .unlock rid)
    (hq : s.lockTable rid = ⟨t, m, g⟩ :: ⟨t, .exclusive, g'⟩ :: rest)
    (hs : s.next (.run t) = some s₁) {s₂ : LockManager} (h₂ : s₁.Reaches s₂) {u : Nat}
    (htu : t < u) {c : LockCall} {q : List LockRequest} (hc : s₂.nextCheck u = some (c, rid, q))
    {s₃ : LockManager} (h₃ : s₂.next (.run u) = some s₃) : s₃.pc u = .waiting c rid := by
  simp only [LockManager.next, LockManager.runThread, hp, Option.some.injEq] at hs
  subst hs
  have htwo : 2 ≤ (s.lockTable rid).countP (·.txnId = t) := by simp [hq]
  have hany : (s.lockTable rid).any (·.txnId = t) = true := by simp [hq]
  have hhead : (s.unlockLatched t rid).HeadOf t .exclusive rid :=
    ⟨g', rest, by rw [(unlockLatched_self hany).1, hq]; simp⟩
  exact (hhead.reaches (leftover_unlockLatched hrr htwo).2 h₂).1.nextCheck_waits htu hc h₃

theorem leftover_blocks_younger_one :
    ∃ s s₁ : LockManager, s.Reachable ∧ s.isolationLevel 1 = .repeatableRead ∧
      s.pc 1 = .latching .unlock 0 ∧
      s.lockTable 0 = [⟨1, .shared, true⟩, ⟨1, .exclusive, true⟩] ∧ s.next (.run 1) = some s₁ ∧
      ∀ s₂, s₁.Reaches s₂ → ∀ u, 1 < u → ∀ c q, s₂.nextCheck u = some (c, 0, q) →
        ∀ s₃, s₂.next (.run u) = some s₃ → s₃.pc u = .waiting c 0 := by
  obtain ⟨s, s₁, hr, hs, hp⟩ := reach_step_of_run (fun _ => .repeatableRead)
    (l := [.invoke 1 .lockShared 0, .run 1, .run 1, .invoke 1 .lockExclusive 0, .run 1, .run 1,
      .invoke 1 .unlock 0, .run 1]) (a := .run 1)
    (p := fun s _ => s.isolationLevel 1 == .repeatableRead && s.pc 1 == .latching .unlock 0 &&
      s.lockTable 0 == [⟨1, .shared, true⟩, ⟨1, .exclusive, true⟩])
    (by decide)
  simp only [Bool.and_eq_true, beq_iff_eq] at hp
  exact ⟨s, s₁, hr, hp.1.1, hp.1.2, hp.2, hs, fun s₂ h₂ u hu c q hc s₃ h₃ =>
    leftover_blocks_younger hp.1.1 hp.1.2 hp.2 hs h₂ hu hc h₃⟩

end LockManager

end Bustub
