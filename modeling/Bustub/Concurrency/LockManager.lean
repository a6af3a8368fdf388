import Mathlib.Logic.Function.Basic
import Mathlib.Data.List.Basic

/-!
`concurrency/lock_manager.cpp`: each call runs on its transaction's thread, one latched stretch
at a time, and a blocked call resumes only on a notify.
-/

namespace Bustub

inductive TransactionState
  | growing
  | shrinking
  | committed
  | aborted
  deriving DecidableEq, Repr

inductive IsolationLevel
  | readUncommitted
  | repeatableRead
  | readCommitted
  deriving DecidableEq, Repr

inductive AbortReason
  | lockOnShrinking
  | upgradeConflict
  deriving DecidableEq, Repr

inductive LockMode
  | shared
  | exclusive
  deriving DecidableEq, Repr

structure LockRequest where
  txnId : Nat
  lockMode : LockMode
  granted : Bool
  deriving DecidableEq, Repr

inductive LockCall
  | lockShared
  | lockExclusive
  | lockUpgrade
  | unlock
  deriving DecidableEq, Repr

inductive Outcome
  | ret (b : Bool)
  | thrown (reason : AbortReason)
  deriving DecidableEq, Repr

/-- Where the thread of a transaction is: before the checks of its call on `rid`, about to take
the latch, blocked on the queue's condition variable, or notified and about to retake it. -/
inductive Pc
  | idle
  | start (call : LockCall) (rid : Nat)
  | latching (call : LockCall) (rid : Nat)
  | waiting (call : LockCall) (rid : Nat)
  | woken (call : LockCall) (rid : Nat)
  deriving DecidableEq, Repr

structure LockManager where
  txnState : Nat → TransactionState
  isolationLevel : Nat → IsolationLevel
  sharedLockSet : Nat → Nat → Bool
  exclusiveLockSet : Nat → Nat → Bool
  lockTable : Nat → List LockRequest
  pc : Nat → Pc
  holdsShared : Nat → Nat → Bool
  holdsExclusive : Nat → Nat → Bool
  result : Nat → Option Outcome

namespace LockManager

def init (isolationLevel : Nat → IsolationLevel) : LockManager :=
  ⟨fun _ => .growing, isolationLevel, fun _ _ => false, fun _ _ => false, fun _ => [],
    fun _ => .idle, fun _ _ => false, fun _ _ => false, fun _ => none⟩

def ahead (txn : Nat) (q : List LockRequest) : List LockRequest :=
  q.takeWhile fun r => r.txnId != txn

/-- `NeedWait`: whether `txn` waits, and the younger transactions it wounds. Its `self` is the
queue's last request, which is the one `txn` appended only until another request is appended
behind it. -/
def needWait (txn : Nat) (q : List LockRequest) : Bool × List Nat :=
  match q.getLast?, q.head? with
  | some self, some first =>
    if self.lockMode = .shared ∧ (first.txnId = txn ∨ first.lockMode = .shared) ∨
        self.lockMode = .exclusive ∧ first.txnId = txn then (false, [])
    else
      ((ahead txn q).any fun r => r.txnId < txn ∧
          (self.lockMode = .exclusive ∨ r.lockMode = .exclusive),
        ((ahead txn q).filter fun r => txn < r.txnId ∧
          (self.lockMode = .shared ∧ r.lockMode = .exclusive ∨ self.lockMode = .exclusive)).map
          (·.txnId))
  | _, _ => (false, [])

def needWaitUpdate (txn : Nat) (q : List LockRequest) : Bool × List Nat :=
  ((ahead txn q).any fun r => r.txnId < txn,
    ((ahead txn q).filter fun r => txn < r.txnId).map (·.txnId))

def checkAbort (s : LockManager) (txn : Nat) : Bool := s.txnState txn = .aborted

def setState (s : LockManager) (txn : Nat) (st : TransactionState) : LockManager :=
  { s with txnState := Function.update s.txnState txn st }

def goTo (s : LockManager) (txn : Nat) (p : Pc) : LockManager :=
  { s with pc := Function.update s.pc txn p }

def finish (s : LockManager) (txn : Nat) (o : Outcome) : LockManager :=
  { s with pc := Function.update s.pc txn .idle, result := Function.update s.result txn (some o) }

def acquired (s : LockManager) (txn rid : Nat) : LockMode → LockManager
  | .shared => { s.finish txn (.ret true) with
      holdsShared := Function.update s.holdsShared txn (Function.update (s.holdsShared txn) rid true) }
  | .exclusive => { s.finish txn (.ret true) with
      holdsExclusive :=
        Function.update s.holdsExclusive txn (Function.update (s.holdsExclusive txn) rid true) }

def released (s : LockManager) (txn rid : Nat) (b : Bool) : LockManager :=
  { s.finish txn (.ret b) with
    holdsShared := Function.update s.holdsShared txn (Function.update (s.holdsShared txn) rid false),
    holdsExclusive :=
      Function.update s.holdsExclusive txn (Function.update (s.holdsExclusive txn) rid false) }

def notifyAll (s : LockManager) (rid : Nat) : LockManager :=
  { s with pc := fun t =>
      match s.pc t with
      | .waiting c r => if r = rid then .woken c r else .waiting c r
      | p => p }

def wound (s : LockManager) (rid : Nat) (ws : List Nat) : LockManager :=
  let s' := { s with txnState := fun u => if u ∈ ws then .aborted else s.txnState u }
  if ws.any fun u => s.txnState u ≠ .aborted then s'.notifyAll rid else s'

section Fields

variable (s : LockManager) (txn rid : Nat)

@[simp] theorem lockTable_setState (st : TransactionState) : (s.setState txn st).lockTable = s.lockTable := rfl
@[simp] theorem pc_setState (st : TransactionState) : (s.setState txn st).pc = s.pc := rfl
@[simp] theorem lockTable_goTo (p : Pc) : (s.goTo txn p).lockTable = s.lockTable := rfl
@[simp] theorem txnState_goTo (p : Pc) : (s.goTo txn p).txnState = s.txnState := rfl
@[simp] theorem lockTable_finish (o : Outcome) : (s.finish txn o).lockTable = s.lockTable := rfl
@[simp] theorem txnState_finish (o : Outcome) : (s.finish txn o).txnState = s.txnState := rfl
@[simp] theorem pc_finish (o : Outcome) : (s.finish txn o).pc = Function.update s.pc txn .idle := rfl
@[simp] theorem result_finish (o : Outcome) :
    (s.finish txn o).result = Function.update s.result txn (some o) := rfl

@[simp] theorem lockTable_acquired (m : LockMode) : (s.acquired txn rid m).lockTable = s.lockTable := by
  cases m <;> rfl

@[simp] theorem txnState_acquired (m : LockMode) : (s.acquired txn rid m).txnState = s.txnState := by
  cases m <;> rfl

@[simp] theorem pc_acquired (m : LockMode) :
    (s.acquired txn rid m).pc = Function.update s.pc txn .idle := by
  cases m <;> rfl

@[simp] theorem result_acquired (m : LockMode) :
    (s.acquired txn rid m).result = Function.update s.result txn (some (.ret true)) := by
  cases m <;> rfl

@[simp] theorem lockTable_released (b : Bool) : (s.released txn rid b).lockTable = s.lockTable := rfl
@[simp] theorem txnState_released (b : Bool) : (s.released txn rid b).txnState = s.txnState := rfl
@[simp] theorem pc_released (b : Bool) :
    (s.released txn rid b).pc = Function.update s.pc txn .idle := rfl
@[simp] theorem result_released (b : Bool) :
    (s.released txn rid b).result = Function.update s.result txn (some (.ret b)) := rfl
@[simp] theorem txnState_setState (st : TransactionState) :
    (s.setState txn st).txnState = Function.update s.txnState txn st := rfl
@[simp] theorem pc_goTo (p : Pc) : (s.goTo txn p).pc = Function.update s.pc txn p := rfl
@[simp] theorem lockTable_notifyAll : (s.notifyAll rid).lockTable = s.lockTable := rfl
@[simp] theorem txnState_notifyAll : (s.notifyAll rid).txnState = s.txnState := rfl

end Fields

def lockShared (s : LockManager) (txn rid : Nat) : LockManager :=
  if s.checkAbort txn then s.finish txn (.ret false)
  else if s.isolationLevel txn = .readUncommitted then
    (s.setState txn .aborted).finish txn (.ret false)
  else if s.txnState txn ≠ .growing then
    (s.setState txn .aborted).finish txn (.thrown .lockOnShrinking)
  else if s.sharedLockSet txn rid then s.acquired txn rid .shared
  else s.goTo txn (.latching .lockShared rid)

def lockExclusive (s : LockManager) (txn rid : Nat) : LockManager :=
  if s.checkAbort txn then s.finish txn (.ret false)
  else if s.txnState txn ≠ .growing then
    (s.setState txn .aborted).finish txn (.thrown .lockOnShrinking)
  else if s.exclusiveLockSet txn rid then s.acquired txn rid .exclusive
  else s.goTo txn (.latching .lockExclusive rid)

def lockUpgrade (s : LockManager) (txn rid : Nat) : LockManager :=
  if s.checkAbort txn then s.finish txn (.ret false)
  else if s.txnState txn ≠ .growing then
    (s.setState txn .aborted).finish txn (.thrown .upgradeConflict)
  else if s.exclusiveLockSet txn rid then s.acquired txn rid .exclusive
  else s.goTo txn (.latching .lockUpgrade rid)

def unlock (s : LockManager) (txn rid : Nat) : LockManager :=
  if !s.sharedLockSet txn rid && !s.exclusiveLockSet txn rid then s.released txn rid false
  else s.goTo txn (.latching .unlock rid)

def enqueue (s : LockManager) (txn rid : Nat) (mode : LockMode) : LockManager :=
  { s with
    lockTable := Function.update s.lockTable rid (s.lockTable rid ++ [⟨txn, mode, false⟩]),
    sharedLockSet := if mode = .shared then
      Function.update s.sharedLockSet txn (Function.update (s.sharedLockSet txn) rid true)
      else s.sharedLockSet,
    exclusiveLockSet := if mode = .exclusive then
      Function.update s.exclusiveLockSet txn (Function.update (s.exclusiveLockSet txn) rid true)
      else s.exclusiveLockSet }

def grantAll (s : LockManager) (txn rid : Nat) : LockManager :=
  { s.setState txn .growing with
    lockTable := Function.update s.lockTable rid ((s.lockTable rid).map fun r =>
      if r.txnId = txn then { r with granted := true } else r) }

/-- The grant of `LockUpgrade`. Its loop runs over copies of the requests, so the request in
the queue keeps its mode; only the state and the lock sets change. -/
def grantUpgrade (s : LockManager) (txn rid : Nat) : LockManager :=
  if (s.lockTable rid).any (·.txnId = txn) then
    { s.setState txn .growing with
      sharedLockSet := Function.update s.sharedLockSet txn (Function.update (s.sharedLockSet txn) rid false),
      exclusiveLockSet :=
        Function.update s.exclusiveLockSet txn (Function.update (s.exclusiveLockSet txn) rid true) }
  else s

def grant (s : LockManager) (txn : Nat) (c : LockCall) (rid : Nat) : LockManager :=
  match c with
  | .lockShared => (s.grantAll txn rid).acquired txn rid .shared
  | .lockExclusive => (s.grantAll txn rid).acquired txn rid .exclusive
  | .lockUpgrade => (s.grantUpgrade txn rid).acquired txn rid .exclusive
  | .unlock => s

theorem txnState_grant {u : Nat} (s : LockManager) (txn : Nat) (c : LockCall) (rid : Nat)
    (hu : u ≠ txn) : (s.grant txn c rid).txnState u = s.txnState u := by
  cases c <;> simp [grant, grantAll, grantUpgrade, Function.update_noteq hu]
  split <;> simp [Function.update_noteq hu]

theorem pc_grant {t : Nat} (s : LockManager) (txn : Nat) (c : LockCall) (rid : Nat)
    (ht : t ≠ txn) : (s.grant txn c rid).pc t = s.pc t := by
  cases c <;> simp [grant, grantAll, grantUpgrade, Function.update_noteq ht]
  split <;> rfl

def waitLoop (s : LockManager) (txn : Nat) (c : LockCall) (rid : Nat) : LockManager :=
  let v := if c = .lockUpgrade then needWaitUpdate txn (s.lockTable rid)
    else needWait txn (s.lockTable rid)
  let s := s.wound rid v.2
  if v.1 then s.goTo txn (.waiting c rid) else s.grant txn c rid

def unlockLatched (s : LockManager) (txn rid : Nat) : LockManager :=
  if (s.lockTable rid).any (·.txnId = txn) then
    let q := (s.lockTable rid).eraseP fun r => r.txnId = txn
    let s := ({ s with lockTable := Function.update s.lockTable rid q }).notifyAll rid
    let s := if s.txnState txn = .growing ∧ s.isolationLevel txn = .repeatableRead then
      s.setState txn .shrinking else s
    { s with
      sharedLockSet := Function.update s.sharedLockSet txn (Function.update (s.sharedLockSet txn) rid false),
      exclusiveLockSet :=
        Function.update s.exclusiveLockSet txn (Function.update (s.exclusiveLockSet txn) rid false)
    }.released txn rid true
  else s.released txn rid false

section Unlock

variable (s : LockManager) (txn rid : Nat)

@[simp] theorem pc_unlockLatched_self : (s.unlockLatched txn rid).pc txn = .idle := by
  unfold unlockLatched; split <;> simp

@[simp] theorem result_unlockLatched_self :
    (s.unlockLatched txn rid).result txn = some (.ret ((s.lockTable rid).any (·.txnId = txn))) := by
  unfold unlockLatched; split <;> simp_all

theorem txnState_unlockLatched_self : (s.unlockLatched txn rid).txnState txn =
    if (s.lockTable rid).any (·.txnId = txn) ∧ s.txnState txn = .growing ∧
      s.isolationLevel txn = .repeatableRead then .shrinking else s.txnState txn := by
  unfold unlockLatched; split <;> rename_i hf
  · dsimp only; split <;> rename_i hg
    · simp_all [notifyAll]
    · rw [if_neg fun h => hg h.2]; rfl
  · rw [if_neg fun h => hf h.1]; rfl

end Unlock

section Frame

variable {s : LockManager} {txn rid u : Nat} (hu : u ≠ txn)
include hu

theorem txnState_lockShared : (s.lockShared txn rid).txnState u = s.txnState u := by
  unfold lockShared; split_ifs <;> simp [Function.update_noteq hu]

theorem txnState_lockExclusive : (s.lockExclusive txn rid).txnState u = s.txnState u := by
  unfold lockExclusive; split_ifs <;> simp [Function.update_noteq hu]

theorem txnState_lockUpgrade : (s.lockUpgrade txn rid).txnState u = s.txnState u := by
  unfold lockUpgrade; split_ifs <;> simp [Function.update_noteq hu]

omit hu in
theorem txnState_unlock : (s.unlock txn rid).txnState u = s.txnState u := by
  unfold unlock; split <;> simp

theorem txnState_unlockLatched : (s.unlockLatched txn rid).txnState u = s.txnState u := by
  unfold unlockLatched; split
  · dsimp only; split <;> simp [Function.update_noteq hu]
  · simp

end Frame

def runThread (s : LockManager) (txn : Nat) : Option LockManager :=
  match s.pc txn with
  | .idle => none
  | .waiting _ _ => none
  | .start .lockShared rid => some (s.lockShared txn rid)
  | .start .lockExclusive rid => some (s.lockExclusive txn rid)
  | .start .lockUpgrade rid => some (s.lockUpgrade txn rid)
  | .start .unlock rid => some (s.unlock txn rid)
  | .latching .lockShared rid => some ((s.enqueue txn rid .shared).waitLoop txn .lockShared rid)
  | .latching .lockExclusive rid =>
    some ((s.enqueue txn rid .exclusive).waitLoop txn .lockExclusive rid)
  | .latching .lockUpgrade rid => some (s.waitLoop txn .lockUpgrade rid)
  | .latching .unlock rid => some (s.unlockLatched txn rid)
  | .woken c rid =>
    some (if s.checkAbort txn then s.finish txn (.ret false) else s.waitLoop txn c rid)

inductive Action
  | invoke (txn : Nat) (call : LockCall) (rid : Nat)
  | run (txn : Nat)
  deriving DecidableEq, Repr

def Action.txn : Action → Nat
  | .invoke txn _ _ => txn
  | .run txn => txn

def next (s : LockManager) : Action → Option LockManager
  | .invoke txn c rid => if s.pc txn = .idle then some (s.goTo txn (.start c rid)) else none
  | .run txn => s.runThread txn

inductive Reachable : LockManager → Prop
  | init (isolationLevel : Nat → IsolationLevel) : Reachable (init isolationLevel)
  | step {s s' : LockManager} (a : Action) : Reachable s → s.next a = some s' → Reachable s'

def runTrace (s : LockManager) : List Action → Option LockManager
  | [] => some s
  | a :: as => (s.next a).bind (runTrace · as)

theorem Reachable.runTrace {s s' : LockManager} {l : List Action} (hs : s.Reachable)
    (h : s.runTrace l = some s') : s'.Reachable := by
  induction l generalizing s with
  | nil => cases h; exact hs
  | cons a l ih =>
    simp only [LockManager.runTrace] at h
    cases hn : s.next a with
    | none => simp [hn] at h
    | some s₁ => exact ih (hs.step a hn) (by simpa [hn] using h)

theorem reach_of_run (iso : Nat → IsolationLevel) {l : List Action} {p : LockManager → Bool}
    (h : ((init iso).runTrace l).map p = some true) : ∃ s, s.Reachable ∧ p s = true := by
  cases hr : (init iso).runTrace l with
  | none => simp [hr] at h
  | some s => exact ⟨s, (Reachable.init iso).runTrace hr, by simpa [hr] using h⟩

theorem reach_step_of_run (iso : Nat → IsolationLevel) {l : List Action} {a : Action}
    {p : LockManager → LockManager → Bool}
    (h : ((init iso).runTrace l).map (fun s => (s.next a).any (p s)) = some true) :
    ∃ s s', s.Reachable ∧ s.next a = some s' ∧ p s s' = true := by
  obtain ⟨s, hr, hp⟩ := reach_of_run iso h
  cases hn : s.next a with
  | none => simp [hn] at hp
  | some s' => exact ⟨s, s', hr, hn, by simpa [hn] using hp⟩

end LockManager

end Bustub
