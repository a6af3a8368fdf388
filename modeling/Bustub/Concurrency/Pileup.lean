import Bustub.Concurrency.Leftover

/-!
How a lock queue grows under READ_COMMITTED.
-/

namespace Bustub

namespace LockManager

structure Piled (s : LockManager) (txn rid k : Nat) (sh ex : Bool) : Prop where
  iso : s.isolationLevel txn = .readCommitted
  state : s.txnState txn = .growing
  pc : s.pc txn = .idle
  shared : s.sharedLockSet txn rid = sh
  exclusive : s.exclusiveLockSet txn rid = ex
  own : ∀ r ∈ s.lockTable rid, r.txnId = txn
  length : (s.lockTable rid).length = k

def callTrace (txn : Nat) (c : LockCall) (rid : Nat) : List Action :=
  [.invoke txn c rid, .run txn, .run txn]

def lockRound (txn rid : Nat) : List Action :=
  callTrace txn .lockShared rid ++ callTrace txn .lockExclusive rid ++ callTrace txn .unlock rid

variable {s s₁ : LockManager} {txn rid k : Nat} {sh ex : Bool}

theorem runTrace_append {l₁ : List Action} (h : s.runTrace l₁ = some s₁) (l₂ : List Action) :
    s.runTrace (l₁ ++ l₂) = s₁.runTrace l₂ := by
  induction l₁ generalizing s with
  | nil => cases h; rfl
  | cons a l ih =>
    simp only [runTrace] at h ⊢
    cases hn : s.next a with
    | none => simp [hn] at h
    | some s' => simpa [hn] using ih (by simpa [hn] using h)

theorem needWait_own {q : List LockRequest} (hq : ∀ r ∈ q, r.txnId = txn) (hne : q ≠ []) :
    needWait txn q = (false, []) := by
  obtain ⟨first, rest, rfl⟩ := List.exists_cons_of_ne_nil hne
  have hf := hq first (List.mem_cons_self _ _)
  cases hl : (first :: rest).getLast? with
  | none => simp at hl
  | some self => cases hm : self.lockMode <;> simp [needWait, hl, hf, hm]

theorem wound_nil : s.wound rid [] = s := by
  simp [wound]

theorem isolationLevel_unlockLatched :
    (s.unlockLatched txn rid).isolationLevel = s.isolationLevel := by
  unfold unlockLatched
  split
  · dsimp only; split <;> rfl
  · rfl

theorem waitLoop_of_own {c : LockCall} (hq : ∀ r ∈ s.lockTable rid, r.txnId = txn)
    (hne : s.lockTable rid ≠ []) (hc : c ≠ .lockUpgrade) : s.waitLoop txn c rid = s.grant txn c rid := by
  simp [waitLoop, hc, needWait_own hq hne, wound_nil]

theorem Piled.latched (h : s.Piled txn rid k sh ex) {c : LockCall} {m : LockMode}
    (hcm : c = .lockShared ∧ m = .shared ∨ c = .lockExclusive ∧ m = .exclusive) :
    (s.goTo txn (.latching c rid)).next (.run txn) =
      some (((s.goTo txn (.latching c rid)).enqueue txn rid m).grant txn c rid) ∧
    (((s.goTo txn (.latching c rid)).enqueue txn rid m).grant txn c rid).Piled txn rid (k + 1)
      (if m = .shared then true else sh) (if m = .exclusive then true else ex) := by
  have hown : ∀ r ∈ ((s.goTo txn (.latching c rid)).enqueue txn rid m).lockTable rid,
      r.txnId = txn := by
    intro r hr
    simp only [enqueue, goTo, Function.update_same, List.mem_append, List.mem_singleton] at hr
    rcases hr with hr | rfl
    exacts [h.own r hr, rfl]
  have hwait := waitLoop_of_own (c := c) hown (by simp [enqueue])
  rcases hcm with ⟨rfl, rfl⟩ | ⟨rfl, rfl⟩ <;>
    refine ⟨by simp only [next, runThread, pc_goTo, Function.update_same, hwait (by decide)], ?_⟩
  all_goals
    constructor <;> simp [LockManager.grant, LockManager.grantAll, LockManager.acquired,
      LockManager.enqueue, goTo, setState, finish, h.iso, h.shared, h.exclusive, h.length]
    rintro r (⟨a, ha, rfl⟩ | rfl)
    · split <;> exact h.own a ha
    · rfl

theorem Piled.lockShared (h : s.Piled txn rid k false ex) :
    ∃ s', s.runTrace (callTrace txn .lockShared rid) = some s' ∧ s'.Piled txn rid (k + 1) true ex := by
  have h₁ : s.next (.invoke txn .lockShared rid) = some (s.goTo txn (.start .lockShared rid)) := by
    simp [next, h.pc]
  have h₂ : (s.goTo txn (.start .lockShared rid)).next (.run txn) =
      some (s.goTo txn (.latching .lockShared rid)) := by
    simp [next, runThread, LockManager.lockShared, checkAbort, goTo, h.state, h.iso, h.shared]
  obtain ⟨h₃, hp⟩ := h.latched (.inl ⟨rfl, rfl⟩)
  refine ⟨_, ?_, by simpa using hp⟩
  simp [callTrace, runTrace, h₁, h₂, h₃]

theorem Piled.lockExclusive (h : s.Piled txn rid k sh false) :
    ∃ s', s.runTrace (callTrace txn .lockExclusive rid) = some s' ∧ s'.Piled txn rid (k + 1) sh true := by
  have h₁ : s.next (.invoke txn .lockExclusive rid) = some (s.goTo txn (.start .lockExclusive rid)) := by
    simp [next, h.pc]
  have h₂ : (s.goTo txn (.start .lockExclusive rid)).next (.run txn) =
      some (s.goTo txn (.latching .lockExclusive rid)) := by
    simp [next, runThread, LockManager.lockExclusive, checkAbort, goTo, h.state, h.exclusive]
  obtain ⟨h₃, hp⟩ := h.latched (.inr ⟨rfl, rfl⟩)
  refine ⟨_, ?_, by simpa using hp⟩
  simp [callTrace, runTrace, h₁, h₂, h₃]

theorem Piled.unlock (h : s.Piled txn rid (k + 1) sh ex) (hse : sh = true ∨ ex = true) :
    ∃ s', s.runTrace (callTrace txn .unlock rid) = some s' ∧ s'.Piled txn rid k false false := by
  have h₁ : s.next (.invoke txn .unlock rid) = some (s.goTo txn (.start .unlock rid)) := by
    simp [next, h.pc]
  have h₂ : (s.goTo txn (.start .unlock rid)).next (.run txn) =
      some (s.goTo txn (.latching .unlock rid)) := by
    rcases hse with rfl | rfl <;> simp [next, runThread, LockManager.unlock, goTo, h.shared, h.exclusive]
  have h₃ : (s.goTo txn (.latching .unlock rid)).next (.run txn) =
      some ((s.goTo txn (.latching .unlock rid)).unlockLatched txn rid) := by
    simp [next, runThread]
  obtain ⟨r, hr⟩ := List.exists_mem_of_length_pos (l := s.lockTable rid) (by rw [h.length]; omega)
  have hany : ((s.goTo txn (.latching .unlock rid)).lockTable rid).any (·.txnId = txn) :=
    List.any_eq_true.2 ⟨r, hr, by simpa using h.own r hr⟩
  obtain ⟨hq, hsh, hex⟩ := unlockLatched_self hany
  refine ⟨_, by simp [callTrace, runTrace, h₁, h₂, h₃], ⟨?_, ?_, pc_unlockLatched_self _ _ _, hsh,
    hex, ?_, ?_⟩⟩
  · rw [isolationLevel_unlockLatched]; exact h.iso
  · rw [txnState_unlockLatched_self]; simp [goTo, h.iso, h.state]
  · rw [hq]; exact fun r hr => h.own r (List.mem_of_mem_eraseP hr)
  · rw [hq]
    change (List.eraseP (fun x => decide (x.txnId = txn)) (s.lockTable rid)).length = k
    rw [List.length_eraseP_of_mem hr (by simpa using h.own r hr), h.length, Nat.add_sub_cancel]

theorem Piled.afterRound (h : s.Piled txn rid k false false) :
    ∃ s', s.runTrace (lockRound txn rid) = some s' ∧ s'.Piled txn rid (k + 1) false false := by
  obtain ⟨s₁, h₁, hp₁⟩ := h.lockShared
  obtain ⟨s₂, h₂, hp₂⟩ := hp₁.lockExclusive
  obtain ⟨s₃, h₃, hp₃⟩ := hp₂.unlock (.inl rfl)
  exact ⟨s₃, by rw [lockRound, List.append_assoc, runTrace_append h₁, runTrace_append h₂, h₃], hp₃⟩

theorem Piled.afterRounds (h : s.Piled txn rid k false false) (n : Nat) :
    ∃ s', s.runTrace (List.replicate n (lockRound txn rid)).flatten = some s' ∧
      s'.Piled txn rid (k + n) false false := by
  induction n generalizing s k with
  | zero => exact ⟨s, rfl, h⟩
  | succ n ih =>
    obtain ⟨s₁, h₁, hp₁⟩ := h.afterRound
    obtain ⟨s₂, h₂, hp₂⟩ := ih hp₁
    refine ⟨s₂, ?_, by rwa [Nat.add_right_comm, Nat.add_assoc] at hp₂⟩
    rw [List.replicate_succ, List.flatten_cons, runTrace_append h₁, h₂]

theorem read_committed_queue_grows {iso : Nat → IsolationLevel} {txn : Nat}
    (hiso : iso txn = .readCommitted) (rid n : Nat) :
    ∃ s, (init iso).runTrace (List.replicate n (lockRound txn rid)).flatten = some s ∧
      (s.lockTable rid).length = n ∧ (∀ r ∈ s.lockTable rid, r.txnId = txn) ∧
      s.sharedLockSet txn rid = false ∧ s.exclusiveLockSet txn rid = false ∧
      s.txnState txn = .growing := by
  have h₀ : (init iso).Piled txn rid 0 false false := ⟨hiso, rfl, rfl, rfl, rfl, by simp [init], rfl⟩
  obtain ⟨s, hs, hp⟩ := h₀.afterRounds n
  exact ⟨s, hs, by simpa using hp.length, hp.own, hp.shared, hp.exclusive, hp.state⟩

theorem read_committed_queue_grows_three :
    (fun _ => .readCommitted : Nat → IsolationLevel) 0 = .readCommitted ∧
      ∃ s, (init fun _ => .readCommitted).runTrace (List.replicate 3 (lockRound 0 0)).flatten = some s ∧
        (s.lockTable 0).length = 3 ∧ (∀ r ∈ s.lockTable 0, r.txnId = 0) ∧
        s.sharedLockSet 0 0 = false ∧ s.exclusiveLockSet 0 0 = false ∧ s.txnState 0 = .growing :=
  ⟨rfl, read_committed_queue_grows rfl 0 3⟩

end LockManager

end Bustub
