import Bustub.Concurrency.LockManager

/-!
Mutual exclusion and the lock sets, which an upgrade breaks, and what every reachable state keeps.
-/

namespace Bustub

namespace LockManager

def MutualExclusion (s : LockManager) : Prop :=
  ∀ t u rid, t ≠ u → s.txnState t ≠ .aborted → s.txnState u ≠ .aborted →
    s.holdsExclusive t rid = true → s.holdsShared u rid = false ∧ s.holdsExclusive u rid = false

theorem upgrade_breaks_mutual_exclusion :
    ∃ s : LockManager, s.Reachable ∧ s.txnState 1 = .growing ∧ s.txnState 2 = .growing ∧
      s.holdsExclusive 1 0 = true ∧ s.holdsShared 2 0 = true ∧ ¬ s.MutualExclusion := by
  obtain ⟨s, hr, hp⟩ := reach_of_run (fun _ => .repeatableRead)
    (l := [.invoke 1 .lockShared 0, .run 1, .run 1, .invoke 2 .lockShared 0, .run 2, .run 2,
      .invoke 1 .lockUpgrade 0, .run 1, .run 1])
    (p := fun s => s.txnState 1 == .growing && s.txnState 2 == .growing &&
      s.holdsExclusive 1 0 && s.holdsShared 2 0)
    (by decide)
  simp only [Bool.and_eq_true, beq_iff_eq] at hp
  obtain ⟨⟨⟨h1, h2⟩, hx⟩, hs⟩ := hp
  refine ⟨s, hr, h1, h2, hx, hs, fun hm => ?_⟩
  have := (hm 1 2 0 (by decide) (by rw [h1]; decide) (by rw [h2]; decide) hx).1
  rw [hs] at this
  cases this

def LockSetsAgree (s : LockManager) : Prop :=
  ∀ t rid, ((s.lockTable rid).filter (·.txnId = t)).length ≤ 1 ∧
    (s.sharedLockSet t rid = true ↔ ∃ r ∈ s.lockTable rid, r.txnId = t ∧ r.lockMode = .shared) ∧
    (s.exclusiveLockSet t rid = true ↔ ∃ r ∈ s.lockTable rid, r.txnId = t ∧ r.lockMode = .exclusive)

theorem upgrade_keeps_request_shared :
    ∃ s : LockManager, s.Reachable ∧ s.sharedLockSet 1 0 = false ∧
      s.exclusiveLockSet 1 0 = true ∧
      s.lockTable 0 = [⟨1, .shared, true⟩, ⟨2, .shared, true⟩] ∧ ¬ s.LockSetsAgree := by
  obtain ⟨s, hr, hp⟩ := reach_of_run (fun _ => .repeatableRead)
    (l := [.invoke 1 .lockShared 0, .run 1, .run 1, .invoke 2 .lockShared 0, .run 2, .run 2,
      .invoke 1 .lockUpgrade 0, .run 1, .run 1])
    (p := fun s => !s.sharedLockSet 1 0 && s.exclusiveLockSet 1 0 &&
      s.lockTable 0 == [⟨1, .shared, true⟩, ⟨2, .shared, true⟩])
    (by decide)
  simp only [Bool.and_eq_true, Bool.not_eq_true', beq_iff_eq] at hp
  obtain ⟨⟨hs, hx⟩, hq⟩ := hp
  refine ⟨s, hr, hs, hx, hq, fun ha => ?_⟩
  obtain ⟨r, hr, h1, hm⟩ := (ha 1 0).2.2.1 hx
  rw [hq] at hr
  simp only [List.mem_cons, List.mem_singleton, List.not_mem_nil, or_false] at hr
  rcases hr with rfl | rfl <;> cases hm

def LockSetsBacked (s : LockManager) : Prop :=
  ∀ t rid, s.sharedLockSet t rid = true ∨ s.exclusiveLockSet t rid = true →
    ∃ r ∈ s.lockTable rid, r.txnId = t

section Backed

variable {s s' : LockManager} {txn rid : Nat}

theorem update_update_apply (f : Nat → Nat → Bool) (b : Bool) (t r : Nat) :
    Function.update f txn (Function.update (f txn) rid b) t r =
      if t = txn ∧ r = rid then b else f t r := by
  by_cases ht : t = txn
  · subst ht; by_cases hr : r = rid <;> simp [hr]
  · simp [ht]

theorem LockSetsBacked.frame (h : s.LockSetsBacked) (hq : s'.lockTable = s.lockTable)
    (hs : s'.sharedLockSet = s.sharedLockSet) (hx : s'.exclusiveLockSet = s.exclusiveLockSet) :
    s'.LockSetsBacked := by
  rw [LockSetsBacked, hq, hs, hx]; exact h

theorem LockSetsBacked.wound (h : s.LockSetsBacked) (ws : List Nat) :
    (s.wound rid ws).LockSetsBacked := by
  unfold LockManager.wound; split <;> exact h.frame rfl rfl rfl

theorem LockSetsBacked.enqueue (h : s.LockSetsBacked) (m : LockMode) :
    (s.enqueue txn rid m).LockSetsBacked := by
  intro t r ht
  by_cases hnew : t = txn ∧ r = rid
  · obtain ⟨rfl, rfl⟩ := hnew
    exact ⟨⟨t, m, false⟩, by simp [LockManager.enqueue], rfl⟩
  · have hold : s.sharedLockSet t r = true ∨ s.exclusiveLockSet t r = true := by
      cases m <;> simpa [LockManager.enqueue, update_update_apply, hnew] using ht
    obtain ⟨q, hq, rfl⟩ := h t r hold
    by_cases hr : r = rid
    · subst hr; exact ⟨q, by simp [LockManager.enqueue, hq], rfl⟩
    · exact ⟨q, by simpa [LockManager.enqueue, Function.update_noteq hr] using hq, rfl⟩

theorem LockSetsBacked.grantAll (h : s.LockSetsBacked) : (s.grantAll txn rid).LockSetsBacked := by
  intro t r ht
  obtain ⟨q, hq, rfl⟩ := h t r ht
  by_cases hr : r = rid
  · subst hr
    simp only [LockManager.grantAll, Function.update_same]
    exact ⟨_, List.mem_map_of_mem _ hq, by split <;> rfl⟩
  · exact ⟨q, by simpa [LockManager.grantAll, Function.update_noteq hr] using hq, rfl⟩

theorem LockSetsBacked.grantUpgrade (h : s.LockSetsBacked) :
    (s.grantUpgrade txn rid).LockSetsBacked := by
  unfold LockManager.grantUpgrade
  split
  · rename_i hany
    intro t r ht
    by_cases hnew : t = txn ∧ r = rid
    · obtain ⟨rfl, rfl⟩ := hnew; simpa using hany
    · exact h t r (by simpa [update_update_apply, hnew] using ht)
  · exact h

theorem LockSetsBacked.grant (h : s.LockSetsBacked) (c : LockCall) :
    (s.grant txn c rid).LockSetsBacked := by
  cases c
  case lockShared => exact h.grantAll.frame rfl rfl rfl
  case lockExclusive => exact h.grantAll.frame rfl rfl rfl
  case lockUpgrade => exact h.grantUpgrade.frame rfl rfl rfl
  case unlock => exact h

theorem LockSetsBacked.waitLoop (h : s.LockSetsBacked) (c : LockCall) :
    (s.waitLoop txn c rid).LockSetsBacked := by
  unfold LockManager.waitLoop
  generalize (if c = .lockUpgrade then needWaitUpdate txn (s.lockTable rid)
    else needWait txn (s.lockTable rid)) = v
  dsimp only
  split
  · exact (h.wound _).frame rfl rfl rfl
  · exact (h.wound _).grant c

theorem LockSetsBacked.unlockLatched (h : s.LockSetsBacked) :
    (s.unlockLatched txn rid).LockSetsBacked := by
  unfold LockManager.unlockLatched
  split
  · intro t r ht
    have hold : (¬t = txn ∨ ¬r = rid) ∧
        (s.sharedLockSet t r = true ∨ s.exclusiveLockSet t r = true) := by
      dsimp only at ht
      split at ht <;> simpa [released, finish, setState, notifyAll, update_update_apply,
        and_or_left] using ht
    obtain ⟨q, hq, rfl⟩ := h t r hold.2
    have hkept : q ∈ Function.update s.lockTable rid
        ((s.lockTable rid).eraseP fun r => r.txnId = txn) r := by
      by_cases hr : r = rid
      · subst hr
        have hne : q.txnId ≠ txn := fun he => hold.1.elim (· he) (· rfl)
        rw [Function.update_same]
        exact (List.mem_eraseP_of_neg (by simpa using hne)).2 hq
      · simpa [Function.update_noteq hr] using hq
    dsimp only
    split <;> exact ⟨q, hkept, rfl⟩
  · exact h.frame rfl rfl rfl

theorem LockSetsBacked.runThread (h : s.LockSetsBacked) (hs : s.runThread txn = some s') :
    s'.LockSetsBacked := by
  unfold LockManager.runThread at hs
  split at hs <;> simp only [Option.some.injEq, reduceCtorEq] at hs <;> subst hs
  · unfold LockManager.lockShared; split_ifs <;> exact h.frame rfl rfl rfl
  · unfold LockManager.lockExclusive; split_ifs <;> exact h.frame rfl rfl rfl
  · unfold LockManager.lockUpgrade; split_ifs <;> exact h.frame rfl rfl rfl
  · unfold LockManager.unlock; split <;> exact h.frame rfl rfl rfl
  · exact (h.enqueue _).waitLoop _
  · exact (h.enqueue _).waitLoop _
  · exact h.waitLoop _
  · exact h.unlockLatched
  · split
    · exact h.frame rfl rfl rfl
    · exact h.waitLoop _

theorem Reachable.lockSetsBacked (hr : s.Reachable) : s.LockSetsBacked := by
  induction hr with
  | init iso => intro t rid h; simp [LockManager.init] at h
  | step a _ hs ih =>
    cases a with
    | invoke t c rid =>
      simp only [LockManager.next] at hs
      split at hs
      · cases hs; exact ih.frame rfl rfl rfl
      · cases hs
    | run t => exact ih.runThread hs

end Backed

end LockManager

end Bustub
