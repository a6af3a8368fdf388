import Bustub.Concurrency.Exclusion

/-!
Under any interleaving a READ_UNCOMMITTED transaction takes no shared lock.
-/

namespace Bustub

def Pc.inLockShared : Pc → Bool
  | .latching .lockShared _ | .waiting .lockShared _ | .woken .lockShared _ => true
  | _ => false

theorem Pc.inLockShared_waiting {c : LockCall} {rid : Nat} (h : (Pc.waiting c rid).inLockShared = true) :
    c = .lockShared := by
  cases c <;> simp_all [Pc.inLockShared]

namespace LockManager

structure SharedCommitted (s : LockManager) : Prop where
  queued : ∀ rid, ∀ r ∈ s.lockTable rid, r.lockMode = .shared →
    s.isolationLevel r.txnId ≠ .readUncommitted
  sharedLockSet : ∀ t rid, s.sharedLockSet t rid = true → s.isolationLevel t ≠ .readUncommitted
  holdsShared : ∀ t rid, s.holdsShared t rid = true → s.isolationLevel t ≠ .readUncommitted
  pc : ∀ t, (s.pc t).inLockShared = true → s.isolationLevel t ≠ .readUncommitted

variable {s s' : LockManager} {txn rid : Nat}

theorem of_update_update {f : Nat → Nat → Bool} {b : Bool} {t r : Nat}
    (h : Function.update f txn (Function.update (f txn) rid b) t r = true) :
    f t r = true ∨ t = txn ∧ b = true := by
  rw [update_update_apply] at h
  split_ifs at h with he
  · exact .inr ⟨he.1, h⟩
  · exact .inl h

theorem inLockShared_update {pc : Nat → Pc} {p : Pc} {t : Nat}
    (ht : (Function.update pc txn p t).inLockShared = true) :
    (pc t).inLockShared = true ∨ t = txn ∧ p.inLockShared = true := by
  by_cases htx : t = txn
  · subst htx; exact .inr ⟨rfl, by simpa using ht⟩
  · exact .inl (by simpa [Function.update_noteq htx] using ht)

theorem inLockShared_notifyAll (t : Nat) :
    ((s.notifyAll rid).pc t).inLockShared = (s.pc t).inLockShared := by
  unfold notifyAll
  dsimp only
  cases s.pc t with
  | waiting c r => dsimp only; split <;> cases c <;> rfl
  | _ => rfl

theorem isolationLevel_wound (ws : List Nat) : (s.wound rid ws).isolationLevel = s.isolationLevel := by
  unfold wound; split <;> rfl

theorem SharedCommitted.frame (h : s.SharedCommitted) (hi : s'.isolationLevel = s.isolationLevel)
    (hq : ∀ rid, ∀ r ∈ s'.lockTable rid, r ∈ s.lockTable rid)
    (hs : ∀ t rid, s'.sharedLockSet t rid = true → s.sharedLockSet t rid = true)
    (hh : ∀ t rid, s'.holdsShared t rid = true → s.holdsShared t rid = true)
    (hp : ∀ t, (s'.pc t).inLockShared = true →
      (s.pc t).inLockShared = true ∨ s.isolationLevel t ≠ .readUncommitted) :
    s'.SharedCommitted := by
  refine ⟨fun rid r hr hm => ?_, fun t rid ht => ?_, fun t rid ht => ?_, fun t ht => ?_⟩ <;> rw [hi]
  · exact h.queued rid r (hq rid r hr) hm
  · exact h.sharedLockSet t rid (hs t rid ht)
  · exact h.holdsShared t rid (hh t rid ht)
  · exact (hp t ht).elim (h.pc t) id

theorem SharedCommitted.setState (h : s.SharedCommitted) (st : TransactionState) :
    (s.setState txn st).SharedCommitted :=
  h.frame rfl (fun _ _ => id) (fun _ _ => id) (fun _ _ => id) fun _ ht => .inl ht

theorem SharedCommitted.goTo (h : s.SharedCommitted) (p : Pc)
    (hp : p.inLockShared = true → s.isolationLevel txn ≠ .readUncommitted) :
    (s.goTo txn p).SharedCommitted :=
  h.frame rfl (fun _ _ => id) (fun _ _ => id) (fun _ _ => id) fun _ ht =>
    (inLockShared_update ht).imp_right fun ⟨e, hp'⟩ => e ▸ hp hp'

theorem SharedCommitted.finish (h : s.SharedCommitted) (o : Outcome) :
    (s.finish txn o).SharedCommitted :=
  h.frame rfl (fun _ _ => id) (fun _ _ => id) (fun _ _ => id) fun _ ht =>
    (inLockShared_update ht).imp_right fun ⟨_, hp⟩ => absurd hp (by decide)

theorem SharedCommitted.notifyAll (h : s.SharedCommitted) : (s.notifyAll rid).SharedCommitted :=
  h.frame rfl (fun _ _ => id) (fun _ _ => id) (fun _ _ => id) fun t ht =>
    .inl ((inLockShared_notifyAll t).symm.trans ht)

theorem SharedCommitted.wound (h : s.SharedCommitted) (ws : List Nat) :
    (s.wound rid ws).SharedCommitted := by
  have h' : ({ s with txnState := fun u => if u ∈ ws then .aborted else s.txnState u } :
      LockManager).SharedCommitted :=
    h.frame rfl (fun _ _ => id) (fun _ _ => id) (fun _ _ => id) fun _ ht => .inl ht
  unfold LockManager.wound
  split
  · exact h'.notifyAll
  · exact h'

theorem SharedCommitted.enqueue (h : s.SharedCommitted) (m : LockMode)
    (hm : m = .shared → s.isolationLevel txn ≠ .readUncommitted) :
    (s.enqueue txn rid m).SharedCommitted := by
  refine ⟨fun r q hq hs => ?_, fun t r ht => ?_, h.holdsShared, h.pc⟩
  · simp only [LockManager.enqueue, Function.update_apply] at hq
    split_ifs at hq with hr
    · rcases List.mem_append.1 hq with hq | hq
      · exact h.queued _ q hq hs
      · rw [List.mem_singleton] at hq
        subst hq
        exact hm hs
    · exact h.queued r q hq hs
  · cases m
    · rcases of_update_update ht with ht | ⟨rfl, -⟩
      · exact h.sharedLockSet t r ht
      · exact hm rfl
    · exact h.sharedLockSet t r ht

theorem SharedCommitted.grantAll (h : s.SharedCommitted) : (s.grantAll txn rid).SharedCommitted := by
  refine ⟨fun r q hq hs => ?_, h.sharedLockSet, h.holdsShared, h.pc⟩
  simp only [LockManager.grantAll, Function.update_apply] at hq
  split_ifs at hq
  · obtain ⟨q', hq', rfl⟩ := List.mem_map.1 hq
    split_ifs at hs ⊢ <;> exact h.queued _ q' hq' hs
  · exact h.queued r q hq hs

theorem SharedCommitted.grantUpgrade (h : s.SharedCommitted) :
    (s.grantUpgrade txn rid).SharedCommitted := by
  unfold LockManager.grantUpgrade
  split
  · exact h.frame rfl (fun _ _ => id)
      (fun _ _ ht => (of_update_update ht).resolve_right fun h => Bool.false_ne_true h.2)
      (fun _ _ => id) fun _ ht => .inl ht
  · exact h

theorem SharedCommitted.acquired (h : s.SharedCommitted) (m : LockMode)
    (hm : m = .shared → s.isolationLevel txn ≠ .readUncommitted) :
    (s.acquired txn rid m).SharedCommitted := by
  have hf : (s.finish txn (.ret true)).SharedCommitted := h.finish _
  cases m
  · refine ⟨h.queued, h.sharedLockSet, fun t r ht => ?_, hf.pc⟩
    rcases of_update_update ht with ht | ⟨rfl, -⟩
    · exact h.holdsShared t r ht
    · exact hm rfl
  · exact ⟨h.queued, h.sharedLockSet, h.holdsShared, hf.pc⟩

theorem SharedCommitted.released (h : s.SharedCommitted) (b : Bool) :
    (s.released txn rid b).SharedCommitted :=
  ⟨h.queued, h.sharedLockSet, fun t r ht => h.holdsShared t r
    ((of_update_update ht).resolve_right fun h => Bool.false_ne_true h.2), (h.finish (.ret b)).pc⟩

theorem SharedCommitted.grant (h : s.SharedCommitted) (c : LockCall)
    (hc : c = .lockShared → s.isolationLevel txn ≠ .readUncommitted) :
    (s.grant txn c rid).SharedCommitted := by
  cases c
  case lockShared => exact h.grantAll.acquired .shared fun _ => hc rfl
  case lockExclusive => exact h.grantAll.acquired .exclusive (by simp)
  case lockUpgrade => exact h.grantUpgrade.acquired .exclusive (by simp)
  case unlock => exact h

theorem SharedCommitted.waitLoop (h : s.SharedCommitted) (c : LockCall)
    (hc : c = .lockShared → s.isolationLevel txn ≠ .readUncommitted) :
    (s.waitLoop txn c rid).SharedCommitted := by
  unfold LockManager.waitLoop
  generalize (if c = .lockUpgrade then needWaitUpdate txn (s.lockTable rid)
    else needWait txn (s.lockTable rid)) = v
  have hc' : c = .lockShared → (s.wound rid v.2).isolationLevel txn ≠ .readUncommitted := by
    rw [isolationLevel_wound]; exact hc
  dsimp only
  split
  · exact (h.wound _).goTo _ fun hp => hc' (Pc.inLockShared_waiting hp)
  · exact (h.wound _).grant c hc'

theorem SharedCommitted.unlockLatched (h : s.SharedCommitted) :
    (s.unlockLatched txn rid).SharedCommitted := by
  have hclear : ∀ {s : LockManager}, s.SharedCommitted → ∀ x : Nat → Nat → Bool,
      ({ s with
        sharedLockSet := Function.update s.sharedLockSet txn (Function.update (s.sharedLockSet txn) rid false),
        exclusiveLockSet := x } : LockManager).SharedCommitted := fun h _ =>
    h.frame rfl (fun _ _ => id)
      (fun _ _ ht => (of_update_update ht).resolve_right fun h => Bool.false_ne_true h.2)
      (fun _ _ => id) fun _ ht => .inl ht
  unfold LockManager.unlockLatched
  split
  · have h₁ : ({ s with
        lockTable := Function.update s.lockTable rid
          ((s.lockTable rid).eraseP fun r => r.txnId = txn) } : LockManager).SharedCommitted := by
      refine h.frame rfl (fun r q hq => ?_) (fun _ _ => id) (fun _ _ => id) fun _ ht => .inl ht
      by_cases hr : r = rid
      · subst hr
        exact List.mem_of_mem_eraseP (by simpa using hq)
      · simpa [Function.update_noteq hr] using hq
    dsimp only
    split
    · exact (hclear (h₁.notifyAll.setState _) _).released true
    · exact (hclear h₁.notifyAll _).released true
  · exact h.released false

theorem SharedCommitted.runThread (h : s.SharedCommitted) (hs : s.runThread txn = some s') :
    s'.SharedCommitted := by
  unfold LockManager.runThread at hs
  cases hp : s.pc txn with
  | idle => simp [hp] at hs
  | waiting c r => simp [hp] at hs
  | start c r =>
    cases c <;> simp only [hp, Option.some.injEq] at hs <;> subst hs
    · unfold LockManager.lockShared
      split_ifs with h1 h2
      · exact h.finish _
      · exact (h.setState _).finish _
      · exact (h.setState _).finish _
      · exact h.acquired .shared fun _ => h2
      · exact h.goTo _ fun _ => h2
    · unfold LockManager.lockExclusive
      split_ifs
      · exact h.finish _
      · exact (h.setState _).finish _
      · exact h.acquired .exclusive (by simp)
      · exact h.goTo _ (by simp [Pc.inLockShared])
    · unfold LockManager.lockUpgrade
      split_ifs
      · exact h.finish _
      · exact (h.setState _).finish _
      · exact h.acquired .exclusive (by simp)
      · exact h.goTo _ (by simp [Pc.inLockShared])
    · unfold LockManager.unlock
      split
      · exact h.released _
      · exact h.goTo _ (by simp [Pc.inLockShared])
  | latching c r =>
    cases c <;> simp only [hp, Option.some.injEq] at hs <;> subst hs
    · have hiso := h.pc txn (by rw [hp]; rfl)
      exact (h.enqueue .shared fun _ => hiso).waitLoop .lockShared fun _ => hiso
    · exact (h.enqueue .exclusive (by simp)).waitLoop .lockExclusive (by simp)
    · exact h.waitLoop .lockUpgrade (by simp)
    · exact h.unlockLatched
  | woken c r =>
    simp only [hp, Option.some.injEq] at hs
    subst hs
    split
    · exact h.finish _
    · exact h.waitLoop c fun e => h.pc txn (by rw [hp, e]; rfl)

theorem SharedCommitted.next (h : s.SharedCommitted) {a : Action} (hs : s.next a = some s') :
    s'.SharedCommitted := by
  cases a with
  | invoke t c rid =>
    simp only [LockManager.next] at hs
    split at hs
    · cases hs; exact h.goTo _ (by simp [Pc.inLockShared])
    · cases hs
  | run t => exact h.runThread hs

theorem Reachable.sharedCommitted (hr : s.Reachable) : s.SharedCommitted := by
  induction hr with
  | init iso => exact ⟨by simp [LockManager.init], by simp [LockManager.init],
      by simp [LockManager.init], by simp [LockManager.init, Pc.inLockShared]⟩
  | step a _ hs ih => exact ih.next hs

theorem read_uncommitted_takes_no_shared_lock (hr : s.Reachable) {t : Nat}
    (hru : s.isolationLevel t = .readUncommitted) (rid : Nat) :
    s.sharedLockSet t rid = false ∧ s.holdsShared t rid = false ∧
      ∀ r ∈ s.lockTable rid, r.txnId = t → r.lockMode = .exclusive := by
  have h := hr.sharedCommitted
  refine ⟨Bool.eq_false_iff.2 fun ht => h.sharedLockSet t rid ht hru,
    Bool.eq_false_iff.2 fun ht => h.holdsShared t rid ht hru, fun r hr' he => ?_⟩
  cases hm : r.lockMode
  · exact absurd (he ▸ hru) (h.queued rid r hr' hm)
  · rfl

theorem read_uncommitted_takes_no_shared_lock_abort :
    ∃ s : LockManager, s.Reachable ∧ s.isolationLevel 0 = .readUncommitted ∧
      s.txnState 0 = .aborted ∧ s.lockTable 0 = [⟨0, .exclusive, true⟩] ∧
      (s.sharedLockSet 0 0 = false ∧ s.holdsShared 0 0 = false ∧
        ∀ r ∈ s.lockTable 0, r.txnId = 0 → r.lockMode = .exclusive) := by
  obtain ⟨s, hr, hp⟩ := reach_of_run (fun _ => .readUncommitted)
    (l := [.invoke 0 .lockExclusive 0, .run 0, .run 0, .invoke 0 .lockShared 0, .run 0])
    (p := fun s => s.isolationLevel 0 == .readUncommitted && s.txnState 0 == .aborted &&
      s.lockTable 0 == [⟨0, .exclusive, true⟩])
    (by decide)
  simp only [Bool.and_eq_true, beq_iff_eq] at hp
  exact ⟨s, hr, hp.1.1, hp.1.2, hp.2, read_uncommitted_takes_no_shared_lock hr hp.1.1 0⟩

end LockManager

end Bustub
