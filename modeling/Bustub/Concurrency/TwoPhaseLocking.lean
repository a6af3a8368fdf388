import Bustub.Concurrency.WoundWait

/-!
The state of a transaction under interleaved lock calls.
-/

namespace Bustub

def Pc.canGrant : Pc → Bool
  | .latching c _ => c != .unlock
  | .waiting _ _ | .woken _ _ => true
  | _ => false

namespace LockManager

variable {s s' s'' : LockManager} {txn rid u : Nat}

structure Bystander (u : Nat) (s s' : LockManager) : Prop where
  txnState : s'.txnState u = s.txnState u ∨ s'.txnState u = .aborted
  pc : s'.pc u = s.pc u ∨ ∃ c rid, s.pc u = .waiting c rid ∧ s'.pc u = .woken c rid

theorem Bystander.trans (h : Bystander u s s') (h' : Bystander u s' s'') : Bystander u s s'' := by
  refine ⟨?_, ?_⟩
  · rcases h'.txnState with e | e <;> rw [e]
    · exact h.txnState
    · exact .inr rfl
  · rcases h'.pc with e | ⟨c, r, hw, hk⟩
    · rw [e]; exact h.pc
    · rcases h.pc with e' | ⟨c', r', -, hk'⟩
      · exact .inr ⟨c, r, e' ▸ hw, hk⟩
      · rw [hk'] at hw; cases hw

theorem bystander_of (ht : s'.txnState u = s.txnState u) (hp : s'.pc u = s.pc u) :
    Bystander u s s' :=
  ⟨.inl ht, .inl hp⟩

theorem bystander_notifyAll : Bystander u s (s.notifyAll rid) := by
  refine ⟨.inl rfl, ?_⟩
  simp only [notifyAll]
  split
  · rename_i c r h
    split
    · exact .inr ⟨c, r, h, rfl⟩
    · exact .inl h.symm
  · exact .inl rfl

theorem bystander_wound (ws : List Nat) : Bystander u s (s.wound rid ws) := by
  have h : Bystander u s { s with txnState := fun u => if u ∈ ws then .aborted else s.txnState u } :=
    ⟨by by_cases hu : u ∈ ws <;> simp [hu], .inl rfl⟩
  unfold wound
  split
  · exact h.trans bystander_notifyAll
  · exact h

theorem bystander_enqueue (m : LockMode) : Bystander u s (s.enqueue txn rid m) :=
  bystander_of rfl rfl

section Others

variable (hu : u ≠ txn)
include hu

theorem bystander_finish (o : Outcome) : Bystander u s (s.finish txn o) :=
  bystander_of rfl (by simp [Function.update_noteq hu])

theorem bystander_goTo (p : Pc) : Bystander u s (s.goTo txn p) :=
  bystander_of rfl (by simp [Function.update_noteq hu])

theorem bystander_waitLoop (c : LockCall) : Bystander u s (s.waitLoop txn c rid) := by
  unfold waitLoop
  generalize (if c = .lockUpgrade then needWaitUpdate txn (s.lockTable rid)
    else needWait txn (s.lockTable rid)) = v
  dsimp only
  split
  · exact (bystander_wound _).trans (bystander_goTo hu _)
  · exact (bystander_wound _).trans
      (bystander_of (txnState_grant _ _ _ _ hu) (pc_grant _ _ _ _ hu))

theorem bystander_unlockLatched : Bystander u s (s.unlockLatched txn rid) := by
  refine ⟨.inl (txnState_unlockLatched hu), ?_⟩
  have h := (bystander_notifyAll : Bystander u s (s.notifyAll rid)).pc
  unfold unlockLatched
  split
  · dsimp only
    split <;> simpa [notifyAll, Function.update_noteq hu] using h
  · simp [Function.update_noteq hu]

theorem Bystander.runThread (hs : s.runThread txn = some s') : Bystander u s s' := by
  unfold LockManager.runThread at hs
  split at hs <;> simp only [Option.some.injEq, reduceCtorEq] at hs <;> subst hs
  · exact bystander_of (txnState_lockShared hu)
      (by unfold lockShared; split_ifs <;> simp [Function.update_noteq hu])
  · exact bystander_of (txnState_lockExclusive hu)
      (by unfold lockExclusive; split_ifs <;> simp [Function.update_noteq hu])
  · exact bystander_of (txnState_lockUpgrade hu)
      (by unfold lockUpgrade; split_ifs <;> simp [Function.update_noteq hu])
  · exact bystander_of txnState_unlock
      (by unfold unlock; split <;> simp [Function.update_noteq hu])
  · exact (bystander_enqueue _).trans (bystander_waitLoop hu _)
  · exact (bystander_enqueue _).trans (bystander_waitLoop hu _)
  · exact bystander_waitLoop hu _
  · exact bystander_unlockLatched hu
  · split
    · exact bystander_finish hu _
    · exact bystander_waitLoop hu _

end Others

theorem Bystander.next {a : Action} (ha : a.txn ≠ u) (hs : s.next a = some s') :
    Bystander u s s' := by
  cases a with
  | invoke t c rid =>
    simp only [LockManager.next] at hs
    split at hs
    · cases hs; exact bystander_goTo (Ne.symm ha) _
    · cases hs
  | run t => exact Bystander.runThread (Ne.symm ha) hs

def Reaches (s s' : LockManager) : Prop :=
  Relation.ReflTransGen (fun s s' => ∃ a, s.next a = some s') s s'

structure Refused (s : LockManager) (t : Nat) : Prop where
  pc : s.pc t = .idle
  txnState : s.txnState t ≠ .growing
  result : s.result t ≠ some (.ret true)

theorem Refused.start {c : LockCall} (hp : s.pc txn = .start c rid) (hc : c ≠ .unlock)
    (h : s.txnState txn ≠ .growing) (hs : s.runThread txn = some s') : s'.Refused txn := by
  cases c <;> simp only [LockManager.runThread, hp, Option.some.injEq] at hs <;> subst hs
  · unfold lockShared; split_ifs <;> constructor <;> simp_all [finish, setState]
  · unfold lockExclusive; split_ifs <;> constructor <;> simp_all [finish, setState]
  · unfold lockUpgrade; split_ifs <;> constructor <;> simp_all [finish, setState]
  · exact absurd rfl hc

structure Shrunk (s : LockManager) (t : Nat) : Prop where
  txnState : s.txnState t ≠ .growing
  pc : (s.pc t).canGrant = false

theorem Shrunk.bystander {t : Nat} (h : s.Shrunk t) (hb : Bystander t s s') : s'.Shrunk t := by
  refine ⟨?_, ?_⟩
  · rcases hb.txnState with e | e <;> rw [e]
    · exact h.txnState
    · exact nofun
  · rcases hb.pc with e | ⟨c, r, hw, -⟩
    · rw [e]; exact h.pc
    · have := h.pc; rw [hw] at this; cases this

theorem Refused.shrunk {t : Nat} (h : s.Refused t) : s.Shrunk t :=
  ⟨h.txnState, by rw [h.pc]; rfl⟩

theorem Shrunk.runThread {t : Nat} (h : s.Shrunk t) (hs : s.runThread t = some s') :
    s'.Shrunk t ∧ ∀ c rid, c ≠ .unlock → s.pc t = .start c rid → s'.Refused t := by
  have hp := h.pc
  cases hpc : s.pc t with
  | idle => simp [LockManager.runThread, hpc] at hs
  | waiting c rid => simp [LockManager.runThread, hpc] at hs
  | start c rid =>
    by_cases hc : c = .unlock
    · subst hc
      simp only [LockManager.runThread, hpc, Option.some.injEq] at hs
      subst hs
      refine ⟨⟨by rw [txnState_unlock]; exact h.txnState, ?_⟩,
        fun c _ hc e => absurd (Pc.start.inj e).1.symm hc⟩
      unfold unlock; split <;> simp [Pc.canGrant]
    · have hr := Refused.start hpc hc h.txnState hs
      exact ⟨hr.shrunk, fun _ _ _ _ => hr⟩
  | latching c rid =>
    rw [hpc] at hp
    cases c <;> simp [Pc.canGrant] at hp
    simp only [LockManager.runThread, hpc, Option.some.injEq] at hs
    subst hs
    refine ⟨⟨?_, by simp [Pc.canGrant]⟩, fun _ _ _ e => by simp [hpc] at e⟩
    rw [txnState_unlockLatched_self, if_neg fun h' => h.txnState h'.2.1]
    exact h.txnState
  | woken c rid => rw [hpc] at hp; cases hp

theorem Shrunk.next {t : Nat} {a : Action} (h : s.Shrunk t) (hs : s.next a = some s') :
    s'.Shrunk t := by
  by_cases ha : a.txn = t
  · cases a with
    | invoke t' c rid =>
      simp only [Action.txn] at ha
      subst ha
      simp only [LockManager.next] at hs
      split at hs
      · cases hs; exact ⟨h.txnState, by simp [Pc.canGrant]⟩
      · cases hs
    | run t' =>
      simp only [Action.txn] at ha
      subst ha
      exact (h.runThread hs).1
  · exact h.bystander (Bystander.next ha hs)

theorem Shrunk.reaches {t : Nat} (h : s.Shrunk t) (hr : s.Reaches s') : s'.Shrunk t := by
  induction hr with
  | refl => exact h
  | tail _ hs ih => obtain ⟨a, hs⟩ := hs; exact ih.next hs

theorem shrunk_unlockLatched {t : Nat} (hrr : s.isolationLevel t = .repeatableRead)
    (hres : (s.unlockLatched t rid).result t = some (.ret true)) : (s.unlockLatched t rid).Shrunk t := by
  refine ⟨?_, by simp [Pc.canGrant]⟩
  simp only [result_unlockLatched_self, Option.some.injEq, Outcome.ret.injEq] at hres
  rw [txnState_unlockLatched_self]
  split
  · exact nofun
  · rename_i h
    simp_all

theorem two_phase_locking {t rid : Nat} {s₁ : LockManager} (hrr : s.isolationLevel t = .repeatableRead)
    (hp : s.pc t = .latching .unlock rid) (hs : s.next (.run t) = some s₁)
    (hres : s₁.result t = some (.ret true)) {s₂ : LockManager} (h₂ : s₁.Reaches s₂) :
    (s₂.pc t).canGrant = false ∧ ∀ c rid' s₃, c ≠ .unlock → s₂.pc t = .start c rid' →
      s₂.next (.run t) = some s₃ → s₃.pc t = .idle ∧ s₃.result t ≠ some (.ret true) := by
  simp only [LockManager.next, LockManager.runThread, hp, Option.some.injEq] at hs
  subst hs
  have h := (shrunk_unlockLatched hrr hres).reaches h₂
  exact ⟨h.pc, fun c rid' s₃ hc hp₂ hs₃ =>
    let hr := (h.runThread hs₃).2 c rid' hc hp₂; ⟨hr.pc, hr.result⟩⟩

theorem exists_of_next_any {a : Action} {p : LockManager → Bool} (h : (s.next a).any p = true) :
    ∃ s', s.next a = some s' ∧ p s' = true := by
  cases hn : s.next a with
  | none => simp [hn] at h
  | some s' => exact ⟨s', rfl, by simpa [hn] using h⟩

theorem two_phase_locking_relock :
    ∃ s s₁ s₂ s₃ : LockManager, s.Reachable ∧ s.isolationLevel 1 = .repeatableRead ∧
      s.pc 1 = .latching .unlock 0 ∧ s.next (.run 1) = some s₁ ∧ s₁.result 1 = some (.ret true) ∧
      s₁.next (.invoke 1 .lockShared 0) = some s₂ ∧ s₂.pc 1 = .start .lockShared 0 ∧
      s₂.next (.run 1) = some s₃ ∧ (s₂.pc 1).canGrant = false ∧ s₃.pc 1 = .idle ∧
      s₃.result 1 ≠ some (.ret true) := by
  obtain ⟨s, s₁, hr, hs, hp⟩ := reach_step_of_run (fun _ => .repeatableRead)
    (l := [.invoke 1 .lockShared 0, .run 1, .run 1, .invoke 1 .unlock 0, .run 1]) (a := .run 1)
    (p := fun s s₁ => s.isolationLevel 1 == .repeatableRead && s.pc 1 == .latching .unlock 0 &&
      s₁.result 1 == some (.ret true) && (s₁.next (.invoke 1 .lockShared 0)).any fun s₂ =>
        s₂.pc 1 == .start .lockShared 0 && (s₂.next (.run 1)).isSome)
    (by decide)
  simp only [Bool.and_eq_true, beq_iff_eq] at hp
  obtain ⟨⟨⟨hrr, hpc⟩, hres⟩, hp⟩ := hp
  obtain ⟨s₂, h₂, hq⟩ := exists_of_next_any hp
  simp only [Bool.and_eq_true, beq_iff_eq] at hq
  obtain ⟨s₃, h₃⟩ := Option.isSome_iff_exists.1 hq.2
  have h := two_phase_locking hrr hpc hs hres (Relation.ReflTransGen.single ⟨_, h₂⟩)
  exact ⟨s, s₁, s₂, s₃, hr, hrr, hpc, hs, hres, h₂, hq.1, h₃, h.1,
    h.2 .lockShared 0 s₃ (by decide) hq.1 h₃⟩

theorem txnState_waitLoop_self {c : LockCall} :
    (s.waitLoop txn c rid).txnState txn = s.txnState txn ∨
      (s.waitLoop txn c rid).txnState txn = .growing ∧ (s.waitLoop txn c rid).pc txn = .idle ∧
        (s.waitLoop txn c rid).result txn = some (.ret true) := by
  unfold waitLoop
  have hv : txn ∉ (if c = .lockUpgrade then needWaitUpdate txn (s.lockTable rid)
      else needWait txn (s.lockTable rid)).2 := fun h => by
    split at h
    · exact lt_irrefl _ (mem_needWaitUpdate h).1
    · exact lt_irrefl _ (mem_needWait h).1
  generalize (if c = .lockUpgrade then needWaitUpdate txn (s.lockTable rid)
    else needWait txn (s.lockTable rid)) = v at hv ⊢
  have hw : (s.wound rid v.2).txnState txn = s.txnState txn := by rw [txnState_wound, if_neg hv]
  dsimp only
  split
  · exact .inl hw
  · rw [← hw]
    generalize s.wound rid v.2 = s₁
    cases c <;> simp [grant, grantAll, grantUpgrade]
    split <;> simp

theorem aborted_left_only_by_grant {a : Action} (hs : s.next a = some s')
    (h : s.txnState u = .aborted) (h' : s'.txnState u ≠ .aborted) :
    a = .run u ∧ s'.txnState u = .growing ∧ s'.pc u = .idle ∧ s'.result u = some (.ret true) := by
  by_cases ha : a.txn = u
  · have hab : s.checkAbort u = true := by simp [checkAbort, h]
    cases a with
    | invoke t c rid =>
      simp only [Action.txn] at ha
      subst ha
      simp only [LockManager.next] at hs
      split at hs
      · cases hs; exact absurd h h'
      · cases hs
    | run t =>
      simp only [Action.txn] at ha
      subst ha
      refine ⟨rfl, ?_⟩
      have hw : ∀ s₀ : LockManager, s₀.txnState t = .aborted → ∀ c rid,
          s' = s₀.waitLoop t c rid → s'.txnState t = .growing ∧ s'.pc t = .idle ∧
            s'.result t = some (.ret true) := fun s₀ h₀ c rid e => by
        subst e
        exact txnState_waitLoop_self.resolve_left fun e => h' (e.trans h₀)
      simp only [LockManager.next, LockManager.runThread] at hs
      split at hs <;> simp only [Option.some.injEq, reduceCtorEq] at hs <;> subst hs
      · unfold lockShared at h'; rw [if_pos hab] at h'; exact absurd h h'
      · unfold lockExclusive at h'; rw [if_pos hab] at h'; exact absurd h h'
      · unfold lockUpgrade at h'; rw [if_pos hab] at h'; exact absurd h h'
      · exact absurd (txnState_unlock.trans h) h'
      · exact hw (s.enqueue t _ .shared) h _ _ rfl
      · exact hw (s.enqueue t _ .exclusive) h _ _ rfl
      · exact hw s h _ _ rfl
      · rw [txnState_unlockLatched_self, if_neg fun h₁ => by simp [h] at h₁] at h'
        exact absurd h h'
      · rw [if_pos hab] at h' ⊢; exact absurd h h'
  · rcases (Bystander.next ha hs).txnState with e | e
    · exact absurd (e.trans h) h'
    · exact absurd e h'

theorem aborted_left_only_by_grant_wounded :
    ∃ s s' : LockManager, s.Reachable ∧ s.next (.run 2) = some s' ∧ s.txnState 2 = .aborted ∧
      s'.txnState 2 ≠ .aborted ∧ s'.txnState 2 = .growing ∧ s'.pc 2 = .idle ∧
      s'.result 2 = some (.ret true) := by
  obtain ⟨s, s', hr, hs, hp⟩ := reach_step_of_run (fun _ => .repeatableRead)
    (l := [.invoke 2 .lockShared 0, .run 2, .run 2, .invoke 2 .lockExclusive 0, .run 2,
      .invoke 1 .lockExclusive 0, .run 1, .run 1]) (a := .run 2)
    (p := fun s s' => s.txnState 2 == .aborted && s'.txnState 2 != .aborted)
    (by decide)
  simp only [Bool.and_eq_true, beq_iff_eq, bne_iff_ne, ne_eq] at hp
  obtain ⟨-, h₁, h₂, h₃⟩ := aborted_left_only_by_grant hs hp.1 hp.2
  exact ⟨s, s', hr, hs, hp.1, hp.2, h₁, h₂, h₃⟩

theorem grant_revives_aborted :
    ∃ s s' : LockManager, s.Reachable ∧ s.next (.run 2) = some s' ∧
      s.txnState 2 = .aborted ∧ s'.txnState 2 = .growing ∧ s'.result 2 = some (.ret true) := by
  obtain ⟨s, s', hr, hs, hp⟩ := reach_step_of_run (fun _ => .repeatableRead)
    (l := [.invoke 2 .lockShared 0, .run 2, .run 2, .invoke 2 .lockExclusive 0, .run 2,
      .invoke 1 .lockExclusive 0, .run 1, .run 1]) (a := .run 2)
    (p := fun s s' => s.txnState 2 == .aborted && s'.txnState 2 == .growing &&
      s'.result 2 == some (.ret true))
    (by decide)
  simp only [Bool.and_eq_true, beq_iff_eq] at hp
  exact ⟨s, s', hr, hs, hp.1.1, hp.1.2, hp.2⟩

end LockManager

end Bustub
