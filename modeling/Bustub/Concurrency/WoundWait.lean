import Bustub.Concurrency.LockManager
import Mathlib.Logic.Relation

/-!
Wound-wait: a blocked transaction always waits for an older one.
-/

namespace Bustub

namespace LockManager

variable {s s' : LockManager} {txn rid : Nat} {q : List LockRequest}

def OlderAhead (txn : Nat) (q : List LockRequest) : Prop := ∃ r ∈ ahead txn q, r.txnId < txn

theorem mem_ahead_append {r : LockRequest} (h : r ∈ ahead txn q) (l : List LockRequest) :
    r ∈ ahead txn (q ++ l) := by
  unfold ahead at h ⊢
  rw [List.takeWhile_append]
  split
  · rename_i hl
    rw [List.takeWhile_eq_self_iff.2 ?_] at h
    · exact List.mem_append_left _ h
    · exact fun x hx => by
        have := List.takeWhile_eq_self_iff.1
          (List.IsPrefix.eq_of_length (List.takeWhile_prefix _) hl) x hx
        exact this
  · exact h

theorem ahead_map {f : LockRequest → LockRequest} (hf : ∀ r, (f r).txnId = r.txnId) :
    ahead txn (q.map f) = (ahead txn q).map f := by
  unfold ahead
  rw [List.takeWhile_map]
  congr 2
  funext r
  simp [hf]

theorem OlderAhead.append (h : OlderAhead txn q) (l : List LockRequest) :
    OlderAhead txn (q ++ l) :=
  let ⟨r, hr, hlt⟩ := h
  ⟨r, mem_ahead_append hr l, hlt⟩

theorem OlderAhead.map (h : OlderAhead txn q) {f : LockRequest → LockRequest}
    (hf : ∀ r, (f r).txnId = r.txnId) : OlderAhead txn (q.map f) := by
  obtain ⟨r, hr, hlt⟩ := h
  exact ⟨f r, by rw [ahead_map hf]; exact List.mem_map_of_mem f hr, by rw [hf]; exact hlt⟩

theorem olderAhead_of_needWait (h : (needWait txn q).1 = true) : OlderAhead txn q := by
  unfold needWait at h
  split at h
  · split at h
    · cases h
    · simp only [List.any_eq_true, decide_eq_true_eq] at h
      obtain ⟨r, hr, hlt, -⟩ := h
      exact ⟨r, hr, hlt⟩
  · cases h

theorem olderAhead_of_needWaitUpdate (h : (needWaitUpdate txn q).1 = true) :
    OlderAhead txn q := by
  simpa [needWaitUpdate, OlderAhead] using h

def Blocked (s : LockManager) : Prop :=
  ∀ t c rid, s.pc t = .waiting c rid → OlderAhead t (s.lockTable rid)

structure Keeps (s s' : LockManager) : Prop where
  waiting : ∀ t c rid, s'.pc t = .waiting c rid → s.pc t = .waiting c rid
  ahead : ∀ t rid, OlderAhead t (s.lockTable rid) → OlderAhead t (s'.lockTable rid)

theorem Keeps.trans {s'' : LockManager} (h : Keeps s s') (h' : Keeps s' s'') : Keeps s s'' :=
  ⟨fun t c rid hw => h.waiting t c rid (h'.waiting t c rid hw),
    fun t rid ho => h'.ahead t rid (h.ahead t rid ho)⟩

theorem Blocked.keeps (h : Blocked s) (hk : Keeps s s') : Blocked s' := fun t c rid hw =>
  hk.ahead t rid (h t c rid (hk.waiting t c rid hw))

theorem keeps_of_table (htab : s'.lockTable = s.lockTable)
    (hpc : ∀ t c rid, s'.pc t = .waiting c rid → s.pc t = .waiting c rid) : Keeps s s' :=
  ⟨hpc, fun _ _ h => htab ▸ h⟩

theorem keeps_setState (st : TransactionState) : Keeps s (s.setState txn st) :=
  keeps_of_table rfl fun _ _ _ h => h

theorem keeps_finish (o : Outcome) : Keeps s (s.finish txn o) :=
  keeps_of_table rfl fun t c rid h => by
    by_cases ht : t = txn
    · subst ht; simp [finish] at h
    · simpa [finish, Function.update_noteq ht] using h

theorem keeps_goTo {p : Pc} (hp : ∀ c rid, p ≠ .waiting c rid) : Keeps s (s.goTo txn p) :=
  keeps_of_table rfl fun t c rid h => by
    by_cases ht : t = txn
    · subst ht; simp [goTo] at h; exact absurd h (hp c rid)
    · simpa [goTo, Function.update_noteq ht] using h

theorem keeps_acquired (m : LockMode) : Keeps s (s.acquired txn rid m) := by
  cases m <;> exact keeps_of_table rfl (keeps_finish (.ret true) : Keeps s (s.finish txn _)).waiting

theorem keeps_released (b : Bool) : Keeps s (s.released txn rid b) :=
  keeps_of_table rfl (keeps_finish (.ret b) : Keeps s (s.finish txn _)).waiting

theorem keeps_notifyAll : Keeps s (s.notifyAll rid) :=
  keeps_of_table rfl fun t c r h => by
    simp only [notifyAll] at h
    split at h
    · split at h <;> simp_all
    · simp_all

theorem keeps_wound (ws : List Nat) : Keeps s (s.wound rid ws) := by
  unfold wound
  split
  · exact keeps_of_table rfl keeps_notifyAll.waiting
  · exact keeps_of_table rfl fun _ _ _ h => h

theorem keeps_enqueue (m : LockMode) : Keeps s (s.enqueue txn rid m) := by
  refine ⟨fun _ _ _ h => h, fun t r h => ?_⟩
  by_cases hr : r = rid
  · subst hr; simpa [enqueue] using h.append _
  · simpa [enqueue, Function.update_noteq hr] using h

theorem keeps_grantAll : Keeps s (s.grantAll txn rid) := by
  refine ⟨fun _ _ _ h => h, fun t r h => ?_⟩
  by_cases hr : r = rid
  · subst hr
    simp only [grantAll, Function.update_same]
    exact h.map fun x => by split <;> rfl
  · simpa [grantAll, setState, Function.update_noteq hr] using h

theorem keeps_grantUpgrade : Keeps s (s.grantUpgrade txn rid) := by
  unfold grantUpgrade
  split
  · exact keeps_of_table rfl fun _ _ _ h => h
  · exact keeps_of_table rfl fun _ _ _ h => h

theorem keeps_grant {c : LockCall} : Keeps s (s.grant txn c rid) := by
  cases c <;> dsimp only [grant]
  case lockShared => exact keeps_grantAll.trans (keeps_acquired _)
  case lockExclusive => exact keeps_grantAll.trans (keeps_acquired _)
  case lockUpgrade => exact keeps_grantUpgrade.trans (keeps_acquired _)
  case unlock => exact keeps_of_table rfl fun _ _ _ h => h

theorem mem_ahead_grant {c : LockCall} {t r₀ : Nat} {r : LockRequest}
    (h : r ∈ ahead t (s.lockTable r₀)) :
    ∃ r' ∈ ahead t ((s.grant txn c rid).lockTable r₀), r'.txnId = r.txnId := by
  have hall : ∀ s₀ : LockManager, (s₀.grantAll txn rid).lockTable r₀ = s₀.lockTable r₀ ∨
      (s₀.grantAll txn rid).lockTable r₀ = (s₀.lockTable r₀).map fun x =>
        if x.txnId = txn then { x with granted := true } else x := fun s₀ => by
    by_cases hr : r₀ = rid
    · subst hr; exact .inr (by simp [grantAll])
    · exact .inl (by simp [grantAll, Function.update_noteq hr])
  have hmap : ∀ s₀ : LockManager, s₀.lockTable r₀ = s.lockTable r₀ →
      ∃ r' ∈ ahead t ((s₀.grantAll txn rid).lockTable r₀), r'.txnId = r.txnId := fun s₀ hs₀ => by
    rcases hall s₀ with e | e <;> rw [e, hs₀]
    · exact ⟨r, h, rfl⟩
    · rw [ahead_map fun x => by split <;> rfl]
      exact ⟨_, List.mem_map_of_mem _ h, by split <;> rfl⟩
  cases c with
  | lockShared => simpa [grant] using hmap s rfl
  | lockExclusive => simpa [grant] using hmap s rfl
  | lockUpgrade =>
    simp only [grant, lockTable_acquired, grantUpgrade]
    split <;> exact ⟨r, h, rfl⟩
  | unlock => exact ⟨r, h, rfl⟩

@[simp] theorem lockTable_wound (ws : List Nat) : (s.wound rid ws).lockTable = s.lockTable := by
  unfold wound; split <;> rfl

theorem keeps_lockShared : Keeps s (s.lockShared txn rid) := by
  unfold LockManager.lockShared
  split_ifs
  · exact keeps_finish _
  · exact (keeps_setState _).trans (keeps_finish _)
  · exact (keeps_setState _).trans (keeps_finish _)
  · exact keeps_acquired _
  · exact keeps_goTo (by simp)

theorem keeps_lockExclusive : Keeps s (s.lockExclusive txn rid) := by
  unfold LockManager.lockExclusive
  split_ifs
  · exact keeps_finish _
  · exact (keeps_setState _).trans (keeps_finish _)
  · exact keeps_acquired _
  · exact keeps_goTo (by simp)

theorem keeps_lockUpgrade : Keeps s (s.lockUpgrade txn rid) := by
  unfold LockManager.lockUpgrade
  split_ifs
  · exact keeps_finish _
  · exact (keeps_setState _).trans (keeps_finish _)
  · exact keeps_acquired _
  · exact keeps_goTo (by simp)

theorem keeps_unlock : Keeps s (s.unlock txn rid) := by
  unfold LockManager.unlock
  split
  · exact keeps_released _
  · exact keeps_goTo (by simp)

theorem Blocked.waitLoop (h : Blocked s) (c : LockCall) : Blocked (s.waitLoop txn c rid) := by
  have hold : (if c = .lockUpgrade then needWaitUpdate txn (s.lockTable rid)
      else needWait txn (s.lockTable rid)).1 = true → OlderAhead txn (s.lockTable rid) := by
    split
    · exact olderAhead_of_needWaitUpdate
    · exact olderAhead_of_needWait
  unfold LockManager.waitLoop
  generalize (if c = .lockUpgrade then needWaitUpdate txn (s.lockTable rid)
    else needWait txn (s.lockTable rid)) = v at hold ⊢
  have hb := h.keeps (keeps_wound v.2 : Keeps s (s.wound rid v.2))
  dsimp only
  split
  · rename_i hv
    intro t c' r ht
    by_cases htx : t = txn
    · subst htx
      simp only [goTo, Function.update_same, Pc.waiting.injEq] at ht
      obtain ⟨rfl, rfl⟩ := ht
      simpa using hold hv
    · exact hb t c' r (by simpa [goTo, Function.update_noteq htx] using ht)
  · exact hb.keeps keeps_grant

theorem Blocked.unlockLatched (h : Blocked s) : Blocked (s.unlockLatched txn rid) := by
  unfold LockManager.unlockLatched
  split
  · dsimp only
    generalize (s.lockTable rid).eraseP (fun r => r.txnId = txn) = q
    generalize hs₁ : ({ s with lockTable := Function.update s.lockTable rid q }.notifyAll rid) = s₁
    have h₁ : Blocked s₁ := by
      subst hs₁
      intro t c r ht
      simp only [notifyAll] at ht
      split at ht
      · rename_i c₀ r₀ hp
        split at ht
        · cases ht
        · rename_i hr
          obtain ⟨rfl, rfl⟩ := Pc.waiting.inj ht
          simpa [Function.update_noteq hr] using h t c₀ r₀ hp
      · rename_i hp; exact absurd ht (hp _ _)
    intro t c r ht
    have hpc : s₁.pc t = .waiting c r := by
      by_cases htx : t = txn
      · subst htx; split at ht <;> simp at ht
      · split at ht <;> simpa [Function.update_noteq htx] using ht
    split <;> simpa using h₁ t c r hpc
  · exact h.keeps (keeps_released _)

theorem Blocked.runThread (h : Blocked s) (hs : s.runThread txn = some s') : Blocked s' := by
  unfold LockManager.runThread at hs
  split at hs <;> simp only [Option.some.injEq, reduceCtorEq] at hs <;> subst hs
  · exact h.keeps keeps_lockShared
  · exact h.keeps keeps_lockExclusive
  · exact h.keeps keeps_lockUpgrade
  · exact h.keeps keeps_unlock
  · exact (h.keeps (keeps_enqueue _)).waitLoop _
  · exact (h.keeps (keeps_enqueue _)).waitLoop _
  · exact h.waitLoop _
  · exact h.unlockLatched
  · split
    · exact h.keeps (keeps_finish _)
    · exact h.waitLoop _

theorem Blocked.next (h : Blocked s) {a : Action} (hs : s.next a = some s') : Blocked s' := by
  cases a with
  | invoke t c rid =>
    simp only [LockManager.next] at hs
    split at hs
    · cases hs; exact h.keeps (keeps_goTo (by simp))
    · cases hs
  | run t => exact h.runThread hs

theorem Reachable.blocked (hr : s.Reachable) : Blocked s := by
  induction hr with
  | init iso => intro t c rid h; simp [LockManager.init] at h
  | step a _ hs ih => exact ih.next hs

def WaitsFor (s : LockManager) (t u : Nat) : Prop :=
  ∃ c rid, s.pc t = .waiting c rid ∧ ∃ r ∈ ahead t (s.lockTable rid), r.txnId = u ∧ u < t

theorem WaitsFor.transGen_lt {t u : Nat} (h : Relation.TransGen s.WaitsFor t u) : u < t := by
  induction h with
  | single h => obtain ⟨_, _, _, _, _, _, h⟩ := h; exact h
  | tail _ h ih => obtain ⟨_, _, _, _, _, _, h⟩ := h; omega

theorem wound_wait_deadlock_free (hr : s.Reachable) :
    (∀ t c rid, s.pc t = .waiting c rid → ∃ r ∈ ahead t (s.lockTable rid), r.txnId < t) ∧
    (∀ t c rid, s.pc t = .waiting c rid → ∃ u, s.WaitsFor t u) ∧
    ∀ t, ¬ Relation.TransGen s.WaitsFor t t := by
  refine ⟨hr.blocked, fun t c rid ht => ?_, fun t h => lt_irrefl t (WaitsFor.transGen_lt h)⟩
  obtain ⟨r, hr', hlt⟩ := hr.blocked t c rid ht
  exact ⟨r.txnId, c, rid, ht, r, hr', rfl, hlt⟩

theorem wound_wait_deadlock_free_blocked :
    ∃ s : LockManager, s.Reachable ∧ s.pc 2 = .waiting .lockShared 0 ∧
      ∃ r ∈ ahead 2 (s.lockTable 0), r.txnId < 2 := by
  obtain ⟨s, hr, hp⟩ := reach_of_run (fun _ => .repeatableRead)
    (l := [.invoke 1 .lockExclusive 0, .run 1, .run 1, .invoke 2 .lockShared 0, .run 2, .run 2])
    (p := fun s => s.pc 2 == .waiting .lockShared 0) (by decide)
  have hw : s.pc 2 = .waiting .lockShared 0 := by simpa using hp
  exact ⟨s, hr, hw, (wound_wait_deadlock_free hr).1 2 .lockShared 0 hw⟩

theorem txnState_wound (ws : List Nat) (u : Nat) :
    (s.wound rid ws).txnState u = if u ∈ ws then .aborted else s.txnState u := by
  unfold wound; split <;> rfl

theorem mem_needWait {u : Nat} (h : u ∈ (needWait txn q).2) :
    txn < u ∧ ∃ r ∈ ahead txn q, r.txnId = u := by
  unfold needWait at h
  split at h
  · split at h
    · simp at h
    · simp only [List.mem_map, List.mem_filter, decide_eq_true_eq] at h
      obtain ⟨r, ⟨hr, hlt, -⟩, rfl⟩ := h
      exact ⟨hlt, r, hr, rfl⟩
  · simp at h

theorem mem_needWaitUpdate {u : Nat} (h : u ∈ (needWaitUpdate txn q).2) :
    txn < u ∧ ∃ r ∈ ahead txn q, r.txnId = u := by
  simp only [needWaitUpdate, List.mem_map, List.mem_filter, decide_eq_true_eq] at h
  obtain ⟨r, ⟨hr, hlt⟩, rfl⟩ := h
  exact ⟨hlt, r, hr, rfl⟩

theorem waitLoop_wound {c : LockCall} {u : Nat} (hu : u ≠ txn) (hU : s.txnState u ≠ .aborted)
    (hU' : (s.waitLoop txn c rid).txnState u = .aborted) (hnw : ∀ c', s.pc txn ≠ .waiting c' rid) :
    txn < u ∧ (∃ r ∈ ahead txn ((s.waitLoop txn c rid).lockTable rid), r.txnId = u) ∧
      ∀ t' c', s.pc t' = .waiting c' rid → (s.waitLoop txn c rid).pc t' = .woken c' rid := by
  unfold LockManager.waitLoop at hU' ⊢
  generalize hv : (if c = .lockUpgrade then needWaitUpdate txn (s.lockTable rid)
    else needWait txn (s.lockTable rid)) = v at hU' ⊢
  have hv2 : u ∈ v.2 → txn < u ∧ ∃ r ∈ ahead txn (s.lockTable rid), r.txnId = u := by
    rw [← hv]; split
    · exact mem_needWaitUpdate
    · exact mem_needWait
  dsimp only at hU' ⊢
  have hst : (s.wound rid v.2).txnState u = .aborted := by
    split at hU'
    · simpa using hU'
    · rwa [txnState_grant _ _ _ _ hu] at hU'
  rw [txnState_wound] at hst
  have hin : u ∈ v.2 := by
    by_contra h
    rw [if_neg h] at hst
    exact hU hst
  obtain ⟨hlt, r, hr, rfl⟩ := hv2 hin
  have hfresh : (v.2.any fun w => decide (s.txnState w ≠ .aborted)) = true :=
    List.any_eq_true.2 ⟨_, hin, by simpa using hU⟩
  have hpc : ∀ t' c', s.pc t' = .waiting c' rid → (s.wound rid v.2).pc t' = .woken c' rid := by
    intro t' c' h
    have e : s.wound rid v.2 = ({ s with
        txnState := fun u => if u ∈ v.2 then .aborted else s.txnState u }).notifyAll rid := by
      unfold wound; exact if_pos hfresh
    simp [e, notifyAll, h]
  refine ⟨hlt, ?_, fun t' c' ht' => ?_⟩
  · split
    · exact ⟨r, by simpa using hr, rfl⟩
    · exact mem_ahead_grant (by simpa using hr)
  · have htx : t' ≠ txn := by rintro rfl; exact hnw c' ht'
    split
    · simp [Function.update_noteq htx, hpc t' c' ht']
    · rw [pc_grant _ _ _ _ htx]; exact hpc t' c' ht'

theorem wound_wait_wounds_younger (hr : s.Reachable) {t u : Nat} (hs : s.next (.run t) = some s')
    (hu : u ≠ t) (hU : s.txnState u ≠ .aborted) (hU' : s'.txnState u = .aborted) :
    t < u ∧ ∃ c rid, (s.pc t = .latching c rid ∨ s.pc t = .woken c rid) ∧
      (∃ r ∈ ahead t (s'.lockTable rid), r.txnId = u) ∧
      (∀ t' c', s.pc t' = .waiting c' rid → s'.pc t' = .woken c' rid) ∧
      ∀ c' rid', s'.pc t = .waiting c' rid' → ∃ r ∈ ahead t (s'.lockTable rid'), r.txnId < t := by
  have hb : ∀ c' rid', s'.pc t = .waiting c' rid' → ∃ r ∈ ahead t (s'.lockTable rid'), r.txnId < t :=
    fun c' rid' => (hr.step _ hs).blocked t c' rid'
  simp only [LockManager.next, LockManager.runThread] at hs
  split at hs <;> simp only [Option.some.injEq, reduceCtorEq] at hs <;> subst hs
  · exact absurd (txnState_lockShared hu ▸ hU') hU
  · exact absurd (txnState_lockExclusive hu ▸ hU') hU
  · exact absurd (txnState_lockUpgrade hu ▸ hU') hU
  · exact absurd (txnState_unlock ▸ hU') hU
  all_goals rename_i hpc
  · obtain ⟨hlt, ha, hw⟩ := waitLoop_wound (s := s.enqueue t _ .shared) hu hU hU' (by simp [enqueue, hpc])
    exact ⟨hlt, _, _, .inl hpc, ha, hw, hb⟩
  · obtain ⟨hlt, ha, hw⟩ :=
      waitLoop_wound (s := s.enqueue t _ .exclusive) hu hU hU' (by simp [enqueue, hpc])
    exact ⟨hlt, _, _, .inl hpc, ha, hw, hb⟩
  · obtain ⟨hlt, ha, hw⟩ := waitLoop_wound hu hU hU' (by simp [hpc])
    exact ⟨hlt, _, _, .inl hpc, ha, hw, hb⟩
  · exact absurd (txnState_unlockLatched hu ▸ hU') hU
  · by_cases ha : s.checkAbort t = true
    · simp only [ha, if_true, txnState_finish] at hU'
      exact absurd hU' hU
    · simp only [ha, Bool.false_eq_true, if_false] at hU' hb ⊢
      obtain ⟨hlt, ha, hw⟩ := waitLoop_wound hu hU hU' (by simp [hpc])
      exact ⟨hlt, _, _, .inr hpc, ha, hw, hb⟩

theorem wound_wait_wounds_younger_inverse :
    ∃ s s' : LockManager, s.Reachable ∧ s.next (.run 1) = some s' ∧
      s.txnState 2 ≠ .aborted ∧ s'.txnState 2 = .aborted ∧ 1 < 2 ∧
      ∃ c rid, (s.pc 1 = .latching c rid ∨ s.pc 1 = .woken c rid) ∧
        ∃ r ∈ ahead 1 (s'.lockTable rid), r.txnId = 2 := by
  obtain ⟨s, s', hr, hs, hp⟩ := reach_step_of_run (fun _ => .repeatableRead)
    (l := [.invoke 2 .lockExclusive 0, .run 2, .run 2, .invoke 1 .lockExclusive 0, .run 1])
    (a := .run 1) (p := fun s s' => s.txnState 2 != .aborted && s'.txnState 2 == .aborted)
    (by decide)
  simp only [Bool.and_eq_true, bne_iff_ne, ne_eq, beq_iff_eq] at hp
  obtain ⟨hlt, c, rid, hpc, ha, -⟩ := wound_wait_wounds_younger hr hs (by decide) hp.1 hp.2
  exact ⟨s, s', hr, hs, hp.1, hp.2, hlt, c, rid, hpc, ha⟩

theorem wound_wait_grants_past_wounded :
    ∃ s s' : LockManager, s.Reachable ∧ s.next (.run 1) = some s' ∧
      s.txnState 2 ≠ .aborted ∧ s'.txnState 2 = .aborted ∧ s'.result 1 = some (.ret true) ∧
      ∃ r ∈ s'.lockTable 0, r.txnId = 2 := by
  obtain ⟨s, s', hr, hs, hp⟩ := reach_step_of_run (fun _ => .repeatableRead)
    (l := [.invoke 2 .lockExclusive 0, .run 2, .run 2, .invoke 1 .lockExclusive 0, .run 1])
    (a := .run 1)
    (p := fun s s' => s.txnState 2 != .aborted && s'.txnState 2 == .aborted &&
      s'.result 1 == some (.ret true) && (s'.lockTable 0).any (·.txnId == 2))
    (by decide)
  simp only [Bool.and_eq_true, bne_iff_ne, ne_eq, beq_iff_eq, List.any_eq_true] at hp
  exact ⟨s, s', hr, hs, hp.1.1.1, hp.1.1.2, hp.1.2, hp.2⟩

end LockManager

end Bustub
