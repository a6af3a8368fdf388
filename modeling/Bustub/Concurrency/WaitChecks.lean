import Bustub.Concurrency.Exclusion
import Bustub.Concurrency.WoundWait

/-!
The queues `NeedWait` and `NeedWaitUpdate` read.
-/

namespace Bustub

namespace LockManager

theorem needWait_reads_last_request {txn : Nat} {first r : LockRequest} {rest : List LockRequest}
    {g : Bool} (holder : first.txnId < txn) (hshared : first.lockMode = .shared)
    (hlast : (first :: rest).getLast? = some ⟨txn, .shared, g⟩) (hr : r.lockMode = .exclusive) :
    needWait txn (first :: rest) = (false, []) ∧ (needWait txn (first :: rest ++ [r])).1 = true := by
  have hne : first.txnId ≠ txn := Nat.ne_of_lt holder
  have hl : (first :: rest ++ [r]).getLast? = some r := List.getLast?_concat ..
  refine ⟨by simp [needWait, hlast, hshared], ?_⟩
  rw [needWait, hl]
  simp [hr, hne, ahead, holder]

theorem needWait_reads_last_request_two :
    (1 : Nat) < 2 ∧ LockMode.shared = .shared ∧
      ([⟨1, .shared, true⟩, ⟨2, .shared, false⟩] : List LockRequest).getLast? =
        some ⟨2, .shared, false⟩ ∧ LockMode.exclusive = .exclusive ∧
      needWait 2 [⟨1, .shared, true⟩, ⟨2, .shared, false⟩] = (false, []) ∧
      (needWait 2 ([⟨1, .shared, true⟩, ⟨2, .shared, false⟩] ++ [⟨3, .exclusive, false⟩])).1 =
        true :=
  ⟨by decide, rfl, rfl, rfl,
    @needWait_reads_last_request 2 ⟨1, .shared, true⟩ ⟨3, .exclusive, false⟩ [⟨2, .shared, false⟩]
      false (by decide) rfl rfl rfl⟩

def waitsOn : Pc → Option (LockCall × Nat)
  | .waiting c rid => some (c, rid)
  | .woken c rid => some (c, rid)
  | _ => none

def nextCheck (s : LockManager) (txn : Nat) : Option (LockCall × Nat × List LockRequest) :=
  match s.pc txn with
  | .latching .lockShared rid => some (.lockShared, rid, s.lockTable rid ++ [⟨txn, .shared, false⟩])
  | .latching .lockExclusive rid =>
    some (.lockExclusive, rid, s.lockTable rid ++ [⟨txn, .exclusive, false⟩])
  | .latching .lockUpgrade rid => some (.lockUpgrade, rid, s.lockTable rid)
  | .woken c rid => if s.checkAbort txn then none else some (c, rid, s.lockTable rid)
  | _ => none

def Queued (s : LockManager) (txn rid : Nat) : Prop := ∃ r ∈ s.lockTable rid, r.txnId = txn

def OwnQueued (s : LockManager) : Prop :=
  ∀ t c rid, waitsOn (s.pc t) = some (c, rid) → c ≠ .lockUpgrade → s.Queued t rid

structure OthersKept (txn : Nat) (s s' : LockManager) : Prop where
  waits : ∀ t ≠ txn, waitsOn (s'.pc t) = waitsOn (s.pc t)
  queued : ∀ t ≠ txn, ∀ rid, s.Queued t rid → s'.Queued t rid

section OthersKept

variable {s s' s'' : LockManager} {txn rid : Nat}

theorem OthersKept.trans (h : OthersKept txn s s') (h' : OthersKept txn s' s'') : OthersKept txn s s'' :=
  ⟨fun t ht => (h'.waits t ht).trans (h.waits t ht),
    fun t ht rid hq => h'.queued t ht rid (h.queued t ht rid hq)⟩

theorem OthersKept.of_table (hpc : ∀ t ≠ txn, waitsOn (s'.pc t) = waitsOn (s.pc t))
    (hq : s'.lockTable = s.lockTable) : OthersKept txn s s' :=
  ⟨hpc, fun _ _ _ h => by rwa [Queued, hq]⟩

@[simp] theorem waitsOn_notifyAll (t : Nat) : waitsOn ((s.notifyAll rid).pc t) = waitsOn (s.pc t) := by
  simp only [notifyAll]
  split <;> (try split) <;> simp_all [waitsOn]

@[simp] theorem waitsOn_wound (ws : List Nat) (t : Nat) :
    waitsOn ((s.wound rid ws).pc t) = waitsOn (s.pc t) := by
  unfold wound; split <;> simp

theorem OthersKept.notifyAll (rid : Nat) : OthersKept txn s (s.notifyAll rid) :=
  .of_table (fun t _ => waitsOn_notifyAll t) rfl

theorem OthersKept.wound (ws : List Nat) : OthersKept txn s (s.wound rid ws) :=
  .of_table (fun t _ => waitsOn_wound ws t) (lockTable_wound ws)

theorem OthersKept.self (hpc : ∀ t ≠ txn, s'.pc t = s.pc t) (hq : s'.lockTable = s.lockTable) :
    OthersKept txn s s' :=
  .of_table (fun t ht => by rw [hpc t ht]) hq

theorem OthersKept.enqueue (m : LockMode) : OthersKept txn s (s.enqueue txn rid m) := by
  refine ⟨fun _ _ => rfl, fun t _ r ⟨q, hq, ht⟩ => ⟨q, ?_, ht⟩⟩
  by_cases hr : r = rid
  · subst hr; simp [LockManager.enqueue, hq]
  · simpa [LockManager.enqueue, Function.update_noteq hr] using hq

theorem OthersKept.refl : OthersKept txn s s := .self (fun _ _ => rfl) rfl

theorem OthersKept.goTo (p : Pc) : OthersKept txn s (s.goTo txn p) :=
  .self (fun t ht => by simp [Function.update_noteq ht]) rfl

theorem OthersKept.finish (o : Outcome) : OthersKept txn s (s.finish txn o) :=
  .self (fun t ht => by simp [Function.update_noteq ht]) rfl

theorem OthersKept.acquired (m : LockMode) : OthersKept txn s (s.acquired txn rid m) :=
  .self (fun t ht => by simp [Function.update_noteq ht]) (by simp)

theorem OthersKept.grantAll : OthersKept txn s (s.grantAll txn rid) := by
  refine ⟨fun _ _ => rfl, fun t _ r ⟨q, hq, ht⟩ => ?_⟩
  by_cases hr : r = rid
  · subst hr
    exact ⟨_, by simpa [LockManager.grantAll] using List.mem_map_of_mem _ hq, by split <;> exact ht⟩
  · exact ⟨q, by simpa [LockManager.grantAll, Function.update_noteq hr] using hq, ht⟩

theorem OthersKept.grant (c : LockCall) : OthersKept txn s (s.grant txn c rid) := by
  cases c with
  | lockShared =>
    show OthersKept txn s ((s.grantAll txn rid).acquired txn rid .shared)
    exact OthersKept.grantAll.trans (.acquired _)
  | lockExclusive =>
    show OthersKept txn s ((s.grantAll txn rid).acquired txn rid .exclusive)
    exact OthersKept.grantAll.trans (.acquired _)
  | lockUpgrade =>
    show OthersKept txn s ((s.grantUpgrade txn rid).acquired txn rid .exclusive)
    refine OthersKept.trans ?_ (.acquired _)
    unfold LockManager.grantUpgrade; split
    · exact .self (fun _ _ => rfl) rfl
    · exact .refl
  | unlock => exact .refl

theorem OthersKept.waitLoop (c : LockCall) : OthersKept txn s (s.waitLoop txn c rid) := by
  unfold LockManager.waitLoop
  generalize (if c = .lockUpgrade then needWaitUpdate txn (s.lockTable rid)
    else needWait txn (s.lockTable rid)) = v
  dsimp only
  split
  · exact (OthersKept.wound _).trans (.goTo _)
  · exact (OthersKept.wound _).trans (.grant c)

theorem OthersKept.unlockLatched : OthersKept txn s (s.unlockLatched txn rid) := by
  unfold LockManager.unlockLatched
  split
  · have herase : OthersKept txn s { s with
        lockTable := (Function.update s.lockTable rid ((s.lockTable rid).eraseP (·.txnId = txn))) } := by
      refine ⟨fun _ _ => rfl, fun t ht r ⟨q, hq, hqt⟩ => ⟨q, ?_, hqt⟩⟩
      by_cases hr : r = rid
      · subst hr
        show q ∈ Function.update s.lockTable r _ r
        rw [Function.update_same]
        exact (List.mem_eraseP_of_neg (by simpa [hqt] using ht)).2 hq
      · simpa [Function.update_noteq hr] using hq
    refine (herase.trans (.notifyAll rid)).trans ?_
    dsimp only
    split <;> exact .self (fun t ht => by simp [released, setState, Function.update_noteq ht]) rfl
  · exact .self (fun t ht => by simp [Function.update_noteq ht]) (by simp)

theorem OthersKept.runThread (hs : s.runThread txn = some s') : OthersKept txn s s' := by
  unfold LockManager.runThread at hs
  split at hs <;> simp only [Option.some.injEq, reduceCtorEq] at hs <;> subst hs
  · unfold LockManager.lockShared
    split_ifs <;> exact .self (fun t ht => by simp [Function.update_noteq ht]) (by simp)
  · unfold LockManager.lockExclusive
    split_ifs <;> exact .self (fun t ht => by simp [Function.update_noteq ht]) (by simp)
  · unfold LockManager.lockUpgrade
    split_ifs <;> exact .self (fun t ht => by simp [Function.update_noteq ht]) (by simp)
  · unfold LockManager.unlock
    split <;> exact .self (fun t ht => by simp [Function.update_noteq ht]) (by simp)
  · exact (OthersKept.enqueue _).trans (.waitLoop _)
  · exact (OthersKept.enqueue _).trans (.waitLoop _)
  · exact .waitLoop _
  · exact .unlockLatched
  · split
    · exact .finish _
    · exact .waitLoop _

theorem waitsOn_waitLoop_self {c : LockCall} {x : LockCall × Nat}
    (h : waitsOn ((s.waitLoop txn c rid).pc txn) = some x) :
    (x = (c, rid) ∨ waitsOn (s.pc txn) = some x) ∧ (s.waitLoop txn c rid).lockTable = s.lockTable := by
  unfold LockManager.waitLoop at h ⊢
  generalize (if c = .lockUpgrade then needWaitUpdate txn (s.lockTable rid)
    else needWait txn (s.lockTable rid)) = v at h ⊢
  dsimp only at h ⊢
  split at h <;> rename_i hv
  · simp only [pc_goTo, Function.update_same, waitsOn, Option.some.injEq] at h
    simp [hv, ← h]
  · rw [if_neg hv]
    cases c
    case unlock => exact ⟨.inr (by rwa [grant, waitsOn_wound] at h), lockTable_wound _⟩
    all_goals simp [grant, waitsOn] at h

theorem OwnQueued.runThread_self (hq : s.OwnQueued) (hs : s.runThread txn = some s') {c : LockCall}
    (h : waitsOn (s'.pc txn) = some (c, rid)) (hc : c ≠ .lockUpgrade) : s'.Queued txn rid := by
  cases hpc : s.pc txn with
  | idle => simp [LockManager.runThread, hpc] at hs
  | waiting c₀ rid₀ => simp [LockManager.runThread, hpc] at hs
  | start c₀ rid₀ =>
    cases c₀ <;> simp only [LockManager.runThread, hpc, Option.some.injEq] at hs <;> subst hs
    · unfold LockManager.lockShared at h; split_ifs at h <;> simp [waitsOn] at h
    · unfold LockManager.lockExclusive at h; split_ifs at h <;> simp [waitsOn] at h
    · unfold LockManager.lockUpgrade at h; split_ifs at h <;> simp [waitsOn] at h
    · unfold LockManager.unlock at h; split at h <;> simp [waitsOn] at h
  | latching c₀ rid₀ =>
    cases c₀ <;> simp only [LockManager.runThread, hpc, Option.some.injEq] at hs <;> subst hs
    · obtain ⟨hx | hx, htab⟩ := waitsOn_waitLoop_self h
      · cases hx; exact ⟨⟨txn, .shared, false⟩, by rw [htab]; simp [LockManager.enqueue], rfl⟩
      · simp [LockManager.enqueue, hpc, waitsOn] at hx
    · obtain ⟨hx | hx, htab⟩ := waitsOn_waitLoop_self h
      · cases hx; exact ⟨⟨txn, .exclusive, false⟩, by rw [htab]; simp [LockManager.enqueue], rfl⟩
      · simp [LockManager.enqueue, hpc, waitsOn] at hx
    · obtain ⟨hx | hx, -⟩ := waitsOn_waitLoop_self h
      · cases hx; exact absurd rfl hc
      · simp [hpc, waitsOn] at hx
    · simp [waitsOn] at h
  | woken c₀ rid₀ =>
    simp only [LockManager.runThread, hpc, Option.some.injEq] at hs
    subst hs
    by_cases ha : s.checkAbort txn
    · simp [ha, waitsOn] at h
    · rw [if_neg ha] at h ⊢
      obtain ⟨hx, htab⟩ := waitsOn_waitLoop_self h
      obtain ⟨rfl, rfl⟩ : c = c₀ ∧ rid = rid₀ :=
        Prod.mk.inj (hx.elim id fun hx => by simpa [hpc, waitsOn, eq_comm] using hx)
      obtain ⟨r, hr, hrt⟩ := hq txn c rid (by simp [hpc, waitsOn]) hc
      exact ⟨r, htab ▸ hr, hrt⟩

theorem OwnQueued.of_othersKept (hq : s.OwnQueued) (k : OthersKept txn s s')
    (hself : ∀ c rid, waitsOn (s'.pc txn) = some (c, rid) → c ≠ .lockUpgrade → s'.Queued txn rid) :
    s'.OwnQueued := by
  intro u c rid hu hc
  by_cases htu : u = txn
  · subst htu; exact hself c rid hu hc
  · exact k.queued u htu rid (hq u c rid (by rwa [k.waits u htu] at hu) hc)

theorem OwnQueued.next (hq : s.OwnQueued) {a : Action} (hs : s.next a = some s') : s'.OwnQueued := by
  cases a with
  | invoke t c r =>
    simp only [LockManager.next] at hs
    split at hs <;> simp only [Option.some.injEq, reduceCtorEq] at hs
    subst hs
    exact hq.of_othersKept (.goTo _) fun _ _ hu _ => by simp [waitsOn] at hu
  | run t => exact hq.of_othersKept (.runThread hs) fun _ _ hu hc => hq.runThread_self hs hu hc

theorem Reachable.ownQueued (hr : s.Reachable) : s.OwnQueued := by
  induction hr with
  | init iso => intro t c rid h; simp [LockManager.init, waitsOn] at h
  | step a _ hs ih => exact ih.next hs

end OthersKept

theorem ahead_length_lt {txn : Nat} {q : List LockRequest} (h : ∃ r ∈ q, r.txnId = txn) :
    (ahead txn q).length < q.length := by
  induction q with
  | nil => simp at h
  | cons r rs ih =>
    by_cases hr : r.txnId = txn
    · simp [ahead, hr]
    · have := ih (by simpa [hr] using h)
      simpa [ahead, List.takeWhile_cons, hr] using this

theorem nextCheck_eq_some {s : LockManager} {txn rid : Nat} {c : LockCall}
    {q : List LockRequest} (h : s.nextCheck txn = some (c, rid, q)) :
    s.pc txn = .latching .lockShared rid ∧ c = .lockShared ∧
        q = s.lockTable rid ++ [⟨txn, .shared, false⟩] ∨
      s.pc txn = .latching .lockExclusive rid ∧ c = .lockExclusive ∧
        q = s.lockTable rid ++ [⟨txn, .exclusive, false⟩] ∨
      s.pc txn = .latching .lockUpgrade rid ∧ c = .lockUpgrade ∧ q = s.lockTable rid ∨
      s.pc txn = .woken c rid ∧ s.checkAbort txn = false ∧ q = s.lockTable rid := by
  unfold nextCheck at h
  split at h <;> simp only [Option.some.injEq, Prod.mk.injEq, reduceCtorEq,
    Option.ite_none_left_eq_some] at h
  · obtain ⟨rfl, rfl, rfl⟩ := h; simp [*]
  · obtain ⟨rfl, rfl, rfl⟩ := h; simp [*]
  · obtain ⟨rfl, rfl, rfl⟩ := h; simp [*]
  · obtain ⟨ha, rfl, rfl, rfl⟩ := h; simp [*]

theorem nextCheck_runThread {s : LockManager} {txn rid : Nat} {c : LockCall}
    {q : List LockRequest} (h : s.nextCheck txn = some (c, rid, q)) :
    ∃ s₀ : LockManager, s.runThread txn = some (s₀.waitLoop txn c rid) ∧ s₀.lockTable rid = q := by
  rcases nextCheck_eq_some h with ⟨hpc, rfl, rfl⟩ | ⟨hpc, rfl, rfl⟩ | ⟨hpc, rfl, rfl⟩ | ⟨hpc, ha, rfl⟩
  · exact ⟨s.enqueue txn rid .shared, by simp [LockManager.runThread, hpc], by simp [enqueue]⟩
  · exact ⟨s.enqueue txn rid .exclusive, by simp [LockManager.runThread, hpc], by simp [enqueue]⟩
  · exact ⟨s, by simp [LockManager.runThread, hpc], rfl⟩
  · exact ⟨s, by simp [LockManager.runThread, hpc, ha], rfl⟩

theorem wait_checks_find_own_request {s : LockManager} (hr : s.Reachable) {txn rid : Nat}
    {c : LockCall} {q : List LockRequest} (hc : s.nextCheck txn = some (c, rid, q))
    (hup : c = .lockUpgrade → s.sharedLockSet txn rid = true) :
    (∃ s₀ : LockManager, s.runThread txn = some (s₀.waitLoop txn c rid) ∧ s₀.lockTable rid = q) ∧
      (∃ r ∈ q, r.txnId = txn) ∧ (ahead txn q).length < q.length := by
  have hbacked := fun h => hr.lockSetsBacked txn rid (.inl (hup h))
  have hown : ∃ r ∈ q, r.txnId = txn := by
    rcases nextCheck_eq_some hc with ⟨-, -, rfl⟩ | ⟨-, -, rfl⟩ | ⟨-, hu, rfl⟩ | ⟨hpc, -, rfl⟩
    · exact ⟨_, List.mem_append_right _ (List.mem_singleton_self _), rfl⟩
    · exact ⟨_, List.mem_append_right _ (List.mem_singleton_self _), rfl⟩
    · exact hbacked hu
    · by_cases hu : c = .lockUpgrade
      · exact hbacked hu
      · exact hr.ownQueued txn c rid (by simp [hpc, waitsOn]) hu
  exact ⟨nextCheck_runThread hc, hown, ahead_length_lt hown⟩

theorem wait_checks_find_own_request_upgrade :
    ∃ s : LockManager, s.Reachable ∧ s.nextCheck 1 = some (.lockUpgrade, 0, [⟨1, .shared, true⟩]) ∧
      s.sharedLockSet 1 0 = true ∧
      (∃ s₀ : LockManager, s.runThread 1 = some (s₀.waitLoop 1 .lockUpgrade 0) ∧
        s₀.lockTable 0 = [⟨1, .shared, true⟩]) ∧
      (∃ r ∈ [(⟨1, .shared, true⟩ : LockRequest)], r.txnId = 1) ∧
      (ahead 1 [⟨1, .shared, true⟩]).length < [(⟨1, .shared, true⟩ : LockRequest)].length := by
  obtain ⟨s, hr, hp⟩ := reach_of_run (fun _ => .repeatableRead)
    (l := [.invoke 1 .lockShared 0, .run 1, .run 1, .invoke 1 .lockUpgrade 0, .run 1])
    (p := fun s => s.nextCheck 1 == some (.lockUpgrade, 0, [⟨1, .shared, true⟩]) &&
      s.sharedLockSet 1 0)
    (by decide)
  simp only [Bool.and_eq_true, beq_iff_eq] at hp
  exact ⟨s, hr, hp.1, hp.2, wait_checks_find_own_request hr hp.1 fun _ => hp.2⟩

end LockManager

end Bustub
