import Bustub.Container.Progress

/-!
What a table over memory holds, and what each call does to it.
-/

namespace Bustub

variable {K V : Type}

def HashCall.SetSpec : HashCall K V → Set (K × V) → Bool × List V → Set (K × V) → Prop
  | .getValue key, S, r, S' =>
    (r.1 = true ↔ ∃ v, (key, v) ∈ S) ∧ (∀ v, v ∈ r.2 ↔ (key, v) ∈ S) ∧ r.2.Nodup ∧ S' = S
  | .insert key value, S, r, S' =>
    r.2 = [] ∧ if r.1 then (key, value) ∉ S ∧ S' = {(key, value)} ∪ S else S' = S
  | .remove key value, S, r, S' =>
    r.2 = [] ∧ (r.1 = true ↔ (key, value) ∈ S) ∧ S' = S \ {(key, value)}

def HashConfig.Crowded (c : HashConfig K) (S : Set (K × V)) (key : K) : Prop :=
  ∃ l : List (K × V), l.Nodup ∧ c.bucketArraySize ≤ l.length ∧
    ∀ e ∈ l, e ∈ S ∧ c.hash e.1 % 2 ^ c.maxBucketDepth = c.hash key % 2 ^ c.maxBucketDepth

inductive HashCall.SetRun : Set (K × V) → List (HashCall K V) → List (Except Halt (Bool × List V)) →
    Prop
  | nil (S : Set (K × V)) : HashCall.SetRun S [] []
  | step {S S' : Set (K × V)} {op : HashCall K V} {ops : List (HashCall K V)} {r : Bool × List V}
      {rs : List (Except Halt (Bool × List V))} :
      op.SetSpec S r S' → HashCall.SetRun S' ops rs → HashCall.SetRun S (op :: ops) (.ok r :: rs)
  | halt (S : Set (K × V)) (op : HashCall K V) (ops : List (HashCall K V)) (e : Halt) :
      HashCall.SetRun S (op :: ops) [.error e]

namespace ExtendibleHashTable

def pairs (m : Memory (HashTablePage K V)) : Set (K × V) := {e | ∃ p, e ∈ (buckets m p).array}

@[simp] theorem pairs_empty : pairs (Memory.empty : Memory (HashTablePage K V)) = ∅ :=
  Set.eq_empty_of_forall_not_mem fun _ ⟨_, hp⟩ => by simp [buckets, Memory.empty] at hp

variable {m : Memory (HashTablePage K V)}

theorem pairs_update_of_empty {p : Int} {x : Option (HashTablePage K V)}
    (hp : (buckets m p).array = []) (hx : (x.getD 0).asBucket.array = []) :
    pairs { m with pages := Function.update m.pages p x } = pairs m := by
  ext e
  constructor
  · rintro ⟨q, hq⟩
    rw [buckets_update] at hq
    split_ifs at hq
    · simp [hx] at hq
    · exact ⟨q, hq⟩
  · rintro ⟨q, hq⟩
    refine ⟨q, ?_⟩
    rw [buckets_update]
    split_ifs with hqp
    · subst hqp; simp [hp] at hq
    · exact hq

variable {c : HashConfig K} {dirId : Int} {d : HashTableDirectoryPage}

theorem Wf.page_of_mem (h : Wf c m dirId d) {p : Int} {e : K × V}
    (he : e ∈ (buckets m p).array) : p = keyToPageId c e.1 d := by
  obtain ⟨i, hi, rfl⟩ := h.named p e he
  rw [keyToPageId, HashTableDirectoryPage.getBucketPageId_eq, keyToDirectoryIndex_eq]
  exact (h.inv.slot_of_mem hi he).symm

theorem Wf.mem_pairs (h : Wf c m dirId d) {e : K × V} :
    e ∈ pairs m ↔ e ∈ (buckets m (keyToPageId c e.1 d)).array :=
  ⟨fun ⟨_, he⟩ => h.page_of_mem he ▸ he, fun he => ⟨_, he⟩⟩

theorem Wf.nodup_key (h : Wf c m dirId d) (key : K) :
    (buckets m (keyToPageId c key d)).array.Nodup := by
  rw [keyToPageId, HashTableDirectoryPage.getBucketPageId_eq]
  exact h.inv.nodup _ (by
    rw [keyToDirectoryIndex_eq]; exact Nat.mod_lt _ (Nat.pos_pow_of_pos _ (by decide)))

theorem Wf.hash_mod_of_mem (h : Wf c m dirId d) {key : K} {e : K × V}
    (he : e ∈ (buckets m (keyToPageId c key d)).array) :
    c.hash e.1 % 2 ^ d.localDepths (c.hash key % 2 ^ d.globalDepth) =
      c.hash key % 2 ^ d.localDepths (c.hash key % 2 ^ d.globalDepth) := by
  have hi : c.hash key % 2 ^ d.globalDepth < 2 ^ d.globalDepth := Nat.mod_lt _ (Nat.two_pow_pos _)
  rw [keyToPageId, HashTableDirectoryPage.getBucketPageId_eq, keyToDirectoryIndex_eq] at he
  rw [h.inv.placed _ hi e he, Nat.mod_mod_of_dvd _ (Nat.pow_dvd_pow 2 (h.inv.localDepth_le _ hi))]

theorem Wf.mem_of_hash_mod (h : Wf c m dirId d) {key : K} {e : K × V} (he : e ∈ pairs m)
    (hag : c.hash e.1 % 2 ^ d.localDepths (c.hash key % 2 ^ d.globalDepth) =
      c.hash key % 2 ^ d.localDepths (c.hash key % 2 ^ d.globalDepth)) :
    e ∈ (buckets m (keyToPageId c key d)).array := by
  have hi : c.hash key % 2 ^ d.globalDepth < 2 ^ d.globalDepth := Nat.mod_lt _ (Nat.two_pow_pos _)
  have hdvd := Nat.pow_dvd_pow 2 (h.inv.localDepth_le _ hi)
  have hpage : keyToPageId c e.1 d = keyToPageId c key d := by
    simp only [keyToPageId, HashTableDirectoryPage.getBucketPageId_eq, keyToDirectoryIndex_eq]
    rw [h.inv.same_iff _ hi _ (Nat.mod_lt _ (Nat.two_pow_pos _)), Nat.mod_mod_of_dvd _ hdvd,
      Nat.mod_mod_of_dvd _ hdvd, hag]
  exact hpage ▸ h.mem_pairs.1 he

theorem Wf.crowded (h : Wf c m dirId d) {key : K}
    (hfull : c.bucketArraySize ≤ (buckets m (keyToPageId c key d)).array.length)
    (hmax : c.maxBucketDepth ≤ d.localDepths (c.hash key % 2 ^ d.globalDepth)) :
    c.Crowded (pairs m) key := by
  have hd := Nat.pow_dvd_pow 2 hmax
  refine ⟨_, h.nodup_key key, hfull, fun e he => ⟨⟨_, he⟩, ?_⟩⟩
  rw [← Nat.mod_mod_of_dvd (c.hash e.1) hd, h.hash_mod_of_mem he, Nat.mod_mod_of_dvd _ hd]

theorem Wf.not_crowded (h : Wf c m dirId d) {key : K}
    (hroom : (buckets m (keyToPageId c key d)).array.length < c.bucketArraySize) :
    ¬ c.Crowded (pairs m) key := by
  rintro ⟨l, hnd, hlen, hl⟩
  have hi : c.hash key % 2 ^ d.globalDepth < 2 ^ d.globalDepth := Nat.mod_lt _ (Nat.two_pow_pos _)
  have hd := Nat.pow_dvd_pow 2 ((h.inv.localDepth_le _ hi).trans h.depth_le)
  have hsub : l ⊆ (buckets m (keyToPageId c key d)).array := fun e he =>
    h.mem_of_hash_mod (hl e he).1 (by
      rw [← Nat.mod_mod_of_dvd _ hd, (hl e he).2, Nat.mod_mod_of_dvd _ hd])
  have := (List.subperm_of_subset hnd hsub).length_le
  omega

theorem Wf.pairs_splitPages (h : Wf c m dirId d) {p : Int} (hp : d.names p)
    (d' : HashTableDirectoryPage) (mask : Nat) : pairs (splitPages c m dirId d' mask p) = pairs m := by
  have hpq := h.ne_of_names hp le_rfl
  have hdq := h.dir_ne le_rfl
  have hdp := h.dir_ne_of_names hp
  have hdir : (buckets m dirId).array = [] := by
    simp [buckets, h.directory_page, HashTablePage.asBucket]
  ext e
  constructor
  · rintro ⟨q, hq⟩
    simp only [buckets, splitPages, Function.update_apply] at hq
    split_ifs at hq
    · exact ⟨p, List.mem_of_mem_filter hq⟩
    · exact ⟨p, List.mem_of_mem_filter hq⟩
    · simp [HashTablePage.asBucket] at hq
    · exact ⟨q, hq⟩
  · rintro ⟨q, hq⟩
    by_cases hqp : q = p
    · subst hqp
      by_cases hP : d'.bucketPageIds (c.hash e.1 &&& mask) = q
      · exact ⟨q, by simpa [buckets, splitPages, Function.update_apply, hpq, hdp.symm, hP] using hq⟩
      · exact ⟨m.nextPageId, by simpa [buckets, splitPages, hP] using hq⟩
    · have hqd : q ≠ dirId := by rintro rfl; simp [hdir] at hq
      have hqn : q ≠ m.nextPageId := by rintro rfl; simp [buckets, h.fresh _ le_rfl] at hq
      exact ⟨q, by simpa [buckets, splitPages, Function.update_noteq, hqp, hqd, hqn] using hq⟩

variable {t t' : ExtendibleHashTable (Memory (HashTablePage K V))}

theorem merge_pairs (h : Wf c t.pool t.directoryPageId d) {idx : Nat}
    (hm : merge Memory.pool idx t = .ok t') : pairs t'.pool = pairs t.pool := by
  obtain ⟨-, he | ⟨T, D, hT, -, -, he⟩⟩ := merge_pool h hm <;> rw [he]
  rw [pairs_update_of_empty (m := ⟨Function.update t.pool.pages T none, t.pool.nextPageId⟩) ?_
    (by simp [HashTablePage.asBucket]), pairs_update_of_empty hT (by simp)]
  rw [buckets_update]
  split_ifs
  · simp
  · simp [buckets, h.directory_page, HashTablePage.asBucket]

theorem Start.pairs_fetchDirectoryPage {t₁ : ExtendibleHashTable (Memory (HashTablePage K V))}
    (h : Start c t) (hf : ExtendibleHashTable.fetchDirectoryPage Memory.pool t₁ = .ok t')
    (hp : t₁.pool = t.pool)
    (hd : t₁.directoryPageId = t.directoryPageId) : pairs t'.pool = pairs t.pool := by
  rw [← hp]
  rw [Start, ← hp, ← hd] at h
  rcases h with ⟨h0, h0'⟩ | ⟨d, hw⟩
  · simp [ExtendibleHashTable.fetchDirectoryPage, h0, h0', Memory.empty, directory_memory,
      assertTrue, invalidPageId] at hf
    subst hf
    refine Set.ext fun e => iff_of_false (fun ⟨q, hq⟩ => ?_)
      (fun ⟨q, hq⟩ => by simp [buckets, h0', Memory.empty] at hq)
    simp only [buckets, Function.update_apply] at hq
    split_ifs at hq <;> simp [HashTablePage.asBucket, h0', Memory.empty] at hq
  · rw [hw.fetchDirectoryPage] at hf
    cases hf
    rfl

theorem Start.rLocked_pairs {β : Type}
    {f : ExtendibleHashTable (Memory (HashTablePage K V)) → Except Halt β} {b : β} (h : Start c t)
    (hb : (rLock t >>= fun t => ExtendibleHashTable.fetchDirectoryPage Memory.pool t >>= f) =
      .ok b) :
    ∃ t₂ d, Wf c t₂.pool t₂.directoryPageId d ∧ pairs t₂.pool = pairs t.pool ∧ f t₂ = .ok b := by
  obtain ⟨_, h₁, hb⟩ := bind_eq_ok.1 hb
  obtain ⟨-, rfl⟩ := rLock_eq_ok.1 h₁
  obtain ⟨t₂, h₂, hb⟩ := bind_eq_ok.1 hb
  obtain ⟨d, hw⟩ := h.fetchDirectoryPage h₂ rfl rfl
  exact ⟨t₂, d, hw, h.pairs_fetchDirectoryPage h₂ rfl rfl, hb⟩

variable [DecidableEq K]

theorem Wf.mem_pairs_setBucket (h : Wf c m dirId d) {key : K} {b : HashTableBucketPage K V}
    (hb : ∀ e : K × V, e.1 ≠ key → (e ∈ b.array ↔ e ∈ (buckets m (keyToPageId c key d)).array))
    (e : K × V) :
    e ∈ pairs { m with pages := Function.update m.pages (keyToPageId c key d) (some (.bucket b)) } ↔
      if e.1 = key then e ∈ b.array else e ∈ pairs m := by
  split_ifs with hk
  · subst hk
    constructor
    · rintro ⟨q, hq⟩
      rw [buckets_update] at hq
      split_ifs at hq with hq'
      · simpa using hq
      · exact absurd (h.page_of_mem hq) hq'
    · exact fun he => ⟨keyToPageId c e.1 d, by simpa [buckets_update] using he⟩
  · constructor
    · rintro ⟨q, hq⟩
      rw [buckets_update] at hq
      split_ifs at hq
      · exact ⟨_, (hb e hk).1 (by simpa using hq)⟩
      · exact ⟨q, hq⟩
    · rintro ⟨q, hq⟩
      refine ⟨q, ?_⟩
      rw [buckets_update]
      split_ifs with hq'
      · subst hq'; simpa using (hb e hk).2 hq
      · exact hq

theorem Wf.setSpec_getValue (h : Wf c m dirId d) (key : K) :
    (HashCall.getValue key).SetSpec (pairs m)
      ((buckets m (keyToPageId c key d)).getValue key) (pairs m) := by
  refine ⟨(HashTableBucketPage.getValue_fst _ _).trans (exists_congr fun v => h.mem_pairs.symm),
    fun v => (HashTableBucketPage.mem_getValue _ _ _).trans h.mem_pairs.symm, ?_, rfl⟩
  refine List.Nodup.map_on (fun x hx y hy hxy => ?_) ((h.nodup_key key).filter _)
  simp only [List.mem_filter, decide_eq_true_eq] at hx hy
  exact Prod.ext (hx.2.trans hy.2.symm) hxy

variable [DecidableEq V]

theorem Wf.setSpec_insertBucket (h : Wf c m dirId d) (key : K) (value : V) :
    (HashCall.insert key value).SetSpec (pairs m)
      (((buckets m (keyToPageId c key d)).insert c.bucketArraySize key value).1, [])
      (pairs { m with
        pages := Function.update m.pages (keyToPageId c key d)
          (some (.bucket ((buckets m (keyToPageId c key d)).insert c.bucketArraySize key value).2)) }) := by
  have hmem := h.mem_pairs_setBucket (b := ((buckets m (keyToPageId c key d)).insert
    c.bucketArraySize key value).2) fun e hk => by
      rw [HashTableBucketPage.mem_insert]
      exact or_iff_left fun he => hk (by rw [he.2])
  refine ⟨rfl, ?_⟩
  dsimp only
  split_ifs with hr
  · refine ⟨fun hm => ((HashTableBucketPage.insert_fst _ _ _ _).1 hr).1 (h.mem_pairs.1 hm),
      Set.ext fun e => ?_⟩
    rw [hmem, HashTableBucketPage.mem_insert, hr, Set.mem_union, Set.mem_singleton_iff]
    split_ifs with hk
    · simp only [h.mem_pairs, hk, true_and, or_comm]
    · exact (or_iff_right fun he => hk (by rw [he])).symm
  · refine Set.ext fun e => ?_
    simp only [hmem, HashTableBucketPage.mem_insert, hr]
    split_ifs with hk
    · rw [h.mem_pairs, hk, false_and, or_false]
    · rfl

theorem Wf.setSpec_removeBucket (h : Wf c m dirId d) (key : K) (value : V) :
    (HashCall.remove key value).SetSpec (pairs m)
      (((buckets m (keyToPageId c key d)).remove key value).1, [])
      (pairs { m with
        pages := Function.update m.pages (keyToPageId c key d)
          (some (.bucket ((buckets m (keyToPageId c key d)).remove key value).2)) }) := by
  have hrem := fun e => HashTableBucketPage.mem_remove (e := e) _ key value (h.nodup_key key)
  have hmem := h.mem_pairs_setBucket (b := ((buckets m (keyToPageId c key d)).remove key value).2)
    fun e hk => (hrem e).trans (and_iff_left fun he => hk (by rw [he]))
  refine ⟨rfl, (HashTableBucketPage.remove_fst _ _ _).trans h.mem_pairs.symm, Set.ext fun e => ?_⟩
  rw [hmem, hrem, Set.mem_diff, Set.mem_singleton_iff]
  split_ifs with hk
  · rw [h.mem_pairs, hk]
  · exact (and_iff_left fun he => hk (by rw [he])).symm

theorem splitInsert_pairs (h : Wf c t.pool t.directoryPageId d) {key : K} {r : Bool}
    (hs : splitInsert Memory.pool c key t = .ok (r, t')) : pairs t'.pool = pairs t.pool := by
  obtain ⟨-, ⟨-, he, -⟩ | ⟨-, d₁, s, hsp, he⟩⟩ := splitInsert_pool h hs <;> rw [he]
  exact h.pairs_splitPages ((hsp.names _).1 ⟨s, hsp.slot_lt, rfl⟩) _ _

omit [DecidableEq V] in
theorem Start.setSpec_getValue (h : Start c t) {key : K} {r : Bool × List V}
    (hg : getValue Memory.pool c key t = .ok (r, t')) :
    (HashCall.getValue key).SetSpec (pairs t.pool) r (pairs t'.pool) := by
  obtain ⟨t₂, d, hw, hp, hg⟩ := h.rLocked_pairs hg
  rw [hw.directory_eq] at hg
  simp only [fetchPage_memory, unpinPage_memory, ok_bind, bucketAt_memory, pure_eq_ok,
    Except.ok.injEq, Prod.mk.injEq] at hg
  obtain ⟨rfl, rfl⟩ := hg
  rw [← hp]
  exact hw.setSpec_getValue key

theorem Start.insert_spec (fuel : Nat) {key : K} {value : V} {r : Bool} (h : Start c t)
    (hi : insert Memory.pool c fuel key value t = .ok (r, t')) :
    (HashCall.insert key value).SetSpec (pairs t.pool) (r, []) (pairs t'.pool) ∧
      (r = true ↔ (key, value) ∉ pairs t.pool ∧ ¬ c.Crowded (pairs t.pool) key) := by
  induction fuel generalizing t with
  | zero => simp [insert] at hi
  | succ fuel ih =>
    obtain ⟨t₂, d, hw, hp, hi⟩ := h.rLocked_pairs hi
    rw [hw.directory_eq] at hi
    simp only [fetchPage_memory, unpinPage_memory, ok_bind, bucketAt_memory, writeBucket_memory,
      pure_eq_ok] at hi
    rw [← hp]
    split at hi <;> rename_i hfull <;>
      simp only [Bool.not_eq_true', HashTableBucketPage.isFull, HashTableBucketPage.numReadable,
        decide_eq_false_iff_not, not_le, not_lt, Bool.not_eq_false', decide_eq_true_eq] at hfull
    · simp only [Except.ok.injEq, Prod.mk.injEq] at hi
      obtain ⟨rfl, rfl⟩ := hi
      refine ⟨hw.setSpec_insertBucket key value, ?_⟩
      rw [HashTableBucketPage.insert_fst, hw.mem_pairs]
      exact ⟨fun h' => ⟨h'.1, hw.not_crowded hfull⟩, fun h' => ⟨h'.1, hfull⟩⟩
    obtain ⟨⟨split, t₃⟩, h₃, hi⟩ := bind_eq_ok.1 hi
    have hq : pairs t₃.pool = pairs t₂.pool := splitInsert_pairs (t := rUnlock t₂) hw h₃
    obtain ⟨-, ⟨rfl, -, hmax⟩ | ⟨rfl, -⟩⟩ := splitInsert_pool (t := rUnlock t₂) hw h₃
    · simp only [Bool.false_eq_true, if_false, pure_eq_ok, Except.ok.injEq, Prod.mk.injEq] at hi
      obtain ⟨rfl, rfl⟩ := hi
      exact ⟨⟨rfl, hq⟩, iff_of_false Bool.false_ne_true fun h' => h'.2 (hw.crowded hfull hmax)⟩
    · rw [← hq]
      split at hi
      · exact ih (.inr (splitInsert_wf (t := rUnlock t₂) hw h₃)) hi
      · exact absurd rfl ‹_›

theorem Start.setSpec_remove (h : Start c t) {key : K} {value : V} {r : Bool}
    (hr : remove Memory.pool c key value t = .ok (r, t')) :
    (HashCall.remove key value).SetSpec (pairs t.pool) (r, []) (pairs t'.pool) := by
  obtain ⟨t₂, d, hw, hp, hr⟩ := h.rLocked_pairs hr
  rw [hw.directory_eq] at hr
  simp only [fetchPage_memory, unpinPage_memory, ok_bind, bucketAt_memory, writeBucket_memory] at hr
  rw [← hp]
  split at hr
  · obtain ⟨t₄, h₄, hr⟩ := bind_eq_ok.1 hr
    simp only [pure_eq_ok, Except.ok.injEq, Prod.mk.injEq] at hr
    obtain ⟨rfl, rfl⟩ := hr
    rw [merge_pairs (hw.removeBucket key value) h₄]
    exact hw.setSpec_removeBucket key value
  · simp only [pure_eq_ok, Except.ok.injEq, Prod.mk.injEq] at hr
    obtain ⟨rfl, rfl⟩ := hr
    exact hw.setSpec_removeBucket key value

theorem Start.setSpec_call (h : Start c t) {op : HashCall K V} {r : Bool × List V}
    (hc : call Memory.pool c t op = .ok (r, t')) : op.SetSpec (pairs t.pool) r (pairs t'.pool) := by
  cases op with
  | getValue key => exact h.setSpec_getValue hc
  | insert key value =>
    obtain ⟨⟨b, t''⟩, hi, he⟩ := map_eq_ok.1 hc
    cases he
    exact (h.insert_spec _ hi).1
  | remove key value =>
    obtain ⟨⟨b, t''⟩, hi, he⟩ := map_eq_ok.1 hc
    cases he
    exact h.setSpec_remove hi

theorem calls_refine_set (h : Start c t) {op : HashCall K V} {r : Bool × List V}
    (hc : call Memory.pool c t op = .ok (r, t')) :
    op.SetSpec (pairs t.pool) r (pairs t'.pool) ∧ ∃ d, Wf c t'.pool t'.directoryPageId d :=
  ⟨h.setSpec_call hc, call_wf h hc⟩

theorem ok_of_toOption {α : Type} {x : Except Halt α} {p : α → Bool}
    (h : x.toOption.map p = some true) : ∃ a, x = .ok a ∧ p a = true := by
  cases x with
  | error e => simp [Except.toOption] at h
  | ok a => exact ⟨a, rfl, by simpa [Except.toOption] using h⟩

theorem split_merge_run :
    ∃ t₁ t₂ t₃ : ExtendibleHashTable (Memory (HashTablePage Nat Nat)),
      call Memory.pool ⟨fun k => k, 1, 1⟩ (init Memory.empty) (.insert 3 5) = .ok ((true, []), t₁) ∧
      call Memory.pool ⟨fun k => k, 1, 1⟩ { t₁ with readers := 0 } (.insert 4 6) =
        .ok ((true, []), t₂) ∧ (directory Memory.pool t₂).globalDepth = 1 ∧
      call Memory.pool ⟨fun k => k, 1, 1⟩ { t₂ with readers := 0 } (.remove 3 5) =
        .ok ((true, []), t₃) ∧ (directory Memory.pool t₃).globalDepth = 0 := by
  obtain ⟨⟨r₁, t₁⟩, hc₁, hp₁⟩ := ok_of_toOption (x := call Memory.pool ⟨fun k => k, 1, 1⟩
    (init (Memory.empty : Memory (HashTablePage Nat Nat))) (.insert 3 5))
    (p := fun x => x.1 == (true, []) && (call Memory.pool ⟨fun k => k, 1, 1⟩
      { x.2 with readers := 0 } (.insert 4 6)).toOption.map (fun y => y.1 == (true, []) &&
        (directory Memory.pool y.2).globalDepth == 1 && (call Memory.pool ⟨fun k => k, 1, 1⟩
          { y.2 with readers := 0 } (.remove 3 5)).toOption.map (fun z => z.1 == (true, []) &&
            (directory Memory.pool z.2).globalDepth == 0) == some true) == some true) (by decide)
  simp only [Bool.and_eq_true, beq_iff_eq] at hp₁
  obtain ⟨rfl, hp₁⟩ := hp₁
  obtain ⟨⟨r₂, t₂⟩, hc₂, hp₂⟩ := ok_of_toOption hp₁
  simp only [Bool.and_eq_true, beq_iff_eq] at hp₂
  obtain ⟨⟨rfl, hd₂⟩, hp₂⟩ := hp₂
  obtain ⟨⟨r₃, t₃⟩, hc₃, hp₃⟩ := ok_of_toOption hp₂
  simp only [Bool.and_eq_true, beq_iff_eq] at hp₃
  obtain ⟨rfl, hd₃⟩ := hp₃
  exact ⟨t₁, t₂, t₃, hc₁, hc₂, hd₂, hc₃, hd₃⟩

theorem calls_refine_set_split_merge :
    ∃ t₁ t₂ t₃ : ExtendibleHashTable (Memory (HashTablePage Nat Nat)),
      call Memory.pool ⟨fun k => k, 1, 1⟩ (init Memory.empty) (.insert 3 5) = .ok ((true, []), t₁) ∧
      call Memory.pool ⟨fun k => k, 1, 1⟩ { t₁ with readers := 0 } (.insert 4 6) =
        .ok ((true, []), t₂) ∧ (directory Memory.pool t₂).globalDepth = 1 ∧
      call Memory.pool ⟨fun k => k, 1, 1⟩ { t₂ with readers := 0 } (.remove 3 5) =
        .ok ((true, []), t₃) ∧ (directory Memory.pool t₃).globalDepth = 0 ∧
      ((HashCall.insert 4 6).SetSpec (pairs t₁.pool) (true, []) (pairs t₂.pool) ∧
        ∃ d, Wf ⟨fun k => k, 1, 1⟩ t₂.pool t₂.directoryPageId d) ∧
      ((HashCall.remove 3 5).SetSpec (pairs t₂.pool) (true, []) (pairs t₃.pool) ∧
        ∃ d, Wf ⟨fun k => k, 1, 1⟩ t₃.pool t₃.directoryPageId d) := by
  obtain ⟨t₁, t₂, t₃, hc₁, hc₂, hd₂, hc₃, hd₃⟩ := split_merge_run
  have hw₁ := call_wf (.inl ⟨rfl, rfl⟩) hc₁
  have hs₁ : Start ⟨fun k => k, 1, 1⟩ { t₁ with readers := 0 } := .inr hw₁
  have hw₂ := call_wf hs₁ hc₂
  have hs₂ : Start ⟨fun k => k, 1, 1⟩ { t₂ with readers := 0 } := .inr hw₂
  exact ⟨t₁, t₂, t₃, hc₁, hc₂, hd₂, hc₃, hd₃, calls_refine_set hs₁ hc₂, calls_refine_set hs₂ hc₃⟩

theorem insert_result_iff (h : Start c t) {key : K} {value : V} {r : Bool × List V}
    (hc : call Memory.pool c t (.insert key value) = .ok (r, t')) :
    r.1 = true ↔ (key, value) ∉ pairs t.pool ∧ ¬ c.Crowded (pairs t.pool) key := by
  obtain ⟨⟨b, t''⟩, hi, he⟩ := map_eq_ok.1 hc
  cases he
  exact (h.insert_spec _ hi).2

theorem insert_result_iff_cases :
    (∃ t₁ t₂ : ExtendibleHashTable (Memory (HashTablePage Nat Nat)),
      call Memory.pool ⟨fun k => k, 1, 2⟩ (init Memory.empty) (.insert 3 5) = .ok ((true, []), t₁) ∧
      call Memory.pool ⟨fun k => k, 1, 2⟩ t₁ (.insert 3 5) = .ok ((false, []), t₂) ∧
      (false = true ↔ (3, 5) ∉ pairs t₁.pool ∧
        ¬ (⟨fun k => k, 1, 2⟩ : HashConfig Nat).Crowded (pairs t₁.pool) 3)) ∧
    (∃ t₁ t₂ : ExtendibleHashTable (Memory (HashTablePage Nat Nat)),
      call Memory.pool ⟨fun k => k, 1, 1⟩ (init Memory.empty) (.insert 3 5) = .ok ((true, []), t₁) ∧
      call Memory.pool ⟨fun k => k, 1, 1⟩ { t₁ with readers := 0 } (.insert 4 6) =
        .ok ((true, []), t₂) ∧ (directory Memory.pool t₂).globalDepth = 1 ∧
      (true = true ↔ (4, 6) ∉ pairs t₁.pool ∧
        ¬ (⟨fun k => k, 1, 1⟩ : HashConfig Nat).Crowded (pairs t₁.pool) 4)) ∧
    (∃ t : ExtendibleHashTable (Memory (HashTablePage Nat Nat)),
      call Memory.pool ⟨fun k => k, 0, 0⟩ (init Memory.empty) (.insert 3 5) = .ok ((false, []), t) ∧
      (false = true ↔ (3, 5) ∉ pairs (Memory.empty : Memory (HashTablePage Nat Nat)) ∧
        ¬ (⟨fun k => k, 0, 0⟩ : HashConfig Nat).Crowded
          (pairs (Memory.empty : Memory (HashTablePage Nat Nat))) 3)) := by
  refine ⟨?_, ?_, ?_⟩
  · obtain ⟨⟨r₁, t₁⟩, hc₁, hp₁⟩ := ok_of_toOption (x := call Memory.pool ⟨fun k => k, 1, 2⟩
      (init (Memory.empty : Memory (HashTablePage Nat Nat))) (.insert 3 5))
      (p := fun x => x.1 == (true, []) && (call Memory.pool ⟨fun k => k, 1, 2⟩ x.2
        (.insert 3 5)).toOption.map (fun y => y.1 == (false, [])) == some true) (by decide)
    simp only [Bool.and_eq_true, beq_iff_eq] at hp₁
    obtain ⟨rfl, hp₁⟩ := hp₁
    obtain ⟨⟨r₂, t₂⟩, hc₂, hp₂⟩ := ok_of_toOption hp₁
    obtain rfl := beq_iff_eq.1 hp₂
    exact ⟨t₁, t₂, hc₁, hc₂, insert_result_iff (.inr (call_wf (.inl ⟨rfl, rfl⟩) hc₁)) hc₂⟩
  · obtain ⟨t₁, t₂, -, hc₁, hc₂, hd₂, -⟩ := split_merge_run
    have hw₁ := call_wf (.inl ⟨rfl, rfl⟩) hc₁
    exact ⟨t₁, t₂, hc₁, hc₂, hd₂, insert_result_iff (t := { t₁ with readers := 0 }) (.inr hw₁) hc₂⟩
  · obtain ⟨⟨r, t⟩, hc, hp⟩ := ok_of_toOption (x := call Memory.pool ⟨fun k => k, 0, 0⟩
      (init (Memory.empty : Memory (HashTablePage Nat Nat))) (.insert 3 5))
      (p := fun x => x.1 == (false, [])) (by decide)
    obtain rfl := beq_iff_eq.1 hp
    exact ⟨t, hc, insert_result_iff (.inl ⟨rfl, rfl⟩) hc⟩

theorem Start.setRun (h : Start c t) (ops : List (HashCall K V)) :
    HashCall.SetRun (pairs t.pool) ops (results (call Memory.pool c) t ops) := by
  induction ops generalizing t with
  | nil => exact .nil _
  | cons op ops ih =>
    rw [results]
    split
    · rename_i r t' hc
      exact .step (h.setSpec_call hc) (ih (.inr (call_wf h hc)))
    · exact .halt _ _ _ _

theorem buffer_pool_table_refines_set (c : HashConfig K) (hc : 0 < c.bucketArraySize)
    {poolSize n idx : Nat} (hsize : 2 ≤ poolSize) (hn32 : n < 2 ^ 32) (hidx : idx < n)
    (disk : Int → HashTablePage K V) (ops : List (HashCall K V)) :
    HashCall.SetRun ∅ ops (results (call BufferPoolManagerInstance.pool c)
      (init (BufferPoolManagerInstance.init poolSize n idx disk)) ops) := by
  rw [(frameSlots_runs_fresh hsize (by omega) hn32 disk (toInt32_ne_invalid_of_lt hidx hn32)).results
    c hc, ← memorySlots_runs_fresh.results c hc, ← pairs_empty]
  exact Start.setRun (t := init Memory.empty) (.inl ⟨rfl, rfl⟩) ops

theorem buffer_pool_table_refines_set_three :
    0 < (⟨fun k => k, 1, 1⟩ : HashConfig Nat).bucketArraySize ∧ 2 ≤ 3 ∧ 1 < 2 ^ 32 ∧ 0 < 1 ∧
      HashCall.SetRun ∅ [.insert 3 5, .getValue 3, .remove 3 5]
        (results (call BufferPoolManagerInstance.pool ⟨fun k => k, 1, 1⟩)
          (init (BufferPoolManagerInstance.init 3 1 0 fun _ => (0 : HashTablePage Nat Nat)))
          [.insert 3 5, .getValue 3, .remove 3 5]) :=
  ⟨by decide, by decide, by decide, by decide,
    buffer_pool_table_refines_set _ (by decide) (by decide) (by decide) (by decide) _ _⟩

end ExtendibleHashTable

end Bustub
