import Bustub.Container.DirectoryInvariant

/-!
The table over `Memory` and its invariant `Wf`, kept by every call that returns.
-/

namespace Bustub

namespace ExtendibleHashTable

variable {K V : Type}

def buckets (m : Memory (HashTablePage K V)) (p : Int) : HashTableBucketPage K V :=
  ((m.pages p).getD 0).asBucket

theorem buckets_update (m : Memory (HashTablePage K V)) (p q : Int)
    (x : Option (HashTablePage K V)) :
    buckets { m with pages := Function.update m.pages p x } q =
      if q = p then (x.getD 0).asBucket else buckets m q := by
  by_cases h : q = p
  · subst h; simp [buckets]
  · simp [buckets, h, Function.update_noteq h]

section Memory

variable {t : ExtendibleHashTable (Memory (HashTablePage K V))} (p : Int)

@[simp] theorem fetchPage_memory : fetchPage Memory.pool p t = .ok t := rfl

@[simp] theorem unpinPage_memory (isDirty : Bool) : unpinPage Memory.pool p isDirty t = .ok t :=
  rfl

@[simp] theorem deletePage_memory : deletePage Memory.pool p t =
    .ok { t with pool := { t.pool with pages := Function.update t.pool.pages p none } } := rfl

@[simp] theorem newPage_memory : newPage Memory.pool t = .ok (t.pool.nextPageId,
    { t with pool := ⟨Function.update t.pool.pages t.pool.nextPageId (some 0),
      t.pool.nextPageId + 1⟩ }) := rfl

theorem directory_memory :
    directory Memory.pool t = ((t.pool.pages t.directoryPageId).getD 0).asDirectory := rfl

@[simp] theorem bucketAt_memory : bucketAt Memory.pool t p = buckets t.pool p := rfl

@[simp] theorem writeBucket_memory (b : HashTableBucketPage K V) : writeBucket Memory.pool t p b =
    { t with pool := { t.pool with pages := Function.update t.pool.pages p (some (.bucket b)) } } :=
  rfl

@[simp] theorem writeDirectory_memory (d : HashTableDirectoryPage) :
    writeDirectory Memory.pool t d = { t with pool := { t.pool with
      pages := Function.update t.pool.pages t.directoryPageId (some (.directory d)) } } := rfl

end Memory

variable (c : HashConfig K)

structure Wf (m : Memory (HashTablePage K V)) (dirId : Int) (d : HashTableDirectoryPage) :
    Prop where
  valid : dirId ≠ invalidPageId
  directory_page : m.pages dirId = some (.directory d)
  pageId : d.pageId = dirId
  inv : DirectoryInv c d (buckets m)
  tight : ∃ i < 2 ^ d.globalDepth, d.localDepths i = d.globalDepth
  depth_le : d.globalDepth ≤ c.maxBucketDepth
  live : ∀ p, d.names p → m.pages p ≠ none
  not_dir : ¬ d.names dirId
  named : ∀ p, ∀ e ∈ (buckets m p).array, d.names p
  fresh : ∀ p, m.nextPageId ≤ p → m.pages p = none

def Start (t : ExtendibleHashTable (Memory (HashTablePage K V))) : Prop :=
  t.directoryPageId = invalidPageId ∧ t.pool = Memory.empty ∨
    ∃ d, Wf c t.pool t.directoryPageId d

variable {c} {m : Memory (HashTablePage K V)} {dirId : Int} {d : HashTableDirectoryPage}

theorem Wf.ne_of_names (h : Wf c m dirId d) {p q : Int} (hp : d.names p) (hq : m.nextPageId ≤ q) :
    p ≠ q :=
  fun e => h.live p hp (e ▸ h.fresh q hq)

theorem Wf.dir_ne (h : Wf c m dirId d) {q : Int} (hq : m.nextPageId ≤ q) : dirId ≠ q := fun e => by
  have := h.fresh q hq
  rw [← e, h.directory_page] at this
  cases this

theorem Wf.dir_ne_of_names (h : Wf c m dirId d) {p : Int} (hp : d.names p) : dirId ≠ p :=
  fun e => h.not_dir (e ▸ hp)

theorem Wf.setBucket (h : Wf c m dirId d) {i : Nat} (hi : i < 2 ^ d.globalDepth)
    {b : HashTableBucketPage K V}
    (hplaced : ∀ e ∈ b.array, c.hash e.1 % 2 ^ d.localDepths i = i % 2 ^ d.localDepths i)
    (hsize : b.array.length ≤ c.bucketArraySize) (hnd : b.array.Nodup) :
    Wf c { m with pages := Function.update m.pages (d.bucketPageIds i) (some (.bucket b)) }
      dirId d := by
  have hi' : d.names (d.bucketPageIds i) := ⟨i, hi, rfl⟩
  have hbuckets : buckets { m with
      pages := (Function.update m.pages (d.bucketPageIds i) (some (.bucket b))) } =
      Function.update (buckets m) (d.bucketPageIds i) b := by
    funext q
    rw [buckets_update, Function.update_apply]
    rfl
  refine ⟨h.valid, ?_, h.pageId, hbuckets ▸ h.inv.update hi hplaced hsize hnd, h.tight,
    h.depth_le, fun p hp => ?_, h.not_dir, fun p e he => ?_, fun p hp => ?_⟩ <;> dsimp only
  · rw [Function.update_noteq (h.dir_ne_of_names hi')]
    exact h.directory_page
  · rw [Function.update_apply]
    split
    · simp
    · exact h.live p hp
  · rw [hbuckets, Function.update_apply] at he
    split at he
    · subst p; exact hi'
    · exact h.named p e he
  · rw [Function.update_noteq (h.ne_of_names hi' hp).symm]
    exact h.fresh p hp

variable {t t' : ExtendibleHashTable (Memory (HashTablePage K V))}

theorem Wf.directory_eq (h : Wf c t.pool t.directoryPageId d) : directory Memory.pool t = d := by
  simp [directory, Memory.pool, h.directory_page]

theorem Wf.fetchDirectoryPage (h : Wf c t.pool t.directoryPageId d) :
    fetchDirectoryPage Memory.pool t = .ok t := by
  simp [ExtendibleHashTable.fetchDirectoryPage, h.valid, assertTrue, bind, Except.bind, pure,
    Except.pure]

theorem Start.fetchDirectoryPage {t₁ : ExtendibleHashTable (Memory (HashTablePage K V))}
    (h : Start c t) (hf : fetchDirectoryPage Memory.pool t₁ = .ok t') (hp : t₁.pool = t.pool)
    (hd : t₁.directoryPageId = t.directoryPageId) : ∃ d, Wf c t'.pool t'.directoryPageId d := by
  rw [Start, ← hp, ← hd] at h
  rcases h with ⟨h0, hp⟩ | ⟨d, hw⟩
  · simp [ExtendibleHashTable.fetchDirectoryPage, h0, hp, Memory.empty, directory_memory,
      assertTrue, invalidPageId] at hf
    subst hf
    refine ⟨{ HashTableDirectoryPage.zero with pageId := 0 }.setBucketPageId 0 1,
      ⟨by simp [invalidPageId], by simp, rfl, ⟨?_, ?_, ?_, ?_, ?_, ?_⟩, ?_, ?_, ?_, ?_, ?_, ?_⟩⟩ <;>
      simp [HashTableDirectoryPage.zero, HashTableDirectoryPage.names, buckets, Function.update_apply]
    · intro p a b
      split_ifs <;> simp [HashTablePage.asBucket]
    · intro p hp
      split_ifs <;> first | omega | rfl
  · rw [hw.fetchDirectoryPage] at hf
    cases hf
    exact ⟨d, hw⟩

theorem Start.rLocked {β : Type} {f : ExtendibleHashTable (Memory (HashTablePage K V)) → Except Halt β}
    {b : β} (h : Start c t)
    (hb : (rLock t >>= fun t => ExtendibleHashTable.fetchDirectoryPage Memory.pool t >>= f) =
      .ok b) :
    ∃ t₂ d, Wf c t₂.pool t₂.directoryPageId d ∧ f t₂ = .ok b := by
  obtain ⟨_, h₁, hb⟩ := bind_eq_ok.1 hb
  obtain ⟨-, rfl⟩ := rLock_eq_ok.1 h₁
  obtain ⟨t₂, h₂, hb⟩ := bind_eq_ok.1 hb
  obtain ⟨d, hw⟩ := h.fetchDirectoryPage h₂ rfl rfl
  exact ⟨t₂, d, hw, hb⟩

theorem Wf.wLocked {β : Type} {f : ExtendibleHashTable (Memory (HashTablePage K V)) → Except Halt β}
    {b : β} (h : Wf c t.pool t.directoryPageId d)
    (hb : (wLock t >>= fun t => ExtendibleHashTable.fetchDirectoryPage Memory.pool t >>= f) =
      .ok b) :
    f { t with writer := true } = .ok b := by
  obtain ⟨_, h₁, hb⟩ := bind_eq_ok.1 hb
  obtain ⟨-, rfl⟩ := wLock_eq_ok.1 h₁
  rwa [Wf.fetchDirectoryPage (t := { t with writer := true }) h, ok_bind] at hb

theorem Wf.insertBucket (h : Wf c m dirId d) [DecidableEq K] [DecidableEq V] (key : K) (value : V) :
    Wf c { m with pages := (Function.update m.pages (keyToPageId c key d)
      (some (.bucket ((buckets m (keyToPageId c key d)).insert c.bucketArraySize key value).2))) }
      dirId d := by
  have hi : keyToDirectoryIndex c key d < 2 ^ d.globalDepth := by
    rw [keyToDirectoryIndex_eq]; exact Nat.mod_lt _ (Nat.pos_pow_of_pos _ (by decide))
  have hld := h.inv.localDepth_le _ hi
  refine h.setBucket hi (fun e he => ?_) (HashTableBucketPage.length_insert_le _ _ _ _
    (h.inv.size_le _ hi)) (HashTableBucketPage.nodup_insert _ _ _ _ (h.inv.nodup _ hi))
  rcases (HashTableBucketPage.mem_insert _ _ _ _).1 he with he | ⟨-, rfl⟩
  · exact h.inv.placed _ hi e he
  · rw [keyToDirectoryIndex_eq, Nat.mod_mod_of_dvd _ (Nat.pow_dvd_pow 2 (keyToDirectoryIndex_eq c key d ▸ hld))]

theorem Wf.removeBucket (h : Wf c m dirId d) [DecidableEq K] [DecidableEq V] (key : K) (value : V) :
    Wf c { m with pages := (Function.update m.pages (keyToPageId c key d)
      (some (.bucket ((buckets m (keyToPageId c key d)).remove key value).2))) } dirId d := by
  have hi : keyToDirectoryIndex c key d < 2 ^ d.globalDepth := by
    rw [keyToDirectoryIndex_eq]; exact Nat.mod_lt _ (Nat.pos_pow_of_pos _ (by decide))
  have hsub := HashTableBucketPage.sublist_remove (buckets m (keyToPageId c key d)) key value
  exact h.setBucket hi (fun e he => h.inv.placed _ hi e (hsub.subset he))
    (hsub.length_le.trans (h.inv.size_le _ hi)) ((h.inv.nodup _ hi).sublist hsub)

variable (c) in
structure Splittable (m : Memory (HashTablePage K V)) (d d₁ : HashTableDirectoryPage) (s : Nat) :
    Prop where
  inv : DirectoryInv c d₁ (buckets m)
  names : ∀ p, d₁.names p ↔ d.names p
  pageId : d₁.pageId = d.pageId
  slot_lt : s < 2 ^ d₁.globalDepth
  depth_lt : d₁.localDepths s < d₁.globalDepth
  tight : (∃ i < 2 ^ d₁.globalDepth, d₁.localDepths i = d₁.globalDepth) ∨
    d₁.localDepths s + 1 = d₁.globalDepth
  depth_le : d₁.globalDepth ≤ c.maxBucketDepth
  globalDepth_le : d₁.globalDepth ≤ d.globalDepth + 1

theorem Wf.splittable (h : Wf c m dirId d) {s : Nat} (hs : s < 2 ^ d.globalDepth)
    (hL : d.localDepths s < d.globalDepth) : Splittable c m d d s :=
  ⟨h.inv, fun _ => Iff.rfl, rfl, hs, hL, .inl h.tight, h.depth_le, Nat.le_succ _⟩

theorem Wf.splittable_incrGlobalDepth (h : Wf c m dirId d) {s : Nat} (hs : s < 2 ^ d.globalDepth)
    (hL : d.localDepths s = d.globalDepth) (hmax : d.localDepths s < c.maxBucketDepth) :
    Splittable c m d d.incrGlobalDepth s := by
  have hs' : s < 2 ^ (d.globalDepth + 1) :=
    Nat.lt_of_lt_of_le hs (Nat.pow_le_pow_right (by decide) (Nat.le_succ _))
  have hld : d.incrGlobalDepth.localDepths s = d.globalDepth := by
    rw [d.incrGlobalDepth_localDepths hs', Nat.mod_eq_of_lt hs, hL]
  refine ⟨h.inv.incrGlobalDepth, fun _ => HashTableDirectoryPage.names_incrGlobalDepth d, rfl,
    hs', ?_, .inr ?_, ?_, le_rfl⟩ <;> simp only [hld, HashTableDirectoryPage.incrGlobalDepth_globalDepth]
  · omega
  · omega

variable (c) in
def splitPages (m : Memory (HashTablePage K V)) (dirId : Int) (d' : HashTableDirectoryPage)
    (mask : Nat) (p : Int) : Memory (HashTablePage K V) :=
  ⟨Function.update (Function.update (Function.update (Function.update m.pages m.nextPageId
      (some 0)) dirId (some (.directory d'))) p
      (some (.bucket ⟨(buckets m p).array.filter fun e => d'.bucketPageIds (c.hash e.1 &&& mask) = p⟩)))
      m.nextPageId
      (some (.bucket ⟨(buckets m p).array.filter fun e => d'.bucketPageIds (c.hash e.1 &&& mask) ≠ p⟩)),
    m.nextPageId + 1⟩

theorem Wf.split (h : Wf c m dirId d) {d₁ : HashTableDirectoryPage} {s : Nat}
    (hsp : Splittable c m d d₁ s) :
    Wf c (splitPages c m dirId (splitSlots (d₁.incrLocalDepth s) s (d₁.bucketPageIds s) m.nextPageId)
        (2 ^ (d₁.localDepths s + 1) - 1) (d₁.bucketPageIds s)) dirId
      (splitSlots (d₁.incrLocalDepth s) s (d₁.bucketPageIds s) m.nextPageId) := by
  obtain ⟨hinv, hnames, hpage, hs, hL, htight, hdepth, -⟩ := hsp
  have hP : d.names (d₁.bucketPageIds s) := (hnames _).1 ⟨s, hs, rfl⟩
  have hPq : d₁.bucketPageIds s ≠ m.nextPageId := h.ne_of_names hP le_rfl
  have hdirq : dirId ≠ m.nextPageId := h.dir_ne le_rfl
  have hdirP : dirId ≠ d₁.bucketPageIds s := h.dir_ne_of_names hP
  have hnames' : ∀ p, (splitSlots (d₁.incrLocalDepth s) s (d₁.bucketPageIds s)
      m.nextPageId).names p ↔ d.names p ∨ p = m.nextPageId := fun p =>
    (hinv.names_split hs hL).trans (or_congr_left (hnames p))
  have hbuckets : ∀ r ≠ dirId, buckets (splitPages c m dirId (splitSlots (d₁.incrLocalDepth s) s
      (d₁.bucketPageIds s) m.nextPageId) (2 ^ (d₁.localDepths s + 1) - 1) (d₁.bucketPageIds s)) r =
      splitBuckets c (buckets m) (splitSlots (d₁.incrLocalDepth s) s (d₁.bucketPageIds s)
        m.nextPageId) (2 ^ (d₁.localDepths s + 1) - 1) (d₁.bucketPageIds s) m.nextPageId r := by
    intro r hr
    simp only [buckets, splitPages, splitBuckets, Function.update_apply, hr, if_false]
    split_ifs <;> rfl
  have hinv' := hinv.split hs hL fun i hi => h.ne_of_names ((hnames _).1 ⟨i, hi, rfl⟩) le_rfl
  have htight' := hinv.split_tight hs hL m.nextPageId htight
  have hg' := splitSlots_incrLocalDepth_globalDepth (d := d₁) s (d₁.bucketPageIds s) m.nextPageId
  have hpage' := splitSlots_incrLocalDepth_pageId (d := d₁) s (d₁.bucketPageIds s) m.nextPageId
  generalize splitSlots (d₁.incrLocalDepth s) s (d₁.bucketPageIds s) m.nextPageId = d' at *
  generalize d₁.bucketPageIds s = P at *
  refine ⟨h.valid, ?_, hpage'.trans (hpage.trans h.pageId), hinv'.congr fun i hi => hbuckets _ ?_,
    hg' ▸ htight', hg' ▸ hdepth, fun p hp => ?_, fun hd => ?_, fun p e he => ?_, fun p hp => ?_⟩
  · simp [splitPages, Function.update_noteq hdirP, Function.update_noteq hdirq]
  · rcases (hnames' _).1 ⟨i, hi, rfl⟩ with hd | hd
    · exact (h.dir_ne_of_names hd).symm
    · rw [hd]; exact hdirq.symm
  · simp only [splitPages, Function.update_apply]
    split_ifs with hq <;> first | exact h.live p (((hnames' p).1 hp).resolve_right hq) | simp
  · rcases (hnames' _).1 hd with hd | hd
    · exact h.not_dir hd
    · exact hdirq hd
  · by_cases hpq : p = m.nextPageId
    · exact (hnames' p).2 (.inr hpq)
    · by_cases hpd : p = dirId
      · subst hpd
        simp [buckets, splitPages, Function.update_noteq hdirP, Function.update_noteq hdirq,
          HashTablePage.asBucket] at he
      · rw [hbuckets p hpd] at he
        refine (hnames' p).2 (.inl (h.named p e ?_))
        simp only [splitBuckets, Function.update_apply, hpq, if_false] at he
        split_ifs at he with hpP
        · subst hpP; exact List.mem_of_mem_filter he
        · exact he
  · have hp' : m.nextPageId + 1 ≤ p := hp
    have hpq : p ≠ m.nextPageId := by omega
    replace hp' : m.nextPageId ≤ p := by omega
    simp [splitPages, Function.update_noteq hpq, Function.update_noteq (h.dir_ne hp').symm,
      Function.update_noteq (h.ne_of_names hP hp').symm, h.fresh p hp']

theorem Wf.merge (h : Wf c m dirId d) {s M : Nat} (hs : s < 2 ^ d.globalDepth)
    (hM : d.localDepths s = M + 1) (himg : d.localDepths (s ^^^ 2 ^ M) = M + 1) :
    Wf c ⟨Function.update (Function.update m.pages (d.bucketPageIds s) none) dirId
        (some (.directory (mergeSlots (((d.setBucketPageId s (d.bucketPageIds (s ^^^ 2 ^ M))).decrLocalDepth
          s).decrLocalDepth (s ^^^ 2 ^ M)) s (d.bucketPageIds s) (d.bucketPageIds (s ^^^ 2 ^ M))).shrink)),
        m.nextPageId⟩ dirId
      (mergeSlots (((d.setBucketPageId s (d.bucketPageIds (s ^^^ 2 ^ M))).decrLocalDepth
        s).decrLocalDepth (s ^^^ 2 ^ M)) s (d.bucketPageIds s) (d.bucketPageIds (s ^^^ 2 ^ M))).shrink := by
  have hinv := h.inv.merge hs hM himg
  have hnames := fun p => hinv.names_shrink.trans (h.inv.names_merge hs hM himg (p := p))
  have hpage : (mergeSlots (((d.setBucketPageId s (d.bucketPageIds (s ^^^ 2 ^ M))).decrLocalDepth
      s).decrLocalDepth (s ^^^ 2 ^ M)) s (d.bucketPageIds s)
        (d.bucketPageIds (s ^^^ 2 ^ M))).pageId = d.pageId := by
    simp [mergeSlots, HashTableDirectoryPage.decrLocalDepth]
  have hg : (mergeSlots (((d.setBucketPageId s (d.bucketPageIds (s ^^^ 2 ^ M))).decrLocalDepth
      s).decrLocalDepth (s ^^^ 2 ^ M)) s (d.bucketPageIds s)
        (d.bucketPageIds (s ^^^ 2 ^ M))).globalDepth = d.globalDepth := by
    simp [mergeSlots, HashTableDirectoryPage.decrLocalDepth]
  generalize mergeSlots _ s _ _ = D at *
  obtain ⟨hcan, hle, hpage', -, -, -⟩ := D.shrink_spec
  have hinv' := hinv.shrink.1
  generalize d.bucketPageIds s = T at *
  have hdir : ∀ p, D.shrink.names p → p ≠ dirId ∧ p ≠ T := fun p hp =>
    ⟨(h.dir_ne_of_names ((hnames p).1 hp).1).symm, ((hnames p).1 hp).2⟩
  refine ⟨h.valid, by simp, hpage'.trans (hpage.trans h.pageId), hinv'.congr fun i hi => ?_, ?_,
    hle.trans (hg ▸ h.depth_le), fun p hp => ?_, fun hd => (hdir _ hd).1 rfl, fun p e he => ?_,
    fun p hp => ?_⟩
  · obtain ⟨h1, h2⟩ := hdir _ ⟨i, hi, rfl⟩
    simp [buckets, Function.update_noteq h1, Function.update_noteq h2]
  · have := (HashTableDirectoryPage.canShrink_iff D.shrink).not.1 (by simp [hcan])
    push_neg at this
    obtain ⟨i, hi, hgi⟩ := this
    exact ⟨i, hi, Nat.le_antisymm (hinv'.localDepth_le i hi) hgi⟩
  · obtain ⟨h1, h2⟩ := hdir p hp
    simp only [Function.update_noteq h1, Function.update_noteq h2]
    exact h.live p ((hnames p).1 hp).1
  · by_cases h1 : p = dirId
    · subst h1; simp [buckets, HashTablePage.asBucket] at he
    · by_cases h2 : p = T
      · subst h2; simp [buckets, Function.update_noteq h1] at he
      · simp only [buckets, Function.update_noteq h1, Function.update_noteq h2] at he
        exact (hnames p).2 ⟨h.named p e he, h2⟩
  · dsimp only
    rw [Function.update_noteq (h.dir_ne hp).symm, Function.update_apply]
    split
    · rfl
    · exact h.fresh p hp

theorem merge_pool (h : Wf c t.pool t.directoryPageId d) {idx : Nat}
    (hm : merge Memory.pool idx t = .ok t') : t'.directoryPageId = t.directoryPageId ∧
      (t'.pool = t.pool ∨ ∃ T D, (buckets t.pool T).array = [] ∧ Wf c t'.pool t.directoryPageId D ∧
        (∀ p, D.names p ↔ d.names p ∧ p ≠ T) ∧ t'.pool = ⟨Function.update (Function.update t.pool.pages T none) t.directoryPageId
          (some (.directory D)), t.pool.nextPageId⟩) := by
  replace hm := h.wLocked hm
  rw [Wf.directory_eq (t := { t with writer := true }) h] at hm
  simp only [fetchPage_memory, unpinPage_memory, ok_bind, bucketAt_memory, deletePage_memory,
    HashTableDirectoryPage.getLocalDepth_eq, HashTableDirectoryPage.getBucketPageId_eq,
    HashTableDirectoryPage.size_eq, pure_eq_ok] at hm
  split_ifs at hm with h1 h2 h3 h4
  · cases hm; exact ⟨rfl, .inl rfl⟩
  · cases hm; exact ⟨rfl, .inl rfl⟩
  · cases hm; exact ⟨rfl, .inl rfl⟩
  · cases hm; exact ⟨rfl, .inl rfl⟩
  obtain ⟨M, hM⟩ := Nat.exists_eq_succ_of_ne_zero h2
  have himg : d.getLocalHighBit idx = idx ^^^ 2 ^ M := by
    simp [HashTableDirectoryPage.getLocalHighBit, hM]
  have hM' : d.localDepths (idx ^^^ 2 ^ M) = M + 1 := by
    have := not_not.1 h3
    rw [himg] at this
    omega
  rw [himg, bind_eq_ok] at hm
  obtain ⟨_, -, hm⟩ := hm
  cases hm
  have hs := Nat.lt_of_not_le h1
  exact ⟨rfl, .inr ⟨_, _, by simpa [HashTableBucketPage.isEmpty_iff] using h4, h.merge hs hM hM',
    fun p => (h.inv.merge hs hM hM').names_shrink.trans (h.inv.names_merge hs hM hM'), rfl⟩⟩

theorem merge_wf (h : Wf c t.pool t.directoryPageId d) {idx : Nat}
    (hm : merge Memory.pool idx t = .ok t') : ∃ d', Wf c t'.pool t'.directoryPageId d' := by
  obtain ⟨hd, he | ⟨T, D, -, hD, -, -⟩⟩ := merge_pool h hm <;> rw [hd]
  · exact ⟨d, he ▸ h⟩
  · exact ⟨D, hD⟩

theorem Wf.wLock_bind (h : Wf c t.pool t.directoryPageId d) (hr : t.readers = 0)
    (hw : t.writer = false) {β : Type}
    (f : ExtendibleHashTable (Memory (HashTablePage K V)) → Except Halt β) :
    (wLock t >>= fun t => ExtendibleHashTable.fetchDirectoryPage Memory.pool t >>= f) =
      f { t with writer := true } := by
  rw [wLock, if_neg (by simp [hw, hr]), ok_bind,
    Wf.fetchDirectoryPage (t := { t with writer := true }) h, ok_bind]

theorem Wf.splittable_split (h : Wf c m dirId d) {s : Nat} (hs : s < 2 ^ d.globalDepth)
    (hmax : d.localDepths s < c.maxBucketDepth) :
    Splittable c m d (if d.localDepths s = d.globalDepth then d.incrGlobalDepth else d) s := by
  split_ifs with hLg
  · exact h.splittable_incrGlobalDepth hs hLg hmax
  · exact h.splittable hs (lt_of_le_of_ne (h.inv.localDepth_le s hs) hLg)

variable [DecidableEq K] [DecidableEq V]

theorem Wf.splitInsert_eq (h : Wf c t.pool t.directoryPageId d) (hr : t.readers = 0)
    (hw : t.writer = false) (key : K) {s : Nat} (hs : s = c.hash key % 2 ^ d.globalDepth)
    {d₁ : HashTableDirectoryPage}
    (hd₁ : d₁ = if d.localDepths s = d.globalDepth then d.incrGlobalDepth else d) :
    splitInsert Memory.pool c key t = if c.maxBucketDepth ≤ d.localDepths s then
      .ok (false, { t with writer := false }) else
      .ok (true, { t with
        writer := false,
        pool := splitPages c t.pool t.directoryPageId
          (splitSlots (d₁.incrLocalDepth s) s (d₁.bucketPageIds s) t.pool.nextPageId)
          (2 ^ (d₁.localDepths s + 1) - 1) (d₁.bucketPageIds s) }) := by
  rw [splitInsert, h.wLock_bind hr hw, Wf.directory_eq (t := { t with writer := true }) h]
  simp only [fetchPage_memory, unpinPage_memory, ok_bind, bucketAt_memory, newPage_memory,
    HashTableDirectoryPage.getLocalDepth_eq, keyToDirectoryIndex_eq, ← hs, ← hd₁]
  have hslt : s < 2 ^ d.globalDepth := hs ▸ Nat.mod_lt _ (Nat.two_pow_pos _)
  by_cases hmax : c.maxBucketDepth ≤ d.localDepths s
  · simp only [if_pos hmax]; rfl
  simp only [if_neg hmax]
  have hsp := hd₁ ▸ h.splittable_split hslt (by omega)
  have hP : keyToPageId c key (d₁.incrLocalDepth s) = d₁.bucketPageIds s := by
    have hL := hsp.depth_lt
    have hg := hsp.globalDepth_le
    simp only [keyToPageId, keyToDirectoryIndex_eq, HashTableDirectoryPage.getBucketPageId_eq,
      HashTableDirectoryPage.incrLocalDepth, HashTableDirectoryPage.setLocalDepth_globalDepth,
      HashTableDirectoryPage.setLocalDepth_bucketPageIds]
    rw [hsp.inv.same_iff s hsp.slot_lt _ (Nat.mod_lt _ (Nat.two_pow_pos _)),
      Nat.mod_mod_of_dvd _ (Nat.pow_dvd_pow 2 (Nat.le_of_lt hL))]
    generalize d₁.localDepths s = L at hL ⊢
    subst hs
    exact (Nat.mod_mod_of_dvd _ (Nat.pow_dvd_pow 2 (show L ≤ d.globalDepth by omega))).symm
  rw [hP]
  have hmask := (splitSlots_incrLocalDepth_apply hsp.slot_lt rfl hsp.depth_lt (d₁.bucketPageIds s)
    t.pool.nextPageId hsp.slot_lt).2
  rw [if_pos (.inl rfl)] at hmask
  have hP' : d.names (d₁.bucketPageIds s) := (hsp.names _).1 ⟨s, hsp.slot_lt, rfl⟩
  have hempty : buckets (⟨Function.update t.pool.pages t.pool.nextPageId (some 0),
      t.pool.nextPageId + 1⟩ : Memory (HashTablePage K V)) t.pool.nextPageId = .empty := by
    simp [buckets]
  simp only [HashTableDirectoryPage.getLocalDepthMask_eq, hmask, hempty, pure_eq_ok, ok_bind,
    HashTableBucketPage.getArrayCopy, HashTableBucketPage.reset]
  rw [rehash_eq c _ _ (h.ne_of_names hP' le_rfl) _ _ _ (fun e he => ?_) (hsp.inv.nodup s hsp.slot_lt)
    (by simp) (by simp) (by simpa using hsp.inv.size_le s hsp.slot_lt)
    (by simpa using hsp.inv.size_le s hsp.slot_lt)]
  · rfl
  · rw [Nat.and_pow_two_sub_one_eq_mod]
    exact hsp.inv.split_target hsp.slot_lt hsp.depth_lt _ he

theorem splitInsert_pool (h : Wf c t.pool t.directoryPageId d) {key : K} {r : Bool}
    (hs : splitInsert Memory.pool c key t = .ok (r, t')) : t'.directoryPageId = t.directoryPageId ∧
      (r = false ∧ t'.pool = t.pool ∧ c.maxBucketDepth ≤ d.localDepths (c.hash key % 2 ^ d.globalDepth) ∨
        r = true ∧ ∃ d₁ s, Splittable c t.pool d d₁ s ∧ t'.pool = splitPages c t.pool
          t.directoryPageId (splitSlots (d₁.incrLocalDepth s) s (d₁.bucketPageIds s) t.pool.nextPageId)
          (2 ^ (d₁.localDepths s + 1) - 1) (d₁.bucketPageIds s)) := by
  obtain ⟨_, h₁, -⟩ := bind_eq_ok.1 hs
  obtain ⟨⟨hw, hr⟩, -⟩ := wLock_eq_ok.1 h₁
  rw [h.splitInsert_eq hr hw key rfl rfl] at hs
  by_cases hmax : c.maxBucketDepth ≤ d.localDepths (c.hash key % 2 ^ d.globalDepth)
  · rw [if_pos hmax] at hs
    cases hs
    exact ⟨rfl, .inl ⟨rfl, rfl, hmax⟩⟩
  · rw [if_neg hmax] at hs
    cases hs
    exact ⟨rfl, .inr ⟨rfl, _, _,
      h.splittable_split (Nat.mod_lt (c.hash key) (Nat.two_pow_pos _)) (by omega), rfl⟩⟩

theorem splitInsert_wf (h : Wf c t.pool t.directoryPageId d) {key : K} {r : Bool}
    (hs : splitInsert Memory.pool c key t = .ok (r, t')) :
    ∃ d', Wf c t'.pool t'.directoryPageId d' := by
  obtain ⟨hd, ⟨-, he, -⟩ | ⟨-, d₁, s, hsp, he⟩⟩ := splitInsert_pool h hs <;> rw [hd, he]
  · exact ⟨d, h⟩
  · exact ⟨_, h.split hsp⟩

omit [DecidableEq V] in
theorem getValue_wf (h : Start c t) {key : K} {r : Bool × List V}
    (hg : getValue Memory.pool c key t = .ok (r, t')) :
    ∃ d, Wf c t'.pool t'.directoryPageId d := by
  obtain ⟨t₂, d, hw, hg⟩ := h.rLocked hg
  simp only [fetchPage_memory, unpinPage_memory, ok_bind, pure_eq_ok, Except.ok.injEq,
    Prod.mk.injEq] at hg
  obtain ⟨-, rfl⟩ := hg
  exact ⟨d, hw⟩

theorem insert_wf (fuel : Nat) {key : K} {value : V} {r : Bool} (h : Start c t)
    (hi : insert Memory.pool c fuel key value t = .ok (r, t')) :
    ∃ d, Wf c t'.pool t'.directoryPageId d := by
  induction fuel generalizing t with
  | zero => simp [insert] at hi
  | succ fuel ih =>
    obtain ⟨t₂, d, hw, hi⟩ := h.rLocked hi
    rw [hw.directory_eq] at hi
    simp only [fetchPage_memory, unpinPage_memory, ok_bind, bucketAt_memory,
      writeBucket_memory, pure_eq_ok] at hi
    split at hi
    · simp only [Except.ok.injEq, Prod.mk.injEq] at hi
      obtain ⟨-, rfl⟩ := hi
      exact ⟨d, hw.insertBucket key value⟩
    · rw [bind_eq_ok] at hi
      obtain ⟨⟨split, t₃⟩, h₃, hi⟩ := hi
      obtain ⟨d₃, hw₃⟩ := splitInsert_wf (t := rUnlock t₂) hw h₃
      split at hi
      · exact ih (.inr ⟨d₃, hw₃⟩) hi
      · simp only [pure_eq_ok, Except.ok.injEq, Prod.mk.injEq] at hi
        obtain ⟨-, rfl⟩ := hi
        exact ⟨d₃, hw₃⟩

theorem remove_wf (h : Start c t) {key : K} {value : V} {r : Bool}
    (hr : remove Memory.pool c key value t = .ok (r, t')) :
    ∃ d, Wf c t'.pool t'.directoryPageId d := by
  obtain ⟨t₂, d, hw, hr⟩ := h.rLocked hr
  rw [hw.directory_eq] at hr
  simp only [fetchPage_memory, unpinPage_memory, ok_bind, bucketAt_memory,
    writeBucket_memory] at hr
  have hw' := hw.removeBucket key value
  split at hr
  · rw [bind_eq_ok] at hr
    obtain ⟨t₄, h₄, hr⟩ := hr
    simp only [pure_eq_ok, Except.ok.injEq, Prod.mk.injEq] at hr
    obtain ⟨-, rfl⟩ := hr
    exact merge_wf hw' h₄
  · simp only [pure_eq_ok, Except.ok.injEq, Prod.mk.injEq] at hr
    obtain ⟨-, rfl⟩ := hr
    exact ⟨d, hw'⟩

theorem call_wf (h : Start c t) {op : HashCall K V} {r : Bool × List V}
    (hc : call Memory.pool c t op = .ok (r, t')) : ∃ d, Wf c t'.pool t'.directoryPageId d := by
  cases op with
  | getValue key => exact getValue_wf h hc
  | insert key value =>
    obtain ⟨⟨b, t''⟩, hi, he⟩ := map_eq_ok.1 hc
    cases he
    exact insert_wf _ h hi
  | remove key value =>
    obtain ⟨⟨b, t''⟩, hi, he⟩ := map_eq_ok.1 hc
    cases he
    exact remove_wf h hi

theorem Reachable.start (ht : Reachable Memory.pool c Memory.empty t) : Start c t := by
  induction ht with
  | init => exact .inl ⟨rfl, rfl⟩
  | step op _ hc ih => exact .inr (call_wf ih hc)

theorem reachable_directory_invariant (ht : Reachable Memory.pool c Memory.empty t)
    (hd : t.directoryPageId ≠ invalidPageId) :
    let d := directory Memory.pool t
    (∀ i < 2 ^ d.globalDepth, d.localDepths i ≤ d.globalDepth) ∧
    (∃ i < 2 ^ d.globalDepth, d.localDepths i = d.globalDepth) ∧
    d.globalDepth ≤ c.maxBucketDepth ∧
    (∀ i < 2 ^ d.globalDepth, ∀ j < 2 ^ d.globalDepth,
      (d.bucketPageIds j = d.bucketPageIds i ↔ j % 2 ^ d.localDepths i = i % 2 ^ d.localDepths i) ∧
      (d.bucketPageIds j = d.bucketPageIds i → d.localDepths j = d.localDepths i)) ∧
    (∀ i < 2 ^ d.globalDepth,
      t.pool.pages (d.bucketPageIds i) ≠ none ∧ d.bucketPageIds i ≠ t.directoryPageId) ∧
    ∀ p, ∀ e ∈ (bucketAt Memory.pool t p).array, p = keyToPageId c e.1 d := by
  rcases ht.start with ⟨h0, -⟩ | ⟨d, hw⟩
  · exact absurd h0 hd
  dsimp only
  rw [hw.directory_eq]
  refine ⟨hw.inv.localDepth_le, hw.tight, hw.depth_le,
    fun i hi j hj => ⟨hw.inv.same_iff i hi j hj, hw.inv.same_depth i hi j hj⟩,
    fun i hi => ⟨hw.live _ ⟨i, hi, rfl⟩, (hw.dir_ne_of_names ⟨i, hi, rfl⟩).symm⟩,
    fun p e he => ?_⟩
  obtain ⟨i, hi, rfl⟩ := hw.named p e he
  rw [keyToPageId, HashTableDirectoryPage.getBucketPageId_eq, keyToDirectoryIndex_eq]
  exact (hw.inv.slot_of_mem hi he).symm

theorem reachable_directory_invariant_insert :
    ∃ t : ExtendibleHashTable (Memory (HashTablePage Nat Nat)),
      Reachable Memory.pool ⟨fun k => k, 1, 1⟩ Memory.empty t ∧ t.directoryPageId ≠ invalidPageId ∧
        (directory Memory.pool t).globalDepth ≤ 1 := by
  obtain ⟨t, hc, hd⟩ : ∃ t, call Memory.pool (⟨fun k => k, 1, 1⟩ : HashConfig Nat)
      (init Memory.empty) (.insert 3 5) = .ok ((true, []), t) ∧ t.directoryPageId = 0 := by
    simp [call, insert, ExtendibleHashTable.fetchDirectoryPage, init, Memory.empty,
      directory_memory, assertTrue, invalidPageId, keyToPageId, keyToDirectoryIndex_eq, rLock,
      HashTableBucketPage.insert, HashTableBucketPage.isFull, HashTableBucketPage.numReadable,
      buckets, map_eq_ok, Function.update_apply, HashTableDirectoryPage.zero,
      HashTableDirectoryPage.setBucketPageId]
  have ht := Reachable.step _ .init hc
  have hd' : t.directoryPageId ≠ invalidPageId := by rw [hd]; decide
  exact ⟨t, ht, hd', (reachable_directory_invariant ht hd').2.2.1⟩

theorem remove_after_insert_deadlocks (hc : 0 < c.bucketArraySize) (key : K) (value : V) :
    ∃ t, call Memory.pool c (init Memory.empty) (.insert key value) = .ok ((true, []), t) ∧
      call Memory.pool c t (.remove key value) = .error .deadlock := by
  simp [call, insert, remove, merge, ExtendibleHashTable.fetchDirectoryPage, init, Memory.empty,
    directory_memory, assertTrue, invalidPageId, keyToPageId, keyToDirectoryIndex_eq, rLock, wLock,
    rUnlock, HashTableBucketPage.insert, HashTableBucketPage.isFull, HashTableBucketPage.numReadable,
    HashTableBucketPage.remove, HashTableBucketPage.isEmpty, buckets, map_eq_ok,
    Function.update_apply, HashTableDirectoryPage.zero, HashTableDirectoryPage.setBucketPageId, hc,
    hc.ne', Except.map, Nat.mod_one]

theorem remove_after_insert_deadlocks_one :
    0 < (⟨fun k => k, 1, 1⟩ : HashConfig Nat).bucketArraySize ∧
      ∃ t, call Memory.pool (⟨fun k => k, 1, 1⟩ : HashConfig Nat) (init Memory.empty)
          (.insert 3 5) = .ok ((true, []), t) ∧
        call Memory.pool (⟨fun k => k, 1, 1⟩ : HashConfig Nat) t (.remove 3 5) = .error .deadlock :=
  ⟨by decide, remove_after_insert_deadlocks (by decide) 3 5⟩

end ExtendibleHashTable

end Bustub
