import Bustub.Buffer.FrameInvariant
import Bustub.Buffer.Wraparound
import Mathlib.Tactic.Ring
import Mathlib.Tactic.Linarith
import Mathlib.Tactic.Positivity

/-!
Runs of the buffer pool's public calls, with the ids handed out and the pins taken and released.
-/

namespace Bustub

namespace BufferPoolManagerInstance

def allocId (n idx k : Nat) : Int := toInt32 ((idx + k * n : Nat) : Int)

theorem allocId_succ (n idx k : Nat) : toInt32 (allocId n idx k + n) = allocId n idx (k + 1) := by
  simp only [allocId, toInt32, Int.bmod_add_bmod_congr]
  congr 1; push_cast; ring

theorem toInt32_inj {x y : Nat} (hx : x < 2 ^ 32) (hy : y < 2 ^ 32)
    (h : toInt32 (x : Int) = toInt32 (y : Int)) : x = y := by
  have := congrArg (fun z : Int => z % ((2 ^ 32 : Nat) : Int)) h
  simp only [toInt32, Int.bmod_emod] at this
  rw [Int.emod_eq_of_lt (Int.ofNat_nonneg x) (Int.ofNat_lt.2 hx),
    Int.emod_eq_of_lt (Int.ofNat_nonneg y) (Int.ofNat_lt.2 hy)] at this
  exact Int.ofNat.inj this

theorem allocId_inj {n idx k l : Nat} (hn : 0 < n) (hk : idx + k * n < 2 ^ 32)
    (hl : idx + l * n < 2 ^ 32) (h : allocId n idx k = allocId n idx l) : k = l :=
  Nat.eq_of_mul_eq_mul_right hn (Nat.add_left_cancel (toInt32_inj hk hl h))

theorem allocId_ne_invalid {n idx k : Nat} (hk : idx + k * n < 2 ^ 32 - 1) :
    allocId n idx k ≠ invalidPageId := by
  intro h
  have := congrArg (fun z : Int => z % ((2 ^ 32 : Nat) : Int)) h
  simp only [allocId, toInt32, Int.bmod_emod, invalidPageId] at this
  rw [Int.emod_eq_of_lt (Int.ofNat_nonneg _) (Int.ofNat_lt.2 (by omega))] at this
  have h2 : (-1 : Int) % ((2 ^ 32 : Nat) : Int) = ((2 ^ 32 - 1 : Nat) : Int) := by decide
  rw [h2] at this
  have := Int.ofNat.inj this
  omega

end BufferPoolManagerInstance

inductive Call
  | newPage
  | fetchPage (pageId : Int)
  | unpinPage (pageId : Int) (isDirty : Bool)
  | deletePage (pageId : Int)
  | flushPage (pageId : Int)
  | flushAllPages

structure History (D : Type) where
  pool : BufferPoolManagerInstance D
  allocs : Nat
  returns : Int → Nat
  unpins : Int → Nat

namespace History

open BufferPoolManagerInstance

variable {D : Type}

def resident (h : History D) (s : BufferPoolManagerInstance D) (p : Int) : History D :=
  { h with pool := s, returns := Function.update h.returns p 1, unpins := Function.update h.unpins p 0 }

def call [Zero D] (h : History D) : Call → History D
  | .newPage =>
    match h.pool.newPgImp with
    | (some (p, _), s) => { h.resident s p with allocs := h.allocs + 1 }
    | (none, s) => { h with pool := s }
  | .fetchPage p =>
    match h.pool.fetchPgImp p with
    | (some _, s) =>
      if (h.pool.pageTable p).isSome then
        { h with pool := s, returns := Function.update h.returns p (h.returns p + 1) }
      else h.resident s p
    | (none, s) => { h with pool := s }
  | .unpinPage p d =>
    match h.pool.unpinPgImp p d with
    | (true, s) => { h with pool := s, unpins := Function.update h.unpins p (h.unpins p + 1) }
    | (false, s) => { h with pool := s }
  | .deletePage p => { h with pool := (h.pool.deletePgImp p).2 }
  | .flushPage p => { h with pool := (h.pool.flushPgImp p).2 }
  | .flushAllPages => { h with pool := h.pool.flushAllPgsImp }

@[simp] theorem pool_call_newPage [Zero D] (h : History D) :
    (h.call .newPage).pool = h.pool.newPgImp.2 := by
  dsimp only [call]; split <;> simp_all [resident]

@[simp] theorem pool_call_unpinPage [Zero D] (h : History D) (p : Int) (d : Bool) :
    (h.call (.unpinPage p d)).pool = (h.pool.unpinPgImp p d).2 := by
  dsimp only [call]; split <;> simp_all

def Valid (h : History D) : Call → Prop
  | .fetchPage p => ∃ k < h.allocs, p = allocId h.pool.numInstances h.pool.instanceIndex k
  | _ => True

def start [Zero D] (poolSize n idx : Nat) (disk : Int → D) : History D :=
  ⟨init poolSize n idx disk, 0, fun _ => 0, fun _ => 0⟩

inductive Reachable [Zero D] : History D → Prop
  | start (poolSize n idx : Nat) (disk : Int → D) (hn : 0 < n) (hidx : idx < n) :
      Reachable (start poolSize n idx disk)
  | call {h : History D} (c : Call) : Reachable h → h.Valid c → Reachable (h.call c)

structure Inv (h : History D) : Prop where
  frame : FrameInv h.pool
  pos : 0 < h.pool.numInstances
  idx_lt : h.pool.instanceIndex < h.pool.numInstances
  next : h.pool.nextPageId = allocId h.pool.numInstances h.pool.instanceIndex h.allocs
  allocated : ∀ p f, h.pool.pageTable p = some f →
    ∃ k < h.allocs, p = allocId h.pool.numInstances h.pool.instanceIndex k
  pins : ∀ p f, h.pool.pageTable p = some f → (h.pool.pages f).pinCount + h.unpins p = h.returns p

theorem inv_start [Zero D] (poolSize n idx : Nat) (disk : Int → D) (hn : 0 < n) (hidx : idx < n) :
    (start poolSize n idx disk).Inv where
  frame := frameInv_init _ _ _ _
  pos := hn
  idx_lt := hidx
  next := by simp [start, init, allocId]
  allocated p f h := by simp [start, init] at h
  pins p f h := by simp [start, init] at h

variable {h : History D}

theorem Inv.fresh (hi : h.Inv) (hb : (h.allocs + 1) * h.pool.numInstances < 2 ^ 32) :
    h.pool.pageTable h.pool.nextPageId = none := by
  rcases hp : h.pool.pageTable h.pool.nextPageId with _ | f
  · rfl
  · obtain ⟨k, hk, e⟩ := hi.allocated _ f hp
    rw [hi.next] at e
    have := allocId_inj hi.pos (k := h.allocs) (l := k)
      (by nlinarith [hi.idx_lt]) (by nlinarith [hi.idx_lt]) e
    omega

theorem Inv.pins_install [Zero D] (hi : h.Inv) {t : BufferPoolManagerInstance D} {f : Nat} {p : Int}
    (ht : Taken h.pool t f) (data : D) (q : Int) (g : Nat)
    (hq : (t.install f p data).pageTable q = some g) :
    ((t.install f p data).pages g).pinCount + Function.update h.unpins p 0 q =
      Function.update h.returns p 1 q := by
  rcases ht.install_table hq with ⟨rfl, rfl⟩ | ⟨hqp, hgf, hq⟩
  · simp [install]
  · rw [ht.install_pages hgf, Function.update_noteq hqp, Function.update_noteq hqp]
    exact hi.pins q g hq

theorem Inv.newPage [Zero D] (hi : h.Inv)
    (hb : (h.call .newPage).allocs * h.pool.numInstances < 2 ^ 32) : (h.call .newPage).Inv := by
  unfold call at hb ⊢
  rcases hnp : h.pool.newPgImp with ⟨_ | ⟨p, f⟩, s'⟩
  · obtain ⟨rfl, -⟩ := newPgImp_none hnp
    exact hi
  · simp only [hnp] at hb ⊢
    have hfresh := hi.fresh hb
    have hframe := hi.frame.newPgImp hfresh
    rw [hnp] at hframe
    obtain ⟨t, ht, rfl, rfl⟩ := newPgImp_some hnp
    have hT := hi.frame.takeFrame ht
    obtain ⟨hnext, hn, hidx⟩ := takeFrame_params ht
    have hT' := hT.withNext (toInt32 (t.nextPageId + t.numInstances))
    dsimp only [resident]
    refine ⟨hframe, hn ▸ hi.pos, hn ▸ hidx ▸ hi.idx_lt, ?_, fun q g hq => ?_,
      hi.pins_install hT' 0⟩
    · simp only [install]
      rw [hnext, hi.next, hn, hidx, allocId_succ]
    · simp only [install_numInstances, install_instanceIndex, hn, hidx]
      rcases hT'.install_table hq with ⟨rfl, -⟩ | ⟨-, -, hq⟩
      · exact ⟨h.allocs, Nat.lt_succ_self _, hnext.trans hi.next⟩
      · obtain ⟨k, hk, e⟩ := hi.allocated q g hq
        exact ⟨k, Nat.lt_succ_of_lt hk, e⟩

theorem Inv.fetchPage [Zero D] (hi : h.Inv) {p : Int} (hv : h.Valid (.fetchPage p)) :
    (h.call (.fetchPage p)).Inv := by
  have hframe := hi.frame.fetchPgImp p
  dsimp only [call]
  rcases hfp : h.pool.fetchPgImp p with ⟨_ | f', s'⟩
  · obtain ⟨rfl, -⟩ := fetchPgImp_none hfp
    exact hi
  · rw [hfp] at hframe
    dsimp only
    rcases hres : h.pool.pageTable p with _ | f
    · obtain ⟨t, ht, rfl⟩ := fetchPgImp_miss hres hfp
      have hT := hi.frame.takeFrame ht
      obtain ⟨hnext, hn, hidx⟩ := takeFrame_params ht
      simp only [hres, Option.isSome_none, Bool.false_eq_true, if_false, resident]
      refine ⟨hframe, hn ▸ hi.pos, hn ▸ hidx ▸ hi.idx_lt, by simp [install, hnext, hn, hidx, hi.next],
        fun q g hq => ?_, hi.pins_install hT _⟩
      simp only [install_numInstances, install_instanceIndex, hn, hidx]
      rcases hT.install_table hq with ⟨rfl, -⟩ | ⟨-, -, hq⟩
      · exact hv
      · exact hi.allocated q g hq
    · rw [fetchPgImp_hit hres] at hfp
      simp only [Prod.mk.injEq, Option.some.injEq] at hfp
      obtain ⟨rfl, rfl⟩ := hfp
      simp only [hres, Option.isSome_some, if_true]
      refine ⟨hframe, hi.pos, hi.idx_lt, hi.next, hi.allocated, fun q g hq => ?_⟩
      dsimp only at hq ⊢
      have := hi.pins q g hq
      by_cases hqp : q = p
      · subst hqp
        obtain rfl : g = f := Option.some.inj (hq.symm.trans hres)
        simp only [Function.update_same]; omega
      · have hgf : g ≠ f := by rintro rfl; exact hqp (hi.frame.table_inj hq hres)
        rw [Function.update_noteq hgf, Function.update_noteq hqp]; exact this

theorem Inv.unpinPage [Zero D] (hi : h.Inv) (p : Int) (d : Bool) : (h.call (.unpinPage p d)).Inv := by
  have hframe := hi.frame.unpinPgImp p d
  dsimp only [call]
  rcases hup : h.pool.unpinPgImp p d with ⟨_ | _, s'⟩
  · obtain rfl := unpinPgImp_false hup
    exact hi
  · rw [hup] at hframe
    obtain ⟨f, hf, hpos, hpages, htab, -, -, -, hnext, hn, hidx⟩ := unpinPgImp_true hup
    dsimp only
    refine ⟨hframe, hn ▸ hi.pos, hn ▸ hidx ▸ hi.idx_lt, by rw [hnext, hn, hidx, hi.next],
      fun q g hq => ?_, fun q g hq => ?_⟩
    · rw [hn, hidx]; rw [htab] at hq; exact hi.allocated q g hq
    · dsimp only at hq ⊢
      rw [htab] at hq
      have := hi.pins q g hq
      rw [hpages]
      by_cases hqp : q = p
      · subst hqp
        obtain rfl : g = f := Option.some.inj (hq.symm.trans hf)
        simp only [Function.update_same]; omega
      · have hgf : g ≠ f := by rintro rfl; exact hqp (hi.frame.table_inj hq hf)
        rw [Function.update_noteq hgf, Function.update_noteq hqp]; exact this

theorem Inv.deletePage [Zero D] (hi : h.Inv) (p : Int) : (h.call (.deletePage p)).Inv := by
  have hframe := hi.frame.deletePgImp p
  dsimp only [call]
  rcases hdp : h.pool.deletePgImp p with ⟨b, s'⟩
  rw [hdp] at hframe
  rcases deletePgImp_eq hdp with rfl | ⟨f, hf, -, -, rfl⟩
  · exact hi
  · have hid := hi.frame.resident hf
    refine ⟨hframe, hi.pos, hi.idx_lt, hi.next, fun q g hq => ?_, fun q g hq => ?_⟩ <;>
      dsimp only at hq ⊢ <;> rw [hid] at hq
    · by_cases hqp : q = p
      · subst hqp; simp at hq
      · rw [Function.update_noteq hqp] at hq; exact hi.allocated q g hq
    · by_cases hqp : q = p
      · subst hqp; simp at hq
      · rw [Function.update_noteq hqp] at hq
        have hgf : g ≠ f := by rintro rfl; exact hqp (hi.frame.table_inj hq hf)
        rw [Function.update_noteq hgf]; exact hi.pins q g hq

theorem Inv.flushPage [Zero D] (hi : h.Inv) (p : Int) : (h.call (.flushPage p)).Inv := by
  have hframe := hi.frame.flushPgImp p
  dsimp only [call]
  rcases flushPgImp_eq (s := h.pool) p with he | ⟨f, -, hf, he⟩
  · rw [he]; exact hi
  · rw [he] at hframe ⊢
    refine ⟨hframe, hi.pos, hi.idx_lt, hi.next, hi.allocated, fun q g hq => ?_⟩
    dsimp only at hq ⊢
    by_cases hgf : g = f
    · subst hgf; simpa using hi.pins q g hq
    · rw [Function.update_noteq hgf]; exact hi.pins q g hq

theorem Inv.call [Zero D] (hi : h.Inv) {c : Call} (hv : h.Valid c)
    (hb : (h.call c).allocs * h.pool.numInstances < 2 ^ 32) : (h.call c).Inv := by
  cases c with
  | newPage => exact hi.newPage hb
  | fetchPage p => exact hi.fetchPage hv
  | unpinPage p d => exact hi.unpinPage p d
  | deletePage p => exact hi.deletePage p
  | flushPage p => exact hi.flushPage p
  | flushAllPages =>
    exact ⟨hi.frame.flushAllPgsImp, hi.pos, hi.idx_lt, hi.next, hi.allocated, hi.pins⟩

theorem allocs_le_call [Zero D] (h : History D) (c : Call) : h.allocs ≤ (h.call c).allocs := by
  cases c <;> simp only [call] <;> repeat' split
  all_goals simp [resident]

theorem params_call [Zero D] (h : History D) (c : Call) :
    (h.call c).pool.numInstances = h.pool.numInstances ∧
      (h.call c).pool.instanceIndex = h.pool.instanceIndex := by
  cases c with
  | newPage =>
    have := params_newPgImp h.pool
    simp only [call]; split <;> simp_all [resident]
  | fetchPage p =>
    have := params_fetchPgImp h.pool p
    simp only [call]; split <;> (try split) <;> simp_all [resident]
  | unpinPage p d =>
    have := params_unpinPgImp h.pool p d
    simp only [call]; split <;> simp_all
  | deletePage p => exact params_deletePgImp h.pool p
  | flushPage p => exact params_flushPgImp h.pool p
  | flushAllPages => exact ⟨rfl, rfl⟩

theorem Reachable.inv [Zero D] (hr : h.Reachable) (hb : h.allocs * h.pool.numInstances < 2 ^ 32) :
    h.Inv := by
  induction hr with
  | start poolSize n idx disk hn hidx => exact inv_start poolSize n idx disk hn hidx
  | @call h c _ hv ih =>
    rw [(params_call h c).1] at hb
    have hle : h.allocs * h.pool.numInstances ≤ (h.call c).allocs * h.pool.numInstances :=
      Nat.mul_le_mul_right _ (allocs_le_call h c)
    exact (ih (by omega)).call hv hb

theorem Inv.resident_valid (hi : h.Inv) (hb : h.allocs * h.pool.numInstances < 2 ^ 32) {p : Int}
    {f : Nat} (hp : h.pool.pageTable p = some f) : p ≠ invalidPageId := by
  obtain ⟨k, hk, e⟩ := hi.allocated p f hp
  rw [e]
  apply allocId_ne_invalid
  have := hi.idx_lt
  have : (k + 1) * h.pool.numInstances ≤ h.allocs * h.pool.numInstances := Nat.mul_le_mul_right _ hk
  rw [Nat.succ_mul] at this
  omega

end History

namespace BufferPoolManagerInstance

variable {D : Type}

def FrameStates (s : BufferPoolManagerInstance D) : Prop :=
  (∀ f < s.poolSize,
    (f ∈ s.freeList ∧ f ∉ s.replacer.frames ∧ s.freeList.count f = 1 ∧
      (s.pages f).pageId = invalidPageId ∧ ∀ p, s.pageTable p ≠ some f) ∨
    (f ∉ s.freeList ∧ f ∈ s.replacer.frames ∧ s.pageTable (s.pages f).pageId = some f ∧
      (s.pages f).pinCount = 0) ∨
    (f ∉ s.freeList ∧ f ∉ s.replacer.frames ∧ s.pageTable (s.pages f).pageId = some f ∧
      0 < (s.pages f).pinCount)) ∧
  (∀ f ∈ s.freeList, f < s.poolSize) ∧ (∀ f ∈ s.replacer.frames, f < s.poolSize) ∧
  (∀ p f, s.pageTable p = some f → f < s.poolSize ∧ (s.pages f).pageId = p ∧
    ∀ g < s.poolSize, (s.pages g).pageId = p → g = f)

def AllPinned (s : BufferPoolManagerInstance D) : Prop :=
  ∀ f < s.poolSize, f ∉ s.freeList ∧ f ∉ s.replacer.frames ∧ 0 < (s.pages f).pinCount

variable {s : BufferPoolManagerInstance D}

theorem FrameInv.frameStates (hs : FrameInv s)
    (hvalid : ∀ p f, s.pageTable p = some f → p ≠ invalidPageId) : FrameStates s := by
  refine ⟨fun f hf => ?_, fun f h => (hs.free f h).1, fun f h => (hs.evictable f h).1,
    fun p f hp => ⟨(hs.table p f hp).1, hs.resident hp, fun g hg hpg => ?_⟩⟩
  · by_cases hfree : f ∈ s.freeList
    · obtain ⟨-, hnr, hid, -⟩ := hs.free f hfree
      exact .inl ⟨hfree, hnr, List.count_eq_one_of_mem hs.free_nodup hfree, hid,
        fun p hp => (hs.table p f hp).2.1 hfree⟩
    · obtain ⟨hu, hpin⟩ := hs.used f hf hfree
      by_cases hr : f ∈ s.replacer.frames
      · exact .inr (.inl ⟨hfree, hr, hu, (hs.evictable f hr).2⟩)
      · exact .inr (.inr ⟨hfree, hr, hu, hpin hr⟩)
  · by_cases hgf : g ∈ s.freeList
    · exact absurd ((hs.free g hgf).2.2.1.symm.trans hpg) (hvalid p f hp).symm
    · exact hs.unique hp hg hgf hpg

theorem takeFrame_none (h : s.takeFrame = none) : s.freeList = [] ∧ s.replacer.frames = [] := by
  unfold takeFrame at h
  split at h
  · cases h
  · rename_i hl
    split at h
    · rename_i hv; exact ⟨hl, LruReplacer.victim_eq_none.1 hv⟩
    · cases h

theorem FrameInv.allPinned (hs : FrameInv s) (h : s.takeFrame = none) : AllPinned s := by
  obtain ⟨hl, hr⟩ := takeFrame_none h
  intro f hf
  have hfree : f ∉ s.freeList := by simp [hl]
  have hrep : f ∉ s.replacer.frames := by simp [hr]
  exact ⟨hfree, hrep, (hs.used f hf hfree).2 hrep⟩

end BufferPoolManagerInstance

namespace History

open BufferPoolManagerInstance

variable {D : Type} [Zero D] {h : History D}

theorem frame_table_invariant (hr : h.Reachable) (hb : h.allocs * h.pool.numInstances < 2 ^ 32) :
    FrameStates h.pool ∧
    (∀ p f, h.pool.pageTable p = some f → (h.pool.pages f).pinCount + h.unpins p = h.returns p) ∧
    (∀ f t, h.pool.takeFrame = some (f, t) → (h.pool.pages f).pinCount = 0) ∧
    (∀ p b s', h.pool.deletePgImp p = (b, s') → ∀ f ∈ s'.freeList, f ∉ h.pool.freeList →
      (h.pool.pages f).pinCount = 0) ∧
    (h.pool.newPgImp.1 = none → AllPinned h.pool) ∧
    (∀ p, h.pool.pageTable p = none → (h.pool.fetchPgImp p).1 = none → AllPinned h.pool) := by
  have hi := hr.inv hb
  refine ⟨hi.frame.frameStates fun p f hp => hi.resident_valid hb hp, hi.pins,
    fun f t ht => (hi.frame.takeFrame ht).unpinned, fun p b s' hd f hf hnf => ?_, fun hn => ?_,
    fun p _ hn => ?_⟩
  · rcases deletePgImp_eq hd with rfl | ⟨g, -, hg, -, rfl⟩
    · exact absurd hf hnf
    · simp only [List.mem_append, List.mem_singleton] at hf
      rcases hf with hf | rfl
      · exact absurd hf hnf
      · exact hg
  · rcases hnp : h.pool.newPgImp with ⟨_ | _, s'⟩
    · exact hi.frame.allPinned (newPgImp_none hnp).2
    · simp [hnp] at hn
  · rcases hfp : h.pool.fetchPgImp p with ⟨_ | _, s'⟩
    · exact hi.frame.allPinned (fetchPgImp_none hfp).2.2
    · simp [hfp] at hn

theorem frame_table_invariant_unpin :
    let h := (((start 3 1 0 fun _ => (0 : Nat)).call .newPage).call .newPage).call (.unpinPage 1 false)
    h.Reachable ∧ h.allocs * h.pool.numInstances < 2 ^ 32 ∧ FrameStates h.pool ∧
    (∀ p f, h.pool.pageTable p = some f → (h.pool.pages f).pinCount + h.unpins p = h.returns p) ∧
    (∀ f t, h.pool.takeFrame = some (f, t) → (h.pool.pages f).pinCount = 0) ∧
    (∀ p b s', h.pool.deletePgImp p = (b, s') → ∀ f ∈ s'.freeList, f ∉ h.pool.freeList →
      (h.pool.pages f).pinCount = 0) ∧
    (h.pool.newPgImp.1 = none → AllPinned h.pool) ∧
    (∀ p, h.pool.pageTable p = none → (h.pool.fetchPgImp p).1 = none → AllPinned h.pool) :=
  have hr : Reachable ((((start 3 1 0 fun _ => (0 : Nat)).call .newPage).call .newPage).call
      (.unpinPage 1 false)) :=
    (((Reachable.start 3 1 0 _ (by decide) (by decide)).call .newPage trivial).call .newPage
      trivial).call (.unpinPage 1 false) trivial
  ⟨hr, by decide, frame_table_invariant hr (by decide)⟩

theorem Reachable.iterate_spin (hr : h.Reachable) (k : Nat) :
    ∃ h' : History D, h'.Reachable ∧ h'.pool = spin^[k] h.pool := by
  induction k with
  | zero => exact ⟨h, hr, rfl⟩
  | succ k ih =>
    obtain ⟨h', hr', e⟩ := ih
    refine ⟨(h'.call .newPage).call (.unpinPage h'.pool.nextPageId false),
      (hr'.call .newPage trivial).call (.unpinPage _ false) trivial, ?_⟩
    rw [Function.iterate_succ_apply', ← e]
    simp [spin]

theorem spinning_start : ∃ h : History Nat, h.Reachable ∧ Spinning 1 (toInt32 1) 0 h.pool ∧
    h.pool.poolSize = 2 ∧ h.pool.pages 0 = ⟨0, 1, false, 0⟩ := by
  refine ⟨(((start 2 1 0 fun _ => (0 : Nat)).call .newPage).call .newPage).call (.unpinPage 1 false),
    (((Reachable.start 2 1 0 _ (by decide) (by decide)).call .newPage trivial).call .newPage
      trivial).call (.unpinPage 1 false) trivial,
    ⟨rfl, rfl, rfl, rfl, rfl, rfl, fun f => ?_, by decide, rfl⟩, rfl, rfl⟩
  show Function.update (fun _ => none) 1 (some 0) f = _
  simp [Function.update_apply]

theorem frame_table_invariant_wraps :
    ∃ h : History Nat, h.Reachable ∧ ¬ FrameStates h.pool := by
  obtain ⟨h₀, hr₀, hs₀, hsize, hpage⟩ := spinning_start
  obtain ⟨h, hr, e⟩ := hr₀.iterate_spin (2 ^ 32 - 1)
  obtain ⟨hs, hp, -, -, hg, -⟩ := hs₀.iterate_spin (2 ^ 32 - 1)
  rw [← e] at hs hp hg
  have hc : toInt32 (1 + ((2 ^ 32 - 1 : Nat) : Int)) = 0 := by decide
  rw [hc] at hs
  have h0 : h.pool.pages 0 = ⟨0, 1, false, 0⟩ := (hg 0 (by decide)).trans hpage
  refine ⟨h, hr, fun hf => ?_⟩
  rcases hf.1 0 (by rw [hp, hsize]; decide) with ⟨hfree, -⟩ | ⟨-, hrep, -⟩ | ⟨-, -, htab, -⟩
  · simp [hs.freeList] at hfree
  · simp [LruReplacer.frames, hs.lruList] at hrep
  · simp [h0, hs.table] at htab

end History

end Bustub
