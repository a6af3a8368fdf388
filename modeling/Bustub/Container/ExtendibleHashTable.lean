import Bustub.Common.Config
import Bustub.Storage.HashTableDirectoryPage
import Bustub.Storage.HashTableBucketPage

/-!
`container/hash/extendible_hash_table.cpp`, run by one thread over any `PagePool`. Page latches,
taken and released on every path, are left out.
-/

namespace Bustub

/-- The bytes of a page as the table reads them: still zeroed, or the directory or the bucket
it last wrote there. -/
inductive HashTablePage (K V : Type)
  | zeroed
  | directory (d : HashTableDirectoryPage)
  | bucket (b : HashTableBucketPage K V)

namespace HashTablePage

variable {K V : Type}

instance : Zero (HashTablePage K V) := ⟨zeroed⟩

def asDirectory : HashTablePage K V → HashTableDirectoryPage
  | directory d => d
  | _ => HashTableDirectoryPage.zero

def asBucket : HashTablePage K V → HashTableBucketPage K V
  | bucket b => b
  | _ => HashTableBucketPage.empty

@[simp] theorem asDirectory_directory (d : HashTableDirectoryPage) :
    (directory d : HashTablePage K V).asDirectory = d := rfl
@[simp] theorem asBucket_bucket (b : HashTableBucketPage K V) : (bucket b).asBucket = b := rfl
@[simp] theorem asBucket_zero : (0 : HashTablePage K V).asBucket = .empty := rfl
@[simp] theorem asDirectory_zero : (0 : HashTablePage K V).asDirectory = .zero := rfl

end HashTablePage

structure PagePool (σ D : Type) where
  newPage : σ → Option (Int × σ)
  fetchPage : Int → σ → Option σ
  unpinPage : Int → Bool → σ → Bool × σ
  deletePage : Int → σ → Bool × σ
  data : σ → Int → D
  setData : Int → D → σ → σ

/-- A pool that never evicts: every page it hands out stays in memory until it is deleted. -/
structure Memory (D : Type) where
  pages : Int → Option D
  nextPageId : Int

namespace Memory

variable {D : Type} [Zero D]

def empty : Memory D := ⟨fun _ => none, 0⟩

def pool : PagePool (Memory D) D where
  newPage m := some (m.nextPageId,
    ⟨Function.update m.pages m.nextPageId (some 0), m.nextPageId + 1⟩)
  fetchPage _ m := some m
  unpinPage _ _ m := (true, m)
  deletePage p m := (true, { m with pages := Function.update m.pages p none })
  data m p := (m.pages p).getD 0
  setData p x m := { m with pages := Function.update m.pages p (some x) }

end Memory

structure HashConfig (K : Type) where
  hash : K → Nat
  maxBucketDepth : Nat
  bucketArraySize : Nat

inductive Halt
  | deadlock
  | assertFailed
  | outOfFuel
  deriving DecidableEq, Repr

structure ExtendibleHashTable (σ : Type) where
  pool : σ
  directoryPageId : Int
  readers : Nat
  writer : Bool

inductive HashCall (K V : Type)
  | getValue (key : K)
  | insert (key : K) (value : V)
  | remove (key : K) (value : V)

namespace ExtendibleHashTable

variable {K V σ : Type} [DecidableEq K] [DecidableEq V]
  (P : PagePool σ (HashTablePage K V)) (c : HashConfig K)

def init (pool : σ) : ExtendibleHashTable σ := ⟨pool, invalidPageId, 0, false⟩

/-- `RLock`: one thread waits forever for a writer, which can only be itself. -/
def rLock (t : ExtendibleHashTable σ) : Except Halt (ExtendibleHashTable σ) :=
  if t.writer then .error .deadlock else .ok { t with readers := t.readers + 1 }

def rUnlock (t : ExtendibleHashTable σ) : ExtendibleHashTable σ :=
  { t with readers := t.readers - 1 }

/-- `WLock`: one thread waits forever for readers or a writer, which can only be itself. -/
def wLock (t : ExtendibleHashTable σ) : Except Halt (ExtendibleHashTable σ) :=
  if t.writer ∨ t.readers ≠ 0 then .error .deadlock else .ok { t with writer := true }

def wUnlock (t : ExtendibleHashTable σ) : ExtendibleHashTable σ := { t with writer := false }

def assertTrue (b : Bool) : Except Halt Unit := if b then pure () else .error .assertFailed

theorem bind_eq_ok {α β : Type} {x : Except Halt α} {f : α → Except Halt β} {b : β} :
    x >>= f = .ok b ↔ ∃ a, x = .ok a ∧ f a = .ok b := by
  cases x <;> simp [bind, Except.bind]

@[simp] theorem ok_bind {α β : Type} (a : α) (f : α → Except Halt β) :
    (Except.ok a >>= f : Except Halt β) = f a := rfl

@[simp] theorem error_bind {α β : Type} (e : Halt) (f : α → Except Halt β) :
    (Except.error e >>= f : Except Halt β) = .error e := rfl

@[simp] theorem pure_eq_ok {α : Type} (a : α) : (pure a : Except Halt α) = .ok a := rfl

theorem map_eq_ok {α β : Type} {x : Except Halt α} {f : α → β} {b : β} :
    x.map f = .ok b ↔ ∃ a, x = .ok a ∧ f a = b := by
  cases x <;> simp [Except.map]

theorem rLock_eq_ok {t t' : ExtendibleHashTable σ} :
    rLock t = .ok t' ↔ t.writer = false ∧ { t with readers := t.readers + 1 } = t' := by
  unfold rLock; split <;> simp_all

theorem wLock_eq_ok {t t' : ExtendibleHashTable σ} :
    wLock t = .ok t' ↔ (t.writer = false ∧ t.readers = 0) ∧ { t with writer := true } = t' := by
  unfold wLock
  by_cases hw : t.writer <;> by_cases hr : t.readers = 0 <;> simp [hw, hr]

def newPage (t : ExtendibleHashTable σ) : Except Halt (Int × ExtendibleHashTable σ) :=
  match P.newPage t.pool with
  | some (p, s) => .ok (p, { t with pool := s })
  | none => .error .assertFailed

def fetchPage (pageId : Int) (t : ExtendibleHashTable σ) : Except Halt (ExtendibleHashTable σ) :=
  match P.fetchPage pageId t.pool with
  | some s => .ok { t with pool := s }
  | none => .error .assertFailed

def unpinPage (pageId : Int) (isDirty : Bool) (t : ExtendibleHashTable σ) :
    Except Halt (ExtendibleHashTable σ) :=
  let r := P.unpinPage pageId isDirty t.pool
  if r.1 then .ok { t with pool := r.2 } else .error .assertFailed

def deletePage (pageId : Int) (t : ExtendibleHashTable σ) : Except Halt (ExtendibleHashTable σ) :=
  let r := P.deletePage pageId t.pool
  if r.1 then .ok { t with pool := r.2 } else .error .assertFailed

def directory (t : ExtendibleHashTable σ) : HashTableDirectoryPage :=
  (P.data t.pool t.directoryPageId).asDirectory

def bucketAt (t : ExtendibleHashTable σ) (pageId : Int) : HashTableBucketPage K V :=
  (P.data t.pool pageId).asBucket

def writeDirectory (t : ExtendibleHashTable σ) (d : HashTableDirectoryPage) : ExtendibleHashTable σ :=
  { t with pool := P.setData t.directoryPageId (.directory d) t.pool }

def writeBucket (t : ExtendibleHashTable σ) (pageId : Int) (b : HashTableBucketPage K V) :
    ExtendibleHashTable σ :=
  { t with pool := P.setData pageId (.bucket b) t.pool }

def keyToDirectoryIndex (key : K) (d : HashTableDirectoryPage) : Nat :=
  c.hash key &&& d.getGlobalDepthMask

def keyToPageId (key : K) (d : HashTableDirectoryPage) : Int :=
  d.getBucketPageId (keyToDirectoryIndex c key d)

omit [DecidableEq K] [DecidableEq V] in
theorem keyToDirectoryIndex_eq (key : K) (d : HashTableDirectoryPage) :
    keyToDirectoryIndex c key d = c.hash key % 2 ^ d.globalDepth := by
  simp [keyToDirectoryIndex, Nat.and_pow_two_sub_one_eq_mod]

def fetchDirectoryPage (t : ExtendibleHashTable σ) : Except Halt (ExtendibleHashTable σ) := do
  let t ← if t.directoryPageId = invalidPageId then do
      let (dirId, t) ← newPage P t
      let t := { t with directoryPageId := dirId }
      let t := writeDirectory P t { directory P t with pageId := dirId }
      let (bucketId, t) ← newPage P t
      let t := writeDirectory P t ((directory P t).setBucketPageId 0 bucketId)
      let t ← unpinPage P dirId true t
      unpinPage P bucketId true t
    else pure t
  assertTrue (t.directoryPageId ≠ invalidPageId)
  fetchPage P t.directoryPageId t

def getValue (key : K) (t : ExtendibleHashTable σ) :
    Except Halt ((Bool × List V) × ExtendibleHashTable σ) := do
  let t ← rLock t
  let t ← fetchDirectoryPage P t
  let d := directory P t
  let bucketPageId := keyToPageId c key d
  let t ← fetchPage P bucketPageId t
  let r := (bucketAt P t bucketPageId).getValue key
  let t ← unpinPage P bucketPageId false t
  let t ← unpinPage P d.pageId false t
  pure (r, rUnlock t)

/-- The slots the loop `for (i = start; i >= 0; i -= diff) { ...; if (i < diff) break; }` visits,
in its order. -/
def slotsDown (start diff : Nat) : List Nat :=
  ((List.range (start + 1)).filter fun i => (start - i) % diff = 0).reverse

def slotsUp (start diff size : Nat) : List Nat :=
  (List.range size).filter fun i => start ≤ i ∧ (i - start) % diff = 0

def pointSlots (d : HashTableDirectoryPage) (slots : List Nat) (pageId : Int) (src : Nat) :
    HashTableDirectoryPage :=
  slots.foldl (fun d i => (d.setBucketPageId i pageId).setLocalDepth i (d.getLocalDepth src)) d

theorem mem_slotsDown {start diff j : Nat} :
    j ∈ slotsDown start diff ↔ j ≤ start ∧ (start - j) % diff = 0 := by
  simp [slotsDown, Nat.lt_succ_iff]

theorem mem_slotsUp {start diff size j : Nat} :
    j ∈ slotsUp start diff size ↔ j < size ∧ start ≤ j ∧ (j - start) % diff = 0 := by
  simp [slotsUp]

theorem sub_mod_eq_zero_iff {m n k : Nat} (h : n ≤ m) : (m - n) % k = 0 ↔ m % k = n % k := by
  refine ⟨fun hz => ?_, Nat.sub_mod_eq_zero_of_mod_eq⟩
  have e : m = n + k * ((m - n) / k) := by have := Nat.mod_add_div (m - n) k; omega
  rw [e, Nat.add_mul_mod_self_left]

theorem mem_slots {start diff size j : Nat} (hj : j < size) :
    j ∈ slotsDown start diff ∨ j ∈ slotsUp start diff size ↔ j % diff = start % diff := by
  rw [mem_slotsDown, mem_slotsUp]
  rcases Nat.le_total j start with h | h
  · rw [sub_mod_eq_zero_iff h]
    constructor
    · rintro (⟨-, e⟩ | ⟨-, h', -⟩)
      · exact e.symm
      · rw [Nat.le_antisymm h h']
    · exact fun e => .inl ⟨h, e.symm⟩
  · rw [sub_mod_eq_zero_iff h]
    constructor
    · rintro (⟨h', e⟩ | ⟨-, -, e⟩)
      · rw [Nat.le_antisymm h h']
      · exact e
    · exact fun e => .inr ⟨hj, h, e⟩

section PointSlots

variable (d : HashTableDirectoryPage) (slots : List Nat) (pageId : Int) (src : Nat)

theorem pointSlots_localDepths_src :
    (pointSlots d slots pageId src).localDepths src = d.localDepths src := by
  induction slots generalizing d with
  | nil => rfl
  | cons i is ih =>
    simp only [pointSlots, List.foldl_cons] at ih ⊢
    rw [ih]
    by_cases h : src = i
    · subst h; simp
    · simp [Function.update_noteq h]

theorem pointSlots_apply (j : Nat) :
    (pointSlots d slots pageId src).bucketPageIds j =
        (if j ∈ slots then pageId else d.bucketPageIds j) ∧
      (pointSlots d slots pageId src).localDepths j =
        (if j ∈ slots then d.localDepths src else d.localDepths j) := by
  induction slots generalizing d with
  | nil => simp [pointSlots]
  | cons i is ih =>
    have hsrc := pointSlots_localDepths_src
      ((d.setBucketPageId i pageId).setLocalDepth i (d.getLocalDepth src)) [] pageId src
    simp only [pointSlots, List.foldl_cons] at ih ⊢
    obtain ⟨h1, h2⟩ := ih ((d.setBucketPageId i pageId).setLocalDepth i (d.getLocalDepth src))
    rw [h1, h2]
    have hs : ((d.setBucketPageId i pageId).setLocalDepth i (d.getLocalDepth src)).localDepths src =
        d.localDepths src := by
      by_cases h : src = i
      · subst h; simp
      · simp [Function.update_noteq h]
    rw [hs]
    by_cases hj : j = i
    · subst hj; simp
    · simp [Function.update_noteq hj, hj]

@[simp] theorem pointSlots_globalDepth :
    (pointSlots d slots pageId src).globalDepth = d.globalDepth := by
  induction slots generalizing d with
  | nil => rfl
  | cons i is ih => exact ih _

@[simp] theorem pointSlots_pageId : (pointSlots d slots pageId src).pageId = d.pageId := by
  induction slots generalizing d with
  | nil => rfl
  | cons i is ih => exact ih _

end PointSlots

def splitSlots (d : HashTableDirectoryPage) (splitBucketIndex : Nat) (splitId imageId : Int) :
    HashTableDirectoryPage :=
  let splitImageBucketIndex := d.getLocalHighBit splitBucketIndex
  let d := d.setLocalDepth splitImageBucketIndex (d.getLocalDepth splitBucketIndex)
  let d := d.setBucketPageId splitImageBucketIndex imageId
  let diff := 2 ^ d.getLocalDepth splitBucketIndex
  let d := pointSlots d (slotsDown splitBucketIndex diff) splitId splitBucketIndex
  let d := pointSlots d (slotsUp splitBucketIndex diff d.size) splitId splitBucketIndex
  let d := pointSlots d (slotsDown splitImageBucketIndex diff) imageId splitBucketIndex
  pointSlots d (slotsUp splitImageBucketIndex diff d.size) imageId splitBucketIndex

theorem splitSlots_apply (d : HashTableDirectoryPage) {i L : Nat} (hL : d.localDepths i = L + 1)
    (hi : i < 2 ^ d.globalDepth) (hg : L + 1 ≤ d.globalDepth) (splitId imageId : Int) {j : Nat}
    (hj : j < 2 ^ d.globalDepth) :
    (splitSlots d i splitId imageId).bucketPageIds j =
        (if j % 2 ^ (L + 1) = i % 2 ^ (L + 1) then splitId
        else if j % 2 ^ (L + 1) = (i ^^^ 2 ^ L) % 2 ^ (L + 1) then imageId
        else d.bucketPageIds j) ∧
      (splitSlots d i splitId imageId).localDepths j =
        (if j % 2 ^ (L + 1) = i % 2 ^ (L + 1) ∨ j % 2 ^ (L + 1) = (i ^^^ 2 ^ L) % 2 ^ (L + 1)
          then L + 1 else d.localDepths j) := by
  have himg : d.getLocalHighBit i = i ^^^ 2 ^ L := by
    simp [HashTableDirectoryPage.getLocalHighBit, hL]
  have hne := HashTableDirectoryPage.xor_two_pow_mod_succ_ne i L
  have hlt : i ^^^ 2 ^ L < 2 ^ d.globalDepth :=
    Nat.xor_lt_two_pow hi (Nat.pow_lt_pow_right (by decide) (by omega))
  have himgi : i ^^^ 2 ^ L ≠ i := fun h => hne (by rw [h])
  unfold splitSlots
  simp only [himg]
  generalize hd₃ : (d.setLocalDepth (i ^^^ 2 ^ L) (d.getLocalDepth i)).setBucketPageId
    (i ^^^ 2 ^ L) imageId = d₃
  have h₃i : d₃.localDepths i = L + 1 := by
    subst hd₃; simp [Function.update_noteq himgi.symm, hL]
  have h₃g : d₃.globalDepth = d.globalDepth := by subst hd₃; simp
  have h₃ : d₃.bucketPageIds j = (if j = i ^^^ 2 ^ L then imageId else d.bucketPageIds j) ∧
      d₃.localDepths j = (if j = i ^^^ 2 ^ L then L + 1 else d.localDepths j) := by
    subst hd₃; by_cases h : j = i ^^^ 2 ^ L <;> simp [h, Function.update_noteq, hL]
  simp only [HashTableDirectoryPage.getLocalDepth_eq, h₃i, HashTableDirectoryPage.size_eq,
    pointSlots_globalDepth, h₃g]
  have hsplit : j ∈ slotsDown i (2 ^ (L + 1)) ∨ j ∈ slotsUp i (2 ^ (L + 1)) (2 ^ d.globalDepth) ↔
      j % 2 ^ (L + 1) = i % 2 ^ (L + 1) := mem_slots hj
  have himage : j ∈ slotsDown (i ^^^ 2 ^ L) (2 ^ (L + 1)) ∨
      j ∈ slotsUp (i ^^^ 2 ^ L) (2 ^ (L + 1)) (2 ^ d.globalDepth) ↔
      j % 2 ^ (L + 1) = (i ^^^ 2 ^ L) % 2 ^ (L + 1) := mem_slots hj
  generalize slotsDown i (2 ^ (L + 1)) = l₁ at hsplit ⊢
  generalize slotsUp i (2 ^ (L + 1)) (2 ^ d.globalDepth) = l₂ at hsplit ⊢
  generalize slotsDown (i ^^^ 2 ^ L) (2 ^ (L + 1)) = l₃ at himage ⊢
  generalize slotsUp (i ^^^ 2 ^ L) (2 ^ (L + 1)) (2 ^ d.globalDepth) = l₄ at himage ⊢
  have e₁ := pointSlots_apply d₃ l₁ splitId i j
  have e₂ := pointSlots_apply (pointSlots d₃ l₁ splitId i) l₂ splitId i j
  have e₃ := pointSlots_apply (pointSlots (pointSlots d₃ l₁ splitId i) l₂ splitId i) l₃ imageId i j
  have e₄ := pointSlots_apply (pointSlots (pointSlots (pointSlots d₃ l₁ splitId i) l₂ splitId i)
    l₃ imageId i) l₄ imageId i j
  simp only [pointSlots_localDepths_src, h₃i] at e₂ e₃ e₄
  rw [e₄.1, e₄.2, e₃.1, e₃.2, e₂.1, e₂.2, e₁.1, e₁.2, h₃.1, h₃.2, h₃i]
  by_cases ha : j % 2 ^ (L + 1) = i % 2 ^ (L + 1)
  · have hb : ¬ j % 2 ^ (L + 1) = (i ^^^ 2 ^ L) % 2 ^ (L + 1) := fun h => hne (h ▸ ha)
    have h₃₄ : j ∉ l₃ ∧ j ∉ l₄ := by rw [← not_or, himage]; exact hb
    rcases hsplit.2 ha with h | h <;> by_cases h' : j ∈ l₂ <;> simp_all
  · by_cases hb : j % 2 ^ (L + 1) = (i ^^^ 2 ^ L) % 2 ^ (L + 1)
    · have h₁₂ : j ∉ l₁ ∧ j ∉ l₂ := by rw [← not_or, hsplit]; exact ha
      rcases himage.2 hb with h | h <;> by_cases h' : j ∈ l₄ <;> simp_all
    · have h₁₂ : j ∉ l₁ ∧ j ∉ l₂ := by rw [← not_or, hsplit]; exact ha
      have h₃₄ : j ∉ l₃ ∧ j ∉ l₄ := by rw [← not_or, himage]; exact hb
      have hji : j ≠ i ^^^ 2 ^ L := fun h => hb (by rw [h])
      simp [h₁₂, h₃₄, hji, ha, hb]

def rehash (d : HashTableDirectoryPage) (mask : Nat) (splitId imageId : Int) :
    List (K × V) → HashTableBucketPage K V × HashTableBucketPage K V →
      Except Halt (HashTableBucketPage K V × HashTableBucketPage K V)
  | [], r => pure r
  | e :: es, (splitBucket, imageBucket) => do
    let targetPage := d.getBucketPageId (c.hash e.1 &&& mask)
    assertTrue (targetPage = splitId ∨ targetPage = imageId)
    if targetPage = splitId then
      let r := splitBucket.insert c.bucketArraySize e.1 e.2
      assertTrue r.1
      rehash d mask splitId imageId es (r.2, imageBucket)
    else
      let r := imageBucket.insert c.bucketArraySize e.1 e.2
      assertTrue r.1
      rehash d mask splitId imageId es (splitBucket, r.2)

theorem rehash_eq (d : HashTableDirectoryPage) (mask : Nat) {splitId imageId : Int}
    (hne : splitId ≠ imageId) (es : List (K × V)) (sb ib : HashTableBucketPage K V)
    (htarget : ∀ e ∈ es, d.bucketPageIds (c.hash e.1 &&& mask) = splitId ∨
      d.bucketPageIds (c.hash e.1 &&& mask) = imageId)
    (hnd : es.Nodup) (hsb : ∀ e ∈ es, e ∉ sb.array) (hib : ∀ e ∈ es, e ∉ ib.array)
    (hls : sb.array.length + es.length ≤ c.bucketArraySize)
    (hli : ib.array.length + es.length ≤ c.bucketArraySize) :
    rehash c d mask splitId imageId es (sb, ib) =
      .ok (⟨sb.array ++ es.filter fun e => d.bucketPageIds (c.hash e.1 &&& mask) = splitId⟩,
        ⟨ib.array ++ es.filter fun e => d.bucketPageIds (c.hash e.1 &&& mask) ≠ splitId⟩) := by
  induction es generalizing sb ib with
  | nil => simp [rehash, pure, Except.pure]
  | cons e es ih =>
    obtain ⟨hne', hnd'⟩ := List.nodup_cons.1 hnd
    simp only [List.length_cons] at hls hli
    have hok : ∀ b : HashTableBucketPage K V, e ∉ b.array → b.array.length < c.bucketArraySize →
        b.insert c.bucketArraySize e.1 e.2 = (true, ⟨b.array ++ [e]⟩) := fun b hb hl => by
      simp [HashTableBucketPage.insert, HashTableBucketPage.isFull, HashTableBucketPage.numReadable,
        hb, Nat.not_le.2 hl]
    have hs' : ∀ e' ∈ es, e' ∉ (⟨sb.array ++ [e]⟩ : HashTableBucketPage K V).array := fun e' he' => by
      simp only [List.mem_append, List.mem_singleton, not_or]
      exact ⟨hsb e' (List.mem_cons_of_mem _ he'), fun h' => hne' (h' ▸ he')⟩
    have hi' : ∀ e' ∈ es, e' ∉ (⟨ib.array ++ [e]⟩ : HashTableBucketPage K V).array := fun e' he' => by
      simp only [List.mem_append, List.mem_singleton, not_or]
      exact ⟨hib e' (List.mem_cons_of_mem _ he'), fun h' => hne' (h' ▸ he')⟩
    have ht' := fun e' he' => htarget e' (List.mem_cons_of_mem _ he')
    simp only [rehash, HashTableDirectoryPage.getBucketPageId_eq]
    rcases htarget e (List.mem_cons_self _ _) with h | h
    · rw [hok sb (hsb e (List.mem_cons_self _ _)) (by omega)]
      simp only [assertTrue, h, true_or, decide_True, if_true, bind, Except.bind, pure,
        Except.pure]
      rw [ih _ _ ht' hnd' hs' (fun e' he' => hib e' (List.mem_cons_of_mem _ he'))
        (by simp only [List.length_append, List.length_singleton]; omega) (by omega)]
      simp [List.filter_cons, h]
    · rw [hok ib (hib e (List.mem_cons_self _ _)) (by omega)]
      simp only [assertTrue, h, or_true, decide_True, if_true, bind, Except.bind, pure,
        Except.pure, Ne.symm hne, if_false]
      rw [ih _ _ ht' hnd' (fun e' he' => hsb e' (List.mem_cons_of_mem _ he')) hi' (by omega)
        (by simp only [List.length_append, List.length_singleton]; omega)]
      simp [List.filter_cons, h, Ne.symm hne]

/-- `SplitInsert` up to its closing call of `Insert`: false when the bucket of `key` is already
at `MAX_BUCKET_DEPTH`, and true with the table once the bucket is split. -/
def splitInsert (key : K) (t : ExtendibleHashTable σ) :
    Except Halt (Bool × ExtendibleHashTable σ) := do
  let t ← wLock t
  let t ← fetchDirectoryPage P t
  let d := directory P t
  let splitBucketIndex := keyToDirectoryIndex c key d
  let splitBucketDepth := d.getLocalDepth splitBucketIndex
  if c.maxBucketDepth ≤ splitBucketDepth then
    let t ← unpinPage P d.pageId false t
    return (false, wUnlock t)
  let d := if splitBucketDepth = d.globalDepth then d.incrGlobalDepth else d
  let d := d.incrLocalDepth splitBucketIndex
  let splitBucketPageId := keyToPageId c key d
  let t ← fetchPage P splitBucketPageId t
  let originArray := (bucketAt P t splitBucketPageId).getArrayCopy
  let splitBucket := (bucketAt P t splitBucketPageId).reset
  let (imageBucketPageId, t) ← newPage P t
  let imageBucket := bucketAt P t imageBucketPageId
  let d := splitSlots d splitBucketIndex splitBucketPageId imageBucketPageId
  let (splitBucket, imageBucket) ← rehash c d (d.getLocalDepthMask splitBucketIndex)
    splitBucketPageId imageBucketPageId originArray (splitBucket, imageBucket)
  let t := writeDirectory P t d
  let t := writeBucket P t splitBucketPageId splitBucket
  let t := writeBucket P t imageBucketPageId imageBucket
  let t ← unpinPage P splitBucketPageId true t
  let t ← unpinPage P imageBucketPageId true t
  let t ← unpinPage P d.pageId true t
  return (true, wUnlock t)

/-- `Insert`, with `fuel` bounding its recursion through `SplitInsert`. -/
def insert : Nat → K → V → ExtendibleHashTable σ → Except Halt (Bool × ExtendibleHashTable σ)
  | 0, _, _, _ => .error .outOfFuel
  | fuel + 1, key, value, t => do
    let t ← rLock t
    let t ← fetchDirectoryPage P t
    let d := directory P t
    let bucketPageId := keyToPageId c key d
    let t ← fetchPage P bucketPageId t
    let bucket := bucketAt P t bucketPageId
    if !bucket.isFull c.bucketArraySize then
      let r := bucket.insert c.bucketArraySize key value
      let t := writeBucket P t bucketPageId r.2
      let t ← unpinPage P bucketPageId true t
      let t ← unpinPage P d.pageId false t
      return (r.1, t)
    let t ← unpinPage P bucketPageId false t
    let t ← unpinPage P d.pageId false t
    let (split, t) ← splitInsert P c key (rUnlock t)
    if split then insert fuel key value t else return (false, t)

def mergeSlot (targetIndex : Nat) (targetId imageId : Int) (d : HashTableDirectoryPage) (i : Nat) :
    HashTableDirectoryPage :=
  if d.getBucketPageId i = targetId ∨ d.getBucketPageId i = imageId then
    (d.setBucketPageId i imageId).setLocalDepth i (d.getLocalDepth targetIndex)
  else d

def mergeSlots (d : HashTableDirectoryPage) (targetIndex : Nat) (targetId imageId : Int) :
    HashTableDirectoryPage :=
  (List.range d.size).foldl (mergeSlot targetIndex targetId imageId) d

section MergeSlots

variable (targetIndex : Nat) (targetId imageId : Int)

theorem mergeSlot_localDepths_target (d : HashTableDirectoryPage) (i : Nat) :
    (mergeSlot targetIndex targetId imageId d i).localDepths targetIndex = d.localDepths targetIndex := by
  unfold mergeSlot
  split
  · by_cases h : targetIndex = i
    · subst h; simp
    · simp [Function.update_noteq h]
  · rfl

theorem foldl_mergeSlot_apply (l : List Nat) (hl : l.Nodup) (d : HashTableDirectoryPage) (j : Nat) :
    (l.foldl (mergeSlot targetIndex targetId imageId) d).bucketPageIds j =
        (if j ∈ l ∧ (d.bucketPageIds j = targetId ∨ d.bucketPageIds j = imageId) then imageId
          else d.bucketPageIds j) ∧
      (l.foldl (mergeSlot targetIndex targetId imageId) d).localDepths j =
        (if j ∈ l ∧ (d.bucketPageIds j = targetId ∨ d.bucketPageIds j = imageId) then
          d.localDepths targetIndex else d.localDepths j) := by
  induction l generalizing d with
  | nil => simp
  | cons i is ih =>
    obtain ⟨hi, his⟩ := List.nodup_cons.1 hl
    simp only [List.foldl_cons]
    obtain ⟨h1, h2⟩ := ih his (mergeSlot targetIndex targetId imageId d i)
    rw [h1, h2, mergeSlot_localDepths_target]
    by_cases hj : j = i
    · subst hj
      simp only [hi, false_and, if_false, List.mem_cons, true_or, true_and, mergeSlot,
        HashTableDirectoryPage.getBucketPageId_eq, HashTableDirectoryPage.getLocalDepth_eq]
      split <;> simp
    · have e : (mergeSlot targetIndex targetId imageId d i).bucketPageIds j = d.bucketPageIds j ∧
          (mergeSlot targetIndex targetId imageId d i).localDepths j = d.localDepths j := by
        unfold mergeSlot; split <;> simp [Function.update_noteq hj]
      simp [e.1, e.2, hj]

@[simp] theorem foldl_mergeSlot_globalDepth (l : List Nat) (d : HashTableDirectoryPage) :
    (l.foldl (mergeSlot targetIndex targetId imageId) d).globalDepth = d.globalDepth := by
  induction l generalizing d with
  | nil => rfl
  | cons i is ih => rw [List.foldl_cons, ih]; unfold mergeSlot; split <;> rfl

@[simp] theorem foldl_mergeSlot_pageId (l : List Nat) (d : HashTableDirectoryPage) :
    (l.foldl (mergeSlot targetIndex targetId imageId) d).pageId = d.pageId := by
  induction l generalizing d with
  | nil => rfl
  | cons i is ih => rw [List.foldl_cons, ih]; unfold mergeSlot; split <;> rfl

end MergeSlots

def merge (targetBucketIndex : Nat) (t : ExtendibleHashTable σ) :
    Except Halt (ExtendibleHashTable σ) := do
  let t ← wLock t
  let t ← fetchDirectoryPage P t
  let d := directory P t
  if d.size ≤ targetBucketIndex then
    return wUnlock t
  let targetBucketPageId := d.getBucketPageId targetBucketIndex
  let imageBucketIndex := d.getLocalHighBit targetBucketIndex
  let localDepth := d.getLocalDepth targetBucketIndex
  if localDepth = 0 then
    let t ← unpinPage P d.pageId false t
    return wUnlock t
  if localDepth ≠ d.getLocalDepth imageBucketIndex then
    let t ← unpinPage P d.pageId false t
    return wUnlock t
  let t ← fetchPage P targetBucketPageId t
  if !(bucketAt P t targetBucketPageId).isEmpty then
    let t ← unpinPage P targetBucketPageId false t
    let t ← unpinPage P d.pageId false t
    return wUnlock t
  let t ← unpinPage P targetBucketPageId false t
  let t ← deletePage P targetBucketPageId t
  let imageBucketPageId := d.getBucketPageId imageBucketIndex
  let d := d.setBucketPageId targetBucketIndex imageBucketPageId
  let d := d.decrLocalDepth targetBucketIndex
  let d := d.decrLocalDepth imageBucketIndex
  assertTrue (d.getLocalDepth targetBucketIndex = d.getLocalDepth imageBucketIndex)
  let d := mergeSlots d targetBucketIndex targetBucketPageId imageBucketPageId
  let d := d.shrink
  let t := writeDirectory P t d
  let t ← unpinPage P d.pageId true t
  return wUnlock t

def remove (key : K) (value : V) (t : ExtendibleHashTable σ) :
    Except Halt (Bool × ExtendibleHashTable σ) := do
  let t ← rLock t
  let t ← fetchDirectoryPage P t
  let d := directory P t
  let bucketPageId := keyToPageId c key d
  let bucketIndex := keyToDirectoryIndex c key d
  let t ← fetchPage P bucketPageId t
  let r := (bucketAt P t bucketPageId).remove key value
  let t := writeBucket P t bucketPageId r.2
  if r.2.isEmpty then
    let t ← unpinPage P bucketPageId true t
    let t ← unpinPage P d.pageId false t
    let t ← merge P bucketIndex (rUnlock t)
    return (r.1, t)
  let t ← unpinPage P bucketPageId true t
  let t ← unpinPage P d.pageId false t
  return (r.1, rUnlock t)

/-- A call of the interface: its boolean, and for `GetValue` the values found. `Insert` has
fuel for one try at each local depth up to `MAX_BUCKET_DEPTH`. -/
def call (t : ExtendibleHashTable σ) : HashCall K V →
    Except Halt ((Bool × List V) × ExtendibleHashTable σ)
  | .getValue key => getValue P c key t
  | .insert key value =>
    (insert P c (c.maxBucketDepth + 1) key value t).map fun r => ((r.1, []), r.2)
  | .remove key value => (remove P c key value t).map fun r => ((r.1, []), r.2)

inductive Reachable (pool₀ : σ) : ExtendibleHashTable σ → Prop
  | init : Reachable pool₀ (init pool₀)
  | step {t t' : ExtendibleHashTable σ} {r : Bool × List V} (op : HashCall K V) :
    Reachable pool₀ t → call P c t op = .ok (r, t') → Reachable pool₀ t'

end ExtendibleHashTable

end Bustub
