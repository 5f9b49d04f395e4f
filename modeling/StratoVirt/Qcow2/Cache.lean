import Mathlib
import StratoVirt.Lib.BigEndian
import StratoVirt.Qcow2.Snapshot
import StratoVirt.Migration.StateDesc
import StratoVirt.Util.Bitmap
import StratoVirt.AddressSpace.Types

/-!
# The qcow2 metadata cache: `Qcow2Cache`

`block_backend/src/qcow2/cache.rs`, and `SyncAioInfo::write_dirty_info` of
`mod.rs`.

Metadata tables are read into `CacheTable`s and changed there. A changed
table is dirty: `set_entry_map` widens its dirty range, and its owner queues
it on `dirty_tables` when it was clean. A dirty table reaches the image file
in two ways: when `lru_replace` evicts it from a full cache (the owner writes
the victim back), and when the cache flushes, which writes every queued table
still dirty, in queue order, and empties the queue. `write_dirty_info` writes
the whole 512-byte sectors the dirty range touches.

Mirroring notes:

- An `Rc<RefCell<CacheTable>>` is a number into a `TableHeap`. The cache map
  and the dirty queue hold numbers, so a table changed through one handle is
  changed for the other, and a table evicted from the map stays on the queue
  as the same table, as with `Rc`.
- A `HashMap` is an association list and is iterated in list order. The
  order of a `HashMap` is not fixed in the source, so which of several
  entries of least LRU count `lru_replace` evicts is the model's choice;
  nothing proved about the cache depends on which entry goes.
- The image file is a byte list. `read_buffer` fails past its end
  (`readBuffer`); `write_buffer` is the host's `pwrite` (`BlockIo`), which
  may fail, and whose writes that succeed are `raw_write`s, seen by every
  later read (`BlockIo.Writes`).
- A panic of a slice or vector index is an error with the panic's text.
- Counts and offsets are `Nat`; the LRU count is reset by `check_refcount`
  before it could pass `u64::MAX`.
-/

namespace StratoVirt.Qcow2

open StratoVirt.Lib StratoVirt.Util StratoVirt.AddressSpace

/-- `DEFAULT_SECTOR_SIZE`. -/
def DEFAULT_SECTOR_SIZE : Nat := 512
/-- `ENTRY_SIZE_U16`. -/
def ENTRY_SIZE_U16 : Nat := 2
/-- `ENTRY_SIZE_U64`. -/
def ENTRY_SIZE_U64 : Nat := 8
/-- `CACHE_DEFAULT_SIZE`. -/
def CACHE_DEFAULT_SIZE : Nat := 1

/-! ## Tables -/

/-- `DirtyInfo`. -/
structure DirtyInfo where
  isDirty : Bool
  start : Nat
  «end» : Nat
  deriving DecidableEq, Repr

/-- `DirtyInfo::default`, which `DirtyInfo::clear` restores: clean, with the
empty range from `u64::MAX` to 0. -/
def DirtyInfo.default : DirtyInfo := ⟨false, U64_MAX.toNat, 0⟩

/-- `CacheTable`. -/
structure CacheTable where
  dirtyInfo : DirtyInfo
  lruCount : Nat
  addr : Nat
  entrySize : Nat
  tableData : List UInt8
  deriving DecidableEq, Repr

/-- `format!("Invalid idx {}", idx)`. -/
def invalidIdxText (idx : Nat) : String := "Invalid idx " ++ toString idx

/-- `format!("Unsupported entry size {}", entry_size)`. -/
def unsupportedEntrySizeText (entrySize : Nat) : String :=
  "Unsupported entry size " ++ toString entrySize

namespace CacheTable

/-- `CacheTable::new`. -/
def new (addr : Nat) (tableData : List UInt8) (entrySize : Nat) : Except String CacheTable :=
  if entrySize = 0 then .error "Invalid entry size"
  else .ok ⟨DirtyInfo.default, 0, addr, entrySize, tableData⟩

/-- `CacheTable::be_read`, which `get_entry_map` is: `read_u16` and
`read_u64` both read the entry's bytes as a big-endian number. -/
def beRead (t : CacheTable) (idx : Nat) : Except String Nat :=
  let start := idx * t.entrySize
  let stop := start + t.entrySize
  if stop > t.tableData.length then .error (invalidIdxText idx)
  else if t.entrySize = ENTRY_SIZE_U16 ∨ t.entrySize = ENTRY_SIZE_U64 then
    .ok (beDecode (slice t.tableData start stop))
  else .error (unsupportedEntrySizeText t.entrySize)

/-- `CacheTable::set_entry_map`: `write_u16(value as u16)` and `write_u64`
both write the low `entry_size` bytes of the value; the dirty range grows to
hold the entry. -/
def setEntryMap (t : CacheTable) (idx value : Nat) : Except String CacheTable :=
  let start := idx * t.entrySize
  let stop := start + t.entrySize
  if stop > t.tableData.length then .error (invalidIdxText idx)
  else if t.entrySize = ENTRY_SIZE_U16 ∨ t.entrySize = ENTRY_SIZE_U64 then
    .ok { t with
      tableData := spliceAt t.tableData start (beEncode t.entrySize value),
      dirtyInfo := ⟨true, min t.dirtyInfo.start start, max t.dirtyInfo.«end» stop⟩ }
  else .error (unsupportedEntrySizeText t.entrySize)

end CacheTable

/-- Entry `idx` of a table of `ENTRY_SIZE_U16` entries, as `be_read` reads
it and `as u16` keeps it. -/
def u16Entry (data : List UInt8) (idx : Nat) : Option UInt16 :=
  if idx * ENTRY_SIZE_U16 + ENTRY_SIZE_U16 ≤ data.length then
    some (UInt16.ofNat (beDecode (slice data (idx * ENTRY_SIZE_U16) (idx * ENTRY_SIZE_U16 + ENTRY_SIZE_U16))))
  else none

namespace CacheTable

variable {t : CacheTable}

/-- `be_read` of a table of `u16` entries reads `u16Entry`. -/
theorem beRead_u16 (hsz : t.entrySize = ENTRY_SIZE_U16) (idx : Nat) :
    t.beRead idx = match u16Entry t.tableData idx with
      | some v => .ok v.toNat
      | none => .error (invalidIdxText idx) := by
  unfold beRead u16Entry
  rw [hsz]
  dsimp only
  by_cases hfit : idx * ENTRY_SIZE_U16 + ENTRY_SIZE_U16 ≤ t.tableData.length
  · have hlt : beDecode (slice t.tableData (idx * ENTRY_SIZE_U16) (idx * ENTRY_SIZE_U16 + ENTRY_SIZE_U16)) <
        2 ^ 16 := by
      have h := beDecode_lt (slice t.tableData (idx * ENTRY_SIZE_U16) (idx * ENTRY_SIZE_U16 + ENTRY_SIZE_U16))
      rwa [length_slice hfit, Nat.add_sub_cancel_left] at h
    rw [if_neg (by omega), if_pos (.inl rfl), if_pos hfit]
    dsimp only
    rw [UInt16.toNat_ofNat_of_lt' hlt]
  · rw [if_pos (by omega), if_neg hfit]

/-- `set_entry_map` of a `u16` value at an entry of the table. -/
theorem setEntryMap_u16 (hsz : t.entrySize = ENTRY_SIZE_U16) {idx : Nat} (v : UInt16)
    (hidx : idx * ENTRY_SIZE_U16 + ENTRY_SIZE_U16 ≤ t.tableData.length) :
    t.setEntryMap idx v.toNat = .ok { t with
      tableData := spliceAt t.tableData (idx * ENTRY_SIZE_U16) (beEncode ENTRY_SIZE_U16 v.toNat),
      dirtyInfo := ⟨true, min t.dirtyInfo.start (idx * ENTRY_SIZE_U16),
        max t.dirtyInfo.«end» (idx * ENTRY_SIZE_U16 + ENTRY_SIZE_U16)⟩ } := by
  unfold setEntryMap
  rw [hsz]
  dsimp only
  rw [if_neg (by omega), if_pos (.inl rfl)]

end CacheTable

theorem u16Entry_isSome (data : List UInt8) (idx : Nat) :
    (u16Entry data idx).isSome ↔ idx * ENTRY_SIZE_U16 + ENTRY_SIZE_U16 ≤ data.length := by
  unfold u16Entry
  split <;> simp [*]

/-- Writing entry `idx` changes that entry and no other. -/
theorem u16Entry_spliceAt {data : List UInt8} {idx : Nat} (v : UInt16)
    (hidx : idx * ENTRY_SIZE_U16 + ENTRY_SIZE_U16 ≤ data.length) (i : Nat) :
    u16Entry (spliceAt data (idx * ENTRY_SIZE_U16) (beEncode ENTRY_SIZE_U16 v.toNat)) i =
      if i = idx then some v else u16Entry data i := by
  have hfit : idx * ENTRY_SIZE_U16 + (beEncode ENTRY_SIZE_U16 v.toNat).length ≤ data.length := by
    rwa [beEncode_length]
  unfold u16Entry
  rw [length_spliceAt hfit]
  by_cases hi : i = idx
  · -- the entry written reads back as the value
    subst hi
    have hslice := slice_spliceAt hfit
    rw [beEncode_length] at hslice
    rw [if_pos hidx, if_pos rfl, hslice,
      beDecode_beEncode_of_lt (by simpa [ENTRY_SIZE_U16] using v.toNat_lt), UInt16.ofNat_toNat]
  · -- another entry's window misses the write
    have hd : i * ENTRY_SIZE_U16 + ENTRY_SIZE_U16 ≤ idx * ENTRY_SIZE_U16 ∨
        idx * ENTRY_SIZE_U16 + (beEncode ENTRY_SIZE_U16 v.toNat).length ≤ i * ENTRY_SIZE_U16 := by
      rw [beEncode_length]
      unfold ENTRY_SIZE_U16
      omega
    rw [if_neg hi]
    rw [slice_spliceAt_of_disjoint hfit hd]

/-- The `CacheTable`s behind the `Rc<RefCell<CacheTable>>` handles, by
number, and the next number not handed out. -/
structure TableHeap where
  tables : Nat → CacheTable
  next : Nat

namespace TableHeap

/-- The heap before any table is made. -/
def empty : TableHeap := ⟨fun _ => ⟨DirtyInfo.default, 0, 0, 0, []⟩, 0⟩

/-- The table behind handle `r`. -/
def get (h : TableHeap) (r : Nat) : CacheTable := h.tables r

/-- `r.borrow_mut()` changed by `f`. -/
def modify (h : TableHeap) (r : Nat) (f : CacheTable → CacheTable) : TableHeap :=
  { h with tables := Function.update h.tables r (f (h.tables r)) }

/-- `Rc::new(RefCell::new(t))`: a new handle. -/
def alloc (h : TableHeap) (t : CacheTable) : Nat × TableHeap :=
  (h.next, ⟨Function.update h.tables h.next t, h.next + 1⟩)

@[simp] theorem get_modify_self (h : TableHeap) (r : Nat) (f : CacheTable → CacheTable) :
    (h.modify r f).get r = f (h.get r) := by
  simp [modify, get]

@[simp] theorem get_modify_of_ne (h : TableHeap) {r r' : Nat} (f : CacheTable → CacheTable)
    (hne : r' ≠ r) : (h.modify r f).get r' = h.get r' := by
  simp [modify, get, hne]

@[simp] theorem next_modify (h : TableHeap) (r : Nat) (f : CacheTable → CacheTable) :
    (h.modify r f).next = h.next := rfl

@[simp] theorem alloc_fst (h : TableHeap) (t : CacheTable) : (h.alloc t).1 = h.next := rfl

@[simp] theorem get_alloc_self (h : TableHeap) (t : CacheTable) : (h.alloc t).2.get h.next = t := by
  simp [alloc, get]

@[simp] theorem get_alloc_of_ne (h : TableHeap) (t : CacheTable) {r : Nat} (hne : r ≠ h.next) :
    (h.alloc t).2.get r = h.get r := by
  simp [alloc, get, hne]

@[simp] theorem next_alloc (h : TableHeap) (t : CacheTable) : (h.alloc t).2.next = h.next + 1 := rfl

end TableHeap

/-! ## The cache -/

/-- `Qcow2Cache`: the map from a table's address to its handle, and the queue
of handles of changed tables. -/
structure Qcow2Cache where
  maxSize : Nat
  lruCount : Nat
  cacheMap : List (Nat × Nat)
  dirtyTables : List Nat
  deriving DecidableEq, Repr

/-- `HashMap::remove`. -/
def mapRemove (m : List (Nat × Nat)) (key : Nat) : List (Nat × Nat) := m.filter (·.1 != key)

/-- `HashMap::insert`. -/
def mapInsert (m : List (Nat × Nat)) (key v : Nat) : List (Nat × Nat) := mapRemove m key ++ [(key, v)]

namespace Qcow2Cache

/-- `Qcow2Cache::new`. -/
def new (maxSize : Nat) : Qcow2Cache :=
  ⟨if maxSize = 0 then CACHE_DEFAULT_SIZE else maxSize, 0, [], []⟩

/-- `Qcow2Cache::contains_keys`. -/
def containsKeys (c : Qcow2Cache) (key : Nat) : Bool := (c.cacheMap.lookup key).isSome

/-- `Qcow2Cache::check_refcount`: at `u64::MAX` the LRU count and those of
the cached tables start again from 0. -/
def checkRefcount (c : Qcow2Cache) (h : TableHeap) : Qcow2Cache × TableHeap :=
  if c.lruCount < U64_MAX.toNat then (c, h)
  else ({ c with lruCount := 0 },
    c.cacheMap.foldl (fun h e => h.modify e.2 fun t => { t with lruCount := 0 }) h)

/-- `Qcow2Cache::get`: the handle cached for `key`, stamped with the LRU
count. -/
def get (c : Qcow2Cache) (h : TableHeap) (key : Nat) : Option Nat × Qcow2Cache × TableHeap :=
  let (c, h) := c.checkRefcount h
  match c.cacheMap.lookup key with
  | none => (none, c, h)
  | some r =>
    (some r, { c with lruCount := c.lruCount + 1 }, h.modify r fun t => { t with lruCount := c.lruCount })

/-- The loop of `lru_replace` over the map: the entry of least LRU count, the
first of them, with that count, its handle and its key. -/
def lruVictim (h : TableHeap) (m : List (Nat × Nat)) : Nat × Option Nat × Nat :=
  m.foldl (fun acc e =>
    if (h.get e.2).lruCount < acc.1 then ((h.get e.2).lruCount, some e.2, e.1) else acc)
    (U64_MAX.toNat, none, 0)

/-- `Qcow2Cache::lru_replace`: `entry` is stamped and cached under `key`; a
full cache first gives up its least recently used entry, which is returned. -/
def lruReplace (c : Qcow2Cache) (h : TableHeap) (key entry : Nat) :
    Option Nat × Qcow2Cache × TableHeap :=
  let (c, h) := c.checkRefcount h
  let h := h.modify entry fun t => { t with lruCount := c.lruCount }
  let c := { c with lruCount := c.lruCount + 1 }
  if c.cacheMap.length < c.maxSize then (none, { c with cacheMap := mapInsert c.cacheMap key entry }, h)
  else
    let (_, replaced, targetIdx) := lruVictim h c.cacheMap
    (replaced, { c with cacheMap := mapInsert (mapRemove c.cacheMap targetIdx) key entry }, h)

/-- `Qcow2Cache::add_dirty_table`. -/
def addDirtyTable (c : Qcow2Cache) (r : Nat) : Qcow2Cache := { c with dirtyTables := c.dirtyTables ++ [r] }

end Qcow2Cache

/-! ## The map -/

section Map

variable {m : List (Nat × Nat)} {k r : Nat}

theorem lookup_eq_some_of_mem (hnd : (m.map Prod.fst).Nodup) (he : (k, r) ∈ m) : m.lookup k = some r := by
  induction m with
  | nil => cases he
  | cons e m ih =>
    rw [List.map_cons, List.nodup_cons] at hnd
    rw [List.lookup_cons]
    rcases List.mem_cons.1 he with rfl | he
    · simp
    · have hne : k ≠ e.1 := fun h => hnd.1 (h ▸ List.mem_map_of_mem he)
      simp only [beq_false_of_ne hne]
      exact ih hnd.2 he

theorem mem_of_lookup_eq_some (h : m.lookup k = some r) : (k, r) ∈ m := by
  obtain ⟨l₁, l₂, rfl, -⟩ := List.lookup_eq_some_iff.1 h
  simp

theorem lookup_eq_none_iff_not_mem : m.lookup k = none ↔ k ∉ m.map Prod.fst := by
  rw [List.lookup_eq_none_iff]
  simp only [bne_iff_ne, ne_eq, List.mem_map, not_exists, not_and]
  exact ⟨fun h p hp hk => h p hp hk.symm, fun h p hp hk => h p hp hk.symm⟩

theorem mem_mapRemove {v : Nat} {e : Nat × Nat} : e ∈ mapRemove m v ↔ e ∈ m ∧ e.1 ≠ v := by
  simp [mapRemove]

theorem lookup_mapRemove_of_ne {v : Nat} (hk : k ≠ v) : (mapRemove m v).lookup k = m.lookup k := by
  induction m with
  | nil => rfl
  | cons e m ih =>
    obtain ⟨a, b⟩ := e
    unfold mapRemove at ih ⊢
    rw [List.filter_cons]
    by_cases ha : a = v
    · -- the entry removed is not the one `k` finds
      subst ha
      rw [if_neg (by simp), ih, List.lookup_cons, beq_false_of_ne hk]
    · rw [if_pos (by simp [ha]), List.lookup_cons, List.lookup_cons, ih]

theorem lookup_append_singleton {key : Nat} (hkey : key ∉ m.map Prod.fst) (r k : Nat) :
    (m ++ [(key, r)]).lookup k = if k = key then some r else m.lookup k := by
  rw [List.lookup_append, List.lookup_cons, List.lookup_nil]
  by_cases hk : k = key
  · subst hk
    rw [(lookup_eq_none_iff_not_mem).2 hkey, beq_self_eq_true, if_pos rfl]
    rfl
  · rw [beq_false_of_ne hk, if_neg hk]
    cases m.lookup k <;> rfl

theorem mapRemove_of_not_mem {v : Nat} (hv : v ∉ m.map Prod.fst) : mapRemove m v = m := by
  unfold mapRemove
  rw [List.filter_eq_self]
  intro e he
  have hne : e.1 ≠ v := fun h => hv (h ▸ List.mem_map_of_mem he)
  simpa using hne

theorem Qcow2Cache.containsKeys_iff (c : Qcow2Cache) (key : Nat) :
    c.containsKeys key = true ↔ key ∈ c.cacheMap.map Prod.fst := by
  unfold Qcow2Cache.containsKeys
  rw [← not_iff_not, Bool.not_eq_true, Option.isSome_eq_false_iff, Option.isNone_iff_eq_none,
    lookup_eq_none_iff_not_mem]

/-- A key inserted into a map that lacks it goes last. -/
theorem mapInsert_of_not_mem {key : Nat} (hkey : key ∉ m.map Prod.fst) (r : Nat) :
    mapInsert m key r = m ++ [(key, r)] := by
  rw [mapInsert, mapRemove_of_not_mem hkey]

theorem nodup_mapRemove {v : Nat} (hnd : (m.map Prod.fst).Nodup) : ((mapRemove m v).map Prod.fst).Nodup :=
  hnd.sublist ((List.filter_sublist).map Prod.fst)

theorem nodup_append_singleton {key : Nat} (hnd : (m.map Prod.fst).Nodup) (hkey : key ∉ m.map Prod.fst) (r : Nat) :
    ((m ++ [(key, r)]).map Prod.fst).Nodup := by
  rw [List.map_append, List.nodup_append]
  refine ⟨hnd, by simp, fun a ha b hb hab => hkey ?_⟩
  have hb' : b = key := by simpa using hb
  rw [← hb', ← hab]
  exact ha

end Map

/-! ## Stamping tables -/

/-- Two tables alike in all but their LRU counts. -/
structure SameTable (t' t : CacheTable) : Prop where
  dirtyInfo : t'.dirtyInfo = t.dirtyInfo
  addr : t'.addr = t.addr
  entrySize : t'.entrySize = t.entrySize
  tableData : t'.tableData = t.tableData

/-- The heap `h'` is `h` with other LRU counts. -/
structure Restamped (h h' : TableHeap) : Prop where
  next : h'.next = h.next
  same : ∀ r, SameTable (h'.get r) (h.get r)

theorem Restamped.refl (h : TableHeap) : Restamped h h := ⟨rfl, fun _ => ⟨rfl, rfl, rfl, rfl⟩⟩

theorem Restamped.trans {h h' h'' : TableHeap} (h1 : Restamped h h') (h2 : Restamped h' h'') :
    Restamped h h'' :=
  ⟨h2.next.trans h1.next, fun r =>
    ⟨(h2.same r).dirtyInfo.trans (h1.same r).dirtyInfo, (h2.same r).addr.trans (h1.same r).addr,
      (h2.same r).entrySize.trans (h1.same r).entrySize, (h2.same r).tableData.trans (h1.same r).tableData⟩⟩

/-- Stamping one table. -/
theorem restamped_modify (h : TableHeap) (r x : Nat) :
    Restamped h (h.modify r fun t => { t with lruCount := x }) := by
  refine ⟨rfl, fun r' => ?_⟩
  by_cases hr : r' = r
  · subst hr
    rw [TableHeap.get_modify_self]
    exact ⟨rfl, rfl, rfl, rfl⟩
  · rw [TableHeap.get_modify_of_ne _ _ hr]
    exact ⟨rfl, rfl, rfl, rfl⟩

/-- The reset of `check_refcount` over the entries `l`: every table is the
same but for its count, and those of `l` count 0. -/
theorem foldl_reset (l : List (Nat × Nat)) (h : TableHeap) :
    Restamped h (l.foldl (fun h e => h.modify e.2 fun t => { t with lruCount := 0 }) h) ∧
      ∀ e ∈ l, ((l.foldl (fun h e => h.modify e.2 fun t => { t with lruCount := 0 }) h).get e.2).lruCount = 0 := by
  induction l using List.reverseRecOn with
  | nil => exact ⟨Restamped.refl h, fun e he => nomatch he⟩
  | append_singleton l x ih =>
    rw [List.foldl_append, List.foldl_cons, List.foldl_nil]
    refine ⟨ih.1.trans (restamped_modify _ _ _), fun e he => ?_⟩
    by_cases hx : e.2 = x.2
    · rw [hx, TableHeap.get_modify_self]
    · rw [TableHeap.get_modify_of_ne _ _ hx]
      rcases List.mem_append.1 he with he | he
      · exact ih.2 e he
      · rw [List.mem_singleton.1 he] at hx
        exact absurd rfl hx

namespace Qcow2Cache

variable {c : Qcow2Cache} {h : TableHeap}

/-- Every cached table was stamped no later than the cache's count. -/
def LruBound (c : Qcow2Cache) (h : TableHeap) : Prop := ∀ e ∈ c.cacheMap, (h.get e.2).lruCount ≤ c.lruCount

/-- **`check_refcount`** restamps only, keeps the map and the queue, and
leaves a count below `u64::MAX`. -/
theorem checkRefcount_spec (hlru : c.LruBound h) :
    (c.checkRefcount h).1.cacheMap = c.cacheMap ∧ (c.checkRefcount h).1.dirtyTables = c.dirtyTables ∧
      (c.checkRefcount h).1.maxSize = c.maxSize ∧ (c.checkRefcount h).1.lruCount < U64_MAX.toNat ∧
      Restamped h (c.checkRefcount h).2 ∧ LruBound (c.checkRefcount h).1 (c.checkRefcount h).2 := by
  unfold checkRefcount
  split
  · exact ⟨rfl, rfl, rfl, ‹_›, Restamped.refl h, hlru⟩
  · -- the reset: every cached table counts 0
    obtain ⟨hre, hzero⟩ := foldl_reset c.cacheMap h
    refine ⟨rfl, rfl, rfl, show 0 < U64_MAX.toNat by decide, hre, fun e he => ?_⟩
    rw [hzero e he]

/-- **`get`**: the handle the map holds for the key, with the map and the
queue kept and only counts changed. -/
theorem get_spec (hlru : c.LruBound h) (key : Nat) :
    (c.get h key).1 = c.cacheMap.lookup key ∧ (c.get h key).2.1.cacheMap = c.cacheMap ∧
      (c.get h key).2.1.dirtyTables = c.dirtyTables ∧ (c.get h key).2.1.maxSize = c.maxSize ∧
      Restamped h (c.get h key).2.2 ∧ LruBound (c.get h key).2.1 (c.get h key).2.2 := by
  obtain ⟨hmap, hq, hmax, -, hre, hlru'⟩ := checkRefcount_spec hlru
  unfold get
  rcases hc : c.checkRefcount h with ⟨c1, h1⟩
  rw [hc] at hmap hq hmax hre hlru'
  dsimp only at hmap hq hmax hre hlru' ⊢
  rw [hmap]
  rcases hl : c.cacheMap.lookup key with _ | r
  · exact ⟨rfl, hmap, hq, hmax, hre, hlru'⟩
  · dsimp only
    refine ⟨rfl, rfl, hq, hmax, hre.trans (restamped_modify _ _ _), fun e he => ?_⟩
    by_cases hr : e.2 = r
    · rw [hr, TableHeap.get_modify_self]
      exact Nat.le_succ _
    · rw [TableHeap.get_modify_of_ne _ _ hr]
      exact Nat.le_succ_of_le (hlru' e (hmap ▸ he))

/-- The victim `lru_replace` picks from a map whose tables all count below
`u64::MAX` is one of its entries. -/
theorem lruVictim_mem {m : List (Nat × Nat)} (hne : m ≠ [])
    (hlt : ∀ e ∈ m, (h.get e.2).lruCount < U64_MAX.toNat) :
    ∃ e ∈ m, ∃ cnt, lruVictim h m = (cnt, some e.2, e.1) := by
  induction m using List.reverseRecOn with
  | nil => exact absurd rfl hne
  | append_singleton l x ih =>
    have hx : (h.get x.2).lruCount < U64_MAX.toNat := hlt x (by simp)
    unfold lruVictim
    rw [List.foldl_append, List.foldl_cons, List.foldl_nil]
    by_cases hl : l = []
    · -- the first entry beats the initial count
      subst hl
      rw [List.foldl_nil, if_pos hx]
      exact ⟨x, by simp, _, rfl⟩
    · obtain ⟨e, he, cnt, hv⟩ := ih hl fun e he => hlt e (by simp [he])
      unfold lruVictim at hv
      rw [hv]
      dsimp only
      split
      · exact ⟨x, by simp, _, rfl⟩
      · exact ⟨e, by simp [he], cnt, rfl⟩

/-- **`lru_replace`** of a key the map lacks: it restamps only, keeps the
queue, and caches the entry last, after giving up one of its entries when it
was full. -/
theorem lruReplace_spec (hlru : c.LruBound h) {key : Nat} (hkey : key ∉ c.cacheMap.map Prod.fst)
    (entry : Nat) :
    Restamped h (c.lruReplace h key entry).2.2 ∧
      (c.lruReplace h key entry).2.1.dirtyTables = c.dirtyTables ∧
      (key, entry) ∈ (c.lruReplace h key entry).2.1.cacheMap ∧
      LruBound (c.lruReplace h key entry).2.1 (c.lruReplace h key entry).2.2 ∧
      (((c.lruReplace h key entry).1 = none ∧
          (c.lruReplace h key entry).2.1.cacheMap = c.cacheMap ++ [(key, entry)]) ∨
        ∃ v rv, (v, rv) ∈ c.cacheMap ∧ (c.lruReplace h key entry).1 = some rv ∧
          (c.lruReplace h key entry).2.1.cacheMap = mapRemove c.cacheMap v ++ [(key, entry)]) := by
  obtain ⟨hmap, hq, hmax, hcnt, hre, hlru1⟩ := checkRefcount_spec hlru
  unfold lruReplace
  rcases hc : c.checkRefcount h with ⟨c1, h1⟩
  rw [hc] at hmap hq hmax hcnt hre hlru1
  dsimp only at hmap hq hmax hcnt hre hlru1 ⊢
  -- the stamped heap: the entry counts `c1.lru_count`, the others at most that
  have hre2 := hre.trans (restamped_modify h1 entry c1.lruCount)
  have hle : ∀ e ∈ c1.cacheMap,
      ((h1.modify entry fun t => { t with lruCount := c1.lruCount }).get e.2).lruCount ≤ c1.lruCount := by
    intro e he
    by_cases hr : e.2 = entry
    · rw [hr, TableHeap.get_modify_self]
    · rw [TableHeap.get_modify_of_ne _ _ hr]
      exact hlru1 e he
  have hlru2 : ∀ m : List (Nat × Nat), (∀ e ∈ m, e ∈ c1.cacheMap) →
      ∀ e ∈ m ++ [(key, entry)],
        ((h1.modify entry fun t => { t with lruCount := c1.lruCount }).get e.2).lruCount ≤ c1.lruCount + 1 := by
    intro m hm e he
    rcases List.mem_append.1 he with he | he
    · exact Nat.le_succ_of_le (hle e (hm e he))
    · rw [List.mem_singleton.1 he, TableHeap.get_modify_self]
      exact Nat.le_succ _
  rw [hmap] at hle hlru2 ⊢
  split
  · -- room left: the entry is added
    rw [mapInsert_of_not_mem hkey]
    exact ⟨hre2, hq, by simp, hlru2 c.cacheMap fun _ => id, .inl ⟨rfl, rfl⟩⟩
  · by_cases hemp : c.cacheMap = []
    · -- an empty map of no room: nothing to give up
      have hv : lruVictim (h1.modify entry fun t => { t with lruCount := c1.lruCount }) c.cacheMap =
          (U64_MAX.toNat, none, 0) := by rw [hemp]; rfl
      rw [hv]
      dsimp only
      rw [hemp] at hkey hlru2 ⊢
      exact ⟨hre2, hq, by simp [mapInsert, mapRemove], hlru2 [] fun _ => id, .inl ⟨rfl, rfl⟩⟩
    · obtain ⟨e, he, cnt, hv⟩ := lruVictim_mem hemp fun e he => Nat.lt_of_le_of_lt (hle e he) hcnt
      rw [hv]
      dsimp only
      have hkey' : key ∉ (mapRemove c.cacheMap e.1).map Prod.fst := fun hk =>
        hkey (by
          obtain ⟨p, hp, hpk⟩ := List.mem_map.1 hk
          exact hpk ▸ List.mem_map_of_mem (mem_mapRemove.1 hp).1)
      rw [mapInsert_of_not_mem hkey']
      exact ⟨hre2, hq, by simp, hlru2 _ fun p hp => (mem_mapRemove.1 hp).1,
        .inr ⟨e.1, e.2, he, rfl, rfl⟩⟩

end Qcow2Cache

/-! ## Writing tables back -/

/-- The host file under `SyncAioInfo`: `write_buffer`'s `pwrite` of `data` at
`offset`, which may fail, and otherwise gives the file after the write. -/
structure BlockIo where
  pwrite : List UInt8 → Nat → List UInt8 → Except String (List UInt8)

namespace BlockIo

/-- A write that succeeds writes the bytes, as `raw_write` does: every later
read of the file sees them. -/
def Writes (io : BlockIo) : Prop :=
  ∀ img offset data img', io.pwrite img offset data = .ok img' → img' = rawWrite img offset data

/-- Every write succeeds. -/
def Reliable (io : BlockIo) : Prop :=
  ∀ img offset data, io.pwrite img offset data = .ok (rawWrite img offset data)

theorem Reliable.writes {io : BlockIo} (h : io.Reliable) : io.Writes := by
  intro img offset data img' hw
  rw [h img offset data] at hw
  injection hw with hw
  exact hw.symm

end BlockIo

/-- `format!("Round up failed, value is {}", end)`. -/
def roundUpFailedText (v : Nat) : String := "Round up failed, value is " ++ toString v

/-- `SyncAioInfo::write_dirty_info`: the sectors of `buf` that hold the range
`[start, end)`, written at `addr`. `round_down` cannot fail for a sector
size of 512; `round_up` fails past `u64::MAX`. -/
def writeDirtyInfo (io : BlockIo) (img : List UInt8) (addr : Nat) (buf : List UInt8) (start «end» : Nat) :
    Except String (List UInt8) :=
  let s := roundDown start DEFAULT_SECTOR_SIZE
  let e := roundUp «end» DEFAULT_SECTOR_SIZE
  if e ≥ U64_MOD then .error (roundUpFailedText «end»)
  else if s > e then .error (Migration.sliceOrderPanic s e)
  else if e > buf.length then .error (Migration.rangeEndPanic e buf.length)
  else io.pwrite img (addr + s) (slice buf s e)

/-- A dirty table written back. -/
def writeBack (io : BlockIo) (img : List UInt8) (t : CacheTable) : Except String (List UInt8) :=
  writeDirtyInfo io img t.addr t.tableData t.dirtyInfo.start t.dirtyInfo.«end»

namespace Qcow2Cache

/-- One pass of `Qcow2Cache::flush`'s loop: a table still dirty is written
back, an error is kept for the end, and the table is clean either way. -/
def flushStep (io : BlockIo) (acc : Except String Unit × TableHeap × List UInt8) (r : Nat) :
    Except String Unit × TableHeap × List UInt8 :=
  let (ret, h, img) := acc
  let t := h.get r
  if !t.dirtyInfo.isDirty then acc
  else
    let h := h.modify r fun t => { t with dirtyInfo := DirtyInfo.default }
    match writeBack io img t with
    | .ok img => (ret, h, img)
    | .error e => (.error e, h, img)

/-- `Qcow2Cache::flush`: every queued table still dirty is written back, in
queue order; the queue is emptied. -/
def flush (io : BlockIo) (c : Qcow2Cache) (h : TableHeap) (img : List UInt8) :
    Except String Unit × Qcow2Cache × TableHeap × List UInt8 :=
  let (ret, h, img) := c.dirtyTables.foldl (flushStep io) (.ok (), h, img)
  (ret, { c with dirtyTables := [] }, h, img)

end Qcow2Cache

end StratoVirt.Qcow2
