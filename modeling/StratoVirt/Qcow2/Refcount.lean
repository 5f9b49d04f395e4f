import Mathlib
import StratoVirt.Qcow2.MetadataSize
import StratoVirt.Qcow2.CacheCoherence
import StratoVirt.Qcow2.Discard

/-!
# The refcount blocks and their cache: `RefCount`

`block_backend/src/qcow2/refcount.rs`. A cluster's refcount is a `u16`
entry of a refcount block, and the refcount table holds each block's address.
`set_refcount` changes the entries of one run of clusters of one block: it
loads the block into the refcount block cache if it is not there, computes
all the run's new values before it writes any of them, so a run fails as a
whole; but on the way it queues a discard for each cluster that reaches zero
and lowers `free_cluster_index`.

The cache is a `Qcow2Cache` of `RefCount::init_refcount_info`'s size: loading
a block into a full cache evicts the least recently used one, which
`save_refcount_block` writes back to the image when it is dirty. What a
cluster's refcount reads is its block's entry in the cache, or in the image
when the block is not cached (`refcountOf`); `CacheCoherence` shows that the
evictions do not change it, as long as the write-backs succeed.
`RefcountUpdate` puts these calls together into `update_refcount`.

Results:

* `WindowUpdate.revert`: applying `-added` to a window that `added` updated
  gives the old window back, and cannot fail;
* `loadRefcountBlock_spec`: loading a block keeps the cache coherent and
  changes no block's bytes, the evicted one's included, as long as its
  write-back succeeds;
* `setRefcount_spec`: a run that succeeds updates its block and moves no
  other; one that fails on a host whose writes never fail moves no block, and
  could not have been done;
* `flush_spec`: a flush that succeeds, from a cache whose dirty queue holds
  every change (`DirtyQueued`), changes no block and leaves them all in the
  image.

Mirroring notes:
- The refcount order is 4, the only one the header accepts, so
  `refcount_max` is `65535` and entries are `u16`.
- `is_aligned(cluster_size, addr)` is `offset_into_cluster(addr) == 0`.
- Errors are their display text; `with_context` shows only the context.
- Cluster numbers and byte offsets are `Nat`: the `u64` products do not wrap
  for images below `2^64` bytes.
-/

namespace StratoVirt.Qcow2

open StratoVirt.Lib StratoVirt.Util StratoVirt.AddressSpace

/-- `refcount_max` for refcount order 4. -/
def REFCOUNT_MAX : Nat := 65535

/-- `RefCount`: the fields `update_refcount` reads and writes. `sync_aio` is
the image file, and the cache's handles are numbers into `heap`. The table
has `refcount_table_size` entries, as `load_refcount_table` reads it; blocks
and clusters are powers of two, and `QcowHeader::check` keeps `cluster_bits`
from `MIN_CLUSTER_BIT` (9) to `MAX_CLUSTER_BIT` (21). -/
structure RefCount where
  refcountTable : List Nat
  syncAio : List UInt8
  refcountBlkCache : Qcow2Cache
  heap : TableHeap
  discardList : List DiscardTask
  discardPassthrough : List Qcow2DiscardType
  freeClusterIndex : Nat
  refcountTableSize : Nat
  refcountBlkBits : Nat
  refcountBlkSize : Nat
  clusterSize : Nat
  clusterBits : Nat
  table_length : refcountTable.length = refcountTableSize
  blk_size_eq : refcountBlkSize = 2 ^ refcountBlkBits
  cluster_size_eq : clusterSize = 2 ^ clusterBits
  cluster_bits_ge : 9 ≤ clusterBits
  cluster_bits_le : clusterBits ≤ 21

namespace RefCount

/-- `RefCount::offset_into_cluster`. -/
def offsetIntoCluster (st : RefCount) (offset : Nat) : Nat := offset &&& (st.clusterSize - 1)

/-- `RefCount::cluster_in_rc_block`. -/
def clusterInRcBlock (st : RefCount) (clusterIndex : Nat) : Nat :=
  clusterIndex &&& (st.refcountBlkSize - 1)

/-- `RefCount::save_refcount_block`: a dirty block is written back and marked
clean. -/
def saveRefcountBlock (io : BlockIo) (st : RefCount) (entry : Nat) : Except String Unit × RefCount :=
  let t := st.heap.get entry
  if !t.dirtyInfo.isDirty then (.ok (), st)
  else if st.offsetIntoCluster t.addr ≠ 0 then
    (.error ("Refcount block address is not aligned " ++ toString t.addr), st)
  else
    match writeDirtyInfo io st.syncAio t.addr t.tableData t.dirtyInfo.start t.dirtyInfo.«end» with
    | .error e => (.error e, st)
    | .ok img =>
      (.ok (), { st with
        syncAio := img
        heap := st.heap.modify entry fun t => { t with dirtyInfo := DirtyInfo.default } })

/-- `RefCount::load_refcount_block`: the block at the table's address is read
and cached; the block `lru_replace` gives up is saved. -/
def loadRefcountBlock (io : BlockIo) (st : RefCount) (rtIdx : Nat) : Except String Unit × RefCount :=
  match st.refcountTable[rtIdx]? with
  | none => (.error (Util.indexPanic rtIdx st.refcountTable.length), st)
  | some rbAddr =>
    if st.offsetIntoCluster rbAddr ≠ 0 then
      (.error ("Refcount block address not aligned " ++ toString rbAddr), st)
    else
      match readBuffer st.syncAio rbAddr st.clusterSize with
      | .error e => (.error e, st)
      | .ok rcBlock =>
        match CacheTable.new rbAddr rcBlock ENTRY_SIZE_U16 with
        | .error e => (.error e, st)
        | .ok t =>
          let (entry, heap) := st.heap.alloc t
          let (replaced, cache, heap) := st.refcountBlkCache.lruReplace heap rtIdx entry
          let st := { st with refcountBlkCache := cache, heap := heap }
          match replaced with
          | some victim => st.saveRefcountBlock io victim
          | none => (.ok (), st)

/-- `set_refcount`'s `if !contains_keys(rt_idx) { load_refcount_block(rt_idx)? }`. -/
def ensureLoaded (io : BlockIo) (st : RefCount) (rtIdx : Nat) : Except String Unit × RefCount :=
  if st.refcountBlkCache.containsKeys rtIdx then (.ok (), st)
  else
    match st.loadRefcountBlock io rtIdx with
    | (.error _, st) => (.error ("Failed to get refcount block cache, index is " ++ toString rtIdx), st)
    | (.ok (), st) => (.ok (), st)

end RefCount

/-- `checked_add` kept at most `refcount_max`, or `checked_sub`, of one
refcount. -/
def newRefcount (isAdd : Bool) (addedValue rcValue : UInt16) : Option UInt16 :=
  if isAdd then
    if rcValue.toNat + addedValue.toNat < 2 ^ 16 ∧ (rcValue + addedValue).toNat ≤ REFCOUNT_MAX then
      some (rcValue + addedValue)
    else none
  else if addedValue ≤ rcValue then some (rcValue - addedValue) else none

/-- `set_refcount`'s `is_add`: `added > 0`. -/
def addSign (added : Int) : Bool := decide (0 < added)

/-- `set_refcount`'s `added_value`: `added.unsigned_abs() as u16`. -/
def addedValueOf (added : Int) : UInt16 := UInt16.ofNat added.natAbs

namespace RefCount

/-- One pass of `set_refcount`'s first loop, at entry `rbIdx + i` of the
block `t` of table index `rtIdx`: the new value; when it is zero, the discard
of its cluster (if `discardType` passes) and the lowered
`free_cluster_index`. -/
def newValue (st : RefCount) (t : CacheTable) (rtIdx rbIdx : Nat) (isAdd : Bool) (addedValue : UInt16)
    (discardType : Qcow2DiscardType) (i : Nat) : Except String (UInt16 × RefCount) :=
  match t.beRead (rbIdx + i) with
  | .error e => .error e
  | .ok v =>
    let rcValue := UInt16.ofNat v
    match newRefcount isAdd addedValue rcValue with
    | none =>
      .error ("Refcount " ++ toString rcValue ++ (if isAdd then " add " else " sub ") ++
        toString addedValue ++ " cause overflows, index is " ++ toString i)
    | some rcValue =>
      let clusterIdx := rtIdx * st.refcountBlkSize + rbIdx + i
      if rcValue = 0 then
        let st := if st.discardPassthrough.contains discardType then
          { st with discardList :=
              updateDiscardList st.discardList (clusterIdx * st.clusterSize) st.clusterSize }
          else st
        let st := if clusterIdx < st.freeClusterIndex then { st with freeClusterIndex := clusterIdx }
          else st
        .ok (rcValue, st)
      else .ok (rcValue, st)

end RefCount

/-- The first loop of `set_refcount`, over the entries `is` of the run:
`rb_vec`, with the state the passes leave; an error keeps what the passes
before it did. -/
def newValues (t : CacheTable) (rtIdx rbIdx : Nat) (isAdd : Bool) (addedValue : UInt16)
    (discardType : Qcow2DiscardType) :
    List Nat → RefCount → List UInt16 → Except String (List UInt16) × RefCount
  | [], st, rbVec => (.ok rbVec, st)
  | i :: is, st, rbVec =>
    match st.newValue t rtIdx rbIdx isAdd addedValue discardType i with
    | .error e => (.error e, st)
    | .ok (rcValue, st') => newValues t rtIdx rbIdx isAdd addedValue discardType is st'
        (rbVec ++ [rcValue])

/-- The second loop of `set_refcount`: `set_entry_map` of each new value, from
entry `idx` on; a write that fails keeps those before it. -/
def setEntries : CacheTable → Nat → List UInt16 → Except String Unit × CacheTable
  | t, _, [] => (.ok (), t)
  | t, idx, v :: rest =>
    match t.setEntryMap idx v.toNat with
    | .error e => (.error e, t)
    | .ok t => setEntries t (idx + 1) rest

namespace RefCount

/-- `RefCount::set_refcount`: the run of `clusters` entries of block `rtIdx`
from `rbIdx`, with the state it leaves, also when it fails. -/
def setRefcount (io : BlockIo) (st : RefCount) (rtIdx rbIdx clusters : Nat) (added : Int)
    (discardType : Qcow2DiscardType) : Except String Unit × RefCount :=
  let isAdd := addSign added
  let addedValue := addedValueOf added
  match st.ensureLoaded io rtIdx with
  | (.error e, st) => (.error e, st)
  | (.ok (), st) =>
    let (hit, cache, heap) := st.refcountBlkCache.get st.heap rtIdx
    let st := { st with refcountBlkCache := cache, heap := heap }
    match hit with
    | none => (.error ("Not found refcount block cache, index is " ++ toString rtIdx), st)
    | some entry =>
      let t := st.heap.get entry
      match newValues t rtIdx rbIdx isAdd addedValue discardType (List.range clusters) st [] with
      | (.error e, st) => (.error e, st)
      | (.ok rbVec, st) =>
        let (res, t') := setEntries t rbIdx rbVec
        let st := { st with heap := st.heap.modify entry fun _ => t' }
        match res with
        | .error e => (.error e, st)
        | .ok () =>
          (.ok (), if t.dirtyInfo.isDirty then st
            else { st with refcountBlkCache := st.refcountBlkCache.addDirtyTable entry })

end RefCount

/-- `RefCount::set_refcount_blocks` from run `i` on: the index of the first
run that fails (the number of runs when none does), and the state. -/
def setRefcountBlocks (io : BlockIo) (added : Int) (discardType : Qcow2DiscardType) :
    Nat → List (Nat × Nat × Nat) → RefCount → Nat × RefCount
  | i, [], st => (i, st)
  | i, (rtIdx, rbIdx, num) :: rest, st =>
    match st.setRefcount io rtIdx rbIdx num added discardType with
    | (.error _, st') => (i, st')
    | (.ok (), st') => setRefcountBlocks io added discardType (i + 1) rest st'

namespace RefCount

theorem clusterInRcBlock_lt (st : RefCount) (c : Nat) : st.clusterInRcBlock c < st.refcountBlkSize := by
  unfold clusterInRcBlock
  rw [st.blk_size_eq, Nat.and_two_pow_sub_one_eq_mod]
  exact Nat.mod_lt _ (Nat.two_pow_pos _)

/-- The runs of `update_refcount` from cluster `firstCluster + i` on: one per
refcount block, up to the block's end or the last cluster. -/
def rcVecFrom (st : RefCount) (firstCluster clusters i : Nat) :
    Except String (List (Nat × Nat × Nat)) :=
  if i < clusters then
    let rtIdx := (firstCluster + i) >>> st.refcountBlkBits
    if h : rtIdx ≥ st.refcountTableSize then
      .error ("Invalid refcount table index " ++ toString rtIdx)
    else
      have : rtIdx < st.refcountTable.length := by rw [st.table_length]; omega
      let rbAddr := st.refcountTable[rtIdx]
      if rbAddr = 0 ∨ st.offsetIntoCluster rbAddr ≠ 0 then
        .error ("Invalid refcount block address 0x" ++ hexAddr rbAddr ++ ", index is " ++
          toString rtIdx)
      else
        let rbIdx := st.clusterInRcBlock (i + firstCluster)
        let num := min (st.refcountBlkSize - rbIdx) (clusters - i)
        (st.rcVecFrom firstCluster clusters (i + num)).map ((rtIdx, rbIdx, num) :: ·)
  else .ok []
termination_by clusters - i
decreasing_by
  have := st.clusterInRcBlock_lt (i + firstCluster)
  omega

/-- `RefCount::flush`: `Qcow2Cache::flush` of the refcount blocks into the
image. -/
def flush (io : BlockIo) (st : RefCount) : Except String Unit × RefCount :=
  let (ret, cache, heap, img) := st.refcountBlkCache.flush io st.heap st.syncAio
  (ret, { st with refcountBlkCache := cache, heap := heap, syncAio := img })

/-- `RefCount::update_refcount`. -/
def updateRefcount (io : BlockIo) (st : RefCount) (offset clusters : Nat) (added : Int)
    (flush : Bool) (discardType : Qcow2DiscardType) : Except String Unit × RefCount :=
  if st.offsetIntoCluster offset ≠ 0 then
    (.error "Failed to update refcount, offset is not aligned to cluster", st)
  else
    match divRoundUp offset st.clusterSize with
    | none => (.error unwrapNone, st)
    | some firstCluster =>
      match st.rcVecFrom firstCluster clusters 0 with
      | .error e => (.error e, st)
      | .ok rcVec =>
        let (idx, st) := setRefcountBlocks io added discardType 0 rcVec st
        if idx ≠ rcVec.length then
          -- revert the runs that succeeded
          let (revIdx, st) := setRefcountBlocks io (-added) discardType 0 (rcVec.take idx) st
          let status := if revIdx = idx then "success" else "failed"
          (.error ("Failed to set refcounts, recover " ++ status), st)
        else if flush then st.flush io
        else (.ok (), st)

/-! ## What a cluster's refcount reads -/

/-- The image address of refcount block `k`: its table entry, when that names
a block (not zero, cluster aligned). -/
def blockAddr (st : RefCount) (k : Nat) : Option Nat :=
  match st.refcountTable[k]? with
  | some a => if a = 0 ∨ st.offsetIntoCluster a ≠ 0 then none else some a
  | none => none

/-- The bytes of refcount block `k` as the next access reads them: the cached
table, or the cluster at its address in the image. -/
def blockData (st : RefCount) (k : Nat) : Option (List UInt8) :=
  cacheView st.clusterSize st.blockAddr st.refcountBlkCache st.heap st.syncAio k

/-- The refcount of cluster `c`, from its block as the next access reads it. -/
def refcountOf (st : RefCount) (c : Nat) : Option UInt16 :=
  (st.blockData (c >>> st.refcountBlkBits)).bind fun d => u16Entry d (st.clusterInRcBlock c)

/-- The bytes of refcount block `k` in the image file. -/
def imageBlockData (st : RefCount) (k : Nat) : Option (List UInt8) :=
  (st.blockAddr k).bind fun a => (readBuffer st.syncAio a st.clusterSize).toOption

/-- The refcount of cluster `c` in the image file. -/
def imageRefcountOf (st : RefCount) (c : Nat) : Option UInt16 :=
  (st.imageBlockData (c >>> st.refcountBlkBits)).bind fun d => u16Entry d (st.clusterInRcBlock c)

/-- The refcount block cache's dirty queue is exact: what a flush writes is
every change the cache holds. -/
def DirtyQueued (st : RefCount) : Prop := QueueExact st.refcountBlkCache st.heap none

/-- No two table entries name one block. -/
def TableApart (st : RefCount) : Prop :=
  ∀ i j a, st.blockAddr i = some a → st.blockAddr j = some a → i = j

/-- **The refcount state's invariant**: the block cache is coherent with the
image, and the table's blocks are distinct. -/
structure Inv (st : RefCount) : Prop where
  coherent : Coherent st.clusterSize ENTRY_SIZE_U16 st.blockAddr st.refcountBlkCache st.heap st.syncAio
  apart : st.TableApart

/-! ## The layout -/

/-- `st'` has the table and the sizes of `st`: what locating a block and a
cluster's refcount reads. -/
structure SameLayout (st st' : RefCount) : Prop where
  table : st'.refcountTable = st.refcountTable
  blkBits : st'.refcountBlkBits = st.refcountBlkBits
  blkSize : st'.refcountBlkSize = st.refcountBlkSize
  clusterSize : st'.clusterSize = st.clusterSize

theorem SameLayout.refl (st : RefCount) : SameLayout st st := ⟨rfl, rfl, rfl, rfl⟩

theorem SameLayout.trans {st st' st'' : RefCount} (h : SameLayout st st') (h' : SameLayout st' st'') :
    SameLayout st st'' :=
  ⟨h'.table.trans h.table, h'.blkBits.trans h.blkBits, h'.blkSize.trans h.blkSize,
    h'.clusterSize.trans h.clusterSize⟩

theorem offsetIntoCluster_eq (st : RefCount) (offset : Nat) :
    st.offsetIntoCluster offset = offset % st.clusterSize := by
  unfold offsetIntoCluster
  rw [st.cluster_size_eq, Nat.and_two_pow_sub_one_eq_mod]

theorem clusterInRcBlock_eq (st : RefCount) (c : Nat) : st.clusterInRcBlock c = c % st.refcountBlkSize := by
  unfold clusterInRcBlock
  rw [st.blk_size_eq, Nat.and_two_pow_sub_one_eq_mod]

theorem shiftRight_blkBits (st : RefCount) (c : Nat) : c >>> st.refcountBlkBits = c / st.refcountBlkSize := by
  rw [Nat.shiftRight_eq_div_pow, st.blk_size_eq]

theorem refcountBlkSize_pos (st : RefCount) : 0 < st.refcountBlkSize := by
  rw [st.blk_size_eq]
  exact Nat.two_pow_pos _

/-- A cluster is whole sectors. -/
theorem sector_dvd_clusterSize (st : RefCount) : DEFAULT_SECTOR_SIZE ∣ st.clusterSize := by
  have h : 2 ^ 9 ∣ 2 ^ st.clusterBits := Nat.pow_dvd_pow 2 st.cluster_bits_ge
  simpa [DEFAULT_SECTOR_SIZE, st.cluster_size_eq] using h

theorem clusterSize_lt (st : RefCount) : st.clusterSize < U64_MOD := by
  have h : 2 ^ st.clusterBits ≤ 2 ^ 21 := Nat.pow_le_pow_right (by decide) st.cluster_bits_le
  have h64 : 2 ^ 21 < U64_MOD := by decide
  rw [st.cluster_size_eq]
  omega

theorem blockAddr_eq_some {st : RefCount} {k a : Nat} :
    st.blockAddr k = some a ↔ st.refcountTable[k]? = some a ∧ a ≠ 0 ∧ st.offsetIntoCluster a = 0 := by
  unfold blockAddr
  split
  · rename_i a' ha'
    rw [ha']
    split
    · rename_i hbad
      simp only [reduceCtorEq, Option.some.injEq, false_iff, not_and]
      intro ha hne
      subst ha
      omega
    · rename_i hgood
      simp only [Option.some.injEq]
      constructor
      · rintro rfl
        exact ⟨rfl, by omega⟩
      · rintro ⟨rfl, -⟩
        rfl
  · rename_i hnone
    rw [hnone]
    simp

/-- The table's blocks are aligned and, when the table is apart, distinct. -/
theorem apart_of_tableApart {st : RefCount} (h : st.TableApart) : Apart st.clusterSize st.blockAddr where
  aligned := fun k a ha => by
    rw [← offsetIntoCluster_eq]
    exact (blockAddr_eq_some.1 ha).2.2
  inj := h

/-- A table with no entry twice is apart. -/
theorem tableApart_of_nodup {st : RefCount} (h : st.refcountTable.Nodup) : st.TableApart := by
  intro i j a hi hj
  have hi' := (blockAddr_eq_some.1 hi).1
  have hj' := (blockAddr_eq_some.1 hj).1
  obtain ⟨hi1, hi2⟩ := List.getElem?_eq_some_iff.1 hi'
  obtain ⟨hj1, hj2⟩ := List.getElem?_eq_some_iff.1 hj'
  exact (List.Nodup.getElem_inj_iff h).1 (hi2.trans hj2.symm)

theorem Inv.toApart {st : RefCount} (hinv : st.Inv) : Apart st.clusterSize st.blockAddr :=
  apart_of_tableApart hinv.apart

theorem SameLayout.blockAddr_eq {st st' : RefCount} (hl : SameLayout st st') : st'.blockAddr = st.blockAddr := by
  funext k
  unfold blockAddr offsetIntoCluster
  rw [hl.table, hl.clusterSize]

/-- A state of the same layout whose cache is coherent keeps the invariant. -/
theorem Inv.of_sameLayout {st st' : RefCount} (hinv : st.Inv) (hl : SameLayout st st')
    (hc : Coherent st.clusterSize ENTRY_SIZE_U16 st.blockAddr st'.refcountBlkCache st'.heap st'.syncAio) :
    st'.Inv := by
  refine ⟨?_, ?_⟩
  · rw [hl.blockAddr_eq, hl.clusterSize]
    exact hc
  · unfold TableApart
    rw [hl.blockAddr_eq]
    exact hinv.apart

/-- Two states with one layout whose blocks hold the same entries have the
same refcounts. -/
theorem refcountOf_congr {st st' : RefCount} (hl : SameLayout st st')
    (hb : ∀ k j, (st'.blockData k).bind (fun d => u16Entry d j) = (st.blockData k).bind fun d => u16Entry d j)
    (c : Nat) : st'.refcountOf c = st.refcountOf c := by
  unfold refcountOf clusterInRcBlock
  rw [hl.blkBits, hl.blkSize, hb]

theorem refcountOf_eq (st : RefCount) (c : Nat) :
    st.refcountOf c =
      (st.blockData (c / st.refcountBlkSize)).bind fun d => u16Entry d (c % st.refcountBlkSize) := by
  rw [refcountOf, st.shiftRight_blkBits, st.clusterInRcBlock_eq]

end RefCount

/-! ## What a run does to its block -/

/-- `new` is the block `old` after a run of `num` entries from `rbIdx`, entry
by entry: `newRefcount` succeeds on every entry of the window and gives the
new one, and every other entry is as it was. -/
structure WindowUpdate (isAdd : Bool) (addedValue : UInt16) (old : Nat → Option UInt16)
    (rbIdx num : Nat) (new : Nat → Option UInt16) : Prop where
  window : ∀ k, rbIdx ≤ k → k < rbIdx + num →
    ∃ v w, old k = some v ∧ new k = some w ∧ newRefcount isAdd addedValue v = some w
  outside : ∀ k, ¬ (rbIdx ≤ k ∧ k < rbIdx + num) → new k = old k

/-- **Reverting one refcount.** What `-added` does to a refcount that `added`
changed gives the old one back: an increment that did not overflow can be
taken back, and a decrement that did not underflow can be added back, since
`refcount_max` is the largest `u16`. -/
theorem newRefcount_revert {added : Int} {v w : UInt16}
    (h : newRefcount (addSign added) (addedValueOf added) v = some w) :
    newRefcount (addSign (-added)) (addedValueOf (-added)) w = some v := by
  have hav : addedValueOf (-added) = addedValueOf added := by
    simp only [addedValueOf, Int.natAbs_neg]
  rw [hav]
  unfold addSign newRefcount at *
  rcases lt_trichotomy added 0 with hneg | rfl | hpos
  · -- a decrement: `w = v - av`, and adding `av` back cannot overflow
    rw [decide_eq_false (by omega), if_neg Bool.false_ne_true] at h
    rw [decide_eq_true (by omega), if_pos rfl]
    split at h
    · rename_i hle
      cases h
      have hsub := UInt16.toNat_sub_of_le v (addedValueOf added) hle
      have hle' := UInt16.le_iff_toNat_le.1 hle
      have hv := v.toNat_lt
      rw [sub_add_cancel, if_pos ⟨by omega, by unfold REFCOUNT_MAX; omega⟩]
    · cases h
  · -- `added = 0`: the value is kept both ways
    have h0 : addedValueOf 0 = 0 := rfl
    rw [h0, decide_eq_false (lt_irrefl 0), if_neg Bool.false_ne_true, if_pos UInt16.zero_le,
      sub_zero] at h
    cases h
    rw [h0, neg_zero, decide_eq_false (lt_irrefl 0), if_neg Bool.false_ne_true,
      if_pos UInt16.zero_le, sub_zero]
  · -- an increment that did not overflow: taking `av` back gives `v`
    rw [decide_eq_true hpos, if_pos rfl] at h
    rw [decide_eq_false (by omega), if_neg Bool.false_ne_true]
    split at h
    · rename_i hfit
      cases h
      have hadd := UInt16.toNat_add v (addedValueOf added)
      rw [Nat.mod_eq_of_lt hfit.1] at hadd
      have hle : addedValueOf added ≤ v + addedValueOf added := by
        rw [UInt16.le_iff_toNat_le, hadd]
        omega
      rw [if_pos hle, add_sub_cancel_right]
    · cases h

/-- **Reverting a run.** The run with `-added` over a window that the run
with `added` updated succeeds and gives the old block back. -/
theorem WindowUpdate.revert {added : Int} {old new : Nat → Option UInt16} {rbIdx num : Nat}
    (h : WindowUpdate (addSign added) (addedValueOf added) old rbIdx num new) :
    WindowUpdate (addSign (-added)) (addedValueOf (-added)) new rbIdx num old := by
  refine ⟨fun k hk1 hk2 => ?_, fun k hk => (h.outside k hk).symm⟩
  obtain ⟨v, w, hv, hw, hvw⟩ := h.window k hk1 hk2
  exact ⟨w, v, hw, hv, newRefcount_revert hvw⟩

/-- The block after a run is determined by the block and the run. -/
theorem WindowUpdate.unique {isAdd : Bool} {addedValue : UInt16} {old n1 n2 : Nat → Option UInt16}
    {rbIdx num : Nat} (h1 : WindowUpdate isAdd addedValue old rbIdx num n1)
    (h2 : WindowUpdate isAdd addedValue old rbIdx num n2) : n1 = n2 := by
  funext k
  by_cases hk : rbIdx ≤ k ∧ k < rbIdx + num
  · obtain ⟨v, w, hv, hw, hvw⟩ := h1.window k hk.1 hk.2
    obtain ⟨v', w', hv', hw', hvw'⟩ := h2.window k hk.1 hk.2
    rw [hv, Option.some.injEq] at hv'
    subst hv'
    rw [hvw, Option.some.injEq] at hvw'
    rw [hw, hw', hvw']
  · rw [h1.outside k hk, h2.outside k hk]

/-! ## The two loops of `set_refcount` -/

section Loops

variable {t : CacheTable} {rtIdx rbIdx : Nat} {isAdd : Bool} {addedValue : UInt16}
  {discardType : Qcow2DiscardType}

namespace RefCount

/-- **One pass of the first loop**: it fails exactly when the entry is missing
or `newRefcount` fails on it, and otherwise moves only the discard list and
`free_cluster_index`. -/
theorem newValue_spec (st : RefCount) (hsz : t.entrySize = ENTRY_SIZE_U16) (i : Nat) :
    ((∃ e, st.newValue t rtIdx rbIdx isAdd addedValue discardType i = .error e) ∧
        (u16Entry t.tableData (rbIdx + i)).bind (newRefcount isAdd addedValue) = none) ∨
      ∃ w dl fci, st.newValue t rtIdx rbIdx isAdd addedValue discardType i =
          .ok (w, { st with discardList := dl, freeClusterIndex := fci }) ∧
        (u16Entry t.tableData (rbIdx + i)).bind (newRefcount isAdd addedValue) = some w := by
  rw [newValue, CacheTable.beRead_u16 hsz]
  rcases hv : u16Entry t.tableData (rbIdx + i) with _ | v
  · exact .inl ⟨⟨_, rfl⟩, rfl⟩
  · dsimp only
    rw [UInt16.ofNat_toNat, Option.bind_some]
    rcases hw : newRefcount isAdd addedValue v with _ | w
    · exact .inl ⟨⟨_, rfl⟩, rfl⟩
    · refine .inr ⟨w, ?_⟩
      dsimp only
      split
      · -- the value reached zero: the discard list and the free index may move
        split <;> split <;> exact ⟨_, _, rfl, rfl⟩
      · exact ⟨st.discardList, st.freeClusterIndex, rfl, rfl⟩

end RefCount

/-- **The first loop of `set_refcount`.** Over the entries `s, …, s + n - 1`
of the run it moves only the discard list and `free_cluster_index`; it
succeeds when `newRefcount` succeeds on every entry, and then `rb_vec` is
their new values. -/
theorem newValues_spec (hsz : t.entrySize = ENTRY_SIZE_U16) :
    ∀ (n s : Nat) (st : RefCount) (acc : List UInt16),
      (∃ dl fci, (newValues t rtIdx rbIdx isAdd addedValue discardType (List.range' s n) st acc).2 =
        { st with discardList := dl, freeClusterIndex := fci }) ∧
      (∀ out, (newValues t rtIdx rbIdx isAdd addedValue discardType (List.range' s n) st acc).1 =
          .ok out → ∃ vs, out = acc ++ vs ∧ vs.length = n ∧
            ∀ j < n, (u16Entry t.tableData (rbIdx + (s + j))).bind (newRefcount isAdd addedValue) = vs[j]?) ∧
      ((∀ j < n, ((u16Entry t.tableData (rbIdx + (s + j))).bind (newRefcount isAdd addedValue)).isSome) →
        ∃ out, (newValues t rtIdx rbIdx isAdd addedValue discardType (List.range' s n) st acc).1 =
          .ok out)
  | 0, s, st, acc => by
    refine ⟨⟨st.discardList, st.freeClusterIndex, rfl⟩, fun out h => ?_, fun _ => ⟨acc, rfl⟩⟩
    cases h
    exact ⟨[], by simp, rfl, fun j hj => absurd hj (Nat.not_lt_zero j)⟩
  | n + 1, s, st, acc => by
    rw [List.range'_succ]
    rcases @RefCount.newValue_spec t rtIdx rbIdx isAdd addedValue discardType st hsz s with
      ⟨⟨e, he⟩, hnone⟩ | ⟨w, dl, fci, hok, hsome⟩
    · -- the first entry fails: nothing more is computed
      simp only [newValues, he]
      refine ⟨⟨st.discardList, st.freeClusterIndex, rfl⟩, fun out h => (nomatch h), fun hall => ?_⟩
      have := hall 0 (Nat.succ_pos n)
      rw [Nat.add_zero, hnone] at this
      cases this
    · simp only [newValues, hok]
      obtain ⟨⟨dl', fci', hst⟩, hout, hex⟩ := newValues_spec hsz n (s + 1)
        { st with discardList := dl, freeClusterIndex := fci } (acc ++ [w])
      -- entry `s + 1 + j` of the rest is entry `s + (j + 1)` of the run
      have hidx : ∀ j, rbIdx + (s + 1 + j) = rbIdx + (s + (j + 1)) := fun j => by omega
      refine ⟨⟨dl', fci', hst⟩, fun out h => ?_, fun hall => hex fun j hj => ?_⟩
      · obtain ⟨vs, rfl, hlen, hvs⟩ := hout out h
        refine ⟨w :: vs, by simp, by simp [hlen], fun j hj => ?_⟩
        cases j with
        | zero => rw [Nat.add_zero, hsome]; rfl
        | succ j =>
          rw [← hidx, hvs j (by omega)]
          rfl
      · rw [hidx]
        exact hall (j + 1) (by omega)

end Loops

section Entries

variable {n : Nat} {addrOf : Nat → Option Nat} {img : List UInt8} {key : Nat} {t : CacheTable}

/-- One `set_entry_map` of a `u16` value rewrites the table: its dirty range
grows over the entry, and the entry's bytes are all it changes. -/
theorem setEntryMap_rewritten (hb : Backed n ENTRY_SIZE_U16 addrOf img key t) {idx : Nat} (v : UInt16)
    (hidx : idx * ENTRY_SIZE_U16 + ENTRY_SIZE_U16 ≤ t.tableData.length) :
    Rewritten n t { t with
      tableData := spliceAt t.tableData (idx * ENTRY_SIZE_U16) (beEncode ENTRY_SIZE_U16 v.toNat),
      dirtyInfo := ⟨true, min t.dirtyInfo.start (idx * ENTRY_SIZE_U16),
        max t.dirtyInfo.«end» (idx * ENTRY_SIZE_U16 + ENTRY_SIZE_U16)⟩ } := by
  have hfit : idx * ENTRY_SIZE_U16 + (beEncode ENTRY_SIZE_U16 v.toNat).length ≤ t.tableData.length := by
    rwa [beEncode_length]
  have hlen := hb.length
  have hend := hb.endLe
  refine ⟨rfl, rfl, rfl, length_spliceAt hfit, ?_, fun _ => ?_, fun j hj => ?_⟩
  · dsimp only
    omega
  · dsimp only
    omega
  · -- a byte outside the new dirty range is outside the old one and the entry
    unfold DirtyAt at hj
    dsimp only at hj
    have hout : ¬(min t.dirtyInfo.start (idx * ENTRY_SIZE_U16) ≤ j ∧
        j < max t.dirtyInfo.«end» (idx * ENTRY_SIZE_U16 + ENTRY_SIZE_U16)) := fun h => hj ⟨rfl, h⟩
    refine ⟨fun hd => hout ⟨by have := hd.2.1; omega, by have := hd.2.2; omega⟩, ?_⟩
    dsimp only
    rw [getElem?_spliceAt hfit, if_neg (by rw [beEncode_length]; omega)]

/-- **The second loop of `set_refcount`.** Writing `vs` from entry `idx` of a
backed table whose entries there exist succeeds; it rewrites the table, whose
entries are then `vs` there and the old ones everywhere else. -/
theorem setEntries_spec : ∀ (vs : List UInt16) (t : CacheTable) (idx : Nat),
    Backed n ENTRY_SIZE_U16 addrOf img key t →
    (∀ j < vs.length, (u16Entry t.tableData (idx + j)).isSome) →
      (setEntries t idx vs).1 = .ok () ∧ Rewritten n t (setEntries t idx vs).2 ∧
        ∀ k, u16Entry (setEntries t idx vs).2.tableData k =
          if idx ≤ k ∧ k < idx + vs.length then vs[k - idx]? else u16Entry t.tableData k
  | [], t, idx, hb, _ => ⟨rfl, Rewritten.refl hb, fun k => by rw [if_neg (by simp only [List.length_nil]; omega)]; rfl⟩
  | v :: rest, t, idx, hb, hall => by
    have hidx : idx * ENTRY_SIZE_U16 + ENTRY_SIZE_U16 ≤ t.tableData.length := by
      have := hall 0 (by simp)
      rwa [Nat.add_zero, u16Entry_isSome] at this
    have hr1 := setEntryMap_rewritten hb v hidx
    have hb1 := hb.rewritten hr1
    have hent1 := u16Entry_spliceAt v hidx
    obtain ⟨hok, hr, hk⟩ := setEntries_spec rest _ (idx + 1) hb1 fun j hj => by
      have := hall (j + 1) (by simp; omega)
      rw [hent1, if_neg (by omega), show idx + 1 + j = idx + (j + 1) by omega]
      exact this
    have hstep : setEntries t idx (v :: rest) = setEntries { t with
        tableData := spliceAt t.tableData (idx * ENTRY_SIZE_U16) (beEncode ENTRY_SIZE_U16 v.toNat),
        dirtyInfo := ⟨true, min t.dirtyInfo.start (idx * ENTRY_SIZE_U16),
          max t.dirtyInfo.«end» (idx * ENTRY_SIZE_U16 + ENTRY_SIZE_U16)⟩ } (idx + 1) rest := by
      rw [setEntries, CacheTable.setEntryMap_u16 hb.entrySize v hidx]
    rw [hstep]
    refine ⟨hok, hr1.trans hr, fun k => ?_⟩
    rw [hk k, hent1]
    -- entry `idx` holds `v`, the ones after it the rest of `vs`
    by_cases hA : idx + 1 ≤ k ∧ k < idx + 1 + rest.length
    · rw [if_pos hA, if_pos (show idx ≤ k ∧ k < idx + (v :: rest).length by simp; omega),
        show k - idx = (k - (idx + 1)) + 1 by omega, List.getElem?_cons_succ]
    · rw [if_neg hA]
      by_cases hB : k = idx
      · subst hB
        rw [if_pos rfl, if_pos (show k ≤ k ∧ k < k + (v :: rest).length by simp), Nat.sub_self,
          List.getElem?_cons_zero]
      · rw [if_neg hB, if_neg (show ¬ (idx ≤ k ∧ k < idx + (v :: rest).length) by simp; omega)]

end Entries

/-- **A run on a block, as a whole.** When the first loop of `set_refcount`
succeeds on a backed block, the writes succeed too, and the block is updated
as `WindowUpdate` says. -/
theorem windowUpdate_of_run {n : Nat} {addrOf : Nat → Option Nat} {img : List UInt8} {key : Nat}
    {t : CacheTable} (hb : Backed n ENTRY_SIZE_U16 addrOf img key t) {rtIdx rbIdx num : Nat}
    {isAdd : Bool} {addedValue : UInt16} {discardType : Qcow2DiscardType} {st : RefCount}
    {rbVec : List UInt16}
    (hvals : (newValues t rtIdx rbIdx isAdd addedValue discardType (List.range num) st []).1 = .ok rbVec) :
    (setEntries t rbIdx rbVec).1 = .ok () ∧ Rewritten n t (setEntries t rbIdx rbVec).2 ∧
      WindowUpdate isAdd addedValue (u16Entry t.tableData) rbIdx num
        (u16Entry (setEntries t rbIdx rbVec).2.tableData) := by
  rw [List.range_eq_range'] at hvals
  obtain ⟨vs, hvs_eq, hlen, hvs⟩ :=
    (newValues_spec hb.entrySize num 0 st []).2.1 _ hvals
  rw [List.nil_append] at hvs_eq
  subst hvs_eq
  -- every entry of the window exists, as the first loop read it
  have hex : ∀ j < rbVec.length, (u16Entry t.tableData (rbIdx + j)).isSome := fun j hj => by
    have := hvs j (by omega)
    rw [Nat.zero_add, List.getElem?_eq_getElem hj] at this
    cases h : u16Entry t.tableData (rbIdx + j) with
    | none => rw [h] at this; cases this
    | some _ => rfl
  obtain ⟨hok, hr, hk⟩ := setEntries_spec rbVec t rbIdx hb hex
  rw [hlen] at hk
  refine ⟨hok, hr, fun k hk1 hk2 => ?_, fun k hout => by rw [hk k, if_neg hout]⟩
  -- entry `k` is value `k - rbIdx` of `rb_vec`
  have hj := hvs (k - rbIdx) (by omega)
  rw [show rbIdx + (0 + (k - rbIdx)) = k by omega] at hj
  obtain ⟨w, hw⟩ : ∃ w, rbVec[k - rbIdx]? = some w :=
    ⟨rbVec[k - rbIdx], List.getElem?_eq_getElem (by omega)⟩
  rw [hw, Option.bind_eq_some_iff] at hj
  obtain ⟨v, hv, hvw⟩ := hj
  exact ⟨v, w, hv, by rw [hk k, if_pos ⟨hk1, hk2⟩, hw], hvw⟩

/-- Conversely, the first loop succeeds over a window that `WindowUpdate` can
update. -/
theorem run_of_windowUpdate {t : CacheTable} (hsz : t.entrySize = ENTRY_SIZE_U16) {rbIdx num : Nat}
    {isAdd : Bool} {addedValue : UInt16} (rtIdx : Nat) (discardType : Qcow2DiscardType) (st : RefCount)
    {new : Nat → Option UInt16}
    (hw : WindowUpdate isAdd addedValue (u16Entry t.tableData) rbIdx num new) :
    ∃ rbVec, (newValues t rtIdx rbIdx isAdd addedValue discardType (List.range num) st []).1 = .ok rbVec := by
  rw [List.range_eq_range']
  refine (newValues_spec hsz num 0 st []).2.2 fun j hj => ?_
  obtain ⟨v, w, hv, -, hvw⟩ := hw.window (rbIdx + j) (by omega) (by omega)
  rw [Nat.zero_add, hv, Option.bind_some, hvw]
  rfl

/-! ## Loading and saving blocks -/

namespace RefCount

variable {io : BlockIo}

/-- `save_refcount_block` moves only the tables and the image. -/
theorem saveRefcountBlock_frame (st : RefCount) (entry : Nat) :
    ∃ h img, (st.saveRefcountBlock io entry).2 = { st with heap := h, syncAio := img } := by
  unfold saveRefcountBlock
  dsimp only
  split
  · exact ⟨st.heap, st.syncAio, rfl⟩
  · split
    · exact ⟨st.heap, st.syncAio, rfl⟩
    · split
      · exact ⟨st.heap, st.syncAio, rfl⟩
      · exact ⟨_, _, rfl⟩

/-- `load_refcount_block` moves only the cache, the tables and the image. -/
theorem loadRefcountBlock_frame (st : RefCount) (rtIdx : Nat) :
    ∃ c h img, (st.loadRefcountBlock io rtIdx).2 =
      { st with refcountBlkCache := c, heap := h, syncAio := img } := by
  unfold loadRefcountBlock
  split
  · exact ⟨_, _, _, rfl⟩
  · split
    · exact ⟨_, _, _, rfl⟩
    · split
      · exact ⟨_, _, _, rfl⟩
      · split
        · exact ⟨_, _, _, rfl⟩
        · generalize st.heap.alloc _ = A
          obtain ⟨entry, heap⟩ := A
          dsimp only
          generalize st.refcountBlkCache.lruReplace heap rtIdx entry = R
          obtain ⟨rep, c, h⟩ := R
          dsimp only
          cases rep with
          | none => exact ⟨c, h, _, rfl⟩
          | some v =>
            obtain ⟨h', img', hst⟩ :=
              @saveRefcountBlock_frame io { st with refcountBlkCache := c, heap := h } v
            exact ⟨c, h', img', hst⟩

/-- `set_refcount`'s load moves only the cache, the tables and the image. -/
theorem ensureLoaded_frame (st : RefCount) (rtIdx : Nat) :
    ∃ c h img, (st.ensureLoaded io rtIdx).2 =
      { st with refcountBlkCache := c, heap := h, syncAio := img } := by
  unfold ensureLoaded
  split
  · exact ⟨_, _, _, rfl⟩
  · obtain ⟨c, h, img, hst⟩ := @loadRefcountBlock_frame io st rtIdx
    rcases hl : st.loadRefcountBlock io rtIdx with ⟨_ | _, st'⟩ <;> rw [hl] at hst <;> exact ⟨c, h, img, hst⟩


theorem blockData_of_cache (st : RefCount) (c : Qcow2Cache) (h : TableHeap) (img : List UInt8) :
    ({ st with refcountBlkCache := c, heap := h, syncAio := img } : RefCount).blockData =
      cacheView st.clusterSize st.blockAddr c h img := rfl

theorem Inv.of_cache {st : RefCount} (hinv : st.Inv) {c : Qcow2Cache} {h : TableHeap} {img : List UInt8}
    (hc : Coherent st.clusterSize ENTRY_SIZE_U16 st.blockAddr c h img) :
    ({ st with refcountBlkCache := c, heap := h, syncAio := img } : RefCount).Inv :=
  ⟨hc, hinv.apart⟩

/-- **`save_refcount_block` of the victim**, a block out of the map and
backed by the image. It keeps the invariant. When it succeeds the victim's
block reads its bytes from the image, and every other block what it read; it
fails only on a write that fails, and then changes nothing. -/
theorem saveRefcountBlock_spec {st : RefCount} (hinv : st.Inv) {v rv : Nat}
    (hv : ∀ e ∈ st.refcountBlkCache.cacheMap, e.1 ≠ v ∧ e.2 ≠ rv)
    (hb : Backed st.clusterSize ENTRY_SIZE_U16 st.blockAddr st.syncAio v (st.heap.get rv)) (hio : io.Writes) :
    (st.saveRefcountBlock io rv).2.Inv ∧
      ((st.saveRefcountBlock io rv).1 = .ok () → ∀ k, (st.saveRefcountBlock io rv).2.blockData k =
          if k = v then some (st.heap.get rv).tableData else st.blockData k) ∧
      (∀ e, (st.saveRefcountBlock io rv).1 = .error e → (st.saveRefcountBlock io rv).2 = st ∧ ¬ io.Reliable) ∧
      (QueueExact st.refcountBlkCache st.heap (some rv) → (st.saveRefcountBlock io rv).1 = .ok () →
        (st.saveRefcountBlock io rv).2.DirtyQueued) := by
  have hap := hinv.toApart
  unfold saveRefcountBlock
  dsimp only
  by_cases hd : (st.heap.get rv).dirtyInfo.isDirty = true
  · -- a dirty victim, at an aligned address: the write decides
    have haligned : st.offsetIntoCluster (st.heap.get rv).addr = 0 := (blockAddr_eq_some.1 hb.addr).2.2
    rw [if_neg (by simp [hd]), if_neg (by rw [haligned]; exact fun h => h rfl)]
    have hwb : writeDirtyInfo io st.syncAio (st.heap.get rv).addr (st.heap.get rv).tableData
        (st.heap.get rv).dirtyInfo.start (st.heap.get rv).dirtyInfo.«end» = writeBack io st.syncAio (st.heap.get rv) :=
      rfl
    rw [hwb]
    rcases hw : writeBack io st.syncAio (st.heap.get rv) with e | img' <;> dsimp only
    · refine ⟨hinv, (fun h => nomatch h), fun _ _ => ⟨rfl, fun hrel => ?_⟩, fun _ h => nomatch h⟩
      obtain ⟨img'', h''⟩ := hb.writeBack_ok st.sector_dvd_clusterSize st.clusterSize_lt hrel hd
      rw [hw] at h''
      cases h''
    · obtain ⟨hc', hview⟩ := hinv.coherent.writeBackVictim hap hv hb
        (hb.writtenBack st.sector_dvd_clusterSize hio hw)
        (TableHeap.next_modify st.heap rv fun t => { t with dirtyInfo := DirtyInfo.default })
        fun r hr => TableHeap.get_modify_of_ne _ _ hr
      refine ⟨hinv.of_cache hc', fun _ => hview, (fun _ h => nomatch h), fun hq _ =>
        hq.clean (fun e he => (hv e he).2) ?_ fun r hr =>
          TableHeap.get_modify_of_ne st.heap (fun t => { t with dirtyInfo := DirtyInfo.default }) hr⟩
      rw [TableHeap.get_modify_self]
      rfl
  · -- a clean victim: the image already holds it
    have hcl : (st.heap.get rv).dirtyInfo.isDirty = false := by simpa using hd
    rw [if_pos (by simp [hcl])]
    obtain ⟨-, hview⟩ := hinv.coherent.writeBackVictim hap hv hb (hb.writtenBack_clean hcl) rfl
      fun _ _ => rfl
    exact ⟨hinv, fun _ => hview, (fun _ h => nomatch h), fun hq _ =>
      hq.clean (fun e he => (hv e he).2) hcl fun _ _ => rfl⟩

/-- **`load_refcount_block` of a block not cached.** It keeps the invariant;
when it succeeds the block is cached and every block reads as before. On a
host whose writes succeed it fails only when the block cannot be read, and
then changes nothing. -/
theorem loadRefcountBlock_spec {st : RefCount} (hinv : st.Inv) {rtIdx a : Nat}
    (ha : st.blockAddr rtIdx = some a) (hnc : rtIdx ∉ st.refcountBlkCache.cacheMap.map Prod.fst)
    (hio : io.Writes) :
    (st.loadRefcountBlock io rtIdx).2.Inv ∧
      ((st.loadRefcountBlock io rtIdx).1 = .ok () →
        rtIdx ∈ (st.loadRefcountBlock io rtIdx).2.refcountBlkCache.cacheMap.map Prod.fst ∧
        (st.loadRefcountBlock io rtIdx).2.blockData = st.blockData) ∧
      (∀ e, (st.loadRefcountBlock io rtIdx).1 = .error e → io.Reliable →
        (st.loadRefcountBlock io rtIdx).2 = st ∧ st.blockData rtIdx = none) ∧
      (st.DirtyQueued → (st.loadRefcountBlock io rtIdx).1 = .ok () →
        (st.loadRefcountBlock io rtIdx).2.DirtyQueued) := by
  obtain ⟨htab, -, hal⟩ := blockAddr_eq_some.1 ha
  have hap := hinv.toApart
  unfold loadRefcountBlock
  rw [htab]
  dsimp only
  rw [if_neg (by rw [hal]; exact fun h => h rfl)]
  rcases hread : readBuffer st.syncAio a st.clusterSize with e | d <;> dsimp only
  · -- the read fails: nothing moves
    refine ⟨hinv, (fun h => nomatch h), fun _ _ _ => ⟨rfl, ?_⟩, fun _ h => nomatch h⟩
    unfold blockData
    rw [cacheView_of_not_mem hnc, ha, Option.bind_some, hread]
    rfl
  rw [CacheTable.new, if_neg (by decide)]
  dsimp only
  -- the table read, clean and backed by the image, in a new handle
  have hb0 : Backed st.clusterSize ENTRY_SIZE_U16 st.blockAddr st.syncAio rtIdx
      ⟨DirtyInfo.default, 0, a, ENTRY_SIZE_U16, d⟩ := Backed.of_read ha hread
  have hcl0 : (⟨DirtyInfo.default, 0, a, ENTRY_SIZE_U16, d⟩ : CacheTable).dirtyInfo.isDirty = false := rfl
  generalize (⟨DirtyInfo.default, 0, a, ENTRY_SIZE_U16, d⟩ : CacheTable) = t at hb0 hcl0 ⊢
  obtain ⟨hc1, hv1⟩ := hinv.coherent.alloc t
  have hr : (st.heap.alloc t).1 < (st.heap.alloc t).2.next := by simp
  have hnew : ∀ e ∈ st.refcountBlkCache.cacheMap, e.2 ≠ (st.heap.alloc t).1 := fun e he =>
    Nat.ne_of_lt (by simpa using hinv.coherent.fresh e he)
  have hbr : Backed st.clusterSize ENTRY_SIZE_U16 st.blockAddr st.syncAio rtIdx
      ((st.heap.alloc t).2.get (st.heap.alloc t).1) := by
    rw [TableHeap.alloc_fst, TableHeap.get_alloc_self]
    exact hb0
  have hclr : ((st.heap.alloc t).2.get (st.heap.alloc t).1).dirtyInfo.isDirty = false := by
    rw [TableHeap.alloc_fst, TableHeap.get_alloc_self]
    exact hcl0
  obtain ⟨hc2, -, hmem2, hcase⟩ := hc1.lruReplace hap hnc hr hnew hbr hclr
  -- an exact queue stays exact but for the victim
  have hq2 : st.DirtyQueued → QueueExact (st.refcountBlkCache.lruReplace (st.heap.alloc t).2 rtIdx
      (st.heap.alloc t).1).2.1 (st.refcountBlkCache.lruReplace (st.heap.alloc t).2 rtIdx (st.heap.alloc t).1).2.2
      (st.refcountBlkCache.lruReplace (st.heap.alloc t).2 rtIdx (st.heap.alloc t).1).1 := fun hq =>
    (hq.alloc hinv.coherent.fresh hcl0).lruReplace hc1 hnc hclr
  generalize st.refcountBlkCache.lruReplace (st.heap.alloc t).2 rtIdx (st.heap.alloc t).1 = R at hc2 hmem2 hcase hq2 ⊢
  obtain ⟨rep, c2, h2⟩ := R
  dsimp only at hc2 hmem2 hcase hq2 ⊢
  have hkey2 : rtIdx ∈ c2.cacheMap.map Prod.fst := List.mem_map_of_mem hmem2
  rcases hcase with ⟨rfl, hview⟩ | ⟨v, rv, hvmem, rfl, hvk, hbv, hviewv, hview⟩ <;> dsimp only
  · -- no victim
    refine ⟨hinv.of_cache hc2, fun _ => ⟨hkey2, ?_⟩, (fun _ h => nomatch h), fun hq _ => hq2 hq⟩
    rw [blockData_of_cache, hview, hv1]
    rfl
  · -- the victim is saved
    obtain ⟨h3, img3, hst3⟩ := @saveRefcountBlock_frame io { st with refcountBlkCache := c2, heap := h2 } rv
    obtain ⟨hinv3, hok, herr, hq3⟩ :=
      @saveRefcountBlock_spec io { st with refcountBlkCache := c2, heap := h2 } (hinv.of_cache hc2) v rv
        hvk hbv hio
    refine ⟨hinv3, fun h => ⟨?_, funext fun k => ?_⟩, fun e h hrel => absurd hrel (herr e h).2,
      fun hq h => hq3 (hq2 hq) h⟩
    · rw [hst3]
      exact hkey2
    · rw [hok h k]
      split
      · rename_i hk
        subst hk
        rw [← hviewv, hv1]
        rfl
      · rename_i hk
        rw [blockData_of_cache, hview k hk, hv1]
        rfl

/-- **`set_refcount`'s load**: as `load_refcount_block` when the block is not
cached, and nothing when it is. -/
theorem ensureLoaded_spec {st : RefCount} (hinv : st.Inv) {rtIdx a : Nat}
    (ha : st.blockAddr rtIdx = some a) (hio : io.Writes) :
    (st.ensureLoaded io rtIdx).2.Inv ∧
      ((st.ensureLoaded io rtIdx).1 = .ok () →
        rtIdx ∈ (st.ensureLoaded io rtIdx).2.refcountBlkCache.cacheMap.map Prod.fst ∧
        (st.ensureLoaded io rtIdx).2.blockData = st.blockData) ∧
      (∀ e, (st.ensureLoaded io rtIdx).1 = .error e → io.Reliable →
        (st.ensureLoaded io rtIdx).2 = st ∧ st.blockData rtIdx = none) ∧
      (st.DirtyQueued → (st.ensureLoaded io rtIdx).1 = .ok () → (st.ensureLoaded io rtIdx).2.DirtyQueued) := by
  unfold ensureLoaded
  by_cases hc : st.refcountBlkCache.containsKeys rtIdx = true
  · rw [if_pos hc]
    exact ⟨hinv, fun _ => ⟨(Qcow2Cache.containsKeys_iff _ _).1 hc, rfl⟩, (fun _ h => nomatch h), fun hq _ => hq⟩
  · rw [if_neg hc]
    have hnc : rtIdx ∉ st.refcountBlkCache.cacheMap.map Prod.fst :=
      fun h => hc ((Qcow2Cache.containsKeys_iff _ _).2 h)
    obtain ⟨hinv1, hok, herr, hq1⟩ := loadRefcountBlock_spec hinv ha hnc hio
    rcases hl : st.loadRefcountBlock io rtIdx with ⟨_ | _, st1⟩ <;> rw [hl] at hinv1 hok herr hq1 <;>
      dsimp only
    · exact ⟨hinv1, (fun h => nomatch h), (fun _ _ hrel => herr _ rfl hrel), fun _ h => nomatch h⟩
    · exact ⟨hinv1, (fun _ => hok rfl), (fun _ h => nomatch h), fun hq _ => hq1 hq rfl⟩

/-- `set_refcount` of a block already cached skips the load. -/
theorem ensureLoaded_of_mem {st : RefCount} {rtIdx : Nat}
    (hk : rtIdx ∈ st.refcountBlkCache.cacheMap.map Prod.fst) : st.ensureLoaded io rtIdx = (.ok (), st) := by
  rw [ensureLoaded, if_pos ((Qcow2Cache.containsKeys_iff _ _).2 hk)]

/-- **`set_refcount` on a cached block.** It keeps the layout and the
invariant. When it succeeds, the block was updated as `WindowUpdate` says and
no other block moved; when it fails, no block moved and the run could not
have been done on the block. -/
theorem setRefcount_cached_spec {st : RefCount} (hinv : st.Inv) {rtIdx : Nat}
    (hk : rtIdx ∈ st.refcountBlkCache.cacheMap.map Prod.fst) (rbIdx num : Nat) (added : Int)
    (discardType : Qcow2DiscardType) :
    SameLayout st (st.setRefcount io rtIdx rbIdx num added discardType).2 ∧
      (st.setRefcount io rtIdx rbIdx num added discardType).2.Inv ∧
      ((st.setRefcount io rtIdx rbIdx num added discardType).1 = .ok () →
        ∃ orig new, st.blockData rtIdx = some orig ∧
          WindowUpdate (addSign added) (addedValueOf added) (u16Entry orig) rbIdx num (u16Entry new) ∧
          (st.setRefcount io rtIdx rbIdx num added discardType).2.blockData rtIdx = some new ∧
          ∀ k ≠ rtIdx, (st.setRefcount io rtIdx rbIdx num added discardType).2.blockData k = st.blockData k) ∧
      (∀ e, (st.setRefcount io rtIdx rbIdx num added discardType).1 = .error e →
        (∀ k, (st.setRefcount io rtIdx rbIdx num added discardType).2.blockData k = st.blockData k) ∧
        ∀ orig, st.blockData rtIdx = some orig →
          ¬ ∃ new, WindowUpdate (addSign added) (addedValueOf added) (u16Entry orig) rbIdx num new) ∧
      (st.DirtyQueued → (st.setRefcount io rtIdx rbIdx num added discardType).1 = .ok () →
        (st.setRefcount io rtIdx rbIdx num added discardType).2.DirtyQueued) := by
  have hap := hinv.toApart
  obtain ⟨r0, hr0⟩ : ∃ r, (rtIdx, r) ∈ st.refcountBlkCache.cacheMap := by
    obtain ⟨e, he, rfl⟩ := List.mem_map.1 hk
    exact ⟨e.2, he⟩
  obtain ⟨hhit, hmap, hdt, -, hre, -⟩ := Qcow2Cache.get_spec hinv.coherent.lru rtIdx
  obtain ⟨hc2, hv2⟩ := hinv.coherent.get rtIdx
  unfold setRefcount
  rw [ensureLoaded_of_mem hk]
  dsimp only
  generalize st.refcountBlkCache.get st.heap rtIdx = G at hhit hmap hdt hre hc2 hv2 ⊢
  obtain ⟨hit, c2, h2⟩ := G
  dsimp only at hhit hmap hdt hre hc2 hv2 ⊢
  rw [hinv.coherent.lookup hr0] at hhit
  subst hhit
  dsimp only
  -- after `get`: the block's table, backed by the image, and every view as before
  have hmem2 : (rtIdx, r0) ∈ c2.cacheMap := hmap ▸ hr0
  have hq2 : st.DirtyQueued → QueueExact c2 h2 none := fun hq => hq.restamp hre hmap hdt
  have hb : Backed st.clusterSize ENTRY_SIZE_U16 st.blockAddr st.syncAio rtIdx (h2.get r0) :=
    hc2.backed _ hmem2
  have horig : st.blockData rtIdx = some (h2.get r0).tableData := by
    rw [blockData, ← hv2]
    exact cacheView_of_mem hc2 hmem2
  obtain ⟨⟨dl, fci, hst3⟩, -, -⟩ := newValues_spec hb.entrySize num 0
    ({ st with refcountBlkCache := c2, heap := h2 } : RefCount) []
  rw [← List.range_eq_range'] at hst3
  rcases hnv : newValues (h2.get r0) rtIdx rbIdx (addSign added) (addedValueOf added) discardType
    (List.range num) { st with refcountBlkCache := c2, heap := h2 } [] with ⟨res, st3⟩
  rw [hnv] at hst3
  dsimp only at hst3
  subst hst3
  rcases res with e | rbVec <;> dsimp only
  · -- the first loop fails: no entry is written
    refine ⟨⟨rfl, rfl, rfl, rfl⟩, hinv.of_sameLayout ⟨rfl, rfl, rfl, rfl⟩ hc2, (fun h => nomatch h), fun _ _ =>
      ⟨fun k => congrFun hv2 k, fun orig ho ⟨new, hw⟩ => ?_⟩, fun _ h => nomatch h⟩
    rw [horig, Option.some.injEq] at ho
    subst ho
    obtain ⟨rbVec, hvals⟩ := run_of_windowUpdate hb.entrySize rtIdx discardType
      ({ st with refcountBlkCache := c2, heap := h2 } : RefCount) hw
    rw [hnv] at hvals
    cases hvals
  · have hvals : (newValues (h2.get r0) rtIdx rbIdx (addSign added) (addedValueOf added) discardType
        (List.range num) { st with refcountBlkCache := c2, heap := h2 } []).1 = .ok rbVec := by
      rw [hnv]
    obtain ⟨hok, hrw, hw⟩ := windowUpdate_of_run hb hvals
    generalize setEntries (h2.get r0) rbIdx rbVec = S at hok hrw hw ⊢
    obtain ⟨res, t'⟩ := S
    dsimp only at hok hrw hw ⊢
    subst hok
    dsimp only
    -- the written table goes back into its handle: only block `rtIdx` reads anew
    obtain ⟨hc4, hv4⟩ := hc2.update hap hmem2 hrw
    have hbd4 : ∀ k, cacheView st.clusterSize st.blockAddr c2 (h2.modify r0 fun _ => t') st.syncAio k =
        if k = rtIdx then some t'.tableData else st.blockData k := fun k => by
      rw [hv4 k, hv2]
      rfl
    have hdone : ∀ k ≠ rtIdx, cacheView st.clusterSize st.blockAddr c2 (h2.modify r0 fun _ => t') st.syncAio k =
        st.blockData k := fun k hk => by rw [hbd4 k, if_neg hk]
    have hself : cacheView st.clusterSize st.blockAddr c2 (h2.modify r0 fun _ => t') st.syncAio rtIdx =
        some t'.tableData := by rw [hbd4 rtIdx, if_pos rfl]
    -- a table that was dirty is queued already; a clean one is queued now
    split
    · rename_i hd
      exact ⟨⟨rfl, rfl, rfl, rfl⟩, hinv.of_sameLayout ⟨rfl, rfl, rfl, rfl⟩ hc4, (fun _ => ⟨_, _, horig, hw, hself, hdone⟩),
        (fun _ h => nomatch h), fun hq _ => (hq2 hq).write hmem2 t' rfl (fun _ hx => hx) (fun _ hx => .inl hx)
          ((hq2 hq).cached _ hmem2 hd)⟩
    · exact ⟨⟨rfl, rfl, rfl, rfl⟩, hinv.of_sameLayout ⟨rfl, rfl, rfl, rfl⟩ (hc4.addDirtyTable r0),
        (fun _ => ⟨_, _, horig, hw, hself, hdone⟩), (fun _ h => nomatch h), fun hq _ =>
          (hq2 hq).write hmem2 t' rfl (fun _ hx => List.mem_append_left _ hx)
            (fun _ hx => (List.mem_append.1 hx).imp id List.mem_singleton.1)
            (List.mem_append_right _ (List.mem_singleton_self _))⟩

/-- **Everything `set_refcount` does** to a block of the table, on a host
whose writes succeed. It keeps the layout and the invariant. When it succeeds
the block was updated as `WindowUpdate` says and no other block moved. When it
fails on a host whose writes never fail, no block moved, and the run could not
have been done on the block. -/
theorem setRefcount_spec {st : RefCount} (hinv : st.Inv) {rtIdx a : Nat} (ha : st.blockAddr rtIdx = some a)
    (rbIdx num : Nat) (added : Int) (discardType : Qcow2DiscardType) (hio : io.Writes) :
    SameLayout st (st.setRefcount io rtIdx rbIdx num added discardType).2 ∧
      (st.setRefcount io rtIdx rbIdx num added discardType).2.Inv ∧
      ((st.setRefcount io rtIdx rbIdx num added discardType).1 = .ok () →
        ∃ orig new, st.blockData rtIdx = some orig ∧
          WindowUpdate (addSign added) (addedValueOf added) (u16Entry orig) rbIdx num (u16Entry new) ∧
          (st.setRefcount io rtIdx rbIdx num added discardType).2.blockData rtIdx = some new ∧
          ∀ k ≠ rtIdx, (st.setRefcount io rtIdx rbIdx num added discardType).2.blockData k = st.blockData k) ∧
      (∀ e, (st.setRefcount io rtIdx rbIdx num added discardType).1 = .error e → io.Reliable →
        (∀ k, (st.setRefcount io rtIdx rbIdx num added discardType).2.blockData k = st.blockData k) ∧
        ∀ orig, st.blockData rtIdx = some orig →
          ¬ ∃ new, WindowUpdate (addSign added) (addedValueOf added) (u16Entry orig) rbIdx num new) ∧
      (st.DirtyQueued → (st.setRefcount io rtIdx rbIdx num added discardType).1 = .ok () →
        (st.setRefcount io rtIdx rbIdx num added discardType).2.DirtyQueued) := by
  obtain ⟨c1, h1, img1, hst1⟩ := @ensureLoaded_frame io st rtIdx
  obtain ⟨hinv1, hok1, herr1, hq1⟩ := ensureLoaded_spec hinv ha hio
  rcases hel : st.ensureLoaded io rtIdx with ⟨e | _, st1⟩ <;> rw [hel] at hst1 hinv1 hok1 herr1 hq1 <;>
    dsimp only at hst1 hinv1 hok1 herr1 hq1
  · -- the load fails: on a host whose writes never fail, the block cannot be read
    have hr : st.setRefcount io rtIdx rbIdx num added discardType = (.error e, st1) := by
      rw [setRefcount, hel]
    rw [hr]
    subst hst1
    refine ⟨⟨rfl, rfl, rfl, rfl⟩, hinv1, (fun h => nomatch h), (fun _ _ hrel => ?_), fun _ h => nomatch h⟩
    obtain ⟨hst, hnone⟩ := herr1 _ rfl hrel
    refine ⟨fun k => by rw [hst], fun orig ho => ?_⟩
    rw [hnone] at ho
    cases ho
  · -- the block is cached now, and reads as it did
    obtain ⟨hk1, hbd1⟩ := hok1 rfl
    have hr : st.setRefcount io rtIdx rbIdx num added discardType =
        st1.setRefcount io rtIdx rbIdx num added discardType := by
      rw [setRefcount, setRefcount, hel, ensureLoaded_of_mem hk1]
    have hl1 : SameLayout st st1 := by
      subst hst1
      exact ⟨rfl, rfl, rfl, rfl⟩
    obtain ⟨hl, hinv', hok, herr, hq⟩ := setRefcount_cached_spec hinv1 hk1 rbIdx num added discardType
    rw [hr, ← hbd1]
    exact ⟨hl1.trans hl, hinv', hok, (fun e h _ => herr e h), fun hq0 h => hq (hq1 hq0 rfl) h⟩

/-- **`RefCount::flush`** that succeeds, on a host whose successful writes
are seen by later reads, from a coherent state with an exact dirty queue. It
keeps the layout, the invariant, an exact queue and every block's bytes, and
the image then holds every block as the next access reads it. -/
theorem flush_spec {st : RefCount} (hinv : st.Inv) (hq : st.DirtyQueued) (hio : io.Writes)
    (hok : (st.flush io).1 = .ok ()) :
    SameLayout st (st.flush io).2 ∧ (st.flush io).2.Inv ∧ (st.flush io).2.DirtyQueued ∧
      (st.flush io).2.blockData = st.blockData ∧ (st.flush io).2.imageBlockData = (st.flush io).2.blockData := by
  have hf := fun hok => hinv.coherent.flush hq hinv.toApart st.sector_dvd_clusterSize hio hok
  unfold flush at hok ⊢
  generalize st.refcountBlkCache.flush io st.heap st.syncAio = F at hf hok ⊢
  obtain ⟨ret, c', h', img'⟩ := F
  dsimp only at hf hok ⊢
  obtain ⟨hc, hv, hq', hclean⟩ := hf hok
  exact ⟨⟨rfl, rfl, rfl, rfl⟩, hinv.of_cache hc, hq', hv, funext fun k => (cacheView_of_clean hc hclean k).symm⟩

end RefCount

end StratoVirt.Qcow2
