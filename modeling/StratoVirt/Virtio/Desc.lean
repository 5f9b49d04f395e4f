import StratoVirt.Lib.Loop
import StratoVirt.AddressSpace.Types

/-!
# Split-virtqueue descriptors and the descriptor-chain walk

`virtio/src/queue/split.rs`: a guest offers a request as a chain of 16-byte
descriptors in the descriptor table. `SplitVringDesc::new` reads one entry and
validates it (`is_valid`); `SplitVringDesc::get_element` walks the chain from
the head the available ring names, follows at most one `INDIRECT` descriptor
into a second table, and collects the buffers into an `Element`: device-readable
ones in `out_iovec`, device-writable ones in `in_iovec`.

Everything the walk reads is guest-controlled, so guest memory is a parameter:
`SysMem` holds the `AddressSpace` queries the walk makes, as arbitrary
functions. Every theorem here holds for every choice of them — every memory
content, every `next` link, cycles and out-of-table links included.

The loop body is `getElementStep`, one pass of the Rust `loop { … }`; the loop
is `Lib.Loop` with the measure `getElementMeasure`, which drops by one per
taken descriptor and falls below its starting band when the walk enters an
indirect table (the re-based `desc_size` is at most `u16::MAX`).

The walk's `u16` counters are `Nat` here: the `desc_num >= desc_size` check
before every increment keeps them below `2^16`, and `desc_total_len` (a `u64`)
stays below `2^16 · 2^32`, so no wrapping is modelled because none happens.
-/

namespace StratoVirt.Virtio

open StratoVirt.Lib StratoVirt.AddressSpace

/-- `VIRTQ_DESC_F_NEXT`: the descriptor continues via `next`. -/
def VIRTQ_DESC_F_NEXT : Nat := 0x1
/-- `VIRTQ_DESC_F_WRITE`: the buffer is device-writable. -/
def VIRTQ_DESC_F_WRITE : Nat := 0x2
/-- `VIRTQ_DESC_F_INDIRECT`: the buffer is a table of descriptors. -/
def VIRTQ_DESC_F_INDIRECT : Nat := 0x4
/-- `DESCRIPTOR_LEN`: `size_of::<SplitVringDesc>()`. -/
def DESCRIPTOR_LEN : Nat := 16
/-- `DESC_CHAIN_MAX_TOTAL_LEN`: the largest total length of a chain. -/
def DESC_CHAIN_MAX_TOTAL_LEN : Nat := 2 ^ 32
/-- `u16::MAX`. -/
def U16_MAX : Nat := 0xffff

/-- `SplitVringDesc`: guest address, length, flags and next index. -/
structure SplitVringDesc where
  addr : Nat
  len : Nat
  flags : Nat
  next : Nat
  deriving Repr, DecidableEq

/-- `ElemIovec`: one buffer of an element. -/
structure ElemIovec where
  addr : Nat
  len : Nat
  deriving Repr, DecidableEq

/-- `Element`: a request assembled from a descriptor chain. -/
structure Element where
  index : Nat
  descNum : Nat
  outIovec : List ElemIovec
  inIovec : List ElemIovec
  deriving Repr, DecidableEq

/-- `Element::new`. -/
def Element.new (index : Nat) : Element := ⟨index, 0, [], []⟩

/-- The errors of the queue operations: the `VirtioError` variants they raise,
the texts of their `bail!`s and `with_context`s, and a Rust panic. -/
inductive VirtioError where
  | queueIndex (index size : Nat)
  | addressOverflow (what : String) (base offset : Nat)
  | readObjectErr (what : String) (addr : Nat)
  | queueDescInvalid
  | msg (text : String)
  | context (text : String) (cause : VirtioError)
  | rustPanic (text : String)
  deriving Repr, DecidableEq

/-- The `AddressSpace` queries the walk makes, over an arbitrary memory:
`read_object_direct::<SplitVringDesc>` at a host address, `address_in_memory`,
`get_region_cache` and `addr_cache_init`. -/
structure SysMem where
  readDesc : Nat → Option SplitVringDesc
  addressInMemory : Nat → Nat → Bool
  getRegionCache : Nat → Option RegionCache
  addrCacheInit : Nat → Option (Nat × Nat)

/-- `checked_offset_mem`: `base + offset` when `[base, base + offset)` lies in RAM. -/
def checkedOffsetMem (mem : SysMem) (base offset : Nat) : Except String Nat :=
  if mem.addressInMemory base offset then .ok (wrapAdd base offset)
  else .error "Invalid Address for queue"

/-- `AddressSpace::get_host_address_from_cache`. -/
def getHostAddressFromCache (mem : SysMem) (addr : Nat) (cache : Option RegionCache) :
    Option (Nat × Nat) :=
  match cache with
  | none => mem.addrCacheInit addr
  | some rc =>
    if rc.start ≤ addr ∧ addr < rc.stop then
      some (wrapAdd rc.hostBase (addr - rc.start), rc.stop - addr)
    else mem.addrCacheInit addr

namespace SplitVringDesc

/-- `has_next`. -/
def hasNext (d : SplitVringDesc) : Bool := d.flags &&& VIRTQ_DESC_F_NEXT != 0

/-- `write_only`: the buffer is device-writable. -/
def writeOnly (d : SplitVringDesc) : Bool := d.flags &&& VIRTQ_DESC_F_WRITE != 0

/-- `is_indirect_desc`. -/
def isIndirectDesc (d : SplitVringDesc) : Bool := d.flags &&& VIRTQ_DESC_F_INDIRECT != 0

/-- `is_valid_indirect_desc`: a nonzero whole number of descriptors, at most
`u16::MAX` of them, and no `NEXT` flag. -/
def isValidIndirectDesc (d : SplitVringDesc) : Bool :=
  if d.len = 0 ∨ d.len % DESCRIPTOR_LEN ≠ 0 ∨ d.len / DESCRIPTOR_LEN > U16_MAX then false
  else if d.hasNext then false
  else true

/-- `get_desc_num`: the number of descriptors in an indirect table. -/
def getDescNum (d : SplitVringDesc) : Nat := d.len / DESCRIPTOR_LEN % 2 ^ 16

/-- `is_valid`, returning the updated region cache with the verdict. A cached
RAM region spares the `address_in_memory` lookup; with no cache yet, the
region of this buffer becomes the cache when it is RAM. -/
def isValid (d : SplitVringDesc) (mem : SysMem) (queueSize : Nat)
    (cache : Option RegionCache) : Bool × Option RegionCache :=
  if d.len = 0 then (false, cache)
  else
    let probe : Option (Bool × Option RegionCache) :=
      match cache with
      | some rc =>
        match checkedAdd64 d.addr d.len with
        | none => none
        | some stop => some (!(d.addr > rc.start ∧ stop < rc.stop), cache)
      | none =>
        match mem.getRegionCache d.addr with
        | some c => some (true, if c.regType = .ram then some c else cache)
        | none => some (true, cache)
    match probe with
    | none => (false, cache)
    | some (missCached, cache') =>
      if missCached ∧ (checkedOffsetMem mem d.addr d.len).toOption.isNone then (false, cache')
      else if d.hasNext ∧ d.next ≥ queueSize then (false, cache')
      else (true, cache')

/-- `SplitVringDesc::new`: read entry `index` of the table at `descTableHost`
and validate it. -/
def new (mem : SysMem) (descTableHost queueSize index : Nat) (cache : Option RegionCache) :
    Except VirtioError SplitVringDesc × Option RegionCache :=
  if index ≥ queueSize then (.error (.queueIndex index queueSize), cache)
  else
    match checkedAdd64 descTableHost (index * DESCRIPTOR_LEN) with
    | none =>
      (.error (.addressOverflow "creating a descriptor" descTableHost (index * DESCRIPTOR_LEN)),
        cache)
    | some descAddr =>
      match mem.readDesc descAddr with
      | none => (.error (.readObjectErr "a descriptor" descAddr), cache)
      | some desc =>
        let (ok, cache') := desc.isValid mem queueSize cache
        (if ok then .ok desc else .error .queueDescInvalid, cache')

/-- `next_desc`: `new` with the context naming the index. -/
def nextDesc (mem : SysMem) (descTableHost queueSize index : Nat)
    (cache : Option RegionCache) : Except VirtioError SplitVringDesc × Option RegionCache :=
  let (r, cache') := new mem descTableHost queueSize index cache
  match r with
  | .ok d => (.ok d, cache')
  | .error e => (.error (.context "Failed to find next descriptor" e), cache')

end SplitVringDesc

/-- `DescInfo`: where the chain starts. -/
structure DescInfo where
  tableHost : Nat
  size : Nat
  index : Nat
  desc : SplitVringDesc
  deriving Repr

/-- The local variables of `get_element`'s loop, with the element it fills and
the region cache it threads. -/
structure GetElementState where
  descTableHost : Nat
  descSize : Nat
  desc : SplitVringDesc
  queueSize : Nat
  indirect : Bool
  writeElemCount : Nat
  descTotalLen : Nat
  elem : Element
  cache : Option RegionCache
  deriving Repr

/-- The state `get_element` enters its loop with. -/
def GetElementState.init (info : DescInfo) (cache : Option RegionCache) (elem : Element) :
    GetElementState :=
  { descTableHost := info.tableHost, descSize := info.size, desc := info.desc,
    queueSize := info.size, indirect := false, writeElemCount := 0, descTotalLen := 0,
    elem := { elem with index := info.index }, cache := cache }

/-- `ElemIovec` of a descriptor. -/
def SplitVringDesc.toIovec (d : SplitVringDesc) : ElemIovec := ⟨d.addr, d.len⟩

/-- Taking a (non-indirect) descriptor: its buffer goes to `in_iovec` when it
is device-writable and to `out_iovec` otherwise; it is counted, and its length
is added to the chain's total. -/
def GetElementState.take (st : GetElementState) : GetElementState :=
  let iovec := st.desc.toIovec
  if st.desc.writeOnly then
    { st with
      elem := { st.elem with inIovec := st.elem.inIovec ++ [iovec], descNum := st.elem.descNum + 1 }
      writeElemCount := st.writeElemCount + 1
      descTotalLen := st.descTotalLen + iovec.len }
  else
    { st with
      elem := { st.elem with outIovec := st.elem.outIovec ++ [iovec], descNum := st.elem.descNum + 1 }
      descTotalLen := st.descTotalLen + iovec.len }

/-- Entering an indirect table at `tableHost` whose first entry is `desc`: the
chain continues there, and `desc_size` is re-based to the descriptors taken so
far plus the table's length. -/
def GetElementState.enter (st : GetElementState) (tableHost : Nat) (desc : SplitVringDesc)
    (cache : Option RegionCache) : GetElementState :=
  { st with descTableHost := tableHost, queueSize := st.desc.getDescNum, desc := desc,
            descSize := st.elem.descNum + st.desc.getDescNum, indirect := true, cache := cache }

/-- One pass of `get_element`'s `loop`. -/
def getElementStep (mem : SysMem) (st : GetElementState) :
    Step GetElementState VirtioError :=
  if st.elem.descNum ≥ st.descSize then
    .fail (.msg "The element desc number exceeds max allowed") st
  else if st.desc.isIndirectDesc then
    if !st.desc.isValidIndirectDesc then .fail .queueDescInvalid st
    else if st.indirect then .fail (.msg "Found two indirect descriptor elem in one request") st
    else
      match getHostAddressFromCache mem st.desc.addr st.cache with
      | none => .fail (.msg "Failed to get descriptor table entry host address") st
      | some (tableHost, _) =>
        match SplitVringDesc.nextDesc mem tableHost st.desc.getDescNum 0 st.cache with
        | (.error e, cache') => .fail e { st with cache := cache' }
        | (.ok desc, cache') =>
          -- `desc_num.checked_add(queue_size)` in `u16`
          if st.elem.descNum + st.desc.getDescNum > U16_MAX then
            .fail (.msg "The chained desc number overflows") { st with cache := cache' }
          else .next (st.enter tableHost desc cache')
  else if !st.desc.writeOnly ∧ st.writeElemCount > 0 then
    .fail (.msg "Invalid order of the descriptor elem") st
  else if st.desc.hasNext then
    match SplitVringDesc.nextDesc mem st.descTableHost st.queueSize st.desc.next st.cache with
    | (.error e, cache') => .fail e { st.take with cache := cache' }
    | (.ok desc, cache') => .next { st.take with desc := desc, cache := cache' }
  else .exit st.take

/-- What a pass that goes round again did: either it entered the one indirect
table (a valid indirect descriptor, none entered before, re-based size within
`u16`), or it took a descriptor with a `NEXT` link in the right order. -/
theorem getElementStep_next {mem : SysMem} {st st' : GetElementState}
    (h : getElementStep mem st = .next st') :
    st.elem.descNum < st.descSize ∧
    ((st.desc.isIndirectDesc = true ∧ st.desc.isValidIndirectDesc = true ∧ st.indirect = false ∧
        st.elem.descNum + st.desc.getDescNum ≤ U16_MAX ∧
        ∃ tableHost desc cache', st' = st.enter tableHost desc cache') ∨
      (st.desc.isIndirectDesc = false ∧ (st.desc.writeOnly = false → st.writeElemCount = 0) ∧
        st.desc.hasNext = true ∧ ∃ desc cache', st' = { st.take with desc := desc, cache := cache' })) := by
  unfold getElementStep at h
  split at h
  · cases h
  · rename_i hlt
    refine ⟨by omega, ?_⟩
    split at h
    · rename_i hind
      split at h
      · cases h
      · rename_i hvalid
        split at h
        · cases h
        · rename_i hnotind
          split at h
          · cases h
          · split at h
            · cases h
            · split at h
              · cases h
              · rename_i hbound
                cases h
                simp only [Bool.not_eq_true', Bool.not_eq_false] at hvalid hnotind
                exact Or.inl ⟨hind, by simpa using hvalid, by simpa using hnotind, by omega,
                  _, _, _, rfl⟩
    · rename_i hind
      split at h
      · cases h
      · rename_i hord
        split at h
        · rename_i hnext
          split at h
          · cases h
          · cases h
            refine Or.inr ⟨by simpa using hind, ?_, hnext, _, _, rfl⟩
            intro hw
            simp [hw] at hord
            omega
        · cases h

/-- What the pass that leaves the loop did: it took a last descriptor, with no
`NEXT` link, in the right order. -/
theorem getElementStep_exit {mem : SysMem} {st t : GetElementState}
    (h : getElementStep mem st = .exit t) :
    st.elem.descNum < st.descSize ∧ st.desc.isIndirectDesc = false ∧
      (st.desc.writeOnly = false → st.writeElemCount = 0) ∧ st.desc.hasNext = false ∧
      t = st.take := by
  unfold getElementStep at h
  split at h
  · cases h
  · rename_i hlt
    split at h
    · split at h
      · cases h
      · split at h
        · cases h
        · split at h
          · cases h
          · split at h
            · cases h
            · split at h
              · cases h
              · cases h
    · rename_i hind
      split at h
      · cases h
      · rename_i hord
        split at h
        · split at h <;> cases h
        · rename_i hnext
          cases h
          refine ⟨by omega, by simpa using hind, ?_, by simpa using hnext, rfl⟩
          intro hw
          simp [hw] at hord
          omega

@[simp] theorem take_descNum (st : GetElementState) :
    st.take.elem.descNum = st.elem.descNum + 1 := by
  unfold GetElementState.take; split <;> rfl

@[simp] theorem take_index (st : GetElementState) : st.take.elem.index = st.elem.index := by
  unfold GetElementState.take; split <;> rfl

@[simp] theorem take_descSize (st : GetElementState) : st.take.descSize = st.descSize := by
  unfold GetElementState.take; split <;> rfl

@[simp] theorem take_indirect (st : GetElementState) : st.take.indirect = st.indirect := by
  unfold GetElementState.take; split <;> rfl

@[simp] theorem take_descTotalLen (st : GetElementState) :
    st.take.descTotalLen = st.descTotalLen + st.desc.len := by
  unfold GetElementState.take; split <;> rfl

@[simp] theorem enter_descNum (st : GetElementState) (th : Nat) (d : SplitVringDesc)
    (c : Option RegionCache) : (st.enter th d c).elem = st.elem := rfl

@[simp] theorem enter_descSize (st : GetElementState) (th : Nat) (d : SplitVringDesc)
    (c : Option RegionCache) :
    (st.enter th d c).descSize = st.elem.descNum + st.desc.getDescNum := rfl

@[simp] theorem enter_indirect (st : GetElementState) (th : Nat) (d : SplitVringDesc)
    (c : Option RegionCache) : (st.enter th d c).indirect = true := rfl

/-- The walk's measure: one per descriptor still allowed, plus a band of
`2^16` while no indirect table has been entered. -/
def getElementMeasure (st : GetElementState) : Nat :=
  (if st.indirect then 0 else 2 ^ 16) + (st.descSize - st.elem.descNum)

/-- Every pass that goes round again lowers the measure: a taken descriptor
uses up one of `desc_size`, and entering the indirect table drops the
`2^16` band while the re-based `desc_size - desc_num` is at most `u16::MAX`. -/
theorem getElementStep_measure {mem : SysMem} {st st' : GetElementState}
    (h : getElementStep mem st = .next st') :
    getElementMeasure st' < getElementMeasure st := by
  obtain ⟨hlt, ⟨-, -, hind, hbound, tableHost, desc, cache', rfl⟩ | ⟨-, -, -, desc, cache', rfl⟩⟩ :=
    getElementStep_next h
  · simp only [getElementMeasure, enter_indirect, enter_descSize, enter_descNum, hind,
      if_true, Bool.false_eq_true, if_false]
    simp only [U16_MAX] at hbound
    omega
  · simp only [getElementMeasure, take_indirect, take_descSize, take_descNum]
    omega

/-- `get_element`'s loop. -/
def getElementLoop (mem : SysMem) : Loop GetElementState VirtioError where
  body := getElementStep mem
  measure := getElementMeasure
  decreasing := getElementStep_measure

/-- `SplitVringDesc::get_element`: walk the chain, then reject a chain longer
than 4 GiB in total. Returns the element and the region cache. -/
def getElement (mem : SysMem) (info : DescInfo) (cache : Option RegionCache) (elem : Element) :
    Except VirtioError Element × Option RegionCache :=
  match (getElementLoop mem).run (GetElementState.init info cache elem) with
  | .fail e st => (.error e, st.cache)
  | .exit st =>
    if st.descTotalLen > DESC_CHAIN_MAX_TOTAL_LEN then
      (.error (.msg "Find a descriptor chain longer than 4GB in total"), st.cache)
    else (.ok st.elem, st.cache)

/-- The descriptors `get_element` looks at, in chain order: each taken
descriptor and each indirect descriptor it follows. -/
def getElementChain (mem : SysMem) (info : DescInfo) (cache : Option RegionCache)
    (elem : Element) : List SplitVringDesc :=
  ((getElementLoop mem).visits (GetElementState.init info cache elem)).map (·.desc)

end StratoVirt.Virtio
