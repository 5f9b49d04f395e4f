import StratoVirt.Lib.Codec
import StratoVirt.Lib.List
import StratoVirt.Lib.Loop
import StratoVirt.Lib.LittleEndian

/-!
# PCI configuration space and BAR mapping: `PciConfig`

`devices/src/pci/config.rs`. A PCI function's configuration space is a byte
array the guest writes through write masks. Its base address registers (BARs)
say where the function's regions appear in the bus's I/O or memory space, and
the `COMMAND` register's decode bits say whether they appear at all.
`update_bar_mapping` keeps the mapping in step with the registers: for each BAR
whose address changed, it removes the region from the parent it was mapped in
and adds it to the parent region supplied for its type, at the new address.
`write` calls it after a guest write that touches `COMMAND`, a BAR or the
expansion ROM register; `reset` clears the writable `COMMAND` bits and calls it
with no parent regions.

The loop body returns early (`return Ok(())`) when the parent for a BAR's type
was not supplied, not only from that BAR but from the whole loop. The model
keeps that: one pass is a `Step` (`next`, the early `exit`, or `fail` with
the state reached), and the loop runs the passes over the BAR ids in order.

The parent regions are handles (`ParentRegion`), and the subregions they hold
are the list `subs` of `SubEntry`s: which region is mapped in which parent, at
which offset. A region's own tree is not modelled. The build modelled is
`x86_64`, where `update_bar_mapping` takes an I/O parent as well as a memory
parent. Panics are `fail`s carrying the panic text.

* `barMappingStep_tracked`, `updateBarMappingLoop_tracked`, `runOps_tracked`:
  every pass, every run of the loop, and so every sequence of guest writes and
  resets keeps each BAR's address and the subregions in agreement;
* `updateBarMapping_synced`: with both parents supplied, a run that returns
  leaves every BAR at the address its registers give, mapped once there;
* `reset_keeps_later_bars`: `reset` stops at the first BAR it unmaps, and every
  BAR after it stays mapped although decoding is off.
-/

namespace StratoVirt.Pci

open StratoVirt.Lib

/-! ## Registers -/

/-- `REG_SIZE`: a BAR register is four bytes. -/
def REG_SIZE : Nat := 4
/-- `COMMAND`. -/
def COMMAND : Nat := 0x04
/-- `STATUS`. -/
def STATUS : Nat := 0x06
/-- `CACHE_LINE_SIZE`. -/
def CACHE_LINE_SIZE : Nat := 0x0c
/-- `HEADER_TYPE`. -/
def HEADER_TYPE : Nat := 0x0e
/-- `BAR_0`: the first BAR register. -/
def BAR_0 : Nat := 0x10
/-- `ROM_ADDRESS_ENDPOINT`. -/
def ROM_ADDRESS_ENDPOINT : Nat := 0x30
/-- `ROM_ADDRESS_BRIDGE`. -/
def ROM_ADDRESS_BRIDGE : Nat := 0x38
/-- `INTERRUPT_LINE`. -/
def INTERRUPT_LINE : Nat := 0x3c
/-- `PCI_CONFIG_HEAD_END`: where the capability area starts. -/
def PCI_CONFIG_HEAD_END : Nat := 64
/-- `HEADER_TYPE_ENDPOINT`. -/
def HEADER_TYPE_ENDPOINT : UInt8 := 0x00
/-- `HEADER_TYPE_BRIDGE`. -/
def HEADER_TYPE_BRIDGE : UInt8 := 0x01
/-- `BAR_NUM_MAX_FOR_ENDPOINT`. -/
def BAR_NUM_MAX_FOR_ENDPOINT : Nat := 6
/-- `BAR_NUM_MAX_FOR_BRIDGE`. -/
def BAR_NUM_MAX_FOR_BRIDGE : Nat := 2
/-- `COMMAND_IO_SPACE`: decode I/O BARs. -/
def COMMAND_IO_SPACE : UInt16 := 0x0001
/-- `COMMAND_MEMORY_SPACE`: decode memory BARs. -/
def COMMAND_MEMORY_SPACE : UInt16 := 0x0002
/-- `COMMAND_BUS_MASTER`. -/
def COMMAND_BUS_MASTER : UInt16 := 0x0004
/-- `COMMAND_SERR_ENABLE`. -/
def COMMAND_SERR_ENABLE : UInt16 := 0x0100
/-- `COMMAND_INTERRUPT_DISABLE`. -/
def COMMAND_INTERRUPT_DISABLE : UInt16 := 0x0400
/-- `BAR_IO_SPACE`: the BAR register's I/O flag. -/
def BAR_IO_SPACE : UInt8 := 0x01
/-- `BAR_MEM_64BIT`. -/
def BAR_MEM_64BIT : UInt8 := 0x04
/-- `BAR_PREFETCH`. -/
def BAR_PREFETCH : UInt8 := 0x08
/-- `IO_BASE_ADDR_MASK`. -/
def IO_BASE_ADDR_MASK : UInt32 := 0xfffffffc
/-- `MEM_BASE_ADDR_MASK`. -/
def MEM_BASE_ADDR_MASK : UInt64 := 0xfffffffffffffff0
/-- `BAR_SPACE_UNMAPPED`: the address of a BAR that is not mapped. -/
def BAR_SPACE_UNMAPPED : UInt64 := 0xffffffffffffffff
/-- `MINIMUM_BAR_SIZE_FOR_PIO`. -/
def MINIMUM_BAR_SIZE_FOR_PIO : Nat := 0x4

/-- The panic of `Option::unwrap` on `None`. -/
def unwrapPanic : String := "called Option::unwrap() on a None value"

/-! ## State -/

/-- `RegionType` of a BAR. -/
inductive RegionType where
  | io
  | mem32Bit
  | mem64Bit
  deriving Repr, DecidableEq

/-- A BAR's own region: its handle and size. -/
structure RegionRef where
  id : Nat
  size : UInt64
  deriving Repr, DecidableEq

/-- A parent region a BAR is mapped in: its handle and size. -/
structure ParentRegion where
  id : Nat
  size : UInt64
  deriving Repr, DecidableEq

/-- `Bar`. -/
structure Bar where
  regionType : RegionType
  address : UInt64
  size : UInt64
  region : Option RegionRef
  parentIoRegion : Option ParentRegion
  parentMemRegion : Option ParentRegion
  deriving Repr, DecidableEq

/-- One subregion of a parent: region `child` at `offset` in region `parent`. -/
structure SubEntry where
  parent : Nat
  child : Nat
  offset : UInt64
  deriving Repr, DecidableEq

/-- `PciConfig`: the bytes of configuration space, its masks and the BARs. -/
structure PciConfig where
  config : List UInt8
  writeMask : List UInt8
  writeClearMask : List UInt8
  bars : List Bar
  deriving Repr, DecidableEq

/-- A configuration space together with the subregions of the parents its
BARs may be mapped in. -/
structure World where
  cfg : PciConfig
  subs : List SubEntry
  deriving Repr, DecidableEq

/-! ## Parent regions -/

/-- `Region::add_subregion` of `child` at `offset` to the container `parent`:
the child must lie within the parent (`check_valid_offset`). -/
def addSubregion (subs : List SubEntry) (parent : ParentRegion) (child : RegionRef)
    (offset : UInt64) : Except String (List SubEntry) :=
  if offset.toNat + child.size.toNat < 2 ^ 64 ∧ offset.toNat + child.size.toNat ≤ parent.size.toNat then
    .ok (⟨parent.id, child.id, offset⟩ :: subs)
  else .error ("Address overflows, addr is " ++ toString offset.toNat)

/-- The entry `delete_subregion` looks for: `child` in `parent`. -/
def isEntryOf (parent child : Nat) (e : SubEntry) : Bool :=
  e.parent == parent && e.child == child

/-- `Region::delete_subregion` of `child` from `parent`: the first such entry
goes, and a child that is not there is an error. -/
def deleteSubregion (subs : List SubEntry) (parent : Nat) (child : RegionRef) :
    Except String (List SubEntry) :=
  if subs.any (isEntryOf parent child.id) then .ok (subs.eraseP (isEntryOf parent child.id))
  else .error "Failed to find matched region"

/-! ## `get_bar_address` -/

/-- `PciConfig::get_bar_address`: the BAR's base from its register, or
`BAR_SPACE_UNMAPPED` while `COMMAND` does not decode its kind. -/
def getBarAddress (cfg : PciConfig) (id : Nat) : UInt64 :=
  let command := UInt16.ofNat (leReadAt cfg.config COMMAND 2)
  let offset := BAR_0 + id * REG_SIZE
  if cfg.config.getD offset 0 &&& BAR_IO_SPACE > 0 then
    if command &&& COMMAND_IO_SPACE = 0 then BAR_SPACE_UNMAPPED
    else (UInt32.ofNat (leReadAt cfg.config offset 4) &&& IO_BASE_ADDR_MASK).toUInt64
  else if command &&& COMMAND_MEMORY_SPACE = 0 then BAR_SPACE_UNMAPPED
  else
    match cfg.bars[id]? with
    -- `self.bars[id]` past the end panics; `update_bar_mapping` never asks
    | none => BAR_SPACE_UNMAPPED
    | some bar =>
      match bar.regionType with
      | .io => BAR_SPACE_UNMAPPED
      | .mem32Bit =>
        (UInt32.ofNat (leReadAt cfg.config offset 4) &&& MEM_BASE_ADDR_MASK.toUInt32).toUInt64
      | .mem64Bit => UInt64.ofNat (leReadAt cfg.config offset 8) &&& MEM_BASE_ADDR_MASK

/-! ## `update_bar_mapping` -/

namespace Bar

/-- The parent supplied for the BAR's type (`is_bar_region_empty` when
`None`). -/
def parentFor (bar : Bar) (ioRegion memRegion : Option ParentRegion) : Option ParentRegion :=
  match bar.regionType with
  | .io => ioRegion
  | _ => memRegion

/-- The parent the BAR was last mapped in, as its type keeps it. -/
def recordedParent (bar : Bar) : Option ParentRegion :=
  match bar.regionType with
  | .io => bar.parentIoRegion
  | _ => bar.parentMemRegion

/-- The BAR recorded as mapped in `parent`. -/
def withParent (bar : Bar) (parent : ParentRegion) : Bar :=
  match bar.regionType with
  | .io => { bar with parentIoRegion := some parent }
  | _ => { bar with parentMemRegion := some parent }

/-- The error of a failed unmap of BAR `id`. -/
def unmapError (bar : Bar) (id : Nat) : String :=
  match bar.regionType with
  | .io => "Failed to unmap BAR" ++ toString id ++ " in I/O space."
  | _ => "Failed to unmap BAR " ++ toString id ++ " in memory space."

/-- The error of a failed map of BAR `id`; a memory BAR reports it with
`PciError::UnregMemBar`, as the source does. -/
def mapError (bar : Bar) (id : Nat) : String :=
  match bar.regionType with
  | .io => "Failed to map BAR" ++ toString id ++ " in I/O space."
  | _ => "Failed to unmap BAR " ++ toString id ++ " in memory space."

end Bar

/-- The world with BAR `id` replaced. -/
def World.setBar (w : World) (id : Nat) (bar : Bar) : World :=
  { w with cfg := { w.cfg with bars := w.cfg.bars.set id bar } }

/-- The unmap half of a pass: a mapped BAR leaves the parent it was recorded
in, if any, and is marked unmapped. -/
def unmapBar (id : Nat) (bar : Bar) (w : World) : Except String World :=
  if bar.address ≠ BAR_SPACE_UNMAPPED then
    match bar.recordedParent with
    | none => .ok (w.setBar id { bar with address := BAR_SPACE_UNMAPPED })
    | some parent =>
      match bar.region with
      | none => .error unwrapPanic
      | some region =>
        match deleteSubregion w.subs parent.id region with
        | .error _ => .error (bar.unmapError id)
        | .ok subs => .ok ({ w with subs := subs }.setBar id { bar with address := BAR_SPACE_UNMAPPED })
  else .ok w

/-- The map half of a pass: the BAR's region joins `parent` at `newAddr`, and
the BAR records the parent and the address. -/
def mapBar (id : Nat) (bar : Bar) (parent : ParentRegion) (newAddr : UInt64) (w : World) :
    Except String World :=
  match bar.region with
  | none => .error unwrapPanic
  | some region =>
    match addSubregion w.subs parent region newAddr with
    | .error _ => .error (bar.mapError id)
    | .ok subs => .ok ({ w with subs := subs }.setBar id { bar.withParent parent with address := newAddr })

/-- What a pass does after the unmap half: return from the whole loop when no
parent was supplied for the BAR's type, else map the BAR at a new address. -/
def mapStage (ioRegion memRegion : Option ParentRegion) (id : Nat) (bar : Bar) (newAddr : UInt64)
    (w : World) : Step World String :=
  match bar.parentFor ioRegion memRegion with
  | none => .exit w
  | some parent =>
    if newAddr ≠ BAR_SPACE_UNMAPPED then
      match mapBar id { bar with address := BAR_SPACE_UNMAPPED } parent newAddr w with
      | .error e => .fail e w
      | .ok w' => .next w'
    else .next w

/-- One pass of `update_bar_mapping`'s loop, for BAR `id`. -/
def barMappingStep (ioRegion memRegion : Option ParentRegion) (id : Nat) (w : World) :
    Step World String :=
  match w.cfg.bars[id]? with
  | none => .next w
  | some bar =>
    if bar.size = 0 then .next w
    else
      let newAddr := getBarAddress w.cfg id
      if bar.address = newAddr then .next w
      else
        match unmapBar id bar w with
        | .error e => .fail e w
        | .ok w' => mapStage ioRegion memRegion id bar newAddr w'

/-- The loop of `update_bar_mapping` over the ids left. -/
def updateBarMappingLoop (ioRegion memRegion : Option ParentRegion) : List Nat → World → Exit World String
  | [], w => .exit w
  | id :: ids, w =>
    match barMappingStep ioRegion memRegion id w with
    | .next w' => updateBarMappingLoop ioRegion memRegion ids w'
    | .exit w' => .exit w'
    | .fail e w' => .fail e w'

/-- `PciConfig::update_bar_mapping`: how it ends, with the state it reached. -/
def updateBarMapping (ioRegion memRegion : Option ParentRegion) (w : World) : Exit World String :=
  updateBarMappingLoop ioRegion memRegion (List.range w.cfg.bars.length) w

/-- The state a run reached, whether it returned or failed: `write` and `reset`
only log the error. -/
def reachedState : Exit World String → World
  | .exit w => w
  | .fail _ w => w

/-! ## `write`, `reset` and BAR registration -/

/-- `ranges_overlap`. -/
def rangesOverlap (start1 size1 start2 size2 : Nat) : Bool :=
  !(start1 ≥ start2 + size2 || start2 ≥ start1 + size1)

/-- One byte of a guest write: the writable bits from the data, then the
write-one-to-clear bits cleared. -/
def writeByte (cfg : PciConfig) (offset : Nat) (data : UInt8) : PciConfig :=
  let mask := cfg.writeMask.getD offset 0
  let merged := (cfg.config.getD offset 0 &&& ~~~mask) ||| (data &&& mask)
  { cfg with config := cfg.config.set offset (merged &&& ~~~(data &&& cfg.writeClearMask.getD offset 0)) }

/-- The bytes of a guest write, one after another. -/
def writeBytes (cfg : PciConfig) : Nat → List UInt8 → PciConfig
  | _, [] => cfg
  | offset, data :: rest => writeBytes (writeByte cfg offset data) (offset + 1) rest

/-- `PciConfig::write` as far as BARs go (`intx` and MSI-X are not
modelled): a write out of bounds is dropped; a write that touches `COMMAND`, a
BAR or the ROM register updates the mapping. -/
def write (w : World) (offset : Nat) (data : List UInt8) (ioRegion memRegion : Option ParentRegion) :
    World :=
  if data.length > 4 ∨ offset + data.length > w.cfg.config.length then w
  else
    let cfg := writeBytes w.cfg offset data
    let (barNum, romAddr) :=
      if cfg.config.getD HEADER_TYPE 0 &&& HEADER_TYPE_BRIDGE = HEADER_TYPE_BRIDGE then
        (BAR_NUM_MAX_FOR_BRIDGE, ROM_ADDRESS_BRIDGE)
      else (BAR_NUM_MAX_FOR_ENDPOINT, ROM_ADDRESS_ENDPOINT)
    let size := data.length
    if rangesOverlap offset size COMMAND 1 || rangesOverlap offset size BAR_0 (REG_SIZE * barNum) ||
        rangesOverlap offset size romAddr 4 then
      reachedState (updateBarMapping ioRegion memRegion { w with cfg := cfg })
    else { w with cfg := cfg }

/-- `reset_single_writable_reg`: clear the writable bits of a 16-bit
register. -/
def resetSingleWritableReg (cfg : PciConfig) (offset : Nat) : PciConfig :=
  let writable := UInt16.ofNat (leReadAt cfg.writeMask offset 2) |||
    UInt16.ofNat (leReadAt cfg.writeClearMask offset 2)
  let old := UInt16.ofNat (leReadAt cfg.config offset 2)
  { cfg with config := leWriteAt cfg.config offset 2 (old &&& ~~~writable).toNat }

/-- `reset_common_regs`. -/
def resetCommonRegs (cfg : PciConfig) : PciConfig :=
  let cfg := resetSingleWritableReg cfg COMMAND
  let cfg := resetSingleWritableReg cfg STATUS
  let cfg := resetSingleWritableReg cfg INTERRUPT_LINE
  { cfg with config := cfg.config.set CACHE_LINE_SIZE 0 }

/-- `PciConfig::reset` as far as BARs go: clear the writable common
registers, then update the mapping with no parent regions. -/
def reset (w : World) : World :=
  reachedState (updateBarMapping none none { w with cfg := resetCommonRegs w.cfg })

/-- `PciConfig::new(config_size, nr_bar)`. -/
def PciConfig.new (configSize nrBar : Nat) : PciConfig :=
  { config := List.replicate configSize 0, writeMask := List.replicate configSize 0,
    writeClearMask := List.replicate configSize 0,
    bars := List.replicate nrBar
      { regionType := .mem32Bit, address := 0, size := 0, region := none,
        parentIoRegion := none, parentMemRegion := none } }

/-- The loop of `init_common_write_mask` over the capability area. -/
def capWriteMask (mask : List UInt8) (offset : Nat) : Nat → List UInt8
  | 0 => mask
  | n + 1 =>
    if offset < mask.length then capWriteMask (leWriteAt mask offset 4 0xffffffff) (offset + 4) n
    else mask

/-- `PciConfig::init_common_write_mask`. -/
def PciConfig.initCommonWriteMask (cfg : PciConfig) : PciConfig :=
  let mask := (cfg.writeMask.set CACHE_LINE_SIZE 0xff).set INTERRUPT_LINE 0xff
  let mask := leWriteAt mask COMMAND 2 (COMMAND_IO_SPACE ||| COMMAND_MEMORY_SPACE |||
    COMMAND_BUS_MASTER ||| COMMAND_INTERRUPT_DISABLE ||| COMMAND_SERR_ENABLE).toNat
  { cfg with writeMask := capWriteMask mask PCI_CONFIG_HEAD_END cfg.config.length }

/-- `validate_bar_id`. -/
def validateBarId (cfg : PciConfig) (id : Nat) : Except String Unit :=
  let headerType := cfg.config.getD HEADER_TYPE 0
  if (headerType = HEADER_TYPE_ENDPOINT ∧ id ≥ BAR_NUM_MAX_FOR_ENDPOINT) ∨
      (headerType = HEADER_TYPE_BRIDGE ∧ id ≥ BAR_NUM_MAX_FOR_BRIDGE) then
    .error ("Invalid PCI configuration, key:Bar id, value:" ++ toString id)
  else .ok ()

/-- The name `validate_bar_size` reports a BAR type by. -/
def RegionType.name : RegionType → String
  | .io => "PIO"
  | .mem32Bit => "32 bits MMIO"
  | .mem64Bit => "64 bits MMIO"

/-- `validate_bar_size`. -/
def validateBarSize (barType : RegionType) (size : UInt64) : Except String Unit :=
  if ¬ (size.toNat.isPowerOfTwo) ∨ (barType = .io ∧ size.toNat < MINIMUM_BAR_SIZE_FOR_PIO) ∨
      (barType = .mem32Bit ∧ size.toNat > 0xffffffff) ∨ (barType = .io ∧ size.toNat > 0xffff) then
    .error ("Invalid PCI configuration, key:Bar size of type " ++ barType.name ++ ", value:" ++
      toString size.toNat)
  else .ok ()

/-- The register and mask writes of `register_bar` for BAR `id`. -/
def barRegisterBits (cfg : PciConfig) (offset : Nat) (regionType : RegionType)
    (prefetchable : Bool) (size : UInt64) : PciConfig :=
  let cfg := match regionType with
    | .io =>
      { cfg with
        writeMask := leWriteAt cfg.writeMask offset 4 (~~~(size - 1)).toUInt32.toNat
        config := cfg.config.set offset BAR_IO_SPACE }
    | .mem32Bit =>
      { cfg with writeMask := leWriteAt cfg.writeMask offset 4 (~~~(size - 1)).toUInt32.toNat }
    | .mem64Bit =>
      { cfg with
        writeMask := leWriteAt cfg.writeMask offset 8 (~~~(size - 1)).toNat
        config := cfg.config.set offset BAR_MEM_64BIT }
  if prefetchable then { cfg with config := cfg.config.set offset (cfg.config.getD offset 0 ||| BAR_PREFETCH) }
  else cfg

/-- `PciConfig::register_bar`. -/
def registerBar (cfg : PciConfig) (id : Nat) (region : RegionRef) (regionType : RegionType)
    (prefetchable : Bool) (size : UInt64) : Except String PciConfig := do
  validateBarId cfg id
  validateBarSize regionType size
  let cfg := barRegisterBits cfg (BAR_0 + id * REG_SIZE) regionType prefetchable size
  match cfg.bars[id]? with
  | none => .error "index out of bounds"
  | some bar =>
    let bar' := { bar with
      regionType := regionType
      address := BAR_SPACE_UNMAPPED
      size := size
      region := some region }
    .ok { cfg with bars := cfg.bars.set id bar' }

/-! ## What a pass changes -/

/-- The subregion entries of region `rid`, in whatever parent. -/
def entriesOf (subs : List SubEntry) (rid : Nat) : List SubEntry :=
  subs.filter (fun e => e.child == rid)

/-- What `update_bar_mapping` never changes of a BAR: its type, size and
region. -/
def Bar.shape (b : Bar) : RegionType × UInt64 × Option RegionRef :=
  (b.regionType, b.size, b.region)

/-- `w'` keeps the configuration bytes of `w` and the shape of every BAR; it
changes only the BARs `S` holds of, and the entries of no region but
theirs. -/
structure Frame (S : Nat → Prop) (w w' : World) : Prop where
  config : w'.cfg.config = w.cfg.config
  shape : ∀ j : Nat, (w'.cfg.bars[j]?).map Bar.shape = (w.cfg.bars[j]?).map Bar.shape
  others : ∀ j : Nat, ¬ S j → w'.cfg.bars[j]? = w.cfg.bars[j]?
  entries : ∀ rid, (∀ (k : Nat) (b : Bar) (r : RegionRef), S k → w.cfg.bars[k]? = some b →
    b.size ≠ 0 → b.region = some r → r.id ≠ rid) → entriesOf w'.subs rid = entriesOf w.subs rid

theorem Frame.refl (S : Nat → Prop) (w : World) : Frame S w w :=
  ⟨rfl, fun _ => rfl, fun _ _ => rfl, fun _ _ => rfl⟩

/-- A BAR after a frame was there before, with the same shape. -/
theorem Frame.back {S : Nat → Prop} {w w' : World} (h : Frame S w w') {j : Nat} {b' : Bar}
    (hb : w'.cfg.bars[j]? = some b') : ∃ b, w.cfg.bars[j]? = some b ∧ b.shape = b'.shape := by
  have hshape := h.shape j
  rw [hb] at hshape
  cases hb₀ : w.cfg.bars[j]? with
  | none => rw [hb₀] at hshape; cases hshape
  | some b =>
    rw [hb₀, Option.map_some, Option.map_some, Option.some.injEq] at hshape
    exact ⟨b, rfl, hshape.symm⟩

/-- Frames compose, over the union of what they change. -/
theorem Frame.trans {S T : Nat → Prop} {w w₁ w₂ : World} (h₁ : Frame S w w₁) (h₂ : Frame T w₁ w₂) :
    Frame (fun j => S j ∨ T j) w w₂ := by
  refine ⟨h₂.config.trans h₁.config, fun j => (h₂.shape j).trans (h₁.shape j),
    fun j hj => (h₂.others j fun hT => hj (.inr hT)).trans (h₁.others j fun hS => hj (.inl hS)),
    fun rid hrid => ?_⟩
  rw [h₂.entries rid ?_, h₁.entries rid fun k b r hk => hrid k b r (.inl hk)]
  -- a BAR the second frame changes had the same size and region at the start
  intro k b r hk hb hsize hr
  obtain ⟨b₀, hb₀, hshape⟩ := h₁.back hb
  have hsize₀ : b₀.size = b.size := congrArg (fun x => x.2.1) hshape
  have hregion : b₀.region = b.region := congrArg (fun x => x.2.2) hshape
  exact hrid k b₀ r (.inr hk) hb₀ (hsize₀ ▸ hsize) (hregion.trans hr)

/-- A frame over fewer BARs is a frame over more. -/
theorem Frame.mono {S T : Nat → Prop} {w w' : World} (h : Frame S w w') (hST : ∀ j, S j → T j) :
    Frame T w w' :=
  ⟨h.config, h.shape, fun j hj => h.others j fun hS => hj (hST j hS),
    fun rid hrid => h.entries rid fun k b r hk => hrid k b r (hST k hk)⟩

/-- Getting a BAR's address reads only the configuration bytes and the BAR's
type. -/
theorem getBarAddress_frame {S : Nat → Prop} {w w' : World} (h : Frame S w w') (j : Nat) :
    getBarAddress w'.cfg j = getBarAddress w.cfg j := by
  have hshape := h.shape j
  unfold getBarAddress
  rw [h.config]
  cases h₁ : w.cfg.bars[j]? with
  | none =>
    cases h₂ : w'.cfg.bars[j]? with
    | none => rfl
    | some b => rw [h₁, h₂] at hshape; cases hshape
  | some b =>
    cases h₂ : w'.cfg.bars[j]? with
    | none => rw [h₁, h₂] at hshape; cases hshape
    | some b' =>
      rw [h₁, h₂, Option.map_some, Option.map_some, Option.some.injEq] at hshape
      have hkind : b'.regionType = b.regionType := congrArg Prod.fst hshape
      simp only [hkind]

/-- The state a pass leaves, however it ends. -/
def stepState : Step World String → World
  | .next w => w
  | .exit w => w
  | .fail _ w => w

@[simp] theorem shape_withParent (b : Bar) (parent : ParentRegion) :
    (b.withParent parent).shape = b.shape := by
  cases hk : b.regionType <;> simp only [Bar.withParent, Bar.shape, hk]

/-- A BAR replaced by one of the same shape, with the subregions changed only
for the BAR's own region. -/
theorem Frame.setBar {w : World} {id : Nat} {bar bar' : Bar} {subs : List SubEntry}
    (hid : w.cfg.bars[id]? = some bar) (hsize : bar.size ≠ 0) (hshape : bar'.shape = bar.shape)
    (hsubs : ∀ rid, (∀ r, bar.region = some r → r.id ≠ rid) → entriesOf subs rid = entriesOf w.subs rid) :
    Frame (· = id) w ({ w with subs := subs }.setBar id bar') := by
  have hlt : id < w.cfg.bars.length := (List.getElem?_eq_some_iff.1 hid).1
  refine ⟨rfl, fun j => ?_, fun j hj => ?_,
    fun rid hrid => hsubs rid fun r hr => hrid id bar r rfl hid hsize hr⟩
  · by_cases hj : id = j
    · subst hj
      simp only [World.setBar, List.getElem?_set_self hlt, hid, Option.map_some, hshape]
    · simp only [World.setBar, List.getElem?_set_ne hj]
  · simp only [World.setBar, List.getElem?_set_ne (Ne.symm hj)]

/-- The unmap half: a BAR already unmapped is left; a mapped one with no
recorded parent is marked unmapped; a mapped one with a recorded parent leaves
it, when its region is there, and is marked unmapped. -/
theorem unmapBar_eq_ok {w w₁ : World} {id : Nat} {bar : Bar} (h : unmapBar id bar w = .ok w₁) :
    (bar.address = BAR_SPACE_UNMAPPED ∧ w₁ = w) ∨
      (bar.address ≠ BAR_SPACE_UNMAPPED ∧ bar.recordedParent = none ∧
        w₁ = { w with subs := w.subs }.setBar id { bar with address := BAR_SPACE_UNMAPPED }) ∨
      (bar.address ≠ BAR_SPACE_UNMAPPED ∧ ∃ parent region, bar.recordedParent = some parent ∧
        bar.region = some region ∧ w.subs.any (isEntryOf parent.id region.id) = true ∧
        w₁ = { w with subs := w.subs.eraseP (isEntryOf parent.id region.id) }.setBar id
          { bar with address := BAR_SPACE_UNMAPPED }) := by
  unfold unmapBar at h
  split_ifs at h with haddr
  · cases hp : bar.recordedParent with
    | none =>
      rw [hp] at h
      exact .inr (.inl ⟨haddr, rfl, (Except.ok.inj h).symm⟩)
    | some parent =>
      rw [hp] at h
      cases hr : bar.region with
      | none => rw [hr] at h; cases h
      | some region =>
        rw [hr] at h
        dsimp only at h
        by_cases hany : w.subs.any (isEntryOf parent.id region.id) = true
        · rw [deleteSubregion, if_pos hany] at h
          exact .inr (.inr ⟨haddr, parent, region, rfl, rfl, hany, (Except.ok.inj h).symm⟩)
        · rw [deleteSubregion, if_neg hany] at h
          cases h
  · exact .inl ⟨Decidable.of_not_not haddr, (Except.ok.inj h).symm⟩

/-- The unmap half changes BAR `id` only, to unmapped. -/
theorem unmapBar_frame {w w₁ : World} {id : Nat} {bar : Bar} (hid : w.cfg.bars[id]? = some bar)
    (hsize : bar.size ≠ 0) (h : unmapBar id bar w = .ok w₁) :
    Frame (· = id) w w₁ ∧ w₁.cfg.bars[id]? = some { bar with address := BAR_SPACE_UNMAPPED } := by
  have hlt : id < w.cfg.bars.length := (List.getElem?_eq_some_iff.1 hid).1
  rcases unmapBar_eq_ok h with ⟨haddr, rfl⟩ | ⟨-, -, rfl⟩ | ⟨-, parent, region, -, hr, -, rfl⟩
  · have hbar : { bar with address := BAR_SPACE_UNMAPPED } = bar := by rw [← haddr]
    exact ⟨Frame.refl _ _, by rw [hbar]; exact hid⟩
  · exact ⟨Frame.setBar hid hsize rfl fun _ _ => rfl, List.getElem?_set_self hlt⟩
  · -- the delete takes out an entry of the BAR's own region only
    refine ⟨Frame.setBar hid hsize rfl fun rid hrid => ?_, List.getElem?_set_self hlt⟩
    apply filter_eraseP_of_false
    intro e he
    simp only [isEntryOf, Bool.and_eq_true, beq_iff_eq] at he
    simp only [he.2, beq_eq_false_iff_ne]
    exact hrid region hr

/-- The map half: the BAR's region joins the parent at the new address. -/
theorem mapBar_eq_ok {w w₂ : World} {id : Nat} {bar : Bar} {parent : ParentRegion}
    {newAddr : UInt64} (h : mapBar id bar parent newAddr w = .ok w₂) :
    ∃ region, bar.region = some region ∧
      w₂ = { w with subs := ⟨parent.id, region.id, newAddr⟩ :: w.subs }.setBar id
        { bar.withParent parent with address := newAddr } := by
  unfold mapBar at h
  cases hr : bar.region with
  | none => rw [hr] at h; cases h
  | some region =>
    rw [hr] at h
    dsimp only at h
    cases ha : addSubregion w.subs parent region newAddr with
    | error e => rw [ha] at h; cases h
    | ok subs =>
      rw [ha] at h
      cases h
      have hsubs : subs = ⟨parent.id, region.id, newAddr⟩ :: w.subs := by
        unfold addSubregion at ha
        split at ha
        · exact (Except.ok.inj ha).symm
        · cases ha
      exact ⟨region, rfl, by rw [hsubs]⟩

/-- The map half changes BAR `id` only. -/
theorem mapBar_frame {w w₂ : World} {id : Nat} {bar : Bar} {parent : ParentRegion}
    {newAddr : UInt64} (hid : w.cfg.bars[id]? = some bar) (hsize : bar.size ≠ 0)
    (h : mapBar id bar parent newAddr w = .ok w₂) :
    Frame (· = id) w w₂ ∧
      w₂.cfg.bars[id]? = some { bar.withParent parent with address := newAddr } := by
  have hlt : id < w.cfg.bars.length := (List.getElem?_eq_some_iff.1 hid).1
  obtain ⟨region, hr, rfl⟩ := mapBar_eq_ok h
  refine ⟨Frame.setBar hid hsize (shape_withParent bar parent) fun rid hrid => ?_,
    List.getElem?_set_self hlt⟩
  have hne : region.id ≠ rid := hrid region hr
  simp only [entriesOf, List.filter_cons, beq_iff_eq, hne, if_false]

/-- **Step.** A pass changes BAR `id` only. -/
theorem barMappingStep_frame (ioRegion memRegion : Option ParentRegion) (id : Nat) (w : World) :
    Frame (· = id) w (stepState (barMappingStep ioRegion memRegion id w)) := by
  unfold barMappingStep
  cases hid : w.cfg.bars[id]? with
  | none => exact Frame.refl _ _
  | some bar =>
    dsimp only
    split_ifs with hsize haddr
    · exact Frame.refl _ _
    · exact Frame.refl _ _
    · cases hu : unmapBar id bar w with
      | error e => exact Frame.refl _ _
      | ok w₁ =>
        obtain ⟨hframe₁, hid₁⟩ := unmapBar_frame hid hsize hu
        dsimp only
        unfold mapStage
        cases hp : bar.parentFor ioRegion memRegion with
        | none => exact hframe₁
        | some parent =>
          dsimp only
          split_ifs with hnew
          · cases hm : mapBar id { bar with address := BAR_SPACE_UNMAPPED } parent
                (getBarAddress w.cfg id) w₁ with
            | error e => exact hframe₁
            | ok w₂ =>
              exact (hframe₁.trans (mapBar_frame hid₁ hsize hm).1).mono fun j hj => hj.elim (fun h => h) (fun h => h)
          · exact hframe₁

/-! ## BARs and subregions agree -/

/-- A BAR of nonzero size has its region; unmapped, the region is in no
parent; mapped, it is in the parent the BAR recorded, once, at the BAR's
address. -/
def BarTracked (subs : List SubEntry) (bar : Bar) : Prop :=
  bar.size ≠ 0 → ∃ region, bar.region = some region ∧
    (bar.address = BAR_SPACE_UNMAPPED → entriesOf subs region.id = []) ∧
    (bar.address ≠ BAR_SPACE_UNMAPPED → ∃ parent, bar.recordedParent = some parent ∧
      entriesOf subs region.id = [⟨parent.id, region.id, bar.address⟩])

/-- Every BAR agrees with the subregions, and the BARs of nonzero size have
distinct regions. -/
structure Tracked (w : World) : Prop where
  bars : ∀ (j : Nat) (bar : Bar), w.cfg.bars[j]? = some bar → BarTracked w.subs bar
  distinct : ∀ (i j : Nat) (a b : Bar) (ra rb : RegionRef), i ≠ j → w.cfg.bars[i]? = some a →
    w.cfg.bars[j]? = some b → a.size ≠ 0 → b.size ≠ 0 → a.region = some ra → b.region = some rb →
    ra.id ≠ rb.id

/-- Replacing BAR `id` by one of the same shape that agrees with new
subregions, changed only for its own region, keeps the agreement. -/
theorem Tracked.update {w : World} (hw : Tracked w) {id : Nat} {bar bar' : Bar}
    {subs : List SubEntry} (hid : w.cfg.bars[id]? = some bar) (hsize : bar.size ≠ 0)
    (hshape : bar'.shape = bar.shape) (hnew : BarTracked subs bar')
    (hsubs : ∀ rid, (∀ r, bar.region = some r → r.id ≠ rid) → entriesOf subs rid = entriesOf w.subs rid) :
    Tracked ({ w with subs := subs }.setBar id bar') := by
  have hlt : id < w.cfg.bars.length := (List.getElem?_eq_some_iff.1 hid).1
  have hframe := Frame.setBar hid hsize hshape hsubs
  refine ⟨fun j b hb => ?_, fun i j a b ra rb hij ha hb hsa hsb hra hrb => ?_⟩
  · by_cases hj : j = id
    · -- the new BAR
      subst hj
      rw [World.setBar, List.getElem?_set_self hlt, Option.some.injEq] at hb
      exact hb ▸ hnew
    · -- another BAR: its region is not BAR `id`'s, so its entries did not move
      rw [hframe.others j hj] at hb
      intro hbs
      obtain ⟨rb, hrb, hun, hmap⟩ := hw.bars j b hb hbs
      have hkeep := hsubs rb.id fun r hr => hw.distinct id j bar b r rb (Ne.symm hj) hid hb hsize hbs hr hrb
      exact ⟨rb, hrb, fun h => hkeep ▸ hun h, fun h => hkeep ▸ hmap h⟩
  · -- sizes and regions are those of the BARs before
    obtain ⟨a₀, ha₀, hsa₀⟩ := hframe.back ha
    obtain ⟨b₀, hb₀, hsb₀⟩ := hframe.back hb
    have hsza : a₀.size = a.size := congrArg (fun x => x.2.1) hsa₀
    have hszb : b₀.size = b.size := congrArg (fun x => x.2.1) hsb₀
    have hrga : a₀.region = a.region := congrArg (fun x => x.2.2) hsa₀
    have hrgb : b₀.region = b.region := congrArg (fun x => x.2.2) hsb₀
    exact hw.distinct i j a₀ b₀ ra rb hij ha₀ hb₀ (hsza ▸ hsa) (hszb ▸ hsb) (hrga ▸ hra) (hrgb ▸ hrb)

/-- The unmap half keeps the agreement and leaves the BAR's region in no
parent. -/
theorem unmapBar_tracked {w w₁ : World} (hw : Tracked w) {id : Nat} {bar : Bar}
    (hid : w.cfg.bars[id]? = some bar) (hsize : bar.size ≠ 0) (h : unmapBar id bar w = .ok w₁) :
    Tracked w₁ ∧ ∀ region, bar.region = some region → entriesOf w₁.subs region.id = [] := by
  obtain ⟨region, hr, hun, hmap⟩ := hw.bars id bar hid hsize
  have hnew : ∀ subs, entriesOf subs region.id = [] →
      BarTracked subs { bar with address := BAR_SPACE_UNMAPPED } :=
    fun subs hsubs _ => ⟨region, hr, fun _ => hsubs, fun h => absurd rfl h⟩
  rcases unmapBar_eq_ok h with ⟨haddr, rfl⟩ | ⟨haddr, hp, rfl⟩ | ⟨haddr, parent, region', hp, hr', -, rfl⟩
  · exact ⟨hw, fun r hr₁ => by rw [hr₁, Option.some.injEq] at hr; rw [hr]; exact hun haddr⟩
  · -- a mapped BAR always recorded its parent
    obtain ⟨parent, hp', -⟩ := hmap haddr
    rw [hp] at hp'
    cases hp'
  · obtain ⟨parent', hp', hent⟩ := hmap haddr
    rw [hp, Option.some.injEq] at hp'
    rw [hr, Option.some.injEq] at hr'
    subst hp' hr'
    -- the entry the delete takes is the region's only one
    have hgone : entriesOf (w.subs.eraseP (isEntryOf parent.id region.id)) region.id = [] := by
      unfold entriesOf
      rw [filter_eraseP_of_imp (fun e he => by
        simp only [isEntryOf, Bool.and_eq_true, beq_iff_eq] at he
        simp only [he.2, beq_self_eq_true])]
      unfold entriesOf at hent
      rw [hent, List.eraseP_cons_of_pos (by simp only [isEntryOf, beq_self_eq_true, Bool.and_self])]
    refine ⟨hw.update hid hsize rfl (hnew _ hgone) fun rid hrid => ?_, fun r hr₁ => ?_⟩
    · apply filter_eraseP_of_false
      intro e he
      simp only [isEntryOf, Bool.and_eq_true, beq_iff_eq] at he
      simp only [he.2, beq_eq_false_iff_ne]
      exact hrid region hr
    · rw [hr, Option.some.injEq] at hr₁
      subst hr₁
      exact hgone

/-- The map half keeps the agreement, from a BAR whose region is in no
parent. -/
theorem mapBar_tracked {w₁ w₂ : World} (hw : Tracked w₁) {id : Nat} {bar : Bar}
    {parent : ParentRegion} {newAddr : UInt64} (hid : w₁.cfg.bars[id]? = some bar) (hsize : bar.size ≠ 0)
    (hnone : ∀ region, bar.region = some region → entriesOf w₁.subs region.id = [])
    (hne : newAddr ≠ BAR_SPACE_UNMAPPED) (h : mapBar id bar parent newAddr w₁ = .ok w₂) :
    Tracked w₂ := by
  obtain ⟨region, hr, rfl⟩ := mapBar_eq_ok h
  have hparent : ({ bar.withParent parent with address := newAddr }).recordedParent = some parent := by
    cases hk : bar.regionType <;> simp only [Bar.withParent, Bar.recordedParent, hk]
  have hent : entriesOf (⟨parent.id, region.id, newAddr⟩ :: w₁.subs) region.id =
      [⟨parent.id, region.id, newAddr⟩] := by
    have h₀ := hnone region hr
    unfold entriesOf at h₀ ⊢
    rw [List.filter_cons_of_pos (p := fun e : SubEntry => e.child == region.id) (beq_self_eq_true _),
      h₀]
  refine hw.update hid hsize (shape_withParent bar parent) (fun _ => ?_) fun rid hrid => ?_
  · refine ⟨region, ?_, fun h => absurd h hne, fun _ => ⟨parent, hparent, hent⟩⟩
    cases hk : bar.regionType <;> simp only [Bar.withParent, hk, hr]
  · have hne' : region.id ≠ rid := hrid region hr
    simp only [entriesOf, List.filter_cons, beq_iff_eq, hne', if_false]

/-- **Step.** A pass keeps BARs and subregions in agreement, however it
ends. -/
theorem barMappingStep_tracked (ioRegion memRegion : Option ParentRegion) (id : Nat) {w : World}
    (hw : Tracked w) : Tracked (stepState (barMappingStep ioRegion memRegion id w)) := by
  unfold barMappingStep
  cases hid : w.cfg.bars[id]? with
  | none => exact hw
  | some bar =>
    dsimp only
    split_ifs with hsize haddr
    · exact hw
    · exact hw
    · cases hu : unmapBar id bar w with
      | error e => exact hw
      | ok w₁ =>
        obtain ⟨hw₁, hnone⟩ := unmapBar_tracked hw hid hsize hu
        have hid₁ := (unmapBar_frame hid hsize hu).2
        dsimp only
        unfold mapStage
        cases hp : bar.parentFor ioRegion memRegion with
        | none => exact hw₁
        | some parent =>
          dsimp only
          split_ifs with hnew
          · cases hm : mapBar id { bar with address := BAR_SPACE_UNMAPPED } parent
                (getBarAddress w.cfg id) w₁ with
            | error e => exact hw₁
            | ok w₂ => exact mapBar_tracked hw₁ hid₁ hsize hnone hnew hm
          · exact hw₁

/-- **Run.** A run of `update_bar_mapping`'s loop keeps BARs and subregions in
agreement, however it ends. -/
theorem updateBarMappingLoop_tracked (ioRegion memRegion : Option ParentRegion) :
    ∀ (ids : List Nat) {w : World}, Tracked w →
      Tracked (reachedState (updateBarMappingLoop ioRegion memRegion ids w))
  | [], _, hw => hw
  | id :: ids, w, hw => by
    have hstep := barMappingStep_tracked ioRegion memRegion id hw
    unfold updateBarMappingLoop
    cases hs : barMappingStep ioRegion memRegion id w with
    | next w' =>
      rw [hs] at hstep
      exact updateBarMappingLoop_tracked ioRegion memRegion ids hstep
    | exit w' => rw [hs] at hstep; exact hstep
    | fail e w' => rw [hs] at hstep; exact hstep

/-- **Run.** A run of the loop changes only the BARs it visits. -/
theorem updateBarMappingLoop_frame (ioRegion memRegion : Option ParentRegion) :
    ∀ (ids : List Nat) (w : World),
      Frame (· ∈ ids) w (reachedState (updateBarMappingLoop ioRegion memRegion ids w))
  | [], w => Frame.refl _ w
  | id :: ids, w => by
    have hstep := barMappingStep_frame ioRegion memRegion id w
    have hmono : ∀ j, j = id → j ∈ id :: ids := fun j hj => hj ▸ List.mem_cons_self
    unfold updateBarMappingLoop
    cases hs : barMappingStep ioRegion memRegion id w with
    | next w' =>
      rw [hs] at hstep
      exact (hstep.trans (updateBarMappingLoop_frame ioRegion memRegion ids w')).mono
        fun j hj => hj.elim (hmono j) (List.mem_cons_of_mem id)
    | exit w' => rw [hs] at hstep; exact hstep.mono hmono
    | fail e w' => rw [hs] at hstep; exact hstep.mono hmono

/-! ## With both parents supplied -/

/-- BAR `id` is at the address its registers give, or has no size. -/
def Synced (w : World) (id : Nat) : Prop :=
  ∀ bar, w.cfg.bars[id]? = some bar → bar.size ≠ 0 → bar.address = getBarAddress w.cfg id

/-- A run that changes other BARs keeps a BAR in step. -/
theorem Synced.frame {S : Nat → Prop} {w w' : World} {id : Nat} (h : Synced w id)
    (hframe : Frame S w w') (hid : ¬ S id) : Synced w' id := by
  intro bar hbar hsize
  rw [hframe.others id hid] at hbar
  rw [getBarAddress_frame hframe]
  exact h bar hbar hsize

/-- The parent for a BAR's type, when both were supplied. -/
theorem Bar.parentFor_isSome (bar : Bar) {ioRegion memRegion : Option ParentRegion}
    (hio : ioRegion.isSome) (hmem : memRegion.isSome) :
    ∃ parent, bar.parentFor ioRegion memRegion = some parent := by
  cases hk : bar.regionType <;> simp only [Bar.parentFor, hk]
  · exact Option.isSome_iff_exists.1 hio
  · exact Option.isSome_iff_exists.1 hmem
  · exact Option.isSome_iff_exists.1 hmem

/-- **Step.** With both parents supplied, a pass never returns from the whole
loop, and a pass that goes on leaves its BAR in step. -/
theorem barMappingStep_supplied {ioRegion memRegion : Option ParentRegion} (hio : ioRegion.isSome)
    (hmem : memRegion.isSome) (id : Nat) (w : World) :
    (∀ w', barMappingStep ioRegion memRegion id w ≠ .exit w') ∧
      (∀ w', barMappingStep ioRegion memRegion id w = .next w' → Synced w' id) := by
  unfold barMappingStep
  cases hid : w.cfg.bars[id]? with
  | none =>
    refine ⟨(fun w' h => by cases h), fun w' h => ?_⟩
    cases h
    intro bar hbar
    rw [hid] at hbar
    cases hbar
  | some bar =>
    dsimp only
    split_ifs with hsize haddr
    · refine ⟨(fun w' h => by cases h), fun w' h => ?_⟩
      cases h
      intro bar' hbar' hsize'
      rw [hid, Option.some.injEq] at hbar'
      exact absurd (hbar' ▸ hsize) hsize'
    · refine ⟨(fun w' h => by cases h), fun w' h => ?_⟩
      cases h
      intro bar' hbar' _
      rw [hid, Option.some.injEq] at hbar'
      exact hbar' ▸ haddr
    · cases hu : unmapBar id bar w with
      | error e => exact ⟨(fun w' h => by cases h), (fun w' h => by cases h)⟩
      | ok w₁ =>
        obtain ⟨hframe₁, hid₁⟩ := unmapBar_frame hid hsize hu
        obtain ⟨parent, hp⟩ := bar.parentFor_isSome hio hmem
        dsimp only
        unfold mapStage
        rw [hp]
        dsimp only
        split_ifs with hnew
        · cases hm : mapBar id { bar with address := BAR_SPACE_UNMAPPED } parent
              (getBarAddress w.cfg id) w₁ with
          | error e => exact ⟨(fun w' h => by cases h), (fun w' h => by cases h)⟩
          | ok w₂ =>
            -- mapped at the new address
            refine ⟨(fun w' h => by cases h), fun w' h => ?_⟩
            cases h
            obtain ⟨hframe₂, hid₂⟩ := mapBar_frame hid₁ hsize hm
            intro bar' hbar' _
            rw [hid₂, Option.some.injEq] at hbar'
            rw [← hbar', getBarAddress_frame hframe₂, getBarAddress_frame hframe₁]
        · -- the registers say unmapped, and so does the BAR
          refine ⟨(fun w' h => by cases h), fun w' h => ?_⟩
          cases h
          intro bar' hbar' _
          rw [hid₁, Option.some.injEq] at hbar'
          rw [← hbar', getBarAddress_frame hframe₁]
          exact (Decidable.of_not_not hnew).symm

/-- **Run.** With both parents supplied, a run over distinct ids that returns
leaves every BAR it visited in step. -/
theorem updateBarMappingLoop_synced {ioRegion memRegion : Option ParentRegion} (hio : ioRegion.isSome)
    (hmem : memRegion.isSome) :
    ∀ (ids : List Nat) {w w' : World}, ids.Nodup →
      updateBarMappingLoop ioRegion memRegion ids w = .exit w' → ∀ id ∈ ids, Synced w' id
  | [], _, _, _, _, id, hid => absurd hid List.not_mem_nil
  | id :: ids, w, w', hnodup, h, id', hid' => by
    obtain ⟨hnexit, hsynced⟩ := barMappingStep_supplied hio hmem id w
    unfold updateBarMappingLoop at h
    cases hs : barMappingStep ioRegion memRegion id w with
    | next w₁ =>
      rw [hs] at h
      dsimp only at h
      have hrest := List.nodup_cons.1 hnodup
      rcases List.mem_cons.1 hid' with rfl | hmem'
      · -- the BAR of this pass, untouched by the passes after it
        have hframe := updateBarMappingLoop_frame ioRegion memRegion ids w₁
        rw [h] at hframe
        exact (hsynced w₁ hs).frame hframe hrest.1
      · exact updateBarMappingLoop_synced hio hmem ids hrest.2 h id' hmem'
    | exit w₁ => exact absurd hs (hnexit w₁)
    | fail e w₁ => rw [hs] at h; cases h

/-- **Synced.** With both parents supplied, from BARs and subregions that
agree, a run of `update_bar_mapping` that returns leaves every BAR of nonzero
size at the address its registers give: unmapped, its region is in no parent;
mapped, its region is in the parent it recorded, once, at that address. -/
theorem updateBarMapping_synced {ioRegion memRegion : Option ParentRegion} (hio : ioRegion.isSome)
    (hmem : memRegion.isSome) {w w' : World} (hw : Tracked w)
    (h : updateBarMapping ioRegion memRegion w = .exit w') :
    Tracked w' ∧ ∀ id bar, w'.cfg.bars[id]? = some bar → bar.size ≠ 0 →
      ∃ region, bar.region = some region ∧ bar.address = getBarAddress w'.cfg id ∧
        (getBarAddress w'.cfg id = BAR_SPACE_UNMAPPED → entriesOf w'.subs region.id = []) ∧
        (getBarAddress w'.cfg id ≠ BAR_SPACE_UNMAPPED → ∃ parent, bar.recordedParent = some parent ∧
          entriesOf w'.subs region.id = [⟨parent.id, region.id, getBarAddress w'.cfg id⟩]) := by
  have htracked := updateBarMappingLoop_tracked ioRegion memRegion (List.range w.cfg.bars.length) hw
  have hframe := updateBarMappingLoop_frame ioRegion memRegion (List.range w.cfg.bars.length) w
  unfold updateBarMapping at h
  rw [h] at htracked hframe
  refine ⟨htracked, fun id bar hbar hsize => ?_⟩
  -- the BAR was visited
  obtain ⟨b₀, hb₀, -⟩ := hframe.back hbar
  have hrange : id ∈ List.range w.cfg.bars.length :=
    List.mem_range.2 (List.getElem?_eq_some_iff.1 hb₀).1
  have haddr := updateBarMappingLoop_synced hio hmem _ List.nodup_range h id hrange bar hbar hsize
  obtain ⟨region, hr, hun, hmap⟩ := htracked.bars id bar hbar hsize
  exact ⟨region, hr, haddr, fun hu => hun (haddr.trans hu), fun hm => haddr ▸ hmap (haddr ▸ hm)⟩

/-! ## `reset` -/

/-- Both decode bits of `COMMAND` are writable, as `init_common_write_mask`
makes them for every function. -/
def DecodeWritable (cfg : PciConfig) : Prop :=
  UInt16.ofNat (leReadAt cfg.writeMask COMMAND 2) &&& COMMAND_IO_SPACE = COMMAND_IO_SPACE ∧
    UInt16.ofNat (leReadAt cfg.writeMask COMMAND 2) &&& COMMAND_MEMORY_SPACE = COMMAND_MEMORY_SPACE

instance (cfg : PciConfig) : Decidable (DecodeWritable cfg) := by
  unfold DecodeWritable
  infer_instance

/-- A bit that is writable is clear once the writable bits are cleared. -/
theorem and_not_or_and_eq_zero {a x y m : UInt16} (h : x &&& m = m) :
    (a &&& ~~~(x ||| y)) &&& m = 0 := by
  have h' := congrArg UInt16.toBitVec h
  apply UInt16.toBitVec_inj.1
  simp only [UInt16.toBitVec_and, UInt16.toBitVec_not, UInt16.toBitVec_or] at h' ⊢
  ext i hi
  have hbit := congrArg (fun v => v[i]) h'
  simp only [BitVec.getElem_and, BitVec.getElem_not, BitVec.getElem_or, UInt16.toBitVec_zero,
    BitVec.getElem_zero] at hbit ⊢
  cases hm : m.toBitVec[i] <;> simp_all

/-- A 16-bit register written and read back. -/
theorem ofNat_leReadAt_leWriteAt {buf : List UInt8} {offset : Nat} (v : UInt16)
    (h : offset + 2 ≤ buf.length) : UInt16.ofNat (leReadAt (leWriteAt buf offset 2 v.toNat) offset 2) = v := by
  have hv : v.toNat < 256 ^ 2 := by have := v.toNat_lt; omega
  rw [leReadAt_leWriteAt _ h, Nat.mod_eq_of_lt hv]
  exact UInt16.ofNat_toNat

section ResetReg

variable {cfg : PciConfig} {offset : Nat}

/-- `reset_single_writable_reg` keeps the size of configuration space. -/
theorem resetSingleWritableReg_length (h : offset + 2 ≤ cfg.config.length) :
    (resetSingleWritableReg cfg offset).config.length = cfg.config.length :=
  length_leWriteAt _ h

/-- `reset_single_writable_reg` leaves the registers apart from its own. -/
theorem leReadAt_resetSingleWritableReg_of_disjoint (h : offset + 2 ≤ cfg.config.length)
    {offset' w' : Nat} (hsep : offset' + w' ≤ offset ∨ offset + 2 ≤ offset') :
    leReadAt (resetSingleWritableReg cfg offset).config offset' w' = leReadAt cfg.config offset' w' :=
  leReadAt_leWriteAt_of_disjoint _ h hsep

/-- `reset_single_writable_reg` keeps of its register the bits that are
neither writable nor write-one-to-clear. -/
theorem resetSingleWritableReg_self (h : offset + 2 ≤ cfg.config.length) :
    UInt16.ofNat (leReadAt (resetSingleWritableReg cfg offset).config offset 2) =
      UInt16.ofNat (leReadAt cfg.config offset 2) &&&
        ~~~(UInt16.ofNat (leReadAt cfg.writeMask offset 2) |||
          UInt16.ofNat (leReadAt cfg.writeClearMask offset 2)) :=
  ofNat_leReadAt_leWriteAt _ h

end ResetReg

/-- After `reset_common_regs`, `COMMAND` keeps only its bits that are neither
writable nor write-one-to-clear. -/
theorem command_resetCommonRegs (cfg : PciConfig) (hlen : PCI_CONFIG_HEAD_END ≤ cfg.config.length) :
    UInt16.ofNat (leReadAt (resetCommonRegs cfg).config COMMAND 2) =
      UInt16.ofNat (leReadAt cfg.config COMMAND 2) &&&
        ~~~(UInt16.ofNat (leReadAt cfg.writeMask COMMAND 2) |||
          UInt16.ofNat (leReadAt cfg.writeClearMask COMMAND 2)) := by
  unfold PCI_CONFIG_HEAD_END at hlen
  let cfg₁ := resetSingleWritableReg cfg COMMAND
  let cfg₂ := resetSingleWritableReg cfg₁ STATUS
  have hlen₁ : cfg₁.config.length = cfg.config.length :=
    resetSingleWritableReg_length (by unfold COMMAND; omega)
  have hlen₂ : cfg₂.config.length = cfg.config.length :=
    (resetSingleWritableReg_length (by unfold STATUS; omega)).trans hlen₁
  -- `COMMAND` is apart from the cache line size, the interrupt line and `STATUS`
  show UInt16.ofNat (leReadAt ((resetSingleWritableReg cfg₂ INTERRUPT_LINE).config.set
    CACHE_LINE_SIZE 0) COMMAND 2) = _
  rw [leReadAt_set_of_not_mem _ (by unfold CACHE_LINE_SIZE COMMAND; omega),
    leReadAt_resetSingleWritableReg_of_disjoint (by unfold INTERRUPT_LINE; omega)
      (by unfold INTERRUPT_LINE COMMAND; omega),
    leReadAt_resetSingleWritableReg_of_disjoint (by unfold STATUS; omega) (by unfold STATUS COMMAND; omega),
    resetSingleWritableReg_self (by unfold COMMAND; omega)]

/-- With both decode bits off, every BAR reads as unmapped. -/
theorem getBarAddress_of_decode_off {cfg : PciConfig}
    (hio : UInt16.ofNat (leReadAt cfg.config COMMAND 2) &&& COMMAND_IO_SPACE = 0)
    (hmem : UInt16.ofNat (leReadAt cfg.config COMMAND 2) &&& COMMAND_MEMORY_SPACE = 0) (id : Nat) :
    getBarAddress cfg id = BAR_SPACE_UNMAPPED := by
  unfold getBarAddress
  simp only [hio, hmem, if_true, ite_self]

/-- After `reset_common_regs`, every BAR reads as unmapped. -/
theorem getBarAddress_resetCommonRegs {cfg : PciConfig} (hdecode : DecodeWritable cfg)
    (hlen : PCI_CONFIG_HEAD_END ≤ cfg.config.length) (id : Nat) :
    getBarAddress (resetCommonRegs cfg) id = BAR_SPACE_UNMAPPED :=
  getBarAddress_of_decode_off
    (by rw [command_resetCommonRegs cfg hlen]; exact and_not_or_and_eq_zero hdecode.1)
    (by rw [command_resetCommonRegs cfg hlen]; exact and_not_or_and_eq_zero hdecode.2) id

/-- BAR `id` would change in a pass: it has a size, and its address is not the
one its registers give. -/
def Changes (w : World) (id : Nat) : Prop :=
  ∃ bar, w.cfg.bars[id]? = some bar ∧ bar.size ≠ 0 ∧ bar.address ≠ getBarAddress w.cfg id

/-- A pass on a BAR that would not change goes on and changes nothing. -/
theorem barMappingStep_of_not_changes (ioRegion memRegion : Option ParentRegion) {w : World}
    {id : Nat} (h : ¬ Changes w id) : barMappingStep ioRegion memRegion id w = .next w := by
  unfold barMappingStep
  cases hid : w.cfg.bars[id]? with
  | none => rfl
  | some bar =>
    dsimp only
    split_ifs with hsize haddr
    · rfl
    · rfl
    · exact absurd ⟨bar, hid, hsize, haddr⟩ h

/-- With no parents, a pass on a BAR that would change ends the loop. -/
theorem barMappingStep_none_of_changes {w : World} {id : Nat} (h : Changes w id) (w' : World) :
    barMappingStep none none id w ≠ .next w' := by
  obtain ⟨bar, hid, hsize, haddr⟩ := h
  have hnone : bar.parentFor none none = none := by
    cases hk : bar.regionType <;> simp only [Bar.parentFor, hk]
  unfold barMappingStep
  rw [hid]
  dsimp only
  rw [if_neg hsize, if_neg haddr]
  cases hu : unmapBar id bar w with
  | error e => exact fun h' => by cases h'
  | ok w₁ =>
    dsimp only
    unfold mapStage
    rw [hnone]
    exact fun h' => by cases h'

/-- **Run.** With no parents, the loop over increasing ids stops at the first
BAR that would change: a run past a BAR `i` that would change leaves every
BAR after it as it was. -/
theorem updateBarMappingLoop_none_stops :
    ∀ (ids : List Nat) (w : World) {i j : Nat}, ids.Pairwise (· < ·) → i ∈ ids → Changes w i → i < j →
      Frame (· < j) w (reachedState (updateBarMappingLoop none none ids w))
  | [], _, _, _, _, hi, _, _ => absurd hi List.not_mem_nil
  | k :: rest, w, i, j, hsorted, hi, hch, hij => by
    have hk : ∀ x ∈ rest, k < x := (List.pairwise_cons.1 hsorted).1
    by_cases hck : Changes w k
    · -- the loop stops at `k`, which is at most `i`
      have hki : k < j := by
        rcases List.mem_cons.1 hi with rfl | hrest
        · exact hij
        · exact Nat.lt_trans (hk i hrest) hij
      have hstep := barMappingStep_frame none none k w
      have hmono : ∀ x, x = k → x < j := fun x hx => hx ▸ hki
      unfold updateBarMappingLoop
      cases hs : barMappingStep none none k w with
      | next w' => exact absurd hs (barMappingStep_none_of_changes hck w')
      | exit w' => rw [hs] at hstep; exact hstep.mono hmono
      | fail e w' => rw [hs] at hstep; exact hstep.mono hmono
    · -- the pass at `k` changes nothing, and `i` comes later
      have hirest : i ∈ rest := by
        rcases List.mem_cons.1 hi with rfl | hrest
        · exact absurd hch hck
        · exact hrest
      unfold updateBarMappingLoop
      rw [barMappingStep_of_not_changes none none hck]
      exact updateBarMappingLoop_none_stops rest w (List.pairwise_cons.1 hsorted).2 hirest hch hij

/-- **Reset.** From BARs and subregions that agree, with decoding writable as
every function has it: `reset` turns decoding off, so every BAR reads as
unmapped; but it stops at the first BAR it unmaps, so a BAR after a mapped
one keeps its address and stays in its parent. -/
theorem reset_keeps_later_bars {w : World} (hw : Tracked w) (hdecode : DecodeWritable w.cfg)
    (hlen : PCI_CONFIG_HEAD_END ≤ w.cfg.config.length) {i j : Nat} {bi : Bar} (hij : i < j)
    (hi : w.cfg.bars[i]? = some bi) (hsize : bi.size ≠ 0) (hmapped : bi.address ≠ BAR_SPACE_UNMAPPED) :
    (reset w).cfg.bars[j]? = w.cfg.bars[j]? ∧
      (∀ bj rj, w.cfg.bars[j]? = some bj → bj.size ≠ 0 → bj.region = some rj →
        entriesOf (reset w).subs rj.id = entriesOf w.subs rj.id) ∧
      ∀ id, getBarAddress (reset w).cfg id = BAR_SPACE_UNMAPPED := by
  let w₀ : World := { w with cfg := resetCommonRegs w.cfg }
  have hbars : w₀.cfg.bars = w.cfg.bars := rfl
  have hoff : ∀ id, getBarAddress w₀.cfg id = BAR_SPACE_UNMAPPED :=
    getBarAddress_resetCommonRegs hdecode hlen
  have hch : Changes w₀ i := ⟨bi, hi, hsize, by rw [hoff]; exact hmapped⟩
  have hlt : i < w₀.cfg.bars.length := (List.getElem?_eq_some_iff.1 hi).1
  have hframe := updateBarMappingLoop_none_stops (List.range w₀.cfg.bars.length) w₀
    List.pairwise_lt_range (List.mem_range.2 hlt) hch hij
  have hreset : reset w = reachedState (updateBarMappingLoop none none (List.range w₀.cfg.bars.length) w₀) :=
    rfl
  rw [hreset]
  refine ⟨hframe.others j (Nat.lt_irrefl j), fun bj rj hbj hbjs hrj => ?_, fun id => ?_⟩
  · exact hframe.entries rj.id fun k b r hk hb hbs hr =>
      hw.distinct k j b bj r rj (Nat.ne_of_lt hk) hb hbj hbs hbjs hr hrj
  · rw [getBarAddress_frame hframe]
    exact hoff id

/-! ## The agreement over whole runs -/

/-- The agreement depends only on the BARs and the subregions. -/
theorem Tracked.of_eq {w w' : World} (hw : Tracked w) (hbars : w'.cfg.bars = w.cfg.bars)
    (hsubs : w'.subs = w.subs) : Tracked w' := by
  obtain ⟨hb, hd⟩ := hw
  exact ⟨fun j b h => hsubs ▸ hb j b (hbars ▸ h), fun i j a b ra rb hij ha hb' =>
    hd i j a b ra rb hij (hbars ▸ ha) (hbars ▸ hb')⟩

/-- A fresh configuration space has no BAR of nonzero size. -/
theorem tracked_new (configSize nrBar : Nat) (subs : List SubEntry) :
    Tracked ⟨PciConfig.new configSize nrBar, subs⟩ := by
  have hzero : ∀ (j : Nat) (b : Bar), (PciConfig.new configSize nrBar).bars[j]? = some b → b.size = 0 := by
    intro j b hb
    simp only [PciConfig.new, List.getElem?_replicate] at hb
    split at hb
    · cases hb
      rfl
    · cases hb
  exact ⟨fun j b hb hsize => absurd (hzero j b hb) hsize,
    fun _ j a _ _ _ _ ha _ hsa => absurd (hzero _ a ha) hsa⟩

/-- The bytes of a guest write leave the BARs. -/
theorem writeBytes_bars (cfg : PciConfig) : ∀ (offset : Nat) (data : List UInt8),
    (writeBytes cfg offset data).bars = cfg.bars
  | _, [] => rfl
  | offset, d :: data => by
    rw [writeBytes, writeBytes_bars _ (offset + 1) data]
    rfl

/-- **Write.** A guest write keeps BARs and subregions in agreement. -/
theorem write_tracked {w : World} (hw : Tracked w) (offset : Nat) (data : List UInt8)
    (ioRegion memRegion : Option ParentRegion) : Tracked (write w offset data ioRegion memRegion) := by
  have hw' : Tracked { w with cfg := writeBytes w.cfg offset data } :=
    hw.of_eq (writeBytes_bars w.cfg offset data) rfl
  unfold write
  split_ifs with hbad
  · exact hw
  · dsimp only
    -- whether the function is a bridge, then whether the write touches the BARs
    split
    · split
      · exact updateBarMappingLoop_tracked ioRegion memRegion _ hw'
      · exact hw'
    · split
      · exact updateBarMappingLoop_tracked ioRegion memRegion _ hw'
      · exact hw'

/-- **Reset.** `reset` keeps BARs and subregions in agreement. -/
theorem reset_tracked {w : World} (hw : Tracked w) : Tracked (reset w) :=
  updateBarMappingLoop_tracked none none _ (hw.of_eq rfl rfl)

/-- The register bits of `register_bar` leave the BARs. -/
theorem barRegisterBits_bars (cfg : PciConfig) (offset : Nat) (regionType : RegionType)
    (prefetchable : Bool) (size : UInt64) :
    (barRegisterBits cfg offset regionType prefetchable size).bars = cfg.bars := by
  cases regionType <;> cases prefetchable <;> rfl

/-- What `register_bar` does when it succeeds: the BAR slot exists, the size
is a power of two, and the slot gets the type, the size and the region,
unmapped. -/
theorem registerBar_eq_ok {cfg cfg' : PciConfig} {id : Nat} {region : RegionRef}
    {regionType : RegionType} {prefetchable : Bool} {size : UInt64}
    (h : registerBar cfg id region regionType prefetchable size = .ok cfg') :
    ∃ bar, cfg.bars[id]? = some bar ∧ size ≠ 0 ∧
      cfg'.bars = cfg.bars.set id
        { bar with
          regionType := regionType
          address := BAR_SPACE_UNMAPPED
          size := size
          region := some region } := by
  unfold registerBar at h
  obtain ⟨_, -, h⟩ := except_bind_eq_ok h
  obtain ⟨_, hsize, h⟩ := except_bind_eq_ok h
  have hpos : size ≠ 0 := by
    unfold validateBarSize at hsize
    split_ifs at hsize with hbad
    intro h0
    exact hbad (.inl (by rw [h0]; decide))
  dsimp only at h
  rw [barRegisterBits_bars] at h
  cases hbar : cfg.bars[id]? with
  | none => rw [hbar] at h; cases h
  | some bar =>
    rw [hbar] at h
    cases h
    exact ⟨bar, rfl, hpos, rfl⟩

/-- **Register.** Registering a BAR in an unused slot, with a region that is in
no parent and that no BAR of nonzero size has, keeps the agreement. -/
theorem registerBar_tracked {cfg cfg' : PciConfig} {subs : List SubEntry} {id : Nat}
    {region : RegionRef} {regionType : RegionType} {prefetchable : Bool} {size : UInt64}
    (hw : Tracked ⟨cfg, subs⟩) (h : registerBar cfg id region regionType prefetchable size = .ok cfg')
    (hfree : ∀ bar, cfg.bars[id]? = some bar → bar.size = 0) (hfresh : entriesOf subs region.id = [])
    (hunique : ∀ (j : Nat) (bar : Bar) (r : RegionRef), cfg.bars[j]? = some bar → bar.size ≠ 0 →
      bar.region = some r → r.id ≠ region.id) :
    Tracked ⟨cfg', subs⟩ := by
  obtain ⟨bar, hid, hsize, hbars⟩ := registerBar_eq_ok h
  have hlt : id < cfg.bars.length := (List.getElem?_eq_some_iff.1 hid).1
  -- a slot of the new table: the new BAR at `id`, the old BAR elsewhere
  have hslot : ∀ (j : Nat) (b : Bar), cfg'.bars[j]? = some b →
      (j = id ∧ b.size = size ∧ b.region = some region ∧ b.address = BAR_SPACE_UNMAPPED) ∨
        (j ≠ id ∧ cfg.bars[j]? = some b) := by
    intro j b hb
    rw [hbars] at hb
    rcases getElem?_set_eq_some hb with ⟨rfl, rfl⟩ | ⟨hne, hb'⟩
    · exact .inl ⟨rfl, rfl, rfl, rfl⟩
    · exact .inr ⟨Ne.symm hne, hb'⟩
  refine ⟨fun j b hb => ?_, fun i j a b ra rb hij ha hb hsa hsb hra hrb => ?_⟩
  · rcases hslot j b hb with ⟨-, -, hr, haddr⟩ | ⟨-, hb'⟩
    · exact fun _ => ⟨region, hr, fun _ => hfresh, fun h => absurd haddr h⟩
    · exact hw.bars j b hb'
  · rcases hslot i a ha with ⟨rfl, -, hra', -⟩ | ⟨hi, ha'⟩ <;>
      rcases hslot j b hb with ⟨rfl, -, hrb', -⟩ | ⟨hj, hb'⟩
    · exact absurd rfl hij
    · rw [hra', Option.some.injEq] at hra
      subst hra
      exact (hunique j b rb hb' hsb hrb).symm
    · rw [hrb', Option.some.injEq] at hrb
      subst hrb
      exact hunique i a ra ha' hsa hra
    · exact hw.distinct i j a b ra rb hij ha' hb' hsa hsb hra hrb

/-- A guest access to configuration space: a write, or a reset. -/
inductive ConfigOp where
  | write (offset : Nat) (data : List UInt8) (ioRegion memRegion : Option ParentRegion)
  | reset

/-- One access. -/
def ConfigOp.apply : ConfigOp → World → World
  | .write offset data ioRegion memRegion, w => StratoVirt.Pci.write w offset data ioRegion memRegion
  | .reset, w => StratoVirt.Pci.reset w

/-- A sequence of accesses. -/
def runOps (ops : List ConfigOp) (w : World) : World :=
  ops.foldl (fun w op => op.apply w) w

/-- **Runs.** Every sequence of guest writes and resets keeps BARs and
subregions in agreement. -/
theorem runOps_tracked : ∀ (ops : List ConfigOp) {w : World}, Tracked w → Tracked (runOps ops w)
  | [], _, hw => hw
  | op :: ops, w, hw => by
    have hop : Tracked (op.apply w) := by
      cases op with
      | write offset data ioRegion memRegion => exact write_tracked hw offset data ioRegion memRegion
      | reset => exact reset_tracked hw
    exact runOps_tracked ops hop

/-- Every BAR of nonzero size is unmapped and has a region, and no two such
BARs share a region: the table right after the BARs are registered. -/
def FreshBars (bars : List Bar) : Prop :=
  ∀ i (hi : i < bars.length) j (hj : j < bars.length), bars[i].size ≠ 0 →
    bars[i].address = BAR_SPACE_UNMAPPED ∧ bars[i].region.isSome ∧
      (i ≠ j → bars[j].size ≠ 0 → bars[i].region.map RegionRef.id ≠ bars[j].region.map RegionRef.id)

instance (bars : List Bar) : Decidable (FreshBars bars) := by
  unfold FreshBars
  infer_instance

/-- Freshly registered BARs, with no subregions yet, agree with them. -/
theorem tracked_of_fresh {cfg : PciConfig} (h : FreshBars cfg.bars) : Tracked ⟨cfg, []⟩ := by
  refine ⟨fun j b hb hsize => ?_, fun i j a b ra rb hij ha hb hsa hsb hra hrb => ?_⟩
  · obtain ⟨hj, rfl⟩ := List.getElem?_eq_some_iff.1 hb
    obtain ⟨haddr, hregion, -⟩ := h j hj j hj hsize
    obtain ⟨region, hr⟩ := Option.isSome_iff_exists.1 hregion
    exact ⟨region, hr, fun _ => rfl, fun hm => absurd haddr hm⟩
  · obtain ⟨hi, rfl⟩ := List.getElem?_eq_some_iff.1 ha
    obtain ⟨hj, rfl⟩ := List.getElem?_eq_some_iff.1 hb
    have hne := (h i hi j hj hsa).2.2 hij hsb
    rw [hra, hrb, Option.map_some, Option.map_some] at hne
    exact fun heq => hne (congrArg some heq)

/-- The memory space a test function's BARs are mapped in. -/
def memParent : ParentRegion := ⟨1, 0x100000000⟩

/-- The I/O space a test function's BARs are mapped in. -/
def ioParent : ParentRegion := ⟨2, 0x10000⟩

/-- A function with two 4 KiB 32-bit memory BARs, registered as a device
does. -/
def twoBarCfg : PciConfig :=
  let cfg := (PciConfig.new 256 6).initCommonWriteMask
  match registerBar cfg 0 ⟨100, 0x1000⟩ .mem32Bit false 0x1000 >>= fun cfg =>
      registerBar cfg 1 ⟨101, 0x1000⟩ .mem32Bit false 0x1000 with
  | .ok cfg' => cfg'
  | .error _ => cfg

/-- The guest places BAR 0 at `0x10000000` and BAR 1 at `0x20000000`, then
turns memory decoding on. -/
def twoBarsMapped : World :=
  runOps [.write 0x10 [0, 0, 0, 0x10] (some ioParent) (some memParent),
    .write 0x14 [0, 0, 0, 0x20] (some ioParent) (some memParent),
    .write 0x04 [0x02, 0x00] (some ioParent) (some memParent)] ⟨twoBarCfg, []⟩

/-- BAR 0 of `twoBarsMapped`. -/
def firstBar : Bar :=
  { regionType := .mem32Bit, address := 0x10000000, size := 0x1000, region := some ⟨100, 0x1000⟩,
    parentIoRegion := none, parentMemRegion := some memParent }

/-- BAR 1 of `twoBarsMapped`. -/
def secondBar : Bar :=
  { regionType := .mem32Bit, address := 0x20000000, size := 0x1000, region := some ⟨101, 0x1000⟩,
    parentIoRegion := none, parentMemRegion := some memParent }

theorem reset_keeps_second_bar :
    Tracked twoBarsMapped ∧ DecodeWritable twoBarsMapped.cfg ∧
      PCI_CONFIG_HEAD_END ≤ twoBarsMapped.cfg.config.length ∧ twoBarsMapped.cfg.bars[0]? = some firstBar ∧
      firstBar.size ≠ 0 ∧ firstBar.address ≠ BAR_SPACE_UNMAPPED ∧
      (reset twoBarsMapped).cfg.bars[1]? = some secondBar ∧ secondBar.address ≠ BAR_SPACE_UNMAPPED ∧
      getBarAddress (reset twoBarsMapped).cfg 1 = BAR_SPACE_UNMAPPED := by
  have htracked : Tracked twoBarsMapped := runOps_tracked _ (tracked_of_fresh (by decide +kernel))
  have hfacts : DecodeWritable twoBarsMapped.cfg ∧ PCI_CONFIG_HEAD_END ≤ twoBarsMapped.cfg.config.length ∧
      twoBarsMapped.cfg.bars[0]? = some firstBar ∧ twoBarsMapped.cfg.bars[1]? = some secondBar := by
    decide +kernel
  obtain ⟨hdecode, hlen, hfirst, hsecond⟩ := hfacts
  obtain ⟨hkeep, -, hoff⟩ := reset_keeps_later_bars htracked hdecode hlen (Nat.zero_lt_one) hfirst
    (by decide) (by decide)
  exact ⟨htracked, hdecode, hlen, hfirst, by decide, by decide, hkeep.trans hsecond, by decide, hoff 1⟩

end StratoVirt.Pci
