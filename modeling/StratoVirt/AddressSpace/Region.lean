import StratoVirt.AddressSpace.Types
import StratoVirt.Lib.Loop

/-!
# Region trees and how they render to a flat view

`address_space/src/region.rs`. Guest memory is described by a tree of
`Region`s: containers hold priority-ordered subregions at offsets, an alias
shows a window of another region, and RAM, I/O, ROM-device and RAM-device
regions are the leaves. `generate_flatview` renders the tree into a list of
`FlatRange`s: a depth-first pass in subregion order, where every leaf claims
the parts of its range that no earlier (higher-priority) leaf claimed.

The leaf step, `render_terminate_region`, is a `while` loop over the growing
vector with a manually advanced `index` and two cursors, `start` and `remain`:
it skips ranges that end before `start`, inserts a piece for the gap before
each range it meets, jumps `start` over that range, and inserts what is left at
the end. It is modelled as that loop (`terminateLoop`, on `Lib.Loop`), so the
model reads against the source line by line; `FlatView.lean` proves it equal to
a walk over the list and proves what the rendered view looks like.

A `Region` is a value here. In the source it is a handle to shared state, and
`add_subregion_not_update` writes the child's offset through the handle; the
tree the renderer sees is the same.
-/

namespace StratoVirt.AddressSpace

open StratoVirt.Lib

/-- `Region`: the fields that building the tree and rendering it read. The
source's `alias` is `aliasRegion` (`alias` is a keyword); `rom_dev_romd` is the
current value of the shared flag. -/
structure Region where
  regionType : RegionType
  priority : Int
  size : Nat
  offset : Nat
  subregions : List Region
  aliasRegion : Option Region
  aliasOffset : Nat
  romDevRomd : Bool
  deriving Repr

/-- Errors of the region code: the `AddressSpaceError` variants it raises, and
`anyhow` messages and contexts as their format string and arguments. -/
inductive AddressSpaceError where
  | regionType (t : RegionType)
  | overflow (addr : Nat)
  | msg (text : String) (args : List Nat)
  | context (text : String) (args : List Nat) (cause : AddressSpaceError)
  deriving Repr, DecidableEq

/-- `FlatRange`: a piece of the flat view, the part of `owner` it shows, and
where in `owner` it starts. -/
structure FlatRange where
  addrRange : AddressRange
  owner : Region
  offsetInRegion : Nat
  romDevRomd : Option Bool
  deriving Repr

namespace Region

/-! ## Building the tree -/

/-- `Region::init_region_internal`: priority 0, offset 0, no subregions. -/
def initRegionInternal (size : Nat) (regionType : RegionType) : Region :=
  { regionType := regionType, priority := 0, size := size, offset := 0, subregions := [],
    aliasRegion := none, aliasOffset := 0, romDevRomd := false }

/-- `Region::init_ram_region`, with the size of its host mapping. -/
def initRamRegion (size : Nat) : Region := initRegionInternal size .ram

/-- `Region::init_io_region`. -/
def initIoRegion (size : Nat) : Region := initRegionInternal size .io

/-- `Region::init_container_region`. -/
def initContainerRegion (size : Nat) : Region := initRegionInternal size .container

/-- `Region::init_rom_device_region`, with the size of its host mapping. -/
def initRomDeviceRegion (size : Nat) : Region :=
  { initRegionInternal size .romDevice with romDevRomd := true }

/-- `Region::init_ram_device_region`, with the size of its host mapping. -/
def initRamDeviceRegion (size : Nat) : Region := initRegionInternal size .ramDevice

/-- `Region::init_alias_region`. -/
def initAliasRegion (target : Region) (aliasOffset size : Nat) : Region :=
  { initRegionInternal size .alias with aliasRegion := some target, aliasOffset := aliasOffset }

/-- `Region::set_priority`. -/
def setPriority (r : Region) (prior : Int) : Region := { r with priority := prior }

/-- `Region::get_rom_device_romd`. -/
def getRomDeviceRomd (r : Region) : Option Bool :=
  if r.regionType ≠ .romDevice then none else some r.romDevRomd

/-- `Region::check_valid_offset`: `[addr, addr + size)` fits in the region,
without `u64` overflow. -/
def checkValidOffset (r : Region) (addr size : Nat) : Except AddressSpaceError Unit :=
  match checkedAdd64 addr size with
  | some stop => if stop ≤ r.size then .ok () else .error (.overflow addr)
  | none => .error (.overflow addr)

/-- The insertion loop of `add_subregion_not_update`: `child` goes before the
first subregion whose priority is not above its own. -/
def insertSubregion (child : Region) : List Region → List Region
  | [] => [child]
  | s :: rest => if child.priority ≥ s.priority then child :: s :: rest
    else s :: insertSubregion child rest

/-- `Region::add_subregion_not_update`. -/
def addSubregionNotUpdate (r : Region) (child : Region) (offset : Nat) :
    Except AddressSpaceError Region :=
  if r.regionType ≠ .container then .error (.regionType r.regionType)
  else
    match r.checkValidOffset offset child.size with
    | .error e =>
      .error (.context
        "Invalid offset: offset 0x\x7b:X\x7d, child length 0x\x7b:X\x7d, region size 0x\x7b:X\x7d"
        [offset, child.size, r.size] e)
    | .ok () =>
      .ok { r with subregions := insertSubregion { child with offset := offset } r.subregions }

end Region

/-! ## `render_terminate_region` -/

/-- The locals of the `while` loop of `render_terminate_region`. -/
structure TerminateState where
  flatView : List FlatRange
  index : Nat
  start : Nat
  remain : Nat
  offsetInRegion : Nat

namespace TerminateState

/-- The gap before `fr`: a piece of `owner` from `start`, up to `fr` or for
what remains, put in at `index`; `index` then points at `fr` again. -/
def insertGap (s : TerminateState) (owner : Region) (fr : FlatRange) : TerminateState :=
  { s with
    flatView := s.flatView.insertIdx s.index
      ⟨⟨s.start, min s.remain (wrapSub fr.addrRange.base s.start)⟩, owner, s.offsetInRegion,
        owner.getRomDeviceRomd⟩
    index := s.index + 1 }

/-- Move both cursors `step` bytes on. -/
def advance (s : TerminateState) (step : Nat) : TerminateState :=
  { s with
    start := wrapAdd s.start step
    offsetInRegion := wrapAdd s.offsetInRegion step
    remain := s.remain - step }

@[simp] theorem insertGap_flatView (s : TerminateState) (owner : Region) (fr : FlatRange) :
    (s.insertGap owner fr).flatView = s.flatView.insertIdx s.index
      ⟨⟨s.start, min s.remain (wrapSub fr.addrRange.base s.start)⟩, owner, s.offsetInRegion,
        owner.getRomDeviceRomd⟩ := rfl

@[simp] theorem insertGap_index (s : TerminateState) (owner : Region) (fr : FlatRange) :
    (s.insertGap owner fr).index = s.index + 1 := rfl

@[simp] theorem insertGap_start (s : TerminateState) (owner : Region) (fr : FlatRange) :
    (s.insertGap owner fr).start = s.start := rfl

@[simp] theorem insertGap_remain (s : TerminateState) (owner : Region) (fr : FlatRange) :
    (s.insertGap owner fr).remain = s.remain := rfl

@[simp] theorem insertGap_offsetInRegion (s : TerminateState) (owner : Region) (fr : FlatRange) :
    (s.insertGap owner fr).offsetInRegion = s.offsetInRegion := rfl

@[simp] theorem advance_flatView (s : TerminateState) (step : Nat) :
    (s.advance step).flatView = s.flatView := rfl

@[simp] theorem advance_index (s : TerminateState) (step : Nat) :
    (s.advance step).index = s.index := rfl

@[simp] theorem advance_start (s : TerminateState) (step : Nat) :
    (s.advance step).start = wrapAdd s.start step := rfl

@[simp] theorem advance_remain (s : TerminateState) (step : Nat) :
    (s.advance step).remain = s.remain - step := rfl

@[simp] theorem advance_offsetInRegion (s : TerminateState) (step : Nat) :
    (s.advance step).offsetInRegion = wrapAdd s.offsetInRegion step := rfl

/-- The body once `fr` does not end before `start`: insert the gap before
`fr`, if there is one, and move both cursors to the end of `fr` or of what
remains. -/
def cover (s : TerminateState) (owner : Region) (fr : FlatRange) : TerminateState :=
  let s := if s.start < fr.addrRange.base then s.insertGap owner fr else s
  s.advance (min (wrapSub fr.addrRange.endAddr s.start) s.remain)

theorem cover_of_lt {s : TerminateState} {owner : Region} {fr : FlatRange}
    (h : s.start < fr.addrRange.base) :
    s.cover owner fr =
      (s.insertGap owner fr).advance (min (wrapSub fr.addrRange.endAddr s.start) s.remain) := by
  dsimp only [cover]
  rw [if_pos h, insertGap_start, insertGap_remain]

theorem cover_of_not_lt {s : TerminateState} {owner : Region} {fr : FlatRange}
    (h : ¬ s.start < fr.addrRange.base) :
    s.cover owner fr = s.advance (min (wrapSub fr.addrRange.endAddr s.start) s.remain) := by
  dsimp only [cover]
  rw [if_neg h]

/-- Covering `fr` inserts at most one piece and moves `index` past it, so the
distance from `index` to the end of the vector stays the same. -/
theorem cover_measure {s : TerminateState} (owner : Region) (fr : FlatRange)
    (h : s.index ≤ s.flatView.length) :
    (s.cover owner fr).flatView.length - (s.cover owner fr).index =
      s.flatView.length - s.index := by
  by_cases hg : s.start < fr.addrRange.base
  · rw [cover_of_lt hg, advance_flatView, advance_index, insertGap_flatView, insertGap_index,
      List.length_insertIdx, if_pos h]
    omega
  · rw [cover_of_not_lt hg, advance_flatView, advance_index]

end TerminateState

/-- One pass through the loop body of `render_terminate_region` for `owner`. -/
def terminateStep (owner : Region) (s : TerminateState) : Step TerminateState Empty :=
  if h : s.index < s.flatView.length then
    let fr := s.flatView[s.index]
    if s.start ≥ fr.addrRange.endAddr then .next { s with index := s.index + 1 }
    else
      let s := s.cover owner fr
      if s.remain = 0 then .exit s else .next { s with index := s.index + 1 }
  else .exit s

/-- Every pass either leaves or moves `index` closer to the end of the vector;
an insertion lengthens the vector by one but moves `index` by two. -/
theorem terminateStep_next {owner : Region} {s s' : TerminateState}
    (h : terminateStep owner s = .next s') :
    s'.flatView.length - s'.index < s.flatView.length - s.index := by
  dsimp only [terminateStep] at h
  split at h
  · rename_i hlt
    split at h
    · -- `fr` ends before `start`: skip it
      cases h
      simp only
      omega
    · split at h
      · cases h
      · cases h
        have hm := TerminateState.cover_measure owner s.flatView[s.index] (Nat.le_of_lt hlt)
        simp only
        omega
  · cases h

/-- The loop of `render_terminate_region`. -/
def terminateLoop (owner : Region) : Loop TerminateState Empty where
  body := terminateStep owner
  measure s := s.flatView.length - s.index
  decreasing := terminateStep_next

namespace Region

/-- `Region::render_terminate_region`: add the leaf `r`, placed at `base`, to
the view, wherever no range of the view is yet, within `addrRange`. -/
def renderTerminateRegion (r : Region) (base : Nat) (addrRange : AddressRange)
    (flatView : List FlatRange) : Except AddressSpaceError (List FlatRange) :=
  let regionRange : AddressRange := ⟨wrapAdd base r.offset, r.size⟩
  match regionRange.findIntersection addrRange with
  | none =>
    .error (.msg
      "Generate flat view failed: region_addr 0x\x7b:X\x7d exceeds parent region range (0x\x7b:X\x7d, 0x\x7b:X\x7d)"
      [regionRange.base, addrRange.base, addrRange.size])
  | some intersect =>
    let s : TerminateState :=
      ⟨flatView, 0, intersect.base, intersect.size, wrapSub intersect.base regionRange.base⟩
    match (terminateLoop r).run s with
    | .exit s =>
      .ok (if 0 < s.remain then
          s.flatView.insertIdx s.index
            ⟨⟨s.start, s.remain⟩, r, s.offsetInRegion, r.getRomDeviceRomd⟩
        else s.flatView)
    | .fail e _ => nomatch e

/-! ## `render_region_pass` and `generate_flatview` -/

mutual

/-- `Region::render_region_pass`: render `r`, placed at `base`, within
`addrRange`. The `for` loop over the subregions is `renderSubregions`, the
alias branch `renderAlias`. -/
def renderRegionPass : Region → Nat → AddressRange → List FlatRange →
    Except AddressSpaceError (List FlatRange)
  | r@⟨regionType, _, size, offset, subregions, aliasRegion, aliasOffset, _⟩, base, addrRange,
      flatView =>
    let regionBase := wrapAdd base offset
    match AddressRange.findIntersection ⟨regionBase, size⟩ addrRange with
    | none => .ok flatView
    | some intersect =>
      match regionType with
      | .container => renderSubregions subregions regionBase intersect base addrRange flatView
      | .alias => renderAlias aliasRegion aliasOffset regionBase intersect flatView
      | .ram | .io | .romDevice | .ramDevice =>
        match r.renderTerminateRegion base addrRange flatView with
        | .ok flatView => .ok flatView
        | .error e =>
          .error (.context
            "Failed to render terminate region, base 0x\x7b:X\x7d, addr_range (0x\x7b:X\x7d, 0x\x7b:X\x7d)"
            [base, addrRange.base, addrRange.size] e)

/-- The container branch of `render_region_pass`: each subregion in turn,
placed at the container's base, within the intersection. -/
def renderSubregions : List Region → Nat → AddressRange → Nat → AddressRange →
    List FlatRange → Except AddressSpaceError (List FlatRange)
  | [], _, _, _, _, flatView => .ok flatView
  | sub :: rest, regionBase, intersect, base, addrRange, flatView =>
    match sub.renderRegionPass regionBase intersect flatView with
    | .ok flatView => renderSubregions rest regionBase intersect base addrRange flatView
    | .error e =>
      .error (.context
        "Failed to render subregion, base 0x\x7b:X\x7d, addr_range (0x\x7b:X\x7d, 0x\x7b:X\x7d)"
        [base, addrRange.base, addrRange.size] e)

/-- The alias branch of `render_region_pass`: the aliased region is placed so
that `alias_offset` inside it lands at the alias's base. -/
def renderAlias : Option Region → Nat → Nat → AddressRange → List FlatRange →
    Except AddressSpaceError (List FlatRange)
  | none, _, _, _, flatView => .ok flatView
  | some target, aliasOffset, regionBase, intersect, flatView =>
    let aliasBase := wrapSub (wrapSub regionBase aliasOffset) target.offset
    match target.renderRegionPass aliasBase intersect flatView with
    | .ok flatView => .ok flatView
    | .error e =>
      .error (.context
        "Failed to render subregion, alias_base 0x\x7b:X\x7d, intersect (0x\x7b:X\x7d, 0x\x7b:X\x7d)"
        [aliasBase, intersect.base, intersect.size] e)

end

/-- `Region::generate_flatview`: render a container into an empty view. -/
def generateFlatview (r : Region) (base : Nat) (addrRange : AddressRange) :
    Except AddressSpaceError (List FlatRange) :=
  match r.regionType with
  | .container =>
    match r.renderRegionPass base addrRange [] with
    | .ok flatView => .ok flatView
    | .error e =>
      .error (.context
        "Failed to render terminate region, base 0x\x7b:X\x7d, addr_range (0x\x7b:X\x7d, 0x\x7b:X\x7d)"
        [base, addrRange.base, addrRange.size] e)
  | _ => .error (.msg "Generate flat view failed: only the container supported" [])

end Region

end StratoVirt.AddressSpace
