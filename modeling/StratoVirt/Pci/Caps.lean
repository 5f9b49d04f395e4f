import Mathlib
import StratoVirt.Pci.Msix

/-!
# Capability lists: `find_pci_cap`, `add_pcie_ext_cap`, `get_ext_cap_size`

`devices/src/pci/config.rs`, `vfio/src/vfio_pci.rs`. A function's
capabilities form a chain through its configuration space. Conventional ones
start at the byte `CAP_LIST` and link through the byte after each capability's
id; extended ones start at 256 and link through bits 20 to 31 of each 32-bit
header. Both chains are read from data a device supplies: VFIO copies the
physical device's configuration space before it walks the extended chain.

`find_pci_cap` walks the conventional chain with a set of the offsets it has
seen, so the walk ends on every configuration space (the loop is a definition
by recursion on the offsets not yet seen). `get_ext_cap_size` and the VFIO walk
follow the extended chain with no such guard; they run with fuel
(`Loop.runFor`), `none` when it runs out.

* `findPciCap_ok`: on a PCIe configuration space `find_pci_cap` returns `0xff`
  or an offset holding the id;
* `findPciCap_cap_list_zero`: with `CAP_LIST` 0 it treats offset 0, the
  vendor id's low byte, as a capability;
* `getExtCapSize_chained`: on a well-formed extended chain the size of a
  capability is the distance to the next one above it;
* `addPcieExtCap_chained`: capabilities of positive size added one after
  another form such a chain, so each but the last has its size rounded up
  to four bytes (`getExtCapSize_added`);
* `getExtCapSize_cyclic`, `vfioExtCapWalk_cyclic`: on a chain that comes back
  to an offset it has passed, neither loop ends.
-/

namespace StratoVirt.Pci

open StratoVirt.Lib
open StratoVirt.Migration (sliceIndex)

/-- `PCI_CONFIG_SPACE_SIZE`. -/
def PCI_CONFIG_SPACE_SIZE : Nat := 256
/-- `PCIE_CONFIG_SPACE_SIZE`. -/
def PCIE_CONFIG_SPACE_SIZE : Nat := 4096
/-- `CAP_LIST`: where the conventional chain starts. -/
def CAP_LIST : Nat := 0x34
/-- `NEXT_CAP_OFFSET`: the next pointer's place in a conventional capability. -/
def NEXT_CAP_OFFSET : Nat := 0x01
/-- `PCI_EXT_CAP_VER_SHIFT`. -/
def PCI_EXT_CAP_VER_SHIFT : Nat := 16
/-- `PCI_EXT_CAP_NEXT_SHIFT`. -/
def PCI_EXT_CAP_NEXT_SHIFT : Nat := 20

/-! ## The conventional chain -/

/-- `config[i]`, which panics past the end. -/
def configByte (config : List UInt8) (i : Nat) : Except String UInt8 :=
  match config[i]? with
  | some b => .ok b
  | none => .error (indexPanic config.length i)

/-- The loop of `find_pci_cap(cap_id)` at `offset`: `cacheOffsets` is the
`HashSet` of the offsets seen, as numbers. Every pass that goes on adds an
offset below 256 that was not in it. -/
def findPciCapLoop (config : List UInt8) (capId : UInt8) (offset : UInt8) (cacheOffsets : Finset Nat) :
    Except String Nat := do
  let cap ← configByte config offset.toNat
  if cap = capId then .ok offset.toNat
  else
    let next ← configByte config (offset.toNat + NEXT_CAP_OFFSET)
    if h : next = 0 ∨ next.toNat ∈ cacheOffsets then .ok 0xff
    else
      have _ : (Finset.range 256 \ insert next.toNat cacheOffsets).card
          < (Finset.range 256 \ cacheOffsets).card := by
        rw [Finset.sdiff_insert]
        exact Finset.card_erase_lt_of_mem
          (Finset.mem_sdiff.2 ⟨Finset.mem_range.2 (UInt8.toNat_lt next), (not_or.1 h).2⟩)
      findPciCapLoop config capId next (insert next.toNat cacheOffsets)
termination_by (Finset.range 256 \ cacheOffsets).card

/-- `find_pci_cap(cap_id)`. -/
def findPciCap (config : List UInt8) (capId : UInt8) : Except String Nat := do
  let offset ← configByte config CAP_LIST
  findPciCapLoop config capId offset {offset.toNat}

/-- A byte inside the space reads without a panic. -/
theorem configByte_of_lt {config : List UInt8} {i : Nat} (h : i < config.length) :
    configByte config i = .ok (config.getD i 0) := by
  simp only [configByte, List.getElem?_eq_getElem h, List.getD_eq_getElem _ _ h]

/-! ### The chain `find_pci_cap` walks

The chain is read as a sequence: `capAt config k` is the offset after `k`
next pointers from the byte at `CAP_LIST`. The walk passes the `k`-th
offset when none of the pointers up to it is 0 or comes back to an offset
passed before (`OnChain`); the first offset is passed unconditionally, which
is where a `CAP_LIST` of 0 goes wrong. -/

/-- The next pointer of the conventional capability at `o`. -/
def capNext (config : List UInt8) (o : Nat) : Nat := (config.getD (o + NEXT_CAP_OFFSET) 0).toNat

/-- The `k`-th offset of the conventional chain. -/
def capAt (config : List UInt8) (k : Nat) : Nat := (capNext config)^[k] (config.getD CAP_LIST 0).toNat

/-- The walk reaches the `k`-th offset. -/
def OnChain (config : List UInt8) (k : Nat) : Prop :=
  ∀ i, 0 < i → i ≤ k → capAt config i ≠ 0 ∧ ∀ j < i, capAt config j ≠ capAt config i

/-- What `find_pci_cap(cap_id)` returns, over the chain: the first offset the
walk reaches that holds `capId`, or `0xff` when none does. -/
def CapSearch (config : List UInt8) (capId : UInt8) (r : Nat) : Prop :=
  (∃ j, OnChain config j ∧ r = capAt config j ∧ config.getD r 0 = capId ∧
      ∀ i < j, config.getD (capAt config i) 0 ≠ capId) ∨
    (r = 0xff ∧ ∀ k, OnChain config k → config.getD (capAt config k) 0 ≠ capId)

section Conventional

variable {config : List UInt8} {capId : UInt8}

theorem capAt_succ (k : Nat) : capAt config (k + 1) = capNext config (capAt config k) :=
  Function.iterate_succ_apply' _ _ _

/-- Every offset of the chain is a byte's value. -/
theorem capAt_lt (k : Nat) : capAt config k < PCI_CONFIG_SPACE_SIZE := by
  cases k with
  | zero => exact UInt8.toNat_lt _
  | succ k => rw [capAt_succ]; exact UInt8.toNat_lt _

theorem onChain_zero : OnChain config 0 := fun _ hi hik => absurd hi (by omega)

theorem OnChain.mono {k l : Nat} (h : OnChain config l) (hkl : k ≤ l) : OnChain config k :=
  fun i hi hik => h i hi (Nat.le_trans hik hkl)

theorem OnChain.succ {k : Nat} (h : OnChain config k) (hne : capAt config (k + 1) ≠ 0)
    (hnew : ∀ j ≤ k, capAt config j ≠ capAt config (k + 1)) : OnChain config (k + 1) := by
  intro i hi hik
  rcases Nat.lt_or_eq_of_le hik with hlt | rfl
  · exact h i hi (by omega)
  · exact ⟨hne, fun j hj => hnew j (by omega)⟩

/-- The search has one answer: the first match is the first match, and a
miss everywhere excludes a match. -/
theorem CapSearch.unique {r r' : Nat} (h : CapSearch config capId r) (h' : CapSearch config capId r') :
    r = r' := by
  rcases h with ⟨j, hj, rfl, hhit, hmiss⟩ | ⟨rfl, hnone⟩ <;>
    rcases h' with ⟨j', hj', rfl, hhit', hmiss'⟩ | ⟨rfl, hnone'⟩
  · rcases Nat.lt_trichotomy j j' with hlt | rfl | hgt
    · exact absurd hhit (hmiss' j hlt)
    · rfl
    · exact absurd hhit' (hmiss j' hgt)
  · exact absurd hhit (hnone' j hj)
  · exact absurd hhit' (hnone j' hj')
  · rfl

/-- The loop at `offset` with `cacheOffsets` after passing the offsets
`0..m` of the chain, none of them holding `capId` but perhaps the last. -/
structure FindInv (config : List UInt8) (capId : UInt8) (m : Nat) (offset : UInt8)
    (cacheOffsets : Finset Nat) : Prop where
  onChain : OnChain config m
  offset_eq : offset.toNat = capAt config m
  cache_eq : cacheOffsets = (Finset.range (m + 1)).image (capAt config)
  miss : ∀ i < m, config.getD (capAt config i) 0 ≠ capId

theorem findInv_init :
    FindInv config capId 0 (config.getD CAP_LIST 0) {(config.getD CAP_LIST 0).toNat} :=
  ⟨onChain_zero, rfl, by simp [capAt], fun _ hi => absurd hi (Nat.not_lt_zero _)⟩

variable {m : Nat} {offset : UInt8} {cacheOffsets : Finset Nat}

/-- The byte after the current capability is the next offset of the chain. -/
theorem FindInv.next_eq (h : FindInv config capId m offset cacheOffsets) :
    (config.getD (offset.toNat + NEXT_CAP_OFFSET) 0).toNat = capAt config (m + 1) := by
  rw [capAt_succ, ← h.offset_eq]
  rfl

/-- A hit at the current offset is the search's answer. -/
theorem FindInv.found (h : FindInv config capId m offset cacheOffsets)
    (hhit : config.getD offset.toNat 0 = capId) : CapSearch config capId offset.toNat :=
  .inl ⟨m, h.onChain, h.offset_eq, hhit, h.miss⟩

/-- A next pointer of 0, or one into the cache, ends the chain: every offset
the walk reaches has been passed. -/
theorem FindInv.stop (h : FindInv config capId m offset cacheOffsets)
    (hmiss : config.getD offset.toNat 0 ≠ capId) {next : UInt8}
    (hnext : next = config.getD (offset.toNat + NEXT_CAP_OFFSET) 0)
    (hstop : next = 0 ∨ next.toNat ∈ cacheOffsets) : CapSearch config capId 0xff := by
  have hval : next.toNat = capAt config (m + 1) := hnext ▸ h.next_eq
  refine .inr ⟨rfl, fun k hk => ?_⟩
  -- the walk cannot pass offset `m + 1`: its pointer is 0 or repeats
  have hkm : k ≤ m := by
    refine Nat.le_of_not_lt fun hlt => ?_
    obtain ⟨hne, hnew⟩ := hk.mono hlt (m + 1) (Nat.succ_pos m) le_rfl
    rcases hstop with rfl | hmem
    · exact hne hval.symm
    · rw [h.cache_eq, Finset.mem_image] at hmem
      obtain ⟨j, hj, hjv⟩ := hmem
      exact hnew j (Finset.mem_range.1 hj) (hjv.trans hval)
  rcases Nat.lt_or_eq_of_le hkm with hlt | rfl
  · exact h.miss k hlt
  · rw [← h.offset_eq]
    exact hmiss

/-- A fresh non-zero pointer moves the loop one offset along the chain. -/
theorem FindInv.step (h : FindInv config capId m offset cacheOffsets)
    (hmiss : config.getD offset.toNat 0 ≠ capId) {next : UInt8}
    (hnext : next = config.getD (offset.toNat + NEXT_CAP_OFFSET) 0)
    (hgo : ¬(next = 0 ∨ next.toNat ∈ cacheOffsets)) :
    FindInv config capId (m + 1) next (insert next.toNat cacheOffsets) := by
  have hval : next.toNat = capAt config (m + 1) := hnext ▸ h.next_eq
  obtain ⟨hzero, hfresh⟩ := not_or.1 hgo
  refine ⟨h.onChain.succ ?_ ?_, hval, ?_, ?_⟩
  · rw [← hval]
    exact fun h0 => hzero (UInt8.toNat_inj.1 h0)
  · intro j hj hjv
    apply hfresh
    rw [h.cache_eq, Finset.mem_image]
    exact ⟨j, Finset.mem_range.2 (Nat.lt_succ_of_le hj), hjv.trans hval.symm⟩
  · rw [h.cache_eq, hval]
    conv_rhs => rw [Finset.range_add_one, Finset.image_insert]
  · intro i hi
    rcases Nat.lt_or_eq_of_le (Nat.le_of_lt_succ hi) with hlt | rfl
    · exact h.miss i hlt
    · rw [← h.offset_eq]
      exact hmiss

/-- `find_pci_cap` starts its loop at the byte at `CAP_LIST`, with that
offset cached. -/
theorem findPciCap_eq (hcap : CAP_LIST < config.length) (capId : UInt8) :
    findPciCap config capId =
      findPciCapLoop config capId (config.getD CAP_LIST 0) {(config.getD CAP_LIST 0).toNat} := by
  rw [findPciCap, configByte_of_lt hcap]
  rfl

/-- **The loop.** Where every offset the walk reaches can have its next
pointer read, the loop returns the search's answer. -/
theorem findPciCapLoop_spec (hlen : ∀ k, OnChain config k → capAt config k + NEXT_CAP_OFFSET < config.length)
    (offset : UInt8) (cacheOffsets : Finset Nat) :
    ∀ m, FindInv config capId m offset cacheOffsets →
      ∃ r, findPciCapLoop config capId offset cacheOffsets = .ok r ∧ CapSearch config capId r := by
  induction offset, cacheOffsets using findPciCapLoop.induct with
  | case1 offset cacheOffsets ih =>
    intro m h
    have hread : offset.toNat + NEXT_CAP_OFFSET < config.length := h.offset_eq ▸ hlen m h.onChain
    rw [findPciCapLoop, configByte_of_lt (Nat.lt_of_le_of_lt (Nat.le_add_right _ _) hread)]
    by_cases hhit : config.getD offset.toNat 0 = capId
    · exact ⟨offset.toNat, by simp only [bind, Except.bind, if_pos hhit], h.found hhit⟩
    · rw [configByte_of_lt hread]
      by_cases hstop : config.getD (offset.toNat + NEXT_CAP_OFFSET) 0 = 0 ∨
          (config.getD (offset.toNat + NEXT_CAP_OFFSET) 0).toNat ∈ cacheOffsets
      · exact ⟨0xff, by simp only [bind, Except.bind, if_neg hhit, dif_pos hstop], h.stop hhit rfl hstop⟩
      · obtain ⟨r, hr, hspec⟩ := ih _ hstop (m + 1) (h.step hhit rfl hstop)
        exact ⟨r, by simp only [bind, Except.bind, if_neg hhit, dif_neg hstop, hr], hspec⟩

/-- **`find_pci_cap` on a PCIe space.** It ends without a panic and returns
the first offset the walk reaches that holds the id, or `0xff`. -/
theorem findPciCap_spec (hlen : PCI_CONFIG_SPACE_SIZE < config.length) (capId : UInt8) :
    ∃ r, findPciCap config capId = .ok r ∧ CapSearch config capId r := by
  have hread : ∀ k, OnChain config k → capAt config k + NEXT_CAP_OFFSET < config.length :=
    fun k _ => Nat.lt_of_le_of_lt (capAt_lt k) hlen
  rw [findPciCap_eq (Nat.lt_trans (by decide) hlen)]
  exact findPciCapLoop_spec hread _ _ 0 findInv_init

/-- With `CAP_LIST` 0 the walk takes offset 0, the vendor id's low byte, for
a capability. -/
theorem findPciCap_cap_list_zero (hlen : CAP_LIST < config.length) (hzero : config.getD CAP_LIST 0 = 0) :
    findPciCap config (config.getD 0 0) = .ok 0 := by
  rw [findPciCap_eq hlen, hzero, findPciCapLoop, configByte_of_lt (i := (0 : UInt8).toNat) (Nat.zero_lt_of_lt hlen)]
  simp

/-- On a 256-byte space a chain that reaches offset `0xff` reads its next
pointer past the end. -/
theorem findPciCap_panic (hlen : config.length = PCI_CONFIG_SPACE_SIZE) (hlast : config.getD CAP_LIST 0 = 0xff)
    (hmiss : config.getD 0xff 0 ≠ capId) :
    findPciCap config capId = .error (indexPanic PCI_CONFIG_SPACE_SIZE PCI_CONFIG_SPACE_SIZE) := by
  have hcap : CAP_LIST < config.length := by rw [hlen]; decide
  -- the pointer of the capability at `0xff` is the byte at 256
  have hend : configByte config ((0xff : UInt8).toNat + NEXT_CAP_OFFSET) =
      .error (indexPanic PCI_CONFIG_SPACE_SIZE PCI_CONFIG_SPACE_SIZE) := by
    rw [configByte, List.getElem?_eq_none (by rw [hlen]; decide), hlen]
    rfl
  rw [findPciCap_eq hcap, hlast, findPciCapLoop, configByte_of_lt (by rw [hlen]; decide)]
  have hmiss8 : config.getD (0xff : UInt8).toNat 0 ≠ capId := hmiss
  simp only [bind, Except.bind, if_neg hmiss8, hend]

end Conventional

/-! ## The extended chain -/

/-- `pci_ext_cap_id`. -/
def pciExtCapId (header : Nat) : Nat := header &&& 0xffff

/-- `pci_ext_cap_ver`. -/
def pciExtCapVer (header : Nat) : Nat := (header >>> 16) &&& 0xf

/-- `pci_ext_cap_next`. -/
def pciExtCapNext (header : Nat) : Nat := (header >>> 20) &&& 0xffc

/-- `PciError::AddPcieExtCap(id, size)`. -/
def addPcieExtCapError (id size : Nat) : String :=
  "Failed to add PCIe extended capability: id 0x" ++ String.ofList (Nat.toDigits 16 id) ++ ", size: 0x" ++
    String.ofList (Nat.toDigits 16 size) ++ "."

/-- The part of `PciConfig` the extended capabilities use. -/
structure ExtCapConfig where
  config : List UInt8
  writeMask : List UInt8
  lastExtCapOffset : Nat
  lastExtCapEnd : Nat
  deriving Repr, DecidableEq

/-- The fields `PciConfig::new` gives a PCIe configuration space. -/
def ExtCapConfig.new : ExtCapConfig :=
  ⟨List.replicate PCIE_CONFIG_SPACE_SIZE 0, List.replicate PCIE_CONFIG_SPACE_SIZE 0, 0, PCI_CONFIG_SPACE_SIZE⟩

/-- One pass of `for _ in 0..regs_num` in `add_pcie_ext_cap`: clear the
write mask of one register and move the end past it. -/
def clearRegStep (acc : List UInt8 × Nat) (_ : Nat) : Except String (List UInt8 × Nat) := do
  let writeMask ← leWrite 4 acc.1 acc.2 0
  pure (writeMask, acc.2 + REG_SIZE)

/-- `regs_num` in `add_pcie_ext_cap`: the registers `size` bytes take. -/
def regsNum (size : Nat) : Nat := if size % REG_SIZE = 0 then size / REG_SIZE else size / REG_SIZE + 1

/-- `add_pcie_ext_cap(id, size, version)`: the new configuration and the
capability's offset. -/
def addPcieExtCap (c : ExtCapConfig) (id size version : Nat) : Except String (ExtCapConfig × Nat) := do
  let offset := c.lastExtCapEnd
  if offset + size > PCIE_CONFIG_SPACE_SIZE then .error (addPcieExtCapError id size)
  else
    let (writeMask, lastExtCapEnd) ← (List.range (regsNum size)).foldlM clearRegStep (c.writeMask, c.lastExtCapEnd)
    let config ← leWrite 4 c.config offset (id ||| (version <<< PCI_EXT_CAP_VER_SHIFT))
    let config ← if c.lastExtCapOffset ≠ 0 then do
        let oldValue ← leReadU32 config c.lastExtCapOffset
        leWrite 4 config c.lastExtCapOffset (oldValue ||| (offset <<< PCI_EXT_CAP_NEXT_SHIFT))
      else pure config
    pure (⟨config, writeMask, offset, lastExtCapEnd⟩, offset)

/-- `end_pos` after the loop of `get_ext_cap_size(pos)` meets `cap_offset`:
lowered to it when it lies between `pos` and `end_pos`. -/
def lowerEnd (pos endPos capOffset : Nat) : Nat :=
  if capOffset > pos ∧ capOffset < endPos then capOffset else endPos

/-- The link `add_pcie_ext_cap` makes after writing a header at `offset`:
the header at `last`, if there is one, gets `offset` as its next pointer. -/
def linkExtCap (last offset : Nat) (config : List UInt8) : List UInt8 :=
  if last ≠ 0 then leWriteAt config last 4 (leReadAt config last 4 ||| offset <<< PCI_EXT_CAP_NEXT_SHIFT)
  else config

/-- `add_pcie_ext_cap` called for each `(id, size, version)` in turn, with
the offsets it returns: how a device model lays out its extended
capabilities. -/
def addPcieExtCaps : ExtCapConfig → List (Nat × Nat × Nat) → Except String (ExtCapConfig × List Nat)
  | c, [] => .ok (c, [])
  | c, (id, size, version) :: caps => do
    let (c, offset) ← addPcieExtCap c id size version
    let (c, offsets) ← addPcieExtCaps c caps
    pure (c, offset :: offsets)

/-- Where capabilities of the given sizes land from `start`: each takes its
size rounded up to whole registers. -/
def capOffsets (start : Nat) : List (Nat × Nat × Nat) → List Nat
  | [] => []
  | (_, size, _) :: caps => start :: capOffsets (start + REG_SIZE * regsNum size) caps

/-- One pass of the loop of `get_ext_cap_size(pos)` on `(cap_offset, end_pos)`:
read the header at `cap_offset` and move to its next pointer. -/
def extCapSizeStep (config : List UInt8) (pos : Nat) (s : Nat × Nat) : Step (Nat × Nat) String :=
  if PCI_CONFIG_SPACE_SIZE ≤ s.1 ∧ s.1 < PCIE_CONFIG_SPACE_SIZE then
    match unwrapResult (leReadU32 config s.1) with
    | .error e => .fail e s
    | .ok header =>
      let capOffset := pciExtCapNext header
      .next (capOffset, lowerEnd pos s.2 capOffset)
  else .exit s

/-- `get_ext_cap_size(pos)` with `fuel` passes of its loop: `end_pos - pos`.
Every caller passes a `pos` below 4096, so the subtraction does not wrap. -/
def getExtCapSize (config : List UInt8) (pos fuel : Nat) : Option (Except String Nat) :=
  match Loop.runFor (extCapSizeStep config pos) fuel (PCI_CONFIG_SPACE_SIZE, PCIE_CONFIG_SPACE_SIZE) with
  | none => none
  | some (.exit s) => some (.ok (s.2 - pos))
  | some (.fail e _) => some (.error e)

/-- The extended capabilities VFIO drops: alternate routing ID, SR-IOV and
resizable BAR. -/
def droppedExtCap (capId : Nat) : Bool := capId = 0x0e || capId = 0x10 || capId = 0x15

/-- The walk over the device's extended chain in `VfioPciDevice`, from
`next`, with at most `fuel` passes of it and of each `get_ext_cap_size`:
every capability but the dropped ones is added to `c` with the size
`get_ext_cap_size` gives it, and its bytes are copied in. -/
def vfioExtCapWalk (devConfig : List UInt8) : Nat → ExtCapConfig → Nat → Option (Except String ExtCapConfig)
  | 0, _, _ => none
  | fuel + 1, c, next =>
    if PCI_CONFIG_SPACE_SIZE ≤ next ∧ next < PCIE_CONFIG_SPACE_SIZE then
      match leReadU32 devConfig next with
      | .error e => some (.error e)
      | .ok header =>
        match getExtCapSize devConfig next fuel with
        | none => none
        | some (.error e) => some (.error e)
        | some (.ok size) =>
          if droppedExtCap (pciExtCapId header) then vfioExtCapWalk devConfig fuel c (pciExtCapNext header)
          else
            match addPcieExtCap c (pciExtCapId header) size (pciExtCapVer header) with
            | .error e => some (.error e)
            | .ok (c, offset) =>
              -- the destination is indexed before the source
              match (do
                  let _ ← sliceIndex c.config offset (offset + size)
                  let src ← sliceIndex devConfig next (next + size)
                  copyFromSlice c.config offset (offset + size) src) with
              | .error e => some (.error e)
              | .ok config => vfioExtCapWalk devConfig fuel { c with config := config } (pciExtCapNext header)
    else some (.ok c)

/-! ### Walking the extended chain

`get_ext_cap_size` always walks from 256, whatever `pos`; `pos` only says
which pointer ends the capability. So one cycle reachable from 256 stops
every call, and with it the VFIO walk at its first capability. -/

section Extended

variable {config : List UInt8}

/-- A next pointer lies below `0xffc`, inside the extended space. -/
theorem pciExtCapNext_le (header : Nat) : pciExtCapNext header ≤ 0xffc := Nat.and_le_right

/-- A next pointer is register-aligned. -/
theorem pciExtCapNext_mod_four (header : Nat) : pciExtCapNext header % 4 = 0 :=
  calc (header >>> 20 &&& 0xffc) % 2 ^ 2 = (header >>> 20) % 2 ^ 2 &&& 0xffc % 2 ^ 2 := Nat.and_mod_two_pow
    _ = 0 := Nat.and_zero _

/-- A header below bit 20, as `add_pcie_ext_cap` writes one, points nowhere. -/
theorem pciExtCapNext_of_lt {header : Nat} (h : header < 2 ^ 20) : pciExtCapNext header = 0 := by
  rw [pciExtCapNext, Nat.shiftRight_eq_div_pow, Nat.div_eq_of_lt h, Nat.zero_and]

/-- A register-aligned offset of the extended space passes `&&& 0xffc`. -/
theorem and_0xffc {o : Nat} (ho : o < PCIE_CONFIG_SPACE_SIZE) (h4 : o % 4 = 0) : o &&& 0xffc = o := by
  obtain ⟨q, rfl⟩ : ∃ q, o = q <<< 2 := ⟨o / 4, by rw [Nat.shiftLeft_eq]; omega⟩
  have hq : q < 2 ^ 10 := by
    rw [Nat.shiftLeft_eq] at ho
    unfold PCIE_CONFIG_SPACE_SIZE at ho
    omega
  calc q <<< 2 &&& 0xffc = (q &&& 2 ^ 10 - 1) <<< 2 := by rw [Nat.shiftLeft_and_distrib]; rfl
    _ = q <<< 2 := by rw [Nat.and_two_pow_sub_one_eq_mod, Nat.mod_eq_of_lt hq]

/-- Linking a header below bit 20 to an aligned offset makes that offset its
next pointer. -/
theorem pciExtCapNext_link {header o : Nat} (h : header < 2 ^ 20) (ho : o < PCIE_CONFIG_SPACE_SIZE) (h4 : o % 4 = 0) :
    pciExtCapNext (header ||| o <<< PCI_EXT_CAP_NEXT_SHIFT) = o := by
  have hlow : header >>> 20 = 0 := by rw [Nat.shiftRight_eq_div_pow, Nat.div_eq_of_lt h]
  rw [pciExtCapNext, Nat.shiftRight_or_distrib, hlow, PCI_EXT_CAP_NEXT_SHIFT, Nat.shiftLeft_shiftRight, Nat.zero_or,
    and_0xffc ho h4]

/-- Such a link still fits in the 32-bit header. -/
theorem link_lt {header o : Nat} (h : header < 2 ^ 20) (ho : o < PCIE_CONFIG_SPACE_SIZE) :
    header ||| o <<< PCI_EXT_CAP_NEXT_SHIFT < 256 ^ 4 := by
  have hshift : o <<< PCI_EXT_CAP_NEXT_SHIFT < 2 ^ 32 := by
    rw [PCI_EXT_CAP_NEXT_SHIFT, Nat.shiftLeft_eq]
    unfold PCIE_CONFIG_SPACE_SIZE at ho
    omega
  exact Nat.or_lt_two_pow (n := 32) (Nat.lt_trans h (by decide)) hshift

/-- The header `add_pcie_ext_cap` writes for an id and a version that fit
their fields lies below bit 20. -/
theorem extCapHeader_lt {id version : Nat} (hid : id < 2 ^ 16) (hver : version < 16) :
    id ||| version <<< PCI_EXT_CAP_VER_SHIFT < 2 ^ 20 := by
  have hshift : version <<< PCI_EXT_CAP_VER_SHIFT < 2 ^ 20 := by
    rw [PCI_EXT_CAP_VER_SHIFT, Nat.shiftLeft_eq]
    omega
  exact Nat.or_lt_two_pow (n := 20) (Nat.lt_trans hid (by decide)) hshift

/-- A pass from an offset of the extended space whose header can be read. -/
theorem extCapSizeStep_of_read {pos o e : Nat} (hlo : PCI_CONFIG_SPACE_SIZE ≤ o) (hhi : o < PCIE_CONFIG_SPACE_SIZE)
    (hread : o + 4 ≤ config.length) :
    extCapSizeStep config pos (o, e) =
      .next (pciExtCapNext (leReadAt config o 4), lowerEnd pos e (pciExtCapNext (leReadAt config o 4))) := by
  simp only [extCapSizeStep, leReadU32, leRead_of_le hread, unwrapResult_ok, if_pos (And.intro hlo hhi)]

/-- A pass from an offset outside the extended space ends the loop. -/
theorem extCapSizeStep_of_lt {pos o e : Nat} (ho : o < PCI_CONFIG_SPACE_SIZE) :
    extCapSizeStep config pos (o, e) = .exit (o, e) := by
  simp only [extCapSizeStep, if_neg (fun h : PCI_CONFIG_SPACE_SIZE ≤ o ∧ o < PCIE_CONFIG_SPACE_SIZE => absurd h.1 (by omega))]

/-- Offsets of the extended space whose headers can be read and whose next
pointers stay among them: a chain through them never leaves. -/
def ExtCycle (config : List UInt8) (P : Nat → Prop) : Prop :=
  ∀ o, P o → PCI_CONFIG_SPACE_SIZE ≤ o ∧ o < PCIE_CONFIG_SPACE_SIZE ∧ o + 4 ≤ config.length ∧
    P (pciExtCapNext (leReadAt config o 4))

/-- **`get_ext_cap_size` on a cycle.** When the chain from 256 runs into a
cycle, no fuel is enough, for every `pos`. -/
theorem getExtCapSize_cyclic {P : Nat → Prop} (hcycle : ExtCycle config P) (hstart : P PCI_CONFIG_SPACE_SIZE)
    (pos fuel : Nat) : getExtCapSize config pos fuel = none := by
  have hrun : Loop.runFor (extCapSizeStep config pos) fuel (PCI_CONFIG_SPACE_SIZE, PCIE_CONFIG_SPACE_SIZE) = none := by
    refine Loop.runFor_of_forever (fun s => P s.1) (fun s hs => ?_) fuel _ hstart
    obtain ⟨hlo, hhi, hread, hnext⟩ := hcycle s.1 hs
    exact ⟨_, extCapSizeStep_of_read hlo hhi hread, hnext⟩
  rw [getExtCapSize, hrun]

/-- **The VFIO walk on a cycle.** From an offset of the cycle the walk stops
in its first `get_ext_cap_size`, whatever the fuel. -/
theorem vfioExtCapWalk_cyclic {P : Nat → Prop} (hcycle : ExtCycle config P) (hstart : P PCI_CONFIG_SPACE_SIZE)
    {next : Nat} (hnext : P next) (fuel : Nat) (c : ExtCapConfig) : vfioExtCapWalk config fuel c next = none := by
  cases fuel with
  | zero => rfl
  | succ fuel =>
    obtain ⟨hlo, hhi, hread, -⟩ := hcycle next hnext
    simp only [vfioExtCapWalk, if_pos (And.intro hlo hhi), leReadU32, leRead_of_le hread,
      getExtCapSize_cyclic hcycle hstart]

/-- `ExtChain config o offs`: from the header at `o` the extended chain
passes through `offs`, each offset above the one before, and the pointer of
the last header leaves the extended space. -/
inductive ExtChain (config : List UInt8) : Nat → List Nat → Prop
  | last {o : Nat} : PCI_CONFIG_SPACE_SIZE ≤ o → o < PCIE_CONFIG_SPACE_SIZE → o + 4 ≤ config.length →
      pciExtCapNext (leReadAt config o 4) < PCI_CONFIG_SPACE_SIZE → ExtChain config o []
  | link {o o' : Nat} {offs : List Nat} : PCI_CONFIG_SPACE_SIZE ≤ o → o + 4 ≤ config.length → o < o' →
      pciExtCapNext (leReadAt config o 4) = o' → ExtChain config o' offs → ExtChain config o (o' :: offs)

/-- The offsets of a chain increase. -/
theorem ExtChain.sorted {o : Nat} {offs : List Nat} (h : ExtChain config o offs) : (o :: offs).Pairwise (· < ·) := by
  induction h with
  | last => exact List.pairwise_singleton _ _
  | @link o o' offs _ _ hlt _ _ ih =>
    refine List.pairwise_cons.2 ⟨fun c hc => ?_, ih⟩
    rcases List.mem_cons.1 hc with rfl | hc
    · exact hlt
    · exact Nat.lt_trans hlt (List.rel_of_pairwise_cons ih hc)

/-- The offsets of a chain lie in the extended space. -/
theorem ExtChain.bounds {o : Nat} {offs : List Nat} (h : ExtChain config o offs) :
    ∀ c ∈ o :: offs, PCI_CONFIG_SPACE_SIZE ≤ c ∧ c < PCIE_CONFIG_SPACE_SIZE := by
  induction h with
  | last hlo hhi => simp [hlo, hhi]
  | @link o o' offs hlo _ hlt hnext _ ih =>
    intro c hc
    rcases List.mem_cons.1 hc with rfl | hc
    · have : o' ≤ 0xffc := hnext ▸ pciExtCapNext_le _
      exact ⟨hlo, by unfold PCIE_CONFIG_SPACE_SIZE; omega⟩
    · exact ih c hc

/-- The offsets after the first are next pointers, so register-aligned. -/
theorem ExtChain.mod_four {o : Nat} {offs : List Nat} (h : ExtChain config o offs) : ∀ c ∈ offs, c % 4 = 0 := by
  induction h with
  | last => simp
  | link _ _ _ hnext _ ih =>
    intro c hc
    rcases List.mem_cons.1 hc with rfl | hc
    · rw [← hnext]
      exact pciExtCapNext_mod_four _
    · exact ih c hc

/-- Every offset of a chain is at most its last. -/
theorem ExtChain.le_last {o : Nat} {offs : List Nat} (h : ExtChain config o offs) :
    ∀ c ∈ o :: offs, c ≤ offs.getLastD o := by
  induction h with
  | last =>
    intro c hc
    rw [List.mem_singleton.1 hc]
    rfl
  | @link o o' offs _ _ hlt _ _ ih =>
    intro c hc
    rw [List.getLastD_cons]
    rcases List.mem_cons.1 hc with rfl | hc
    · exact Nat.le_trans (Nat.le_of_lt hlt) (ih o' List.mem_cons_self)
    · exact ih c hc

/-- **Growing a chain.** When the header at the end of a chain is linked to
a new last header and every other header of the chain reads as before, the
chain reaches the new one. -/
theorem ExtChain.extend {config' : List UInt8} {o new : Nat} {offs : List Nat} (h : ExtChain config o offs)
    (hlen : config.length ≤ config'.length)
    (hsame : ∀ c ∈ o :: offs, c < offs.getLastD o → leReadAt config' c 4 = leReadAt config c 4)
    (hlt : offs.getLastD o < new) (hlink : pciExtCapNext (leReadAt config' (offs.getLastD o) 4) = new)
    (hnew : ExtChain config' new []) : ExtChain config' o (offs ++ [new]) := by
  induction h with
  | last hlo _ hread _ => exact .link hlo (Nat.le_trans hread hlen) hlt hlink hnew
  | @link o o' offs hlo hread hlt' hnext hchain ih =>
    -- `o` is not the end, so its header still points to `o'`
    have hlast : (o' :: offs).getLastD o = offs.getLastD o' := List.getLastD_cons
    have hbelow : o < offs.getLastD o' := Nat.lt_of_lt_of_le hlt' (hchain.le_last o' List.mem_cons_self)
    refine .link hlo (Nat.le_trans hread hlen) hlt' ?_ (ih ?_ ?_ ?_)
    · rw [hsame o List.mem_cons_self (hlast ▸ hbelow), hnext]
    · intro c hc hc'
      exact hsame c (List.mem_cons_of_mem _ hc) (hlast ▸ hc')
    · exact hlast ▸ hlt
    · exact hlast ▸ hlink

theorem lowerEnd_of_not_between {pos e c : Nat} (h : c ≤ pos ∨ e ≤ c) : lowerEnd pos e c = e := by
  have hout : ¬(c > pos ∧ c < e) := by omega
  rw [lowerEnd, if_neg hout]

theorem lowerEnd_of_between {pos e c : Nat} (hpos : pos < c) (he : c < e) : lowerEnd pos e c = c := by
  rw [lowerEnd, if_pos (And.intro hpos he)]

/-- Offsets outside `pos..end_pos` leave `end_pos` alone. -/
theorem foldl_lowerEnd_of_forall {pos e : Nat} {l : List Nat} (h : ∀ c ∈ l, c ≤ pos ∨ e ≤ c) :
    l.foldl (lowerEnd pos) e = e := by
  induction l with
  | nil => rfl
  | cons c l ih =>
    rw [List.foldl_cons, lowerEnd_of_not_between (h c List.mem_cons_self)]
    exact ih fun c' hc' => h c' (List.mem_cons_of_mem _ hc')

/-- Over increasing offsets through `pos`, `end_pos` ends at the offset after
`pos`, if there is one below it. -/
theorem foldl_lowerEnd_split {pos e : Nat} {pre rest : List Nat} (hsorted : (pre ++ pos :: rest).Pairwise (· < ·))
    (hlt : ∀ c ∈ rest, c < e) : (pre ++ pos :: rest).foldl (lowerEnd pos) e = rest.headD e := by
  obtain ⟨-, hrest, hpre⟩ := List.pairwise_append.1 hsorted
  obtain ⟨hafter, hpost⟩ := List.pairwise_cons.1 hrest
  -- the offsets before `pos` lie below it, and `pos` itself is not above it
  have hbefore : pre.foldl (lowerEnd pos) e = e :=
    foldl_lowerEnd_of_forall fun c hc => .inl (Nat.le_of_lt (hpre c hc pos List.mem_cons_self))
  rw [List.foldl_append, hbefore, List.foldl_cons, lowerEnd_of_not_between (.inl le_rfl)]
  cases rest with
  | nil => rfl
  | cons o' post =>
    rw [List.foldl_cons, lowerEnd_of_between (hafter o' List.mem_cons_self) (hlt o' List.mem_cons_self)]
    exact foldl_lowerEnd_of_forall fun c hc => .inr (Nat.le_of_lt (List.rel_of_pairwise_cons hpost hc))

/-- **The run over a chain.** From `pos` in the extended space, the loop
walks the chain to its end and lowers `end_pos` at each offset it meets. -/
theorem runFor_extCapSizeStep {pos : Nat} (hpos : PCI_CONFIG_SPACE_SIZE ≤ pos) {o : Nat} {offs : List Nat}
    (h : ExtChain config o offs) (e : Nat) :
    ∃ t, Loop.runFor (extCapSizeStep config pos) (offs.length + 2) (o, e) = some (.exit (t, offs.foldl (lowerEnd pos) e)) := by
  induction h generalizing e with
  | @last o hlo hhi hread hend =>
    -- the last pointer lies below `pos`, so it leaves `end_pos` alone
    have hkeep : lowerEnd pos e (pciExtCapNext (leReadAt config o 4)) = e := by
      rw [lowerEnd, if_neg (fun h => absurd h.1 (by omega))]
    refine ⟨pciExtCapNext (leReadAt config o 4), ?_⟩
    simp only [Loop.runFor, extCapSizeStep_of_read hlo hhi hread, hkeep, extCapSizeStep_of_lt hend,
      List.foldl_nil]
  | @link o o' offs hlo hread hlt hnext hchain ih =>
    have hhi : o < PCIE_CONFIG_SPACE_SIZE := Nat.lt_trans hlt (hchain.bounds o' List.mem_cons_self).2
    obtain ⟨t, ht⟩ := ih (lowerEnd pos e o')
    refine ⟨t, ?_⟩
    rw [List.length_cons, Nat.add_right_comm, Loop.runFor, extCapSizeStep_of_read hlo hhi hread, hnext]
    exact ht

/-- **`get_ext_cap_size` on a chain.** With enough fuel the size of the
capability at `pos` is the distance to the next offset of the chain, or to
the end of the space after the last. -/
theorem getExtCapSize_chained {offs pre rest : List Nat} (h : ExtChain config PCI_CONFIG_SPACE_SIZE offs) {pos : Nat}
    (hsplit : PCI_CONFIG_SPACE_SIZE :: offs = pre ++ pos :: rest) {fuel : Nat} (hfuel : offs.length + 2 ≤ fuel) :
    getExtCapSize config pos fuel = some (.ok (rest.headD PCIE_CONFIG_SPACE_SIZE - pos)) := by
  have hmem : ∀ c ∈ rest, c ∈ PCI_CONFIG_SPACE_SIZE :: offs := fun c hc => by simp [hsplit, hc]
  have hpos : PCI_CONFIG_SPACE_SIZE ≤ pos := (h.bounds pos (by simp [hsplit])).1
  obtain ⟨t, ht⟩ := runFor_extCapSizeStep hpos h PCIE_CONFIG_SPACE_SIZE
  -- 256 heads the chain and lies not above `pos`, so the walk's lowering is
  -- that over the whole chain
  have hfold : offs.foldl (lowerEnd pos) PCIE_CONFIG_SPACE_SIZE = rest.headD PCIE_CONFIG_SPACE_SIZE := by
    calc offs.foldl (lowerEnd pos) PCIE_CONFIG_SPACE_SIZE
        = (PCI_CONFIG_SPACE_SIZE :: offs).foldl (lowerEnd pos) PCIE_CONFIG_SPACE_SIZE := by
          rw [List.foldl_cons, lowerEnd_of_not_between (.inl hpos)]
      _ = (pre ++ pos :: rest).foldl (lowerEnd pos) PCIE_CONFIG_SPACE_SIZE := by rw [hsplit]
      _ = rest.headD PCIE_CONFIG_SPACE_SIZE :=
          foldl_lowerEnd_split (hsplit ▸ h.sorted) fun c hc => (h.bounds c (hmem c hc)).2
  rw [getExtCapSize, Loop.runFor_mono ht hfuel, hfold]

end Extended

/-! ### Building the chain with `add_pcie_ext_cap`

A device model adds its extended capabilities one after another to a fresh
space. Each capability of positive size, with an id and a version that fit
their header fields, is linked behind the last one, so the capabilities form
a chain from 256, and each but the last spans its size rounded up to whole
registers. -/

section Building

/-- Clearing the write mask of `n` registers from `start` ends `n` registers
on. -/
theorem foldlM_clearRegStep {mask : List UInt8} {start n : Nat} (h : start + REG_SIZE * n ≤ mask.length) :
    ∃ mask', mask'.length = mask.length ∧
      (List.range n).foldlM clearRegStep (mask, start) = .ok (mask', start + REG_SIZE * n) := by
  have hstep : ∀ done x rest (acc : List UInt8 × Nat), done ++ x :: rest = List.range n →
      (acc.1.length = mask.length ∧ acc.2 = start + REG_SIZE * done.length) →
      ∃ acc', clearRegStep acc x = .ok acc' ∧
        (acc'.1.length = mask.length ∧ acc'.2 = start + REG_SIZE * (done ++ [x]).length) := by
    intro done x rest acc hsplit ⟨hlen, hend⟩
    -- the register cleared lies before `start + REG_SIZE * n`
    have hdone : done.length + 1 ≤ n := by
      have hl := congrArg List.length hsplit
      simp only [List.length_append, List.length_cons, List.length_range] at hl
      omega
    have hfit : acc.2 + 4 ≤ acc.1.length := by
      rw [hlen, hend]
      unfold REG_SIZE at h ⊢
      omega
    refine ⟨(leWriteAt acc.1 acc.2 4 0, acc.2 + REG_SIZE), ?_, length_leWriteAt _ hfit ▸ hlen, ?_⟩
    · simp only [clearRegStep, leWrite_of_le hfit, except_ok_bind]
      rfl
    · rw [hend, List.length_append, List.length_singleton, Nat.mul_add, Nat.mul_one, Nat.add_assoc]
  obtain ⟨out, hout, hlen, hend⟩ := foldlM_ok_of_step (f := clearRegStep)
    (fun done (acc : List UInt8 × Nat) => acc.1.length = mask.length ∧ acc.2 = start + REG_SIZE * done.length)
    (List.range n) hstep (b := (mask, start)) ⟨rfl, by simp⟩
  rw [List.length_range] at hend
  exact ⟨out.1, hlen, by rw [hout, ← hend]⟩

/-- **`add_pcie_ext_cap` when the capability fits.** It clears the write
mask of the capability's registers, writes its header at the end, and links
the last header to it. -/
theorem addPcieExtCap_eq_ok {c : ExtCapConfig} (id version : Nat) {size : Nat}
    (hfit : c.lastExtCapEnd + size ≤ PCIE_CONFIG_SPACE_SIZE)
    (hmask : c.lastExtCapEnd + REG_SIZE * regsNum size ≤ c.writeMask.length)
    (hconfig : c.lastExtCapEnd + 4 ≤ c.config.length) (hlast : c.lastExtCapOffset + 4 ≤ c.config.length) :
    ∃ mask, mask.length = c.writeMask.length ∧ addPcieExtCap c id size version =
      .ok (⟨linkExtCap c.lastExtCapOffset c.lastExtCapEnd
          (leWriteAt c.config c.lastExtCapEnd 4 (id ||| version <<< PCI_EXT_CAP_VER_SHIFT)),
        mask, c.lastExtCapEnd, c.lastExtCapEnd + REG_SIZE * regsNum size⟩, c.lastExtCapEnd) := by
  obtain ⟨mask, hlen, hfold⟩ := foldlM_clearRegStep hmask
  have hlast' : c.lastExtCapOffset + 4 ≤
      (leWriteAt c.config c.lastExtCapEnd 4 (id ||| version <<< PCI_EXT_CAP_VER_SHIFT)).length := by
    rw [length_leWriteAt _ hconfig]
    exact hlast
  have hnot : ¬(c.lastExtCapEnd + size > PCIE_CONFIG_SPACE_SIZE) := Nat.not_lt.2 hfit
  refine ⟨mask, hlen, ?_⟩
  by_cases hL : c.lastExtCapOffset = 0
  · simp only [addPcieExtCap, if_neg hnot, hfold, leWrite_of_le hconfig, except_ok_bind, linkExtCap, hL,
      ne_eq, not_true_eq_false, if_false]
    rfl
  · simp only [addPcieExtCap, if_neg hnot, hfold, leWrite_of_le hconfig, except_ok_bind, linkExtCap, if_pos hL,
      leReadU32, leRead_of_le hlast', leWrite_of_le hlast']
    rfl

/-- A capability that does not fit is refused. -/
theorem addPcieExtCap_fits {c : ExtCapConfig} {id size version : Nat} {r : ExtCapConfig × Nat}
    (h : addPcieExtCap c id size version = .ok r) : c.lastExtCapEnd + size ≤ PCIE_CONFIG_SPACE_SIZE := by
  refine Nat.le_of_not_lt fun hgt => ?_
  rw [addPcieExtCap, if_pos hgt] at h
  cases h

theorem length_linkExtCap {last offset : Nat} {config : List UInt8} (h : last + 4 ≤ config.length) :
    (linkExtCap last offset config).length = config.length := by
  unfold linkExtCap
  split
  · exact length_leWriteAt _ h
  · rfl

/-- The last header gains the link. -/
theorem leReadAt_linkExtCap_last {last offset : Nat} {config : List UInt8} (hlast : last ≠ 0)
    (h : last + 4 ≤ config.length) :
    leReadAt (linkExtCap last offset config) last 4 =
      (leReadAt config last 4 ||| offset <<< PCI_EXT_CAP_NEXT_SHIFT) % 256 ^ 4 := by
  rw [linkExtCap, if_pos hlast, leReadAt_leWriteAt _ h]

/-- A header apart from the last reads as before. -/
theorem leReadAt_linkExtCap_of_disjoint {last offset o : Nat} {config : List UInt8} (h : last + 4 ≤ config.length)
    (hsep : o + 4 ≤ last ∨ last + 4 ≤ o) : leReadAt (linkExtCap last offset config) o 4 = leReadAt config o 4 := by
  unfold linkExtCap
  split
  · exact leReadAt_leWriteAt_of_disjoint _ h hsep
  · rfl

/-- The registers a capability of positive size takes lie after its header
and inside the space. -/
theorem regsNum_fit {e size : Nat} (he : e % REG_SIZE = 0) (hfit : e + size ≤ PCIE_CONFIG_SPACE_SIZE)
    (hsize : 0 < size) :
    e + REG_SIZE ≤ e + REG_SIZE * regsNum size ∧ e + REG_SIZE * regsNum size ≤ PCIE_CONFIG_SPACE_SIZE := by
  unfold regsNum REG_SIZE PCIE_CONFIG_SPACE_SIZE at *
  split <;> omega

/-- What successive `add_pcie_ext_cap` calls keep once a capability is in:
the capabilities form a chain from 256 through `offs`; the last header is
the one `last_ext_cap_offset` names and points nowhere yet; the end lies
after it, register-aligned, inside the space. -/
structure ChainBuilt (c : ExtCapConfig) (offs : List Nat) : Prop where
  config_length : c.config.length = PCIE_CONFIG_SPACE_SIZE
  mask_length : c.writeMask.length = PCIE_CONFIG_SPACE_SIZE
  chain : ExtChain c.config PCI_CONFIG_SPACE_SIZE offs
  last_eq : c.lastExtCapOffset = offs.getLastD PCI_CONFIG_SPACE_SIZE
  last_header : leReadAt c.config c.lastExtCapOffset 4 < 2 ^ 20
  end_after : c.lastExtCapOffset + REG_SIZE ≤ c.lastExtCapEnd
  end_le : c.lastExtCapEnd ≤ PCIE_CONFIG_SPACE_SIZE
  end_aligned : c.lastExtCapEnd % REG_SIZE = 0

section Caps

variable {id size version : Nat} (hid : id < 2 ^ 16) (hsize : 0 < size) (hver : version < 16)
include hid hsize hver

/-- **The first capability.** Added to a fresh space it lands at 256 and
starts the chain. -/
theorem addPcieExtCap_new (hfit : PCI_CONFIG_SPACE_SIZE + size ≤ PCIE_CONFIG_SPACE_SIZE) :
    ∃ c', addPcieExtCap ExtCapConfig.new id size version = .ok (c', PCI_CONFIG_SPACE_SIZE) ∧ ChainBuilt c' [] ∧
      c'.lastExtCapEnd = PCI_CONFIG_SPACE_SIZE + REG_SIZE * regsNum size := by
  obtain ⟨hafter, hend⟩ := regsNum_fit (e := PCI_CONFIG_SPACE_SIZE) rfl hfit hsize
  have hcfg : ExtCapConfig.new.config.length = PCIE_CONFIG_SPACE_SIZE := List.length_replicate
  have hmsk : ExtCapConfig.new.writeMask.length = PCIE_CONFIG_SPACE_SIZE := List.length_replicate
  have hlen : PCI_CONFIG_SPACE_SIZE + 4 ≤ ExtCapConfig.new.config.length := by rw [hcfg]; decide
  obtain ⟨mask, hmask, hadd⟩ := addPcieExtCap_eq_ok (c := ExtCapConfig.new) id version hfit
    (by rw [hmsk]; exact hend) hlen (Nat.le_trans (by decide) hlen)
  -- a fresh space has no last header to link
  have hfirst : ¬ExtCapConfig.new.lastExtCapOffset ≠ 0 := by decide
  rw [linkExtCap, if_neg hfirst] at hadd
  have hheader := extCapHeader_lt hid hver
  -- the new header reads back whole: it lies below bit 20
  have hread : leReadAt (leWriteAt ExtCapConfig.new.config PCI_CONFIG_SPACE_SIZE 4
      (id ||| version <<< PCI_EXT_CAP_VER_SHIFT)) PCI_CONFIG_SPACE_SIZE 4 = id ||| version <<< PCI_EXT_CAP_VER_SHIFT := by
    rw [leReadAt_leWriteAt _ hlen, Nat.mod_eq_of_lt (Nat.lt_trans hheader (by decide))]
  have hlen₁ : (leWriteAt ExtCapConfig.new.config PCI_CONFIG_SPACE_SIZE 4
      (id ||| version <<< PCI_EXT_CAP_VER_SHIFT)).length = PCIE_CONFIG_SPACE_SIZE := by
    rw [length_leWriteAt _ hlen, hcfg]
  have hchain : ExtChain (leWriteAt ExtCapConfig.new.config PCI_CONFIG_SPACE_SIZE 4
      (id ||| version <<< PCI_EXT_CAP_VER_SHIFT)) PCI_CONFIG_SPACE_SIZE [] := by
    refine .last le_rfl (by decide) (by rw [hlen₁]; decide) ?_
    rw [hread, pciExtCapNext_of_lt hheader]
    decide
  have haligned : (PCI_CONFIG_SPACE_SIZE + REG_SIZE * regsNum size) % REG_SIZE = 0 := by
    unfold PCI_CONFIG_SPACE_SIZE REG_SIZE
    omega
  have hlast : leReadAt (leWriteAt ExtCapConfig.new.config PCI_CONFIG_SPACE_SIZE 4
      (id ||| version <<< PCI_EXT_CAP_VER_SHIFT)) PCI_CONFIG_SPACE_SIZE 4 < 2 ^ 20 := by
    rw [hread]
    exact hheader
  exact ⟨_, hadd, ⟨hlen₁, hmask.trans hmsk, hchain, rfl, hlast, hafter, hend, haligned⟩, rfl⟩

/-- **One more capability.** Added after the last one, it lands at the end
and extends the chain. -/
theorem ChainBuilt.add {c : ExtCapConfig} {offs : List Nat} (hb : ChainBuilt c offs)
    (hfit : c.lastExtCapEnd + size ≤ PCIE_CONFIG_SPACE_SIZE) :
    ∃ c', addPcieExtCap c id size version = .ok (c', c.lastExtCapEnd) ∧ ChainBuilt c' (offs ++ [c.lastExtCapEnd]) ∧
      c'.lastExtCapEnd = c.lastExtCapEnd + REG_SIZE * regsNum size := by
  obtain ⟨hafter, hend⟩ := regsNum_fit hb.end_aligned hfit hsize
  have hR : REG_SIZE = 4 := rfl
  have hsep : c.lastExtCapOffset + 4 ≤ c.lastExtCapEnd := hb.end_after
  rw [hR] at hafter hend
  have hEhi : c.lastExtCapEnd + 4 ≤ PCIE_CONFIG_SPACE_SIZE := by omega
  have hlenE : c.lastExtCapEnd + 4 ≤ c.config.length := by rw [hb.config_length]; exact hEhi
  have hlenL : c.lastExtCapOffset + 4 ≤ c.config.length := by omega
  obtain ⟨mask, hmask, hadd⟩ :=
    addPcieExtCap_eq_ok id version hfit (by rw [hb.mask_length]; exact hend) hlenE hlenL
  -- the chain's offsets are register-aligned, the last of them is `last_ext_cap_offset`
  have haligned : ∀ o ∈ PCI_CONFIG_SPACE_SIZE :: offs, o % 4 = 0 := by
    intro o ho
    rcases List.mem_cons.1 ho with rfl | ho
    · rfl
    · exact hb.chain.mod_four o ho
  have hLmem : c.lastExtCapOffset ∈ PCI_CONFIG_SPACE_SIZE :: offs := hb.last_eq ▸ List.getLastD_mem_cons
  have hL256 : PCI_CONFIG_SPACE_SIZE ≤ c.lastExtCapOffset := (hb.chain.bounds _ hLmem).1
  have hL0 : c.lastExtCapOffset ≠ 0 := by unfold PCI_CONFIG_SPACE_SIZE at hL256; omega
  have hE4 : c.lastExtCapEnd % 4 = 0 := hb.end_aligned
  let header := id ||| version <<< PCI_EXT_CAP_VER_SHIFT
  have hheader : header < 2 ^ 20 := extCapHeader_lt hid hver
  let config₁ := leWriteAt c.config c.lastExtCapEnd 4 header
  have hlen₁ : config₁.length = c.config.length := length_leWriteAt _ hlenE
  have hlenL₁ : c.lastExtCapOffset + 4 ≤ config₁.length := hlen₁ ▸ hlenL
  -- the three reads the chain needs: the new header, the linked one, and the rest
  have hnewRead : leReadAt (linkExtCap c.lastExtCapOffset c.lastExtCapEnd config₁) c.lastExtCapEnd 4 = header := by
    rw [leReadAt_linkExtCap_of_disjoint hlenL₁ (.inr hsep), leReadAt_leWriteAt _ hlenE,
      Nat.mod_eq_of_lt (Nat.lt_trans hheader (by decide))]
  have hold : leReadAt config₁ c.lastExtCapOffset 4 = leReadAt c.config c.lastExtCapOffset 4 :=
    leReadAt_leWriteAt_of_disjoint _ hlenE (.inl hsep)
  have hlink : pciExtCapNext (leReadAt (linkExtCap c.lastExtCapOffset c.lastExtCapEnd config₁) c.lastExtCapOffset 4) =
      c.lastExtCapEnd := by
    rw [leReadAt_linkExtCap_last hL0 hlenL₁, hold, Nat.mod_eq_of_lt (link_lt hb.last_header (by omega))]
    exact pciExtCapNext_link hb.last_header (by omega) hE4
  have hsame : ∀ o ∈ PCI_CONFIG_SPACE_SIZE :: offs, o < offs.getLastD PCI_CONFIG_SPACE_SIZE →
      leReadAt (linkExtCap c.lastExtCapOffset c.lastExtCapEnd config₁) o 4 = leReadAt c.config o 4 := by
    intro o ho hlt
    rw [← hb.last_eq] at hlt
    have ho4 : o + 4 ≤ c.lastExtCapOffset := by
      have h1 := haligned o ho
      have h2 := haligned _ hLmem
      omega
    rw [leReadAt_linkExtCap_of_disjoint hlenL₁ (.inl ho4), leReadAt_leWriteAt_of_disjoint _ hlenE (.inl (by omega))]
  have hlen₂ : (linkExtCap c.lastExtCapOffset c.lastExtCapEnd config₁).length = PCIE_CONFIG_SPACE_SIZE := by
    rw [length_linkExtCap hlenL₁, hlen₁, hb.config_length]
  have hnew : ExtChain (linkExtCap c.lastExtCapOffset c.lastExtCapEnd config₁) c.lastExtCapEnd [] := by
    refine .last (by omega) (by omega) (by rw [hlen₂]; exact hEhi) ?_
    rw [hnewRead, pciExtCapNext_of_lt hheader]
    decide
  refine ⟨_, hadd, ⟨hlen₂, hmask ▸ hb.mask_length, ?_, List.getLastD_concat.symm, hnewRead ▸ hheader, hafter, hend, ?_⟩, rfl⟩
  · exact hb.chain.extend (by rw [hlen₂, hb.config_length]) hsame (hb.last_eq ▸ (by omega)) (hb.last_eq ▸ hlink) hnew
  · show (c.lastExtCapEnd + REG_SIZE * regsNum size) % REG_SIZE = 0
    unfold REG_SIZE at hE4 ⊢
    omega

end Caps

/-- What a successful run of `add_pcie_ext_cap` calls did first. -/
theorem addPcieExtCaps_cons_eq_ok {c c' : ExtCapConfig} {id size version : Nat} {caps : List (Nat × Nat × Nat)}
    {rets : List Nat} (h : addPcieExtCaps c ((id, size, version) :: caps) = .ok (c', rets)) :
    ∃ c₁ offset rest, addPcieExtCap c id size version = .ok (c₁, offset) ∧ addPcieExtCaps c₁ caps = .ok (c', rest) ∧
      rets = offset :: rest := by
  rw [addPcieExtCaps] at h
  cases hadd : addPcieExtCap c id size version with
  | error e => simp [hadd, bind, Except.bind] at h
  | ok r =>
    cases hrest : addPcieExtCaps r.1 caps with
    | error e => simp [hadd, hrest, bind, Except.bind] at h
    | ok r' =>
      simp only [hadd, hrest, bind, Except.bind, pure, Except.pure, Except.ok.injEq, Prod.mk.injEq] at h
      obtain ⟨rfl, rfl⟩ := h
      exact ⟨r.1, r.2, r'.2, rfl, hrest, rfl⟩

/-- The offsets of capabilities added after others follow those of the
others. -/
theorem capOffsets_append (start : Nat) (pre caps : List (Nat × Nat × Nat)) :
    ∃ s, capOffsets start (pre ++ caps) = capOffsets start pre ++ capOffsets s caps := by
  induction pre generalizing start with
  | nil => exact ⟨start, rfl⟩
  | cons cap pre ih =>
    obtain ⟨s, hs⟩ := ih (start + REG_SIZE * regsNum cap.2.1)
    exact ⟨s, by rw [List.cons_append, capOffsets, hs, capOffsets, List.cons_append]⟩

theorem length_capOffsets (start : Nat) (caps : List (Nat × Nat × Nat)) : (capOffsets start caps).length = caps.length := by
  induction caps generalizing start with
  | nil => rfl
  | cons cap caps ih => rw [capOffsets, List.length_cons, ih, List.length_cons]

section Run

variable {caps : List (Nat × Nat × Nat)} (hcaps : ∀ cap ∈ caps, cap.1 < 2 ^ 16 ∧ 0 < cap.2.1 ∧ cap.2.2 < 16)
include hcaps

/-- **The run from a chain.** Capabilities added one after another extend
the chain, each at the offset `capOffsets` gives it. -/
theorem addPcieExtCaps_built {c c' : ExtCapConfig} {offs rets : List Nat} (hb : ChainBuilt c offs)
    (h : addPcieExtCaps c caps = .ok (c', rets)) :
    ChainBuilt c' (offs ++ rets) ∧ rets = capOffsets c.lastExtCapEnd caps := by
  induction caps generalizing c offs rets with
  | nil =>
    cases h
    exact ⟨by rw [List.append_nil]; exact hb, rfl⟩
  | cons cap caps ih =>
    obtain ⟨id, size, version⟩ := cap
    obtain ⟨hid, hsize, hver⟩ := hcaps _ List.mem_cons_self
    obtain ⟨c₁, offset, rest, hadd, hrest, rfl⟩ := addPcieExtCaps_cons_eq_ok h
    obtain ⟨c₁', hadd', hb₁, hend₁⟩ := hb.add hid hsize hver (addPcieExtCap_fits hadd)
    obtain ⟨rfl, rfl⟩ := Prod.mk.inj (Except.ok.inj (hadd.symm.trans hadd'))
    obtain ⟨hb', hrest'⟩ := ih (fun cap hcap => hcaps cap (List.mem_cons_of_mem _ hcap)) hb₁ hrest
    refine ⟨by rwa [List.append_assoc, List.singleton_append] at hb', ?_⟩
    rw [hrest', hend₁]
    rfl

/-- **The run from a fresh space.** Once a capability is in, the
capabilities form a chain from 256 through the offsets returned after the
first, which are those `capOffsets` gives. -/
theorem addPcieExtCaps_new_built {c : ExtCapConfig} {offsets : List Nat}
    (h : addPcieExtCaps ExtCapConfig.new caps = .ok (c, offsets)) (hne : caps ≠ []) :
    ChainBuilt c offsets.tail ∧ offsets = capOffsets PCI_CONFIG_SPACE_SIZE caps := by
  cases caps with
  | nil => exact absurd rfl hne
  | cons cap caps =>
    obtain ⟨id, size, version⟩ := cap
    obtain ⟨hid, hsize, hver⟩ := hcaps _ List.mem_cons_self
    obtain ⟨c₁, offset, rest, hadd, hrest, rfl⟩ := addPcieExtCaps_cons_eq_ok h
    obtain ⟨c₁', hadd', hb₁, hend₁⟩ := addPcieExtCap_new hid hsize hver (addPcieExtCap_fits hadd)
    obtain ⟨rfl, rfl⟩ := Prod.mk.inj (Except.ok.inj (hadd.symm.trans hadd'))
    obtain ⟨hb, hrest'⟩ :=
      addPcieExtCaps_built (fun cap hcap => hcaps cap (List.mem_cons_of_mem _ hcap)) hb₁ hrest
    refine ⟨hb, ?_⟩
    rw [hrest', hend₁]
    rfl

/-- **`get_ext_cap_size` on capabilities added one after another.** Every
capability but the last has the size it was added with, rounded up to whole
registers. -/
theorem getExtCapSize_added {c : ExtCapConfig} {offsets : List Nat}
    (h : addPcieExtCaps ExtCapConfig.new caps = .ok (c, offsets)) {pre post : List (Nat × Nat × Nat)}
    {id size version : Nat} {next : Nat × Nat × Nat} (hsplit : caps = pre ++ (id, size, version) :: next :: post)
    {fuel : Nat} (hfuel : caps.length + 1 ≤ fuel) :
    ∃ o, offsets[pre.length]? = some o ∧ getExtCapSize c.config o fuel = some (.ok (REG_SIZE * regsNum size)) := by
  have hne : caps ≠ [] := by simp [hsplit]
  obtain ⟨hb, hoffsets⟩ := addPcieExtCaps_new_built hcaps h hne
  obtain ⟨s, hs⟩ := capOffsets_append PCI_CONFIG_SPACE_SIZE pre ((id, size, version) :: next :: post)
  -- the offsets split around the capability's and the next one's
  have hsplit' : offsets = capOffsets PCI_CONFIG_SPACE_SIZE pre ++
      s :: (s + REG_SIZE * regsNum size) :: capOffsets (s + REG_SIZE * regsNum size + REG_SIZE * regsNum next.2.1) post := by
    rw [hoffsets, hsplit, hs]
    rfl
  have hhead : PCI_CONFIG_SPACE_SIZE :: offsets.tail = offsets := by
    rw [hoffsets]
    cases caps with
    | nil => exact absurd rfl hne
    | cons cap caps => rfl
  have hlen : offsets.tail.length + 2 ≤ fuel := by
    rw [List.length_tail, hoffsets, length_capOffsets]
    have : 0 < caps.length := List.length_pos_iff.2 hne
    omega
  refine ⟨s, by rw [hsplit', List.getElem?_append_right (by rw [length_capOffsets]), length_capOffsets,
    Nat.sub_self]; rfl, ?_⟩
  rw [getExtCapSize_chained hb.chain (hhead.trans hsplit') hlen]
  simp only [List.headD_cons, Nat.add_sub_cancel_left]

end Run

end Building

theorem find_pci_cap_zero_offset_and_ext_cap_cycles :
    findPciCap ((List.replicate PCIE_CONFIG_SPACE_SIZE 0).set 0 0x11) 0x11 = .ok 0 ∧
      findPciCap ((List.replicate PCI_CONFIG_SPACE_SIZE 0).set CAP_LIST 0xff) 0x11 =
        .error (indexPanic PCI_CONFIG_SPACE_SIZE PCI_CONFIG_SPACE_SIZE) ∧
      (∀ pos fuel, getExtCapSize (leWriteAt (List.replicate PCIE_CONFIG_SPACE_SIZE 0) PCI_CONFIG_SPACE_SIZE 4
        (PCI_CONFIG_SPACE_SIZE <<< PCI_EXT_CAP_NEXT_SHIFT)) pos fuel = none) ∧
      ∀ fuel c, vfioExtCapWalk (leWriteAt (List.replicate PCIE_CONFIG_SPACE_SIZE 0) PCI_CONFIG_SPACE_SIZE 4
        (PCI_CONFIG_SPACE_SIZE <<< PCI_EXT_CAP_NEXT_SHIFT)) fuel c PCI_CONFIG_SPACE_SIZE = none := by
  -- no capabilities (`CAP_LIST` 0), and a vendor id whose low byte is the MSI-X id
  have hlen₁ : ((List.replicate PCIE_CONFIG_SPACE_SIZE 0).set 0 (0x11 : UInt8)).length = PCIE_CONFIG_SPACE_SIZE := by
    rw [List.length_set, List.length_replicate]
  have hvendor : ((List.replicate PCIE_CONFIG_SPACE_SIZE 0).set 0 (0x11 : UInt8)).getD 0 0 = 0x11 := by
    rw [List.getD_eq_getElem?_getD, List.getElem?_set_self (by rw [List.length_replicate]; decide)]
    rfl
  have hnone : ((List.replicate PCIE_CONFIG_SPACE_SIZE 0).set 0 (0x11 : UInt8)).getD CAP_LIST 0 = 0 := by
    rw [List.getD_eq_getElem?_getD, List.getElem?_set_ne (by decide), List.getElem?_replicate, if_pos (by decide)]
    rfl
  have hfound := findPciCap_cap_list_zero (by rw [hlen₁]; decide) hnone
  rw [hvendor] at hfound
  -- a 256-byte space whose chain starts at the last byte
  have hlen₂ : ((List.replicate PCI_CONFIG_SPACE_SIZE 0).set CAP_LIST (0xff : UInt8)).length = PCI_CONFIG_SPACE_SIZE := by
    rw [List.length_set, List.length_replicate]
  have hstart : ((List.replicate PCI_CONFIG_SPACE_SIZE 0).set CAP_LIST (0xff : UInt8)).getD CAP_LIST 0 = 0xff := by
    rw [List.getD_eq_getElem?_getD, List.getElem?_set_self (by rw [List.length_replicate]; decide)]
    rfl
  have hlastByte : ((List.replicate PCI_CONFIG_SPACE_SIZE 0).set CAP_LIST (0xff : UInt8)).getD 0xff 0 ≠ 0x11 := by
    rw [List.getD_eq_getElem?_getD, List.getElem?_set_ne (by decide), List.getElem?_replicate, if_pos (by decide)]
    decide
  have hpanic := findPciCap_panic hlen₂ hstart hlastByte
  -- an extended space whose first header points to itself
  have hlen : PCI_CONFIG_SPACE_SIZE + 4 ≤ (List.replicate PCIE_CONFIG_SPACE_SIZE 0 : List UInt8).length := by
    rw [List.length_replicate]
    decide
  have hcycle : ExtCycle (leWriteAt (List.replicate PCIE_CONFIG_SPACE_SIZE 0) PCI_CONFIG_SPACE_SIZE 4
      (PCI_CONFIG_SPACE_SIZE <<< PCI_EXT_CAP_NEXT_SHIFT)) (· = PCI_CONFIG_SPACE_SIZE) := by
    rintro o rfl
    refine ⟨le_rfl, by decide, by rw [length_leWriteAt _ hlen]; exact hlen, ?_⟩
    rw [leReadAt_leWriteAt _ hlen]
    decide
  refine ⟨hfound, hpanic, getExtCapSize_cyclic hcycle rfl, fun fuel c => ?_⟩
  exact vfioExtCapWalk_cyclic hcycle rfl rfl fuel c

end StratoVirt.Pci
