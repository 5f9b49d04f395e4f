import StratoVirt.Lib.Loop
import StratoVirt.Lib.BigEndian
import StratoVirt.AddressSpace.Types
import StratoVirt.AddressSpace.Ram

/-!
# fw_cfg DMA: what one guest descriptor can change

`devices/src/legacy/fwcfg.rs`. The firmware configuration device holds two
tables of entries (architecture-local and common), selected by a 16-bit key.
The guest programs the address of a 16-byte big-endian descriptor
(`control`, `length`, `address`) through `dma_mem_write`;
`handle_dma_request` reads it, applies `SELECT`, and runs a transfer loop
between the selected entry's data and guest memory, then writes the final
`control` word back over the descriptor: `0` for success or
`FW_CFG_DMA_CTL_ERROR`.

The model keeps the code's order of effects, since that is where its
properties are decided:

* a write request copies guest bytes into the entry (`read_dma_memory` into
  `entry.data[offset..]`) before it looks at `allow_write` or at whether the
  whole length fitted (`DmaState.writeEntry`);
* the entry is fetched with `get_entry_mut()?` after `SELECT`, so an invalid
  selection returns before the result word is written;
* the loop's "no entry" test reads `cur_entry` as it was before `SELECT`.

`handleDmaRequest_spec` is the one equation the handler's theorems use.
`handleDmaRequest_status` and `handleDmaRequest_entry_unchanged` are what
holds for every descriptor; `handleDmaRequest_invalid_select` and
`handleDmaRequest_overwrites_readonly` are where the code lets the guest
through.

Entries are stored by `add_entry` in the table that the current selection's
architecture-local bit picks (`addEntry_eq_ok`), while a guest select of a key
reaches the table the key's own bit picks (`getEntryMut_selectEntry`). On a
fresh device, whose selection is key 0, an architecture-local key such as
`Irq0Override` is stored where its select does not look
(`addEntry_irq0Override_misplaced`).

Select and write callbacks are external code: a select callback is not
modelled, and write callbacks are recorded as the calls made.
-/

namespace StratoVirt.Legacy

open StratoVirt.Lib StratoVirt.AddressSpace

/-! ## Constants -/

def FW_CFG_FILE_SLOTS_DFLT : Nat := 0x20
def FW_CFG_FILE_FIRST : Nat := 0x20
def FW_CFG_WRITE_CHANNEL : Nat := 0x4000
def FW_CFG_ARCH_LOCAL : Nat := 0x8000
/-- `!(FW_CFG_WRITE_CHANNEL | FW_CFG_ARCH_LOCAL)` as a `u16`. -/
def FW_CFG_ENTRY_MASK : Nat := 0xffff ^^^ (FW_CFG_WRITE_CHANNEL ||| FW_CFG_ARCH_LOCAL)
def FW_CFG_INVALID : Nat := 0xffff

/-- The DMA control bits. -/
def FW_CFG_DMA_CTL_ERROR : Nat := 0x01
def FW_CFG_DMA_CTL_READ : Nat := 0x02
def FW_CFG_DMA_CTL_SKIP : Nat := 0x04
def FW_CFG_DMA_CTL_SELECT : Nat := 0x08
def FW_CFG_DMA_CTL_WRITE : Nat := 0x10

/-- The key names `get_key_name` reports. -/
def FW_CFG_KEYS : List String :=
  ["signature", "id", "uuid", "ram_size", "nographic", "nb_cpus", "machine_id", "kernel_addr",
    "kernel_size", "kernel_cmdline", "initrd_addr", "initrd_size", "boot_device", "numa",
    "boot_menu", "max_cpus", "kernel_entry", "kernel_data", "initrd_data", "cmdline_addr",
    "cmdline_size", "cmdline_data", "setup_addr", "setup_size", "setup_data", "file_dir"]

/-- `get_key_name`. The source indexes its 26 names for every key below
`FW_CFG_FILE_FIRST`, so keys 26 to 31 would panic; no caller passes one. -/
def getKeyName (key : Nat) : String :=
  if key < FW_CFG_FILE_FIRST then FW_CFG_KEYS.getD key "unknown" else "unknown"

/-- The `LegacyError`s and error contexts of the modelled paths. -/
inductive FwCfgError where
  /-- "Failed to find FwCfg entry, key is NAME." -/
  | entryNotFound (name : String)
  /-- "Failed to read DMA request, dma_addr=0xADDR size=0xSIZE" -/
  | readDmaRequest (dmaAddr size : Nat)
  /-- "Invalid FwCfg entry key KEY" -/
  | invalidFwCfgEntry (key : Nat)
  /-- "Failed to write dma result of fwcfg at gpa=0xADDR value=0xVALUE" -/
  | writeDmaResult (addr value : Nat)
  /-- "Failed to set DMA address, offset is 0xADDR, size is 0xSIZE" -/
  | setDmaAddress (offset size : Nat)
  deriving Repr, DecidableEq

/-! ## Entries and the device state -/

/-- `FwCfgEntry`: the data, whether a write callback is registered, and
whether the guest may write the entry. -/
structure FwCfgEntry where
  data : List UInt8
  writeCb : Bool
  allowWrite : Bool
  deriving Repr, DecidableEq

/-- `FwCfgEntry::default`. -/
def FwCfgEntry.default : FwCfgEntry := ⟨[], false, false⟩

/-- Where an entry lives: the architecture-local table or not, and its key. -/
structure EntryLoc where
  arch : Bool
  key : Nat
  deriving Repr, DecidableEq

/-- The fields of `FwCfgCommon` the DMA path reads and writes. Both tables
have a slot for every key below `max_entry`, which is what makes the
`unwrap`s of `get_entry_mut` safe. -/
structure FwCfgCommon where
  fileSlots : Nat
  archEntries : List FwCfgEntry
  entries : List FwCfgEntry
  curEntry : Nat
  curOffset : Nat
  dmaAddr : Nat
  archLen : FW_CFG_FILE_FIRST + fileSlots ≤ archEntries.length
  entriesLen : FW_CFG_FILE_FIRST + fileSlots ≤ entries.length

namespace FwCfgCommon

/-- `FwCfgCommon::new`. -/
def new : FwCfgCommon where
  fileSlots := FW_CFG_FILE_SLOTS_DFLT
  archEntries := List.replicate (FW_CFG_FILE_FIRST + FW_CFG_FILE_SLOTS_DFLT) .default
  entries := List.replicate (FW_CFG_FILE_FIRST + FW_CFG_FILE_SLOTS_DFLT) .default
  curEntry := 0
  curOffset := 0
  dmaAddr := 0
  archLen := by simp
  entriesLen := by simp

/-- `is_arch_local`: the current key has the architecture-local bit. -/
def isArchLocal (s : FwCfgCommon) : Bool := s.curEntry &&& FW_CFG_ARCH_LOCAL > 0

/-- `max_entry`. -/
def maxEntry (s : FwCfgCommon) : Nat := FW_CFG_FILE_FIRST + s.fileSlots

/-- The entry at a location (`get_mut(key).unwrap()`). -/
def entry (s : FwCfgCommon) (loc : EntryLoc) : FwCfgEntry :=
  (if loc.arch then s.archEntries else s.entries).getD loc.key .default

/-- Store an entry at a location. -/
def setEntry (s : FwCfgCommon) (loc : EntryLoc) (e : FwCfgEntry) : FwCfgCommon :=
  if loc.arch then
    { s with archEntries := s.archEntries.set loc.key e, archLen := by simpa using s.archLen }
  else { s with entries := s.entries.set loc.key e, entriesLen := by simpa using s.entriesLen }

/-- `get_entry_mut`: the current entry, unless the key is out of range or
the selection is invalid. -/
def getEntryMut (s : FwCfgCommon) : Except FwCfgError EntryLoc :=
  let key := s.curEntry &&& FW_CFG_ENTRY_MASK
  if key ≥ s.maxEntry ∨ s.curEntry = FW_CFG_INVALID then
    .error (.entryNotFound (getKeyName s.curEntry))
  else .ok ⟨s.isArchLocal, key⟩

/-- `select_entry`: reset the offset and select `key`, or `FW_CFG_INVALID`
when it is out of range. -/
def selectEntry (s : FwCfgCommon) (key : Nat) : FwCfgCommon :=
  let s := { s with curOffset := 0 }
  if key &&& FW_CFG_ENTRY_MASK ≥ s.maxEntry then { s with curEntry := FW_CFG_INVALID }
  else { s with curEntry := key }

/-- `add_entry`. The table is chosen by the current selection's
architecture-local bit, as the source does, not by the key's. -/
def addEntry (s : FwCfgCommon) (key : Nat) (data : List UInt8) (writeCb allowWrite : Bool) :
    Except FwCfgError FwCfgCommon :=
  let key := key &&& FW_CFG_ENTRY_MASK
  if key ≥ s.maxEntry ∨ data.length ≥ 2 ^ 32 - 1 then .error (.invalidFwCfgEntry key)
  else .ok (s.setEntry ⟨s.isArchLocal, key⟩ ⟨data, writeCb, allowWrite⟩)

/-- The `SELECT` bit of a descriptor's control word, applied. -/
def dmaSelect (s : FwCfgCommon) (control : Nat) : FwCfgCommon :=
  if control &&& FW_CFG_DMA_CTL_SELECT > 0 then s.selectEntry ((control >>> 16) % 2 ^ 16) else s

end FwCfgCommon

/-! ## The transfer loop -/

/-- A `write_callback(data, start, len)` call. -/
structure WriteCall where
  data : List UInt8
  start : Nat
  len : Nat
  deriving Repr, DecidableEq

/-- What the transfer loop reads and never changes: `cur_entry` as captured
before `SELECT`, the request's direction bits, and the entry's flags. -/
structure DmaCtx where
  curEntry : Nat
  isRead : Bool
  isWrite : Bool
  allowWrite : Bool
  writeCb : Bool

/-- The loop's variables: the descriptor being consumed, the entry offset,
the entry's data, guest memory and the callbacks made. -/
structure DmaState where
  control : Nat
  length : Nat
  address : Nat
  offset : Nat
  data : List UInt8
  mem : GuestRam
  calls : List WriteCall

/-- `data` with `src` copied in at `offset`. -/
def overwrite (data : List UInt8) (offset : Nat) (src : List UInt8) : List UInt8 :=
  data.take offset ++ src ++ data.drop (offset + src.length)

namespace DmaState

/-- Set the error bit. -/
def fail (d : DmaState) : DmaState := { d with control := d.control ||| FW_CFG_DMA_CTL_ERROR }

/-- Write `len` bytes of `src` to guest memory at the descriptor's address,
failing the request if the write does. -/
def toGuest (d : DmaState) (src : List UInt8) (len : Nat) : DmaState :=
  let r := d.mem.write d.address src len
  let d := { d with mem := r.1 }
  if r.2 then d else d.fail

/-- A write request: guest memory is copied into `entry.data[offset..]`
first; only then are the copy's success, `allow_write` and the length
checked, and on success the write callback gets `data[offset..]`. -/
def writeEntry (k : DmaCtx) (len : Nat) (d : DmaState) : DmaState :=
  let r := d.mem.read d.address len
  let d' := { d with data := overwrite d.data d.offset r.1 }
  if r.2 = false ∨ k.allowWrite = false ∨ len ≠ d.length then d'.fail
  else if k.writeCb then { d' with calls := d'.calls ++ [⟨d'.data.drop d.offset, d.offset, len⟩] }
  else d'

/-- Consume `len` bytes of the descriptor. -/
def advance (d : DmaState) (len : Nat) : DmaState :=
  { d with length := d.length - len, address := wrapAdd d.address len }

/-- No entry, an empty entry, or an offset past its end: a read fills the
guest buffer with zeros, a write fails, and the whole length is consumed. -/
def pastEnd (k : DmaCtx) (d : DmaState) : DmaState :=
  let len := d.length
  let d := if k.isRead then d.toGuest (List.replicate len 0) len else d
  let d := if k.isWrite then d.fail else d
  d.advance len

/-- The length the inside branch transfers: up to the end of the entry. -/
def insideLen (d : DmaState) : Nat :=
  if d.length ≤ d.data.length - d.offset then d.length else d.data.length - d.offset

/-- Inside the entry: transfer `insideLen` bytes and move the offset on. -/
def inside (k : DmaCtx) (d : DmaState) : DmaState :=
  let len := d.insideLen
  let d := if k.isRead then d.toGuest (d.data.drop d.offset) len else d
  let d := if k.isWrite then d.writeEntry k len else d
  { d.advance len with offset := d.offset + len }

end DmaState

/-- One pass of `while dma.length > 0 && (dma.control & FW_CFG_DMA_CTL_ERROR) == 0`. -/
def dmaStep (k : DmaCtx) (d : DmaState) : Step DmaState Empty :=
  if d.length > 0 ∧ d.control &&& FW_CFG_DMA_CTL_ERROR = 0 then
    if k.curEntry = FW_CFG_INVALID ∨ d.data.isEmpty ∨ d.offset ≥ d.data.length then
      .next (d.pastEnd k)
    else .next (d.inside k)
  else .exit d

/-! ### What each part of a pass touches -/

namespace DmaState

variable (d : DmaState)

@[simp] theorem fail_control : d.fail.control = d.control ||| FW_CFG_DMA_CTL_ERROR := rfl
@[simp] theorem fail_length : d.fail.length = d.length := rfl
@[simp] theorem fail_address : d.fail.address = d.address := rfl
@[simp] theorem fail_offset : d.fail.offset = d.offset := rfl
@[simp] theorem fail_data : d.fail.data = d.data := rfl
@[simp] theorem fail_mem : d.fail.mem = d.mem := rfl
@[simp] theorem fail_calls : d.fail.calls = d.calls := rfl

@[simp] theorem advance_control (len : Nat) : (d.advance len).control = d.control := rfl
@[simp] theorem advance_length (len : Nat) : (d.advance len).length = d.length - len := rfl
@[simp] theorem advance_offset (len : Nat) : (d.advance len).offset = d.offset := rfl
@[simp] theorem advance_data (len : Nat) : (d.advance len).data = d.data := rfl
@[simp] theorem advance_mem (len : Nat) : (d.advance len).mem = d.mem := rfl
@[simp] theorem advance_calls (len : Nat) : (d.advance len).calls = d.calls := rfl

/-- Writing to the guest moves nothing of the descriptor or the entry. -/
theorem toGuest_fields (src : List UInt8) (len : Nat) :
    (d.toGuest src len).length = d.length ∧ (d.toGuest src len).offset = d.offset ∧
      (d.toGuest src len).data = d.data ∧ (d.toGuest src len).calls = d.calls ∧
      (d.toGuest src len).mem = (d.mem.write d.address src len).1 := by
  dsimp only [toGuest]
  split <;> exact ⟨rfl, rfl, rfl, rfl, rfl⟩

/-- Copying into the entry moves nothing of the descriptor and leaves guest
memory alone. -/
theorem writeEntry_fields (k : DmaCtx) (len : Nat) :
    (d.writeEntry k len).length = d.length ∧ (d.writeEntry k len).offset = d.offset ∧
      (d.writeEntry k len).mem = d.mem ∧
      (d.writeEntry k len).data = overwrite d.data d.offset (d.mem.read d.address len).1 := by
  dsimp only [writeEntry]
  split
  · exact ⟨rfl, rfl, rfl, rfl⟩
  · split <;> exact ⟨rfl, rfl, rfl, rfl⟩

/-- The past-the-end branch consumes the whole descriptor. -/
theorem pastEnd_length (k : DmaCtx) : (d.pastEnd k).length = 0 := by
  have hread : (if k.isRead then d.toGuest (List.replicate d.length 0) d.length else d).length =
      d.length := by
    split
    · exact (d.toGuest_fields _ _).1
    · rfl
  simp only [pastEnd]
  split <;> simp [hread]

/-- The inside branch consumes `insideLen` bytes of the descriptor and of the entry. -/
theorem inside_cursors (k : DmaCtx) :
    (d.inside k).length = d.length - d.insideLen ∧ (d.inside k).offset = d.offset + d.insideLen := by
  -- neither the guest copy nor the entry copy moves the cursors
  have hread : (if k.isRead then d.toGuest (d.data.drop d.offset) d.insideLen else d).length =
        d.length ∧
      (if k.isRead then d.toGuest (d.data.drop d.offset) d.insideLen else d).offset = d.offset := by
    split
    · exact ⟨(d.toGuest_fields _ _).1, (d.toGuest_fields _ _).2.1⟩
    · exact ⟨rfl, rfl⟩
  have hwrite : ∀ d' : DmaState,
      (if k.isWrite then d'.writeEntry k d.insideLen else d').length = d'.length ∧
        (if k.isWrite then d'.writeEntry k d.insideLen else d').offset = d'.offset := by
    intro d'
    split
    · exact ⟨(d'.writeEntry_fields k _).1, (d'.writeEntry_fields k _).2.1⟩
    · exact ⟨rfl, rfl⟩
  simp only [inside, advance_length, (hwrite _).1, (hwrite _).2, hread.1, hread.2]
  exact ⟨trivial, trivial⟩

/-- Inside the entry, at least one byte moves. -/
theorem insideLen_pos {d : DmaState} (hlen : 0 < d.length) (hoff : d.offset < d.data.length) :
    0 < d.insideLen := by
  unfold insideLen
  split <;> omega

end DmaState

/-- Each pass consumes at least one byte of the descriptor. -/
theorem dmaStep_next {k : DmaCtx} {d d' : DmaState} (h : dmaStep k d = .next d') :
    d'.length < d.length := by
  unfold dmaStep at h
  split at h
  · rename_i hrun
    split at h
    · cases h
      rw [DmaState.pastEnd_length]
      exact hrun.1
    · rename_i hin
      cases h
      have hoff : d.offset < d.data.length := by omega
      have hpos := DmaState.insideLen_pos hrun.1 hoff
      rw [(d.inside_cursors k).1]
      omega
  · cases h

/-- The transfer loop. -/
def dmaLoop (k : DmaCtx) : Loop DmaState Empty where
  body := dmaStep k
  measure d := d.length
  decreasing h := dmaStep_next h

/-- The state the transfer loop leaves in. -/
def dmaRun (k : DmaCtx) (d : DmaState) : DmaState :=
  match (dmaLoop k).run d with
  | .exit d => d
  | .fail e _ => e.elim

/-! ### Whole runs -/

/-- What one pass can do: leave as it is, or go round after one of the two branches. -/
theorem dmaStep_cases {k : DmaCtx} {d : DmaState} :
    (dmaStep k d = .exit d ∧ ¬(d.length > 0 ∧ d.control &&& FW_CFG_DMA_CTL_ERROR = 0)) ∨
      (d.length > 0 ∧ d.control &&& FW_CFG_DMA_CTL_ERROR = 0 ∧
        (k.curEntry = FW_CFG_INVALID ∨ d.data.isEmpty ∨ d.offset ≥ d.data.length) ∧
        dmaStep k d = .next (d.pastEnd k)) ∨
      (d.length > 0 ∧ d.control &&& FW_CFG_DMA_CTL_ERROR = 0 ∧
        ¬(k.curEntry = FW_CFG_INVALID ∨ d.data.isEmpty ∨ d.offset ≥ d.data.length) ∧
        dmaStep k d = .next (d.inside k)) := by
  unfold dmaStep
  by_cases hrun : d.length > 0 ∧ d.control &&& FW_CFG_DMA_CTL_ERROR = 0
  · rw [if_pos hrun]
    by_cases hend : k.curEntry = FW_CFG_INVALID ∨ d.data.isEmpty ∨ d.offset ≥ d.data.length
    · rw [if_pos hend]
      exact .inr (.inl ⟨hrun.1, hrun.2, hend, rfl⟩)
    · rw [if_neg hend]
      exact .inr (.inr ⟨hrun.1, hrun.2, hend, rfl⟩)
  · rw [if_neg hrun]
    exact .inl ⟨rfl, hrun⟩

theorem dmaLoop_run (k : DmaCtx) (d : DmaState) : (dmaLoop k).run d = .exit (dmaRun k d) := by
  cases h : (dmaLoop k).run d with
  | exit t => simp only [dmaRun, h]
  | fail e _ => exact e.elim

theorem dmaRun_of_next {k : DmaCtx} {d d' : DmaState} (h : dmaStep k d = .next d') :
    dmaRun k d = dmaRun k d' := by
  have hrun := Loop.run_of_next (L := dmaLoop k) h
  rw [dmaLoop_run, dmaLoop_run] at hrun
  exact Exit.exit.inj hrun

theorem dmaRun_of_exit {k : DmaCtx} {d t : DmaState} (h : dmaStep k d = .exit t) :
    dmaRun k d = t := by
  have hrun := Loop.run_of_exit (L := dmaLoop k) h
  rw [dmaLoop_run] at hrun
  exact Exit.exit.inj hrun

/-- **Run rule.** A property that both branches of a pass keep holds where
the loop leaves. -/
theorem dmaRun_of_inv {k : DmaCtx} (P : DmaState → Prop)
    (hpast : ∀ d, P d → P (d.pastEnd k)) (hinside : ∀ d, P d → P (d.inside k))
    {d : DmaState} (hd : P d) : P (dmaRun k d) := by
  have hstep : ∀ (pre : List DmaState) (s s' : DmaState), P s → (dmaLoop k).body s = .next s' →
      P s' := by
    intro _ s s' hs hb
    rcases (dmaStep_cases (k := k) (d := s)) with ⟨hex, -⟩ | ⟨-, -, -, hnext⟩ | ⟨-, -, -, hnext⟩
    · exact absurd (hex.symm.trans hb) (by simp)
    · cases hnext.symm.trans hb
      exact hpast s hs
    · cases hnext.symm.trans hb
      exact hinside s hs
  obtain ⟨pre, u, hu, hbu, -⟩ :=
    Loop.run_exit_of_inv (fun _ s => P s) hstep d [] (dmaRun k d) hd (dmaLoop_run k d)
  -- the pass the loop leaves from returns its state unchanged
  rcases (dmaStep_cases (k := k) (d := u)) with ⟨hex, -⟩ | ⟨-, -, -, hnext⟩ | ⟨-, -, -, hnext⟩
  · cases hex.symm.trans hbu
    exact hu
  · cases hnext.symm.trans hbu
  · cases hnext.symm.trans hbu

/-- **Branch rule.** A property kept by each effect of a pass — failing, a
guest copy, an entry copy when the request writes, consuming the descriptor,
and moving the offset — is kept by both branches. -/
theorem inv_of_effects {k : DmaCtx} (P : DmaState → Prop)
    (hfail : ∀ d, P d → P d.fail)
    (hguest : ∀ d src len, P d → P (d.toGuest src len))
    (hwrite : k.isWrite = true → ∀ d len, P d → P (d.writeEntry k len))
    (hadvance : ∀ d len, P d → P (d.advance len))
    (hoffset : ∀ d n, P d → P { d with offset := n }) :
    (∀ d, P d → P (d.pastEnd k)) ∧ (∀ d, P d → P (d.inside k)) := by
  -- the guest copy happens only for a read, the entry copy only for a write
  have hread : ∀ d src len, P d → P (if k.isRead then d.toGuest src len else d) := by
    intro d src len hd
    split
    · exact hguest d src len hd
    · exact hd
  refine ⟨fun d hd => ?_, fun d hd => ?_⟩
  · apply hadvance
    split
    · exact hfail _ (hread d _ _ hd)
    · exact hread d _ _ hd
  · apply hoffset
    apply hadvance
    split
    · rename_i hw
      exact hwrite hw _ _ (hread d _ _ hd)
    · exact hread d _ _ hd

/-! ### The control word -/

/-- A control word the device reports: `0` or `FW_CFG_DMA_CTL_ERROR`. -/
def CtlOk (c : Nat) : Prop := c = 0 ∨ c = FW_CFG_DMA_CTL_ERROR

theorem ctlOk_error {c : Nat} (h : CtlOk c) : CtlOk (c ||| FW_CFG_DMA_CTL_ERROR) := by
  rcases h with rfl | rfl
  · exact .inr rfl
  · exact .inr rfl

theorem ctlOk_lt {c : Nat} (h : CtlOk c) : c < 256 ^ 4 := by
  rcases h with rfl | rfl <;> decide

/-- The loop only ever sets the error bit, so from `0` it leaves `0` or
`FW_CFG_DMA_CTL_ERROR`. -/
theorem dmaRun_ctlOk (k : DmaCtx) {d : DmaState} (h : CtlOk d.control) :
    CtlOk (dmaRun k d).control := by
  have hbranches := inv_of_effects (k := k) (fun d => CtlOk d.control)
    (fun d hd => ctlOk_error hd)
    (fun d src len hd => by
      dsimp only [DmaState.toGuest]
      split
      · exact hd
      · exact ctlOk_error hd)
    (fun _ d len hd => by
      dsimp only [DmaState.writeEntry]
      split
      · exact ctlOk_error hd
      · split
        · exact hd
        · exact hd)
    (fun _ _ hd => hd) (fun _ _ hd => hd)
  exact dmaRun_of_inv _ hbranches.1 hbranches.2 h

/-- Guest memory keeps its size. -/
theorem dmaRun_size (k : DmaCtx) (d : DmaState) : (dmaRun k d).mem.size = d.mem.size := by
  have hbranches := inv_of_effects (k := k) (fun d' => d'.mem.size = d.mem.size)
    (fun _ hd => hd)
    (fun d' src len hd => by rw [(d'.toGuest_fields src len).2.2.2.2, GuestRam.write_size, hd])
    (fun _ d' len hd => by rw [(d'.writeEntry_fields k len).2.2.1, hd])
    (fun _ _ hd => hd) (fun _ _ hd => hd)
  exact dmaRun_of_inv _ hbranches.1 hbranches.2 rfl

/-- A request without the write bit changes neither the entry's data nor
calls a write callback. -/
theorem dmaRun_of_not_write {k : DmaCtx} (hw : k.isWrite = false) (d : DmaState) :
    (dmaRun k d).data = d.data ∧ (dmaRun k d).calls = d.calls := by
  have hbranches := inv_of_effects (k := k) (fun d' => d'.data = d.data ∧ d'.calls = d.calls)
    (fun _ hd => hd)
    (fun d' src len hd => by
      rw [(d'.toGuest_fields src len).2.2.1, (d'.toGuest_fields src len).2.2.2.1]
      exact hd)
    (fun hw' => absurd hw' (by rw [hw]; decide))
    (fun _ _ hd => hd) (fun _ _ hd => hd)
  exact dmaRun_of_inv _ hbranches.1 hbranches.2 ⟨rfl, rfl⟩

/-! ## The request -/

/-- `FwCfgDmaAccess`: the descriptor's fields. -/
structure FwCfgDmaAccess where
  control : Nat
  length : Nat
  address : Nat
  deriving Repr, DecidableEq

/-- The descriptor from its 16 bytes, each field big-endian. -/
def FwCfgDmaAccess.ofBytes (b : List UInt8) : FwCfgDmaAccess :=
  ⟨beDecode (b.take 4), beDecode ((b.drop 4).take 4), beDecode (b.drop 8)⟩

/-- What `handle_dma_request` leaves behind: the device (with whatever it
changed before an early `?`), guest memory, the write callbacks made, and
its return value. -/
structure DmaOutcome where
  fw : FwCfgCommon
  mem : GuestRam
  calls : List WriteCall
  result : Except FwCfgError Unit

/-- `write_dma_result`: the control word, big-endian, over the descriptor's
`control` field. -/
def writeDmaResult (mem : GuestRam) (addr value : Nat) : GuestRam × Bool :=
  mem.write addr (beEncode 4 value) 4

/-- The loop's constants: `cur_entry` from before `SELECT`, the direction bits
of the control word, and the entry's flags. -/
def dmaCtx (curEntry control : Nat) (e : FwCfgEntry) : DmaCtx :=
  ⟨curEntry, control &&& FW_CFG_DMA_CTL_READ != 0, control &&& FW_CFG_DMA_CTL_WRITE != 0,
    e.allowWrite, e.writeCb⟩

/-- The loop's start: `control` cleared, `length` zeroed by `SKIP`. -/
def dmaStart (dma : FwCfgDmaAccess) (offset : Nat) (e : FwCfgEntry) (mem : GuestRam) : DmaState :=
  ⟨0, if dma.control &&& FW_CFG_DMA_CTL_SKIP != 0 then 0 else dma.length, dma.address, offset,
    e.data, mem, []⟩

/-- After the loop: store the entry's data and the offset, and write the
control word back. -/
def dmaFinish (s : FwCfgCommon) (loc : EntryLoc) (dmaAddr : Nat) (d : DmaState) : DmaOutcome :=
  let r := writeDmaResult d.mem dmaAddr d.control
  ⟨{ s.setEntry loc { s.entry loc with data := d.data } with curOffset := d.offset }, r.1, d.calls,
    if r.2 then .ok () else .error (.writeDmaResult dmaAddr d.control)⟩

/-- `FwCfgCommon::handle_dma_request`. -/
def handleDmaRequest (s : FwCfgCommon) (mem : GuestRam) : DmaOutcome :=
  let dmaAddr := s.dmaAddr
  let curEntry := s.curEntry
  -- `dma_addr` is reset before the next access
  let s := { s with dmaAddr := 0 }
  let req := mem.read dmaAddr 16
  if req.2 = false then
    let r := writeDmaResult mem dmaAddr FW_CFG_DMA_CTL_ERROR
    ⟨s, r.1, [], .error (if r.2 then .readDmaRequest dmaAddr 16
      else .writeDmaResult dmaAddr FW_CFG_DMA_CTL_ERROR)⟩
  else
    let dma := FwCfgDmaAccess.ofBytes req.1
    let s := s.dmaSelect dma.control
    match s.getEntryMut with
    | .error e => ⟨s, mem, [], .error e⟩
    | .ok loc =>
      let e := s.entry loc
      dmaFinish s loc dmaAddr (dmaRun (dmaCtx curEntry dma.control e) (dmaStart dma s.curOffset e mem))

/-- `FwCfgCommon::dma_mem_write`: the guest programs the descriptor address,
as two 32-bit halves (the low half starts the request) or one 64-bit write. -/
def dmaMemWrite (s : FwCfgCommon) (mem : GuestRam) (addr value size : Nat) : DmaOutcome :=
  if size = 4 then
    if addr = 0 then ⟨{ s with dmaAddr := (value <<< 32) % 2 ^ 64 }, mem, [], .ok ()⟩
    else if addr = 4 then handleDmaRequest { s with dmaAddr := s.dmaAddr ||| value } mem
    else ⟨s, mem, [], .ok ()⟩
  else if size = 8 ∧ addr = 0 then handleDmaRequest { s with dmaAddr := value } mem
  else ⟨s, mem, [], .error (.setDmaAddress addr size)⟩

namespace FwCfgCommon

/-- The descriptor at the programmed address. -/
def dmaRequest (s : FwCfgCommon) (mem : GuestRam) : FwCfgDmaAccess :=
  .ofBytes (mem.read s.dmaAddr 16).1

/-- The device once `dma_addr` is reset and the descriptor's `SELECT` applied. -/
def dmaSelected (s : FwCfgCommon) (mem : GuestRam) : FwCfgCommon :=
  { s with dmaAddr := 0 }.dmaSelect (s.dmaRequest mem).control

/-! ### Entry lemmas -/

variable {s : FwCfgCommon}

@[simp] theorem entry_dmaSelect (c : Nat) (loc : EntryLoc) : (s.dmaSelect c).entry loc = s.entry loc := by
  dsimp only [dmaSelect, selectEntry]
  split
  · split <;> rfl
  · rfl

@[simp] theorem maxEntry_dmaSelect (c : Nat) : (s.dmaSelect c).maxEntry = s.maxEntry := by
  dsimp only [dmaSelect, selectEntry]
  split
  · split <;> rfl
  · rfl

/-- A located entry lies below `max_entry`, and the selection is valid. -/
theorem getEntryMut_ok {loc : EntryLoc} (h : s.getEntryMut = .ok loc) :
    loc.key < s.maxEntry ∧ s.curEntry ≠ FW_CFG_INVALID ∧
      loc = ⟨s.isArchLocal, s.curEntry &&& FW_CFG_ENTRY_MASK⟩ := by
  dsimp only [getEntryMut] at h
  split at h
  · cases h
  · rename_i hvalid
    cases h
    refine ⟨?_, by omega, rfl⟩
    show s.curEntry &&& FW_CFG_ENTRY_MASK < s.maxEntry
    omega

/-- Storing at a location below `max_entry` and reading it back. -/
theorem entry_setEntry_self {loc : EntryLoc} (e : FwCfgEntry) (h : loc.key < s.maxEntry) :
    (s.setEntry loc e).entry loc = e := by
  unfold setEntry entry
  have harch := s.archLen
  have hent := s.entriesLen
  unfold maxEntry at h
  cases loc.arch
  · simp only [Bool.false_eq_true, if_false]
    rw [List.getD_eq_getElem?_getD, List.getElem?_set_self (by omega), Option.getD_some]
  · simp only [if_true]
    rw [List.getD_eq_getElem?_getD, List.getElem?_set_self (by omega), Option.getD_some]

/-- Storing at one location leaves every other. -/
theorem entry_setEntry_of_ne {loc loc' : EntryLoc} (e : FwCfgEntry) (h : loc' ≠ loc) :
    (s.setEntry loc e).entry loc' = s.entry loc' := by
  obtain ⟨a, i⟩ := loc
  obtain ⟨a', i'⟩ := loc'
  unfold setEntry entry
  -- the same table at another key, or the other table
  by_cases ha : a' = a
  · subst ha
    have hi : i ≠ i' := fun hi => h (by rw [hi])
    cases a'
    · simp only [Bool.false_eq_true, if_false]
      rw [List.getD_eq_getElem?_getD, List.getElem?_set_ne hi, ← List.getD_eq_getElem?_getD]
    · simp only [if_true]
      rw [List.getD_eq_getElem?_getD, List.getElem?_set_ne hi, ← List.getD_eq_getElem?_getD]
  · cases a <;> cases a' <;> simp_all

/-! ### Where an entry is stored, and where a guest finds it -/

/-- `add_entry` of a key in range, with data below 4 GiB, stores the entry at
the key's index in the table that the current selection's
architecture-local bit picks. -/
theorem addEntry_eq_ok {key : Nat} {data : List UInt8} (writeCb allowWrite : Bool)
    (hkey : key &&& FW_CFG_ENTRY_MASK < s.maxEntry) (hdata : data.length < 2 ^ 32 - 1) :
    s.addEntry key data writeCb allowWrite =
      .ok (s.setEntry ⟨s.isArchLocal, key &&& FW_CFG_ENTRY_MASK⟩ ⟨data, writeCb, allowWrite⟩) := by
  unfold addEntry
  rw [if_neg (by omega)]

/-- A guest select of a valid key in range reaches the key's index in the
table that the key's own architecture-local bit picks. -/
theorem getEntryMut_selectEntry {key : Nat} (hkey : key &&& FW_CFG_ENTRY_MASK < s.maxEntry)
    (hvalid : key ≠ FW_CFG_INVALID) :
    (s.selectEntry key).getEntryMut =
      .ok ⟨decide (key &&& FW_CFG_ARCH_LOCAL > 0), key &&& FW_CFG_ENTRY_MASK⟩ := by
  have hsel : s.selectEntry key = { s with curOffset := 0, curEntry := key } := by
    unfold selectEntry
    rw [if_neg (by exact Nat.not_le.2 hkey)]
  rw [hsel, getEntryMut, if_neg (by exact fun h => h.elim (Nat.not_le.2 hkey) hvalid)]
  rfl

end FwCfgCommon

/-- `add_entry(Irq0Override = 0x8002, data)` on a fresh device, as the x86
machine makes it. The current selection is key 0, which is not
architecture-local, so the data goes to `entries[2]`. A guest select of
`0x8002` reaches `arch_entries[2]`, which stays empty, and a select of key 2
finds the data instead. -/
theorem addEntry_irq0Override_misplaced :
    ∃ s, FwCfgCommon.new.addEntry 0x8002 [1] false false = .ok s ∧
      (s.selectEntry 0x8002).getEntryMut = .ok ⟨true, 2⟩ ∧ (s.entry ⟨true, 2⟩).data = [] ∧
      (s.selectEntry 2).getEntryMut = .ok ⟨false, 2⟩ ∧ (s.entry ⟨false, 2⟩).data = [1] := by
  have hloc : (⟨FwCfgCommon.new.isArchLocal, 0x8002 &&& FW_CFG_ENTRY_MASK⟩ : EntryLoc) = ⟨false, 2⟩ := by
    decide
  refine ⟨_, FwCfgCommon.addEntry_eq_ok false false (by decide) (by decide), ?_, ?_, ?_, ?_⟩
  · exact FwCfgCommon.getEntryMut_selectEntry (by decide) (by decide)
  · -- the architecture-local slot the guest reaches was not written
    rw [hloc, FwCfgCommon.entry_setEntry_of_ne _ (by decide)]
    rfl
  · exact FwCfgCommon.getEntryMut_selectEntry (by decide) (by decide)
  · rw [hloc, FwCfgCommon.entry_setEntry_self _ (by decide)]

/-! ### A write that fits -/

/-- A write that fits in the entry is one pass of the inside branch. -/
theorem dmaRun_write_fits {k : DmaCtx} {d : DmaState} (hcur : k.curEntry ≠ FW_CFG_INVALID)
    (hr : k.isRead = false) (hw : k.isWrite = true) (hctl : d.control = 0) (hlen : 0 < d.length)
    (hfit : d.offset + d.length ≤ d.data.length) :
    dmaRun k d = { (d.writeEntry k d.length).advance d.length with offset := d.offset + d.length } := by
  have hins : d.insideLen = d.length := by
    unfold DmaState.insideLen
    rw [if_pos (by omega)]
  have hpass : dmaStep k d = .next (d.inside k) := by
    unfold dmaStep
    have hnonempty : d.data.isEmpty = false := by
      cases hd : d.data with
      | nil => rw [hd] at hfit; simp at hfit; omega
      | cons _ _ => rfl
    have hgo : d.length > 0 ∧ d.control &&& FW_CFG_DMA_CTL_ERROR = 0 :=
      ⟨hlen, by rw [hctl]; decide⟩
    have hin : ¬(k.curEntry = FW_CFG_INVALID ∨ d.data.isEmpty ∨ d.offset ≥ d.data.length) := by
      rw [hnonempty]
      simp only [Bool.false_eq_true, false_or, not_or]
      exact ⟨hcur, by omega⟩
    rw [if_pos hgo, if_neg hin]
  -- after the pass nothing of the descriptor is left
  have hleave : dmaStep k (d.inside k) = .exit (d.inside k) := by
    unfold dmaStep
    have hstop : ¬((d.inside k).length > 0 ∧
        (d.inside k).control &&& FW_CFG_DMA_CTL_ERROR = 0) := by
      rw [(d.inside_cursors k).1, hins]
      intro hgo
      exact absurd hgo.1 (by omega)
    rw [if_neg hstop]
  have hoff := (d.writeEntry_fields k d.length).2.1
  rw [dmaRun_of_next hpass, dmaRun_of_exit hleave]
  simp only [DmaState.inside, hins, hr, hw, if_true, Bool.false_eq_true, if_false, hoff]

/-- The entry copy of a whole-length write from a clean control word: it
fails exactly when the guest read fails or the entry is read-only, and
otherwise calls the write callback once. -/
theorem DmaState.writeEntry_whole (k : DmaCtx) (d : DmaState) (hctl : d.control = 0) :
    (d.writeEntry k d.length).control =
        (if (d.mem.read d.address d.length).2 ∧ k.allowWrite then 0 else FW_CFG_DMA_CTL_ERROR) ∧
      (d.writeEntry k d.length).calls = d.calls ++
        (if (d.mem.read d.address d.length).2 ∧ k.allowWrite ∧ k.writeCb then
          [⟨(overwrite d.data d.offset (d.mem.read d.address d.length).1).drop d.offset, d.offset,
            d.length⟩]
        else []) := by
  dsimp only [DmaState.writeEntry]
  by_cases hr : (d.mem.read d.address d.length).2 = true
  · by_cases ha : k.allowWrite = true
    · by_cases hc : k.writeCb = true
      · simp [hr, ha, hc, hctl]
      · simp [hr, ha, hc, hctl]
    · simp [hr, ha, hctl, FW_CFG_DMA_CTL_ERROR]
  · simp [hr, hctl, FW_CFG_DMA_CTL_ERROR]

/-! ## The handler -/

/-- **Inversion.** `handle_dma_request` either fails to read the descriptor,
or returns at `get_entry_mut()?` with memory untouched, or runs the loop on
the selected entry and finishes. -/
theorem handleDmaRequest_cases (s : FwCfgCommon) (mem : GuestRam) :
    ((mem.read s.dmaAddr 16).2 = false ∧ (handleDmaRequest s mem).fw = { s with dmaAddr := 0 }) ∨
      ((mem.read s.dmaAddr 16).2 = true ∧ ∃ err, (s.dmaSelected mem).getEntryMut = .error err ∧
        handleDmaRequest s mem = ⟨s.dmaSelected mem, mem, [], .error err⟩) ∨
      ((mem.read s.dmaAddr 16).2 = true ∧ ∃ loc, (s.dmaSelected mem).getEntryMut = .ok loc ∧
        handleDmaRequest s mem = dmaFinish (s.dmaSelected mem) loc s.dmaAddr
          (dmaRun (dmaCtx s.curEntry (s.dmaRequest mem).control ((s.dmaSelected mem).entry loc))
            (dmaStart (s.dmaRequest mem) (s.dmaSelected mem).curOffset
              ((s.dmaSelected mem).entry loc) mem))) := by
  by_cases hdesc : (mem.read s.dmaAddr 16).2 = true
  · right
    dsimp only [handleDmaRequest]
    rw [if_neg (by rw [hdesc]; decide)]
    split
    · rename_i err herr
      exact .inl ⟨hdesc, err, herr, rfl⟩
    · rename_i loc hloc
      exact .inr ⟨hdesc, loc, hloc, rfl⟩
  · left
    have hno : (mem.read s.dmaAddr 16).2 = false := by simpa using hdesc
    refine ⟨hno, ?_⟩
    dsimp only [handleDmaRequest]
    rw [if_pos hno]

/-- Finishing after a loop whose control word fits: the entry gets the
loop's data, the control word reads back, and the handler returns `Ok`. -/
theorem dmaFinish_fields {s : FwCfgCommon} {loc : EntryLoc} {a : Nat} {d : DmaState}
    (hkey : loc.key < s.maxEntry) (hfit : a < d.mem.size ∧ a + 4 ≤ d.mem.size)
    (hctl : d.control < 256 ^ 4) :
    ((dmaFinish s loc a d).fw.entry loc).data = d.data ∧
      beDecode ((dmaFinish s loc a d).mem.read a 4).1 = d.control ∧
      (dmaFinish s loc a d).calls = d.calls ∧ (dmaFinish s loc a d).result = .ok () := by
  have hok : (writeDmaResult d.mem a d.control).2 = true := (GuestRam.write_ok_iff _ _ _ _).2 hfit
  refine ⟨?_, ?_, rfl, ?_⟩
  · show ((s.setEntry loc { s.entry loc with data := d.data }).entry loc).data = d.data
    rw [FwCfgCommon.entry_setEntry_self _ hkey]
  · show beDecode ((writeDmaResult d.mem a d.control).1.read a 4).1 = d.control
    rw [writeDmaResult, GuestRam.read_write_self (beEncode_length 4 _) hok,
      beDecode_beEncode_of_lt hctl]
  · show (if (writeDmaResult d.mem a d.control).2 then Except.ok () else _) = _
    rw [if_pos hok]

/-- **What the guest is told.** When the descriptor can be read and a valid
entry is selected, the handler returns `Ok` and the descriptor's control field
holds `0` or `FW_CFG_DMA_CTL_ERROR`. -/
theorem handleDmaRequest_status {s : FwCfgCommon} {mem : GuestRam} {loc : EntryLoc}
    (hdesc : (mem.read s.dmaAddr 16).2 = true) (hloc : (s.dmaSelected mem).getEntryMut = .ok loc) :
    (handleDmaRequest s mem).result = .ok () ∧
      CtlOk (beDecode ((handleDmaRequest s mem).mem.read s.dmaAddr 4).1) := by
  rcases handleDmaRequest_cases s mem with ⟨hno, -⟩ | ⟨-, err, herr, -⟩ | ⟨-, loc', hloc', hout⟩
  · rw [hdesc] at hno; cases hno
  · rw [hloc] at herr; cases herr
  · rw [hloc] at hloc'
    cases hloc'
    rw [hout]
    have hctl := dmaRun_ctlOk (dmaCtx s.curEntry (s.dmaRequest mem).control
      ((s.dmaSelected mem).entry loc)) (d := dmaStart (s.dmaRequest mem) (s.dmaSelected mem).curOffset
        ((s.dmaSelected mem).entry loc) mem) (.inl rfl)
    have hsize : (dmaRun (dmaCtx s.curEntry (s.dmaRequest mem).control
        ((s.dmaSelected mem).entry loc)) (dmaStart (s.dmaRequest mem) (s.dmaSelected mem).curOffset
          ((s.dmaSelected mem).entry loc) mem)).mem.size = mem.size := dmaRun_size _ _
    rw [GuestRam.read_ok_iff] at hdesc
    obtain ⟨-, hword, -, hres⟩ := dmaFinish_fields (FwCfgCommon.getEntryMut_ok hloc).1
      (by rw [hsize]; exact ⟨hdesc.1, by omega⟩) (ctlOk_lt hctl)
    rw [hword]
    exact ⟨hres, hctl⟩

/-- **An invalid selection is never answered.** When the descriptor's
`SELECT` names a key past `max_entry`, `select_entry` marks the selection
invalid, `get_entry_mut()?` returns, and guest memory is left as it was: the
descriptor's control field keeps what the guest wrote, neither `0` nor
`FW_CFG_DMA_CTL_ERROR`. -/
theorem handleDmaRequest_select_out_of_range {s : FwCfgCommon} {mem : GuestRam}
    (hdesc : (mem.read s.dmaAddr 16).2 = true)
    (hsel : (s.dmaRequest mem).control &&& FW_CFG_DMA_CTL_SELECT > 0)
    (hkey : (s.dmaRequest mem).control >>> 16 % 2 ^ 16 &&& FW_CFG_ENTRY_MASK ≥ s.maxEntry) :
    handleDmaRequest s mem = ⟨s.dmaSelected mem, mem, [], .error (.entryNotFound "unknown")⟩ := by
  -- the selection is `FW_CFG_INVALID`, whose key name is "unknown"
  have hinv : (s.dmaSelected mem).curEntry = FW_CFG_INVALID := by
    unfold FwCfgCommon.dmaSelected
    dsimp only [FwCfgCommon.dmaSelect, FwCfgCommon.selectEntry]
    rw [if_pos hsel]
    split
    · rfl
    · exact absurd hkey ‹_›
  have herr : (s.dmaSelected mem).getEntryMut = .error (.entryNotFound "unknown") := by
    unfold FwCfgCommon.getEntryMut
    rw [if_pos (.inr hinv), hinv]
    rfl
  rcases handleDmaRequest_cases s mem with ⟨hno, -⟩ | ⟨-, err, herr', hout⟩ | ⟨-, loc, hloc, -⟩
  · rw [hdesc] at hno; cases hno
  · rw [herr] at herr'
    cases herr'
    exact hout
  · rw [herr] at hloc; cases hloc

/-- **Frame.** An entry changes only if the request writes and selects it;
every other entry, in both tables, is as it was. -/
theorem handleDmaRequest_entry_unchanged (s : FwCfgCommon) (mem : GuestRam) (loc : EntryLoc)
    (h : (s.dmaRequest mem).control &&& FW_CFG_DMA_CTL_WRITE = 0 ∨
      (s.dmaSelected mem).getEntryMut ≠ .ok loc) :
    (handleDmaRequest s mem).fw.entry loc = s.entry loc := by
  rcases handleDmaRequest_cases s mem with ⟨-, hfw⟩ | ⟨-, err, -, hout⟩ | ⟨-, loc', hloc', hout⟩
  · rw [hfw]
    rfl
  · rw [hout]
    exact FwCfgCommon.entry_dmaSelect _ loc
  · rw [hout]
    show ((s.dmaSelected mem).setEntry loc' _).entry loc = s.entry loc
    by_cases hsame : loc = loc'
    · subst hsame
      -- the selected entry: the request does not write, so its data comes back unchanged
      have hw : (s.dmaRequest mem).control &&& FW_CFG_DMA_CTL_WRITE = 0 := by
        rcases h with h | h
        · exact h
        · exact absurd hloc' h
      have hdata := (dmaRun_of_not_write (k := dmaCtx s.curEntry (s.dmaRequest mem).control
        ((s.dmaSelected mem).entry loc)) (by simp [dmaCtx, hw])
          (dmaStart (s.dmaRequest mem) (s.dmaSelected mem).curOffset
            ((s.dmaSelected mem).entry loc) mem)).1
      rw [FwCfgCommon.entry_setEntry_self _ (FwCfgCommon.getEntryMut_ok hloc').1, hdata]
      exact FwCfgCommon.entry_dmaSelect _ loc
    · rw [FwCfgCommon.entry_setEntry_of_ne _ hsame]
      exact FwCfgCommon.entry_dmaSelect _ loc

/-- **A write that fits in the selected entry.** The guest's bytes are copied
over `[offset, offset + length)` whatever the outcome; the control word is
`0` exactly when the guest read succeeded and the entry allows writes, and
only then is the write callback called, once. -/
theorem handleDmaRequest_write_fits {s : FwCfgCommon} {mem : GuestRam} {loc : EntryLoc}
    (hdesc : (mem.read s.dmaAddr 16).2 = true) (hloc : (s.dmaSelected mem).getEntryMut = .ok loc)
    (hcur : s.curEntry ≠ FW_CFG_INVALID)
    (hread : (s.dmaRequest mem).control &&& FW_CFG_DMA_CTL_READ = 0)
    (hwrite : (s.dmaRequest mem).control &&& FW_CFG_DMA_CTL_WRITE ≠ 0)
    (hskip : (s.dmaRequest mem).control &&& FW_CFG_DMA_CTL_SKIP = 0)
    (hlen : 0 < (s.dmaRequest mem).length)
    (hfit : (s.dmaSelected mem).curOffset + (s.dmaRequest mem).length ≤
      ((s.dmaSelected mem).entry loc).data.length) :
    ((handleDmaRequest s mem).fw.entry loc).data =
        overwrite ((s.dmaSelected mem).entry loc).data (s.dmaSelected mem).curOffset
          (mem.read (s.dmaRequest mem).address (s.dmaRequest mem).length).1 ∧
      beDecode ((handleDmaRequest s mem).mem.read s.dmaAddr 4).1 =
        (if (mem.read (s.dmaRequest mem).address (s.dmaRequest mem).length).2 ∧
          ((s.dmaSelected mem).entry loc).allowWrite then 0 else FW_CFG_DMA_CTL_ERROR) ∧
      (handleDmaRequest s mem).calls =
        (if (mem.read (s.dmaRequest mem).address (s.dmaRequest mem).length).2 ∧
          ((s.dmaSelected mem).entry loc).allowWrite ∧ ((s.dmaSelected mem).entry loc).writeCb then
          [⟨(overwrite ((s.dmaSelected mem).entry loc).data (s.dmaSelected mem).curOffset
            (mem.read (s.dmaRequest mem).address (s.dmaRequest mem).length).1).drop
              (s.dmaSelected mem).curOffset, (s.dmaSelected mem).curOffset,
            (s.dmaRequest mem).length⟩]
        else []) := by
  rcases handleDmaRequest_cases s mem with ⟨hno, -⟩ | ⟨-, err, herr, -⟩ | ⟨-, loc', hloc', hout⟩
  · rw [hdesc] at hno; cases hno
  · rw [hloc] at herr; cases herr
  rw [hloc] at hloc'
  cases hloc'
  rw [hout]
  -- the loop is one pass of the inside branch over the whole length
  have hstart : (dmaStart (s.dmaRequest mem) (s.dmaSelected mem).curOffset
      ((s.dmaSelected mem).entry loc) mem).length = (s.dmaRequest mem).length := by
    simp [dmaStart, hskip]
  have hrun := dmaRun_write_fits
    (k := dmaCtx s.curEntry (s.dmaRequest mem).control ((s.dmaSelected mem).entry loc))
    (d := dmaStart (s.dmaRequest mem) (s.dmaSelected mem).curOffset
      ((s.dmaSelected mem).entry loc) mem)
    hcur (by simp [dmaCtx, hread]) (by simp [dmaCtx, hwrite]) rfl (by rw [hstart]; exact hlen)
    (by rw [hstart]; exact hfit)
  rw [hstart] at hrun
  obtain ⟨hctl, hcalls⟩ := DmaState.writeEntry_whole
    (dmaCtx s.curEntry (s.dmaRequest mem).control ((s.dmaSelected mem).entry loc))
    (dmaStart (s.dmaRequest mem) (s.dmaSelected mem).curOffset ((s.dmaSelected mem).entry loc) mem)
    rfl
  have hfields := DmaState.writeEntry_fields
    (dmaStart (s.dmaRequest mem) (s.dmaSelected mem).curOffset ((s.dmaSelected mem).entry loc) mem)
    (dmaCtx s.curEntry (s.dmaRequest mem).control ((s.dmaSelected mem).entry loc))
    (s.dmaRequest mem).length
  rw [hstart] at hctl hcalls
  rw [GuestRam.read_ok_iff] at hdesc
  obtain ⟨hdata, hword, hcl, -⟩ := dmaFinish_fields (s := s.dmaSelected mem) (a := s.dmaAddr)
    (d := dmaRun (dmaCtx s.curEntry (s.dmaRequest mem).control ((s.dmaSelected mem).entry loc))
      (dmaStart (s.dmaRequest mem) (s.dmaSelected mem).curOffset ((s.dmaSelected mem).entry loc) mem))
    (FwCfgCommon.getEntryMut_ok hloc).1
    (by
      rw [hrun, DmaState.advance_mem, hfields.2.2.1]
      show s.dmaAddr < mem.size ∧ s.dmaAddr + 4 ≤ mem.size
      omega)
    (by rw [hrun, DmaState.advance_control, hctl]; split <;> decide)
  refine ⟨?_, ?_, ?_⟩
  · rw [hdata, hrun, DmaState.advance_data, hfields.2.2.2]
    rfl
  · rw [hword, hrun, DmaState.advance_control, hctl]
    rfl
  · rw [hcl, hrun, DmaState.advance_calls, hcalls]
    rfl

/-- **A read-only entry is written.** A write request that fits in an entry
whose `allow_write` is false still replaces `[offset, offset + length)` of its
data with guest memory; the guest is only told `FW_CFG_DMA_CTL_ERROR`. -/
theorem handleDmaRequest_overwrites_readonly {s : FwCfgCommon} {mem : GuestRam} {loc : EntryLoc}
    (hdesc : (mem.read s.dmaAddr 16).2 = true) (hloc : (s.dmaSelected mem).getEntryMut = .ok loc)
    (hro : ((s.dmaSelected mem).entry loc).allowWrite = false)
    (hcur : s.curEntry ≠ FW_CFG_INVALID)
    (hread : (s.dmaRequest mem).control &&& FW_CFG_DMA_CTL_READ = 0)
    (hwrite : (s.dmaRequest mem).control &&& FW_CFG_DMA_CTL_WRITE ≠ 0)
    (hskip : (s.dmaRequest mem).control &&& FW_CFG_DMA_CTL_SKIP = 0)
    (hlen : 0 < (s.dmaRequest mem).length)
    (hfit : (s.dmaSelected mem).curOffset + (s.dmaRequest mem).length ≤
      ((s.dmaSelected mem).entry loc).data.length) :
    ((handleDmaRequest s mem).fw.entry loc).data =
        overwrite ((s.dmaSelected mem).entry loc).data (s.dmaSelected mem).curOffset
          (mem.read (s.dmaRequest mem).address (s.dmaRequest mem).length).1 ∧
      beDecode ((handleDmaRequest s mem).mem.read s.dmaAddr 4).1 = FW_CFG_DMA_CTL_ERROR := by
  obtain ⟨hdata, hword, -⟩ :=
    handleDmaRequest_write_fits hdesc hloc hcur hread hwrite hskip hlen hfit
  refine ⟨hdata, ?_⟩
  rw [hword, hro]
  simp

/-- The guest programs a descriptor at `0x1000` with one 64-bit
`dma_mem_write`. With `SELECT | WRITE` of the read-only entry 5 (data
`[1, 2, 3, 4]`) and guest bytes `9` at `0x2000`, the entry becomes
`[9, 9, 9, 9]` and the guest reads `FW_CFG_DMA_CTL_ERROR`. With `SELECT` of
key `0x3fff`, past `max_entry`, the handler fails and the descriptor's control
field still holds the guest's `0x3fff0018`. -/
theorem fwCfgDma_readonly_written :
    (match FwCfgCommon.new.addEntry 5 [1, 2, 3, 4] false false with
      | .ok s =>
        let mem : GuestRam := ⟨0x3000, fun a =>
          if 0x1000 ≤ a ∧ a < 0x1010 then
            [0, 5, 0, 0x18, 0, 0, 0, 4, 0, 0, 0, 0, 0, 0, 0x20, 0].getD (a - 0x1000) 0
          else if 0x2000 ≤ a then 9 else 0⟩
        let bad : GuestRam := ⟨0x3000, fun a =>
          if 0x1000 ≤ a ∧ a < 0x1010 then
            [0x3f, 0xff, 0, 0x18, 0, 0, 0, 4, 0, 0, 0, 0, 0, 0, 0x20, 0].getD (a - 0x1000) 0
          else if 0x2000 ≤ a then 9 else 0⟩
        let out := dmaMemWrite s mem 0 0x1000 8
        let out' := dmaMemWrite s bad 0 0x1000 8
        ((out.fw.entry ⟨false, 5⟩).data, beDecode (out.mem.read 0x1000 4).1,
          out'.result.toBool, beDecode (out'.mem.read 0x1000 4).1)
      | .error _ => ([], 0, true, 0)) =
      ([9, 9, 9, 9], FW_CFG_DMA_CTL_ERROR, false, 0x3fff0018) := by
  decide +kernel

end StratoVirt.Legacy
