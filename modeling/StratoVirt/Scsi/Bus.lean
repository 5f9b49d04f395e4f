import Mathlib

/-!
# SCSI commands: CDB parsing, the request check, and what reaches the backend

`devices/src/scsi/bus.rs` and the virtio-scsi front end
(`virtio/src/device/scsi_cntlr.rs`). A guest command is a 16-byte CDB; its
group code (the top three bits of byte 0) fixes where the logical block
address (LBA) and the transfer length sit. `ScsiRequest::new` parses it and,
for `READ_10` and `WRITE_10` only, checks that the transfer fits in the disk.
`execute` hands the backend `lba << block_shift`, for every READ and WRITE.

Integer widths are the code's. `scsi_cdb_xfer` computes in `i32` and
`scsi_cdb_lba` in `i64`, both then cast to the unsigned fields of
`ScsiCommand`; release builds wrap on overflow (`toI32`, `toI64`, `asU32`,
`asU64`). `u64::checked_shl` fails only for a shift of 64 or more, so it never
fails here, and the shifted LBA wraps modulo `2^64`.

The CDB is a `Vector UInt8 16`, as the source's `[u8; SCSI_CMD_BUF_SIZE]`.
-/

namespace StratoVirt.Scsi

/-! ## Constants -/

/-- `SCSI_CMD_BUF_SIZE`. -/
def SCSI_CMD_BUF_SIZE : Nat := 16

/-- A command descriptor block. -/
abbrev Cdb := Vector UInt8 SCSI_CMD_BUF_SIZE

def TEST_UNIT_READY : UInt8 := 0x00
def FORMAT_UNIT : UInt8 := 0x04
def REASSIGN_BLOCKS : UInt8 := 0x07
def READ_6 : UInt8 := 0x08
def WRITE_6 : UInt8 := 0x0a
def INQUIRY : UInt8 := 0x12
def MODE_SELECT : UInt8 := 0x15
def COPY : UInt8 := 0x18
def START_STOP : UInt8 := 0x1b
def SCAN : UInt8 := 0x1b
def SEND_DIAGNOSTIC : UInt8 := 0x1d
def SET_WINDOW : UInt8 := 0x24
def READ_CAPACITY_10 : UInt8 := 0x25
def READ_10 : UInt8 := 0x28
def WRITE_10 : UInt8 := 0x2a
def WRITE_VERIFY_10 : UInt8 := 0x2e
def VERIFY_10 : UInt8 := 0x2f
def SEARCH_HIGH : UInt8 := 0x30
def SEARCH_EQUAL : UInt8 := 0x31
def SEARCH_LOW : UInt8 := 0x32
def SYNCHRONIZE_CACHE : UInt8 := 0x35
def MEDIUM_SCAN : UInt8 := 0x38
def COMPARE : UInt8 := 0x39
def COPY_VERIFY : UInt8 := 0x3a
def WRITE_BUFFER : UInt8 := 0x3b
def UPDATE_BLOCK : UInt8 := 0x3d
def WRITE_LONG_10 : UInt8 := 0x3f
def CHANGE_DEFINITION : UInt8 := 0x40
def WRITE_SAME_10 : UInt8 := 0x41
def UNMAP : UInt8 := 0x42
def LOG_SELECT : UInt8 := 0x4c
def MODE_SELECT_10 : UInt8 := 0x55
def SEND_CUE_SHEET : UInt8 := 0x5d
def PERSISTENT_RESERVE_OUT : UInt8 := 0x5f
def ATA_PASSTHROUGH_16 : UInt8 := 0x85
def READ_16 : UInt8 := 0x88
def WRITE_16 : UInt8 := 0x8a
def WRITE_VERIFY_16 : UInt8 := 0x8e
def VERIFY_16 : UInt8 := 0x8f
def SYNCHRONIZE_CACHE_16 : UInt8 := 0x91
def WRITE_SAME_16 : UInt8 := 0x93
def ATA_PASSTHROUGH_12 : UInt8 := 0xa1
def MAINTENANCE_OUT : UInt8 := 0xa4
def READ_12 : UInt8 := 0xa8
def WRITE_12 : UInt8 := 0xaa
def WRITE_VERIFY_12 : UInt8 := 0xae
def VERIFY_12 : UInt8 := 0xaf
def SEARCH_HIGH_12 : UInt8 := 0xb0
def SEARCH_EQUAL_12 : UInt8 := 0xb1
def SEARCH_LOW_12 : UInt8 := 0xb2
def SEND_VOLUME_TAG : UInt8 := 0xb6
def SEND_DVD_STRUCTURE : UInt8 := 0xbf

/-- `SCSI_TYPE_DISK`. -/
def SCSI_TYPE_DISK : Nat := 0x00
/-- `SECTOR_SHIFT`. -/
def SECTOR_SHIFT : Nat := 9
/-- `SCSI_DISK_DEFAULT_BLOCK_SIZE_SHIFT` and `SCSI_CDROM_DEFAULT_BLOCK_SIZE_SHIFT`. -/
def SCSI_DISK_DEFAULT_BLOCK_SIZE_SHIFT : Nat := 9
def SCSI_CDROM_DEFAULT_BLOCK_SIZE_SHIFT : Nat := 11

/-- `EMULATE_SCSI_OPS` and `NON_EMULATE_SCSI_OPS`. -/
def EMULATE_SCSI_OPS : Nat := 0
def NON_EMULATE_SCSI_OPS : Nat := 1

/-! ## Machine integers -/

/-- `as i32` of an integer, and wrapping `i32` arithmetic. -/
def toI32 (x : Int) : Int := (x + 2 ^ 31) % 2 ^ 32 - 2 ^ 31

/-- `as i64`. -/
def toI64 (x : Int) : Int := (x + 2 ^ 63) % 2 ^ 64 - 2 ^ 63

/-- `as u32` of a signed value. -/
def asU32 (x : Int) : Nat := (x % 2 ^ 32).toNat

/-- `as u64` of a signed value. -/
def asU64 (x : Int) : Nat := (x % 2 ^ 64).toNat

/-- `BigEndian::read_uN(&cdb[off..])` for `n` bytes. -/
def readBe (cdb : Cdb) (off n : Nat) : Nat :=
  (List.range n).foldl (fun acc i => acc * 256 + (cdb[off + i]?.getD 0).toNat) 0

/-! ## Parsing -/

/-- The transfer direction of a command. -/
inductive ScsiXferMode where
  | scsiXferNone
  | scsiXferToDev
  | scsiXferFromDev
  deriving Repr, DecidableEq

/-- `scsi_operation_type`: commands that reach the backend. -/
def scsiOperationType (op : UInt8) : Nat :=
  if op ∈ [READ_6, READ_10, READ_12, READ_16, WRITE_6, WRITE_10, WRITE_12, WRITE_16,
      WRITE_VERIFY_10, WRITE_VERIFY_12, WRITE_VERIFY_16, SYNCHRONIZE_CACHE]
  then NON_EMULATE_SCSI_OPS else EMULATE_SCSI_OPS

/-- `scsi_cdb_length`. -/
def scsiCdbLength (cdb : Cdb) : Int :=
  match (cdb[0] >>> 5).toNat with
  | 0 => 6
  | 1 | 2 => 10
  | 4 => 16
  | 5 => 12
  | _ => -1

/-- `scsi_cdb_xfer`, in `i32`. -/
def scsiCdbXfer (cdb : Cdb) (blockSize : Nat) : Int :=
  let blockSize := toI32 blockSize
  let op := cdb[0]
  let xfer : Int := match (op >>> 5).toNat with
    | 0 => cdb[4].toNat
    | 1 | 2 => readBe cdb 7 2
    | 4 => toI32 (readBe cdb 10 4)
    | 5 => toI32 (readBe cdb 6 4)
    | _ => -1
  if op = TEST_UNIT_READY ∨ op = START_STOP ∨ op = SYNCHRONIZE_CACHE ∨ op = SYNCHRONIZE_CACHE_16
  then 0
  else if op = READ_CAPACITY_10 then 8
  else if op = WRITE_6 ∨ op = READ_6 then
    -- length 0 means 256 blocks
    if xfer = (0 : Int) then toI32 (256 * blockSize) else xfer
  else if op = WRITE_10 ∨ op = WRITE_12 ∨ op = WRITE_16 ∨ op = READ_10 ∨ op = READ_12 ∨
      op = READ_16 then toI32 (xfer * blockSize)
  else if op = INQUIRY then ((cdb[4].toNat ||| (cdb[3].toNat <<< 8)) : Nat)
  else xfer

/-- `scsi_cdb_lba`, in `i64`. -/
def scsiCdbLba (cdb : Cdb) : Int :=
  match (cdb[0] >>> 5).toNat with
  | 0 => ((readBe cdb 0 4 &&& 0x1fffff) : Nat)
  | 1 | 2 | 5 => readBe cdb 2 4
  | 4 => toI64 (readBe cdb 2 8)
  | _ => -1

/-- The commands `scsi_cdb_xfer_mode` sends to the device. -/
def TO_DEV_OPS : List UInt8 :=
  [WRITE_6, WRITE_10, WRITE_VERIFY_10, WRITE_12, WRITE_VERIFY_12, WRITE_16, WRITE_VERIFY_16,
    VERIFY_10, VERIFY_12, VERIFY_16, COPY, COPY_VERIFY, COMPARE, CHANGE_DEFINITION, LOG_SELECT,
    MODE_SELECT, MODE_SELECT_10, SEND_DIAGNOSTIC, WRITE_BUFFER, FORMAT_UNIT, REASSIGN_BLOCKS,
    SEARCH_EQUAL, SEARCH_HIGH, SEARCH_LOW, UPDATE_BLOCK, WRITE_LONG_10, WRITE_SAME_10,
    WRITE_SAME_16, UNMAP, SEARCH_HIGH_12, SEARCH_EQUAL_12, SEARCH_LOW_12, MEDIUM_SCAN,
    SEND_VOLUME_TAG, SEND_CUE_SHEET, SEND_DVD_STRUCTURE, PERSISTENT_RESERVE_OUT,
    MAINTENANCE_OUT, SET_WINDOW, SCAN]

/-- `scsi_cdb_xfer_mode`. -/
def scsiCdbXferMode (cdb : Cdb) : ScsiXferMode :=
  if cdb[0] ∈ TO_DEV_OPS then .scsiXferToDev
  else if cdb[0] = ATA_PASSTHROUGH_12 ∨ cdb[0] = ATA_PASSTHROUGH_16 then
    if cdb[2] &&& 0x8 = 0 then .scsiXferToDev else .scsiXferFromDev
  else .scsiXferFromDev

/-- `ScsiCommand`. -/
structure ScsiCommand where
  buf : Cdb
  op : UInt8
  len : Nat
  xfer : Nat
  lba : Nat
  mode : ScsiXferMode
  deriving Repr, DecidableEq

/-- The fields of `ScsiDevice` the request path reads. -/
structure ScsiDevice where
  diskSectors : Nat
  blockSize : Nat
  scsiType : Nat
  deriving Repr, DecidableEq

/-- `scsi_bus_parse_req_cdb`. -/
def scsiBusParseReqCdb (cdb : Cdb) (dev : ScsiDevice) : Option ScsiCommand :=
  let len := scsiCdbLength cdb
  if len < 0 then none
  else
    let xfer := scsiCdbXfer cdb dev.blockSize
    let lba := scsiCdbLba cdb
    some ⟨cdb, cdb[0], len.toNat, asU32 xfer, asU64 lba, scsiCdbXferMode cdb⟩

/-! ## Requests -/

/-- A guest buffer. -/
structure Iovec where
  iovBase : Nat
  iovLen : Nat
  deriving Repr, DecidableEq

/-- `ScsiRequest`. -/
structure ScsiRequest where
  cmd : ScsiCommand
  reqLun : Nat
  opstype : Nat
  iovec : List Iovec
  datalen : Nat
  deriving Repr, DecidableEq

/-- The block shift of a device's type. -/
def offsetShift (dev : ScsiDevice) : Nat :=
  if dev.scsiType = SCSI_TYPE_DISK then SCSI_DISK_DEFAULT_BLOCK_SIZE_SHIFT
  else SCSI_CDROM_DEFAULT_BLOCK_SIZE_SHIFT

/-- `ScsiRequest::new`: parse the CDB, and for `READ_10`/`WRITE_10` check that
`lba << shift + datalen` fits in the disk. -/
def ScsiRequest.new (cdb : Cdb) (reqLun : Nat) (iovec : List Iovec) (datalen : Nat)
    (dev : ScsiDevice) : Except String ScsiRequest :=
  match scsiBusParseReqCdb cdb dev with
  | none => .error "Error cdb!"
  | some cmd =>
    let op := cmd.op
    let opstype := scsiOperationType op
    if op = WRITE_10 ∨ op = READ_10 then
      let diskSize := (dev.diskSectors <<< SECTOR_SHIFT) % 2 ^ 64
      -- `checked_shl` fails only for shifts of 64 or more
      let offset := (cmd.lba <<< offsetShift dev) % 2 ^ 64
      if offset + datalen < 2 ^ 64 ∧ offset + datalen ≤ diskSize then
        .ok ⟨cmd, reqLun, opstype, iovec, datalen⟩
      else .error "read/write length is larger than disk size"
    else .ok ⟨cmd, reqLun, opstype, iovec, datalen⟩

/-- What the backend is asked to do. -/
inductive BackendOp where
  | datasync
  | readVectored (iovecs : List Iovec) (offset : Nat)
  | writeVectored (iovecs : List Iovec) (offset : Nat)
  | none
  deriving Repr, DecidableEq

/-- `ScsiRequest::execute`: the backend call, at `lba << shift` as a `usize`. -/
def ScsiRequest.execute (req : ScsiRequest) (dev : ScsiDevice) : BackendOp :=
  let offset := (req.cmd.lba <<< offsetShift dev) % 2 ^ 64
  if req.cmd.op = SYNCHRONIZE_CACHE then .datasync
  else
    match req.cmd.mode with
    | .scsiXferFromDev => .readVectored req.iovec offset
    | .scsiXferToDev => .writeVectored req.iovec offset
    | .scsiXferNone => .none

/-- How virtio-scsi answers a command. -/
inductive CmdOutcome where
  /-- `CHECK CONDITION` with `SCSI_SENSE_INVALID_OPCODE`. -/
  | checkCondition
  /-- `VIRTIO_SCSI_S_OVERRUN`: the buffers are shorter than the transfer. -/
  | overrun
  /-- Emulated in the device. -/
  | emulated (req : ScsiRequest)
  /-- Passed to the backend. -/
  | backend (op : BackendOp)
  deriving Repr, DecidableEq

/-- `enqueue_scsi_request` then `handle_scsi_request`. -/
def virtioScsiCmd (cdb : Cdb) (lun : Nat) (iovec : List Iovec) (dataLen : Nat)
    (dev : ScsiDevice) : CmdOutcome :=
  match ScsiRequest.new cdb lun iovec dataLen dev with
  | .error _ => .checkCondition
  | .ok sreq =>
    if sreq.cmd.xfer > sreq.datalen ∧ sreq.cmd.mode ≠ .scsiXferNone then .overrun
    else if sreq.opstype = EMULATE_SCSI_OPS then .emulated sreq
    else .backend (sreq.execute dev)

/-! ## Parsing lemmas -/

/-- A big-endian read of `n` bytes is an `n`-byte number. -/
theorem readBe_lt (cdb : Cdb) (off n : Nat) : readBe cdb off n < 256 ^ n := by
  induction n with
  | zero => simp [readBe]
  | succ n ih =>
    have hb : (cdb[off + n]?.getD 0).toNat < 256 := UInt8.toNat_lt _
    have hstep : readBe cdb off (n + 1) =
        readBe cdb off n * 256 + (cdb[off + n]?.getD 0).toNat := by
      simp only [readBe, List.range_succ, List.foldl_append, List.foldl_cons, List.foldl_nil]
    rw [hstep, Nat.pow_succ]
    have hle : readBe cdb off n + 1 ≤ 256 ^ n := ih
    calc readBe cdb off n * 256 + (cdb[off + n]?.getD 0).toNat
        < (readBe cdb off n + 1) * 256 := by omega
      _ ≤ 256 ^ n * 256 := Nat.mul_le_mul_right 256 hle

/-- `as u64` of a value already in range is the value. -/
theorem asU64_of_lt {x : Nat} (h : x < 2 ^ 64) : asU64 x = x := by
  unfold asU64
  rw [Int.emod_eq_of_lt (by omega) (by exact_mod_cast h)]
  rfl

/-- `as i64` then `as u64` gives back a 64-bit value. -/
theorem asU64_toI64 {x : Nat} (h : x < 2 ^ 64) : asU64 (toI64 x) = x := by
  unfold asU64 toI64
  have hx : (((x : Int) + 2 ^ 63) % 2 ^ 64 - 2 ^ 63) % 2 ^ 64 = x := by omega
  rw [hx]
  rfl

/-- The opcode, LBA and mode a parsed command carries. -/
theorem scsiBusParseReqCdb_eq_some {cdb : Cdb} {dev : ScsiDevice} {cmd : ScsiCommand}
    (h : scsiBusParseReqCdb cdb dev = some cmd) :
    0 ≤ scsiCdbLength cdb ∧ cmd.op = cdb[0] ∧ cmd.lba = asU64 (scsiCdbLba cdb) ∧
      cmd.xfer = asU32 (scsiCdbXfer cdb dev.blockSize) ∧ cmd.mode = scsiCdbXferMode cdb := by
  dsimp only [scsiBusParseReqCdb] at h
  split at h
  · cases h
  · rename_i hlen
    cases h
    exact ⟨by omega, rfl, rfl, rfl, rfl⟩

/-- A CDB whose group code is known parses. -/
theorem scsiBusParseReqCdb_isSome {cdb : Cdb} (dev : ScsiDevice) (hlen : 0 ≤ scsiCdbLength cdb) :
    scsiBusParseReqCdb cdb dev = some ⟨cdb, cdb[0], (scsiCdbLength cdb).toNat,
      asU32 (scsiCdbXfer cdb dev.blockSize), asU64 (scsiCdbLba cdb), scsiCdbXferMode cdb⟩ := by
  unfold scsiBusParseReqCdb
  rw [if_neg (by omega)]

/-- `scsi_cdb_xfer_mode` never answers `ScsiXferNone`. -/
theorem scsiCdbXferMode_ne_none (cdb : Cdb) : scsiCdbXferMode cdb ≠ .scsiXferNone := by
  unfold scsiCdbXferMode
  split
  · simp
  · split
    · split <;> simp
    · simp

/-- The LBA of a 10- or 12-byte CDB: four bytes from byte 2. -/
theorem scsiCdbLba_of_group {cdb : Cdb} (h : (cdb[0] >>> 5).toNat = 1 ∨ (cdb[0] >>> 5).toNat = 2 ∨
    (cdb[0] >>> 5).toNat = 5) : scsiCdbLba cdb = readBe cdb 2 4 := by
  rcases h with h | h | h <;> simp only [scsiCdbLba, h]

/-- The LBA of a 16-byte CDB: eight bytes from byte 2, as `i64`. -/
theorem scsiCdbLba_of_group16 {cdb : Cdb} (h : (cdb[0] >>> 5).toNat = 4) :
    scsiCdbLba cdb = toI64 (readBe cdb 2 8) := by
  simp only [scsiCdbLba, h]

/-! ## The request check -/

/-- What `ScsiRequest::new` guarantees of a request it accepts: the parsed
command, and the disk-size check for `READ_10` and `WRITE_10`. -/
theorem ScsiRequest.new_eq_ok {cdb : Cdb} {lun : Nat} {iov : List Iovec} {datalen : Nat}
    {dev : ScsiDevice} {req : ScsiRequest}
    (h : ScsiRequest.new cdb lun iov datalen dev = .ok req) :
    ∃ cmd, scsiBusParseReqCdb cdb dev = some cmd ∧
      req = ⟨cmd, lun, scsiOperationType cmd.op, iov, datalen⟩ ∧
      (cmd.op = WRITE_10 ∨ cmd.op = READ_10 →
        (cmd.lba <<< offsetShift dev) % 2 ^ 64 + datalen ≤
          (dev.diskSectors <<< SECTOR_SHIFT) % 2 ^ 64) := by
  unfold ScsiRequest.new at h
  split at h
  · cases h
  · rename_i cmd hparse
    dsimp only at h
    by_cases hop : cmd.op = WRITE_10 ∨ cmd.op = READ_10
    · rw [if_pos hop] at h
      split at h
      · rename_i hfit
        cases h
        exact ⟨cmd, hparse, rfl, fun _ => hfit.2⟩
      · cases h
    · rw [if_neg hop] at h
      cases h
      exact ⟨cmd, hparse, rfl, fun h => absurd h hop⟩

/-- Every opcode but `READ_10` and `WRITE_10` is accepted as parsed, whatever
its LBA and length: `ScsiRequest::new` checks nothing else. -/
theorem ScsiRequest.new_of_parse {cdb : Cdb} {dev : ScsiDevice} {cmd : ScsiCommand}
    (lun : Nat) (iov : List Iovec) (datalen : Nat) (hparse : scsiBusParseReqCdb cdb dev = some cmd)
    (hop : ¬(cmd.op = WRITE_10 ∨ cmd.op = READ_10)) :
    ScsiRequest.new cdb lun iov datalen dev = .ok ⟨cmd, lun, scsiOperationType cmd.op, iov, datalen⟩ := by
  unfold ScsiRequest.new
  rw [hparse]
  dsimp only
  rw [if_neg hop]

/-! ## What reaches the backend -/

/-- The block shift is at most the CD-ROM's. -/
theorem offsetShift_le (dev : ScsiDevice) : offsetShift dev ≤ 11 := by
  unfold offsetShift
  split <;> decide

/-- A CDB of a known group has a length. -/
theorem scsiCdbLength_nonneg {cdb : Cdb} (h : (cdb[0] >>> 5).toNat ∈ [0, 1, 2, 4, 5]) :
    0 ≤ scsiCdbLength cdb := by
  unfold scsiCdbLength
  simp only [List.mem_cons, List.not_mem_nil, or_false] at h
  rcases h with h | h | h | h | h <;> rw [h] <;> decide

/-- A data command other than `SYNCHRONIZE_CACHE` is a read or a write of the
request's buffers at `lba << shift`, wrapped to 64 bits. -/
theorem ScsiRequest.execute_rw (req : ScsiRequest) (dev : ScsiDevice)
    (hop : req.cmd.op ≠ SYNCHRONIZE_CACHE) (hmode : req.cmd.mode ≠ .scsiXferNone) :
    req.execute dev = .readVectored req.iovec ((req.cmd.lba <<< offsetShift dev) % 2 ^ 64) ∨
      req.execute dev = .writeVectored req.iovec ((req.cmd.lba <<< offsetShift dev) % 2 ^ 64) := by
  dsimp only [ScsiRequest.execute]
  rw [if_neg hop]
  generalize req.cmd.mode = m at hmode ⊢
  cases m with
  | scsiXferNone => exact absurd rfl hmode
  | scsiXferToDev => exact .inr rfl
  | scsiXferFromDev => exact .inl rfl

/-- What reaches the backend: a request `ScsiRequest::new` accepted, executed. -/
theorem virtioScsiCmd_eq_backend {cdb : Cdb} {lun : Nat} {iov : List Iovec} {dataLen : Nat}
    {dev : ScsiDevice} {op : BackendOp}
    (hout : virtioScsiCmd cdb lun iov dataLen dev = .backend op) :
    ∃ sreq, ScsiRequest.new cdb lun iov dataLen dev = .ok sreq ∧ op = sreq.execute dev := by
  unfold virtioScsiCmd at hout
  split at hout
  · cases hout
  rename_i sreq hnew
  -- neither the overrun answer nor emulation reaches the backend
  split at hout
  · cases hout
  split at hout
  · cases hout
  cases hout
  exact ⟨sreq, hnew, rfl⟩

/-- An accepted request whose buffers cover its transfer length and that is not
emulated goes to the backend. -/
theorem virtioScsiCmd_of_new {cdb : Cdb} {lun : Nat} {iov : List Iovec} {dataLen : Nat}
    {dev : ScsiDevice} {sreq : ScsiRequest}
    (hnew : ScsiRequest.new cdb lun iov dataLen dev = .ok sreq)
    (hxfer : sreq.cmd.xfer ≤ sreq.datalen) (htype : sreq.opstype ≠ EMULATE_SCSI_OPS) :
    virtioScsiCmd cdb lun iov dataLen dev = .backend (sreq.execute dev) := by
  unfold virtioScsiCmd
  rw [hnew]
  dsimp only
  rw [if_neg (by omega), if_neg htype]

/-- A `READ_10` or `WRITE_10` that reaches the backend lies inside the disk:
the backend reads or writes at `lba * bs`, and `lba * bs + datalen` is at most
the disk's size, with no wrap-around on the way. -/
theorem virtioScsiCmd_rw10_inside {cdb : Cdb} {lun : Nat} {iov : List Iovec} {dataLen : Nat}
    {dev : ScsiDevice} {op : BackendOp} (hop : cdb[0] = READ_10 ∨ cdb[0] = WRITE_10)
    (hsize : dev.diskSectors * 2 ^ SECTOR_SHIFT < 2 ^ 64)
    (hout : virtioScsiCmd cdb lun iov dataLen dev = .backend op) :
    (op = .readVectored iov (readBe cdb 2 4 * 2 ^ offsetShift dev) ∨
        op = .writeVectored iov (readBe cdb 2 4 * 2 ^ offsetShift dev)) ∧
      readBe cdb 2 4 * 2 ^ offsetShift dev + dataLen ≤ dev.diskSectors * 2 ^ SECTOR_SHIFT := by
  obtain ⟨sreq, hnew, rfl⟩ := virtioScsiCmd_eq_backend hout
  obtain ⟨cmd, hparse, rfl, hchk⟩ := ScsiRequest.new_eq_ok hnew
  obtain ⟨-, hcop, hlba, -, hmode⟩ := scsiBusParseReqCdb_eq_some hparse
  -- both opcodes are in group 1, whose LBA is the four bytes from byte 2
  have hgroup : (cdb[0] >>> 5).toNat = 1 := by
    rcases hop with h | h <;> rw [h] <;> decide
  have hlba4 : readBe cdb 2 4 < 2 ^ 32 := readBe_lt cdb 2 4
  have hcmdLba : cmd.lba = readBe cdb 2 4 := by
    rw [hlba, scsiCdbLba_of_group (.inl hgroup), asU64_of_lt (by omega)]
  -- the shifted LBA is below 2^43, so the `u64` shift does not wrap
  have hpow : 2 ^ offsetShift dev ≤ 2 ^ 11 := Nat.pow_le_pow_right (by decide) (offsetShift_le dev)
  have hoff : (cmd.lba <<< offsetShift dev) % 2 ^ 64 = readBe cdb 2 4 * 2 ^ offsetShift dev := by
    rw [hcmdLba, Nat.shiftLeft_eq]
    apply Nat.mod_eq_of_lt
    calc readBe cdb 2 4 * 2 ^ offsetShift dev ≤ readBe cdb 2 4 * 2 ^ 11 := Nat.mul_le_mul_left _ hpow
      _ < 2 ^ 64 := by omega
  have hdisk : (dev.diskSectors <<< SECTOR_SHIFT) % 2 ^ 64 = dev.diskSectors * 2 ^ SECTOR_SHIFT := by
    rw [Nat.shiftLeft_eq, Nat.mod_eq_of_lt hsize]
  have hrw : cmd.op = WRITE_10 ∨ cmd.op = READ_10 := by
    rw [hcop]; exact hop.symm
  refine ⟨?_, ?_⟩
  · have hsync : cmd.op ≠ SYNCHRONIZE_CACHE := by
      rcases hrw with h | h <;> rw [h] <;> decide
    have hnone : cmd.mode ≠ .scsiXferNone := by
      rw [hmode]; exact scsiCdbXferMode_ne_none cdb
    rw [← hoff]
    exact ScsiRequest.execute_rw _ dev hsync hnone
  · rw [← hoff, ← hdisk]
    exact hchk hrw

/-- The other data commands reach the backend at whatever offset their LBA
gives, inside the disk or past its end: nothing on the way compares it with
`disk_sectors`. -/
theorem virtioScsiCmd_unchecked {cdb : Cdb} (lun : Nat) (iov : List Iovec) {dataLen : Nat}
    (dev : ScsiDevice)
    (hop : cdb[0] ∈ [READ_6, READ_12, READ_16, WRITE_6, WRITE_12, WRITE_16, WRITE_VERIFY_10,
      WRITE_VERIFY_12, WRITE_VERIFY_16])
    (hxfer : asU32 (scsiCdbXfer cdb dev.blockSize) ≤ dataLen) :
    virtioScsiCmd cdb lun iov dataLen dev =
        .backend (.readVectored iov ((asU64 (scsiCdbLba cdb) <<< offsetShift dev) % 2 ^ 64)) ∨
      virtioScsiCmd cdb lun iov dataLen dev =
        .backend (.writeVectored iov ((asU64 (scsiCdbLba cdb) <<< offsetShift dev) % 2 ^ 64)) := by
  -- what the opcode alone decides: its group, that it is unchecked, and that it is a transfer
  have hkind : ∀ b ∈ [READ_6, READ_12, READ_16, WRITE_6, WRITE_12, WRITE_16, WRITE_VERIFY_10,
      WRITE_VERIFY_12, WRITE_VERIFY_16],
      (b >>> 5).toNat ∈ [0, 1, 2, 4, 5] ∧ ¬(b = WRITE_10 ∨ b = READ_10) ∧
        scsiOperationType b = NON_EMULATE_SCSI_OPS ∧ b ≠ SYNCHRONIZE_CACHE := by
    decide +kernel
  obtain ⟨hgroup, hrw, htype, hsync⟩ := hkind _ hop
  obtain ⟨cmd, hparse⟩ : ∃ cmd, scsiBusParseReqCdb cdb dev = some cmd :=
    ⟨_, scsiBusParseReqCdb_isSome dev (scsiCdbLength_nonneg hgroup)⟩
  obtain ⟨-, hcop, hlba, hcxfer, hmode⟩ := scsiBusParseReqCdb_eq_some hparse
  rw [← hcop] at hrw htype hsync
  have hnew := ScsiRequest.new_of_parse lun iov dataLen hparse hrw
  have hback := virtioScsiCmd_of_new hnew (by rw [hcxfer]; exact hxfer)
    (by show scsiOperationType cmd.op ≠ EMULATE_SCSI_OPS; rw [htype]; decide)
  have hnone : cmd.mode ≠ .scsiXferNone := by
    rw [hmode]; exact scsiCdbXferMode_ne_none cdb
  rw [hback, ← hlba]
  rcases ScsiRequest.execute_rw ⟨cmd, lun, scsiOperationType cmd.op, iov, dataLen⟩ dev hsync hnone
    with h | h
  · exact .inl (by rw [h])
  · exact .inr (by rw [h])

/-- A guest `READ_16` of one block at LBA 1000 on a disk of eight sectors is
passed to the backend at byte 512000, past the disk's 4096 bytes; and a
`READ_16` of `2^23` blocks of 512 bytes has a transfer length that wraps to 0
in `i32`. -/
theorem virtioScsi_read16_past_disk :
    virtioScsiCmd #v[READ_16, 0, 0, 0, 0, 0, 0, 0, 0x03, 0xe8, 0, 0, 0, 1, 0, 0] 0 [⟨0, 512⟩] 512
        ⟨8, 512, SCSI_TYPE_DISK⟩ = .backend (.readVectored [⟨0, 512⟩] 512000) ∧
      8 * 2 ^ SECTOR_SHIFT < 512000 + 512 ∧
      scsiCdbXfer #v[READ_16, 0, 0, 0, 0, 0, 0, 0, 0, 0, 0, 0x80, 0, 0, 0, 0] 512 = 0 := by
  decide +kernel

end StratoVirt.Scsi
