import StratoVirt.Lib.Text
import StratoVirt.Lib.BigEndian
import StratoVirt.Lib.Slice
import StratoVirt.Lib.Loop
import StratoVirt.Lib.Codec
import StratoVirt.Util.Aio

/-!
# The qcow2 internal snapshot table

`block_backend/src/qcow2/snapshot.rs`. The snapshot table is a run of
variable-length entries: a 40-byte big-endian header, 16 or 24 bytes of extra
data, the snapshot id as a decimal string, the name, and zero padding to a
multiple of 8. `gen_snapshot_table_entry` writes one entry;
`load_snapshot_table` reads `nb_snapshots` of them back, finding each one at
the running `snapshot_size`, that is by the sizes `get_size` computes and not
by what the writer wrote, and gives up once the table passes 64 MiB.

The image is a byte list; `read_buffer` reads a window of it, and a read past
its end is incomplete and fails, as the synchronous aio path makes it.

Main results:

* `genSnapshotTableEntry_eq`: for 16 or 24 bytes of extra data, the entry is
  the header, the extra data, the id and the name, padded; its length is
  `get_size` (`length_entryBytes`);
* `readSnapshotEntry_entryBytes`: an entry read back from anywhere in the
  image gives every field again, `icount` as `u64::MAX` without 24 bytes of
  extra data;
* `loadSnapshotTable_table`: a table of such entries at an aligned address
  loads back in order with `snapshot_size` the sum of the sizes when that sum
  is at most 64 MiB, and fails with "Snapshot table is too big" otherwise.
-/

namespace StratoVirt.Qcow2

open StratoVirt.Lib StratoVirt.Util

/-! ## Layout constants -/

/-- `QCOW2_MAX_SNAPSHOTS`. -/
def QCOW2_MAX_SNAPSHOTS : Nat := 65536
/-- `SNAPSHOT_EXTRA_DATA_LEN_16`: extra data without `icount`. -/
def SNAPSHOT_EXTRA_DATA_LEN_16 : Nat := 16
/-- `SNAPSHOT_EXTRA_DATA_LEN_24`: extra data with `icount`. -/
def SNAPSHOT_EXTRA_DATA_LEN_24 : Nat := 24
/-- `size_of::<QcowSnapshotHeader>()`: nine fields, 40 bytes, no padding. -/
def SNAPSHOT_HEADER_SIZE : Nat := 40
/-- `i32::MAX`. -/
def I32_MAX : Nat := 2 ^ 31 - 1
/-- `u64::MAX`. -/
def U64_MAX : UInt64 := 0xFFFFFFFFFFFFFFFF

/-! ## Snapshots and their entries -/

/-- `QcowSnapshot`. -/
structure QcowSnapshot where
  l1TableOffset : UInt64
  l1Size : UInt32
  id : UInt64
  name : String
  diskSize : UInt64
  vmStateSize : UInt32
  dateSec : UInt32
  dateNsec : UInt32
  vmClockNsec : UInt64
  icount : UInt64
  extraDataSize : UInt32
  deriving DecidableEq, Repr

/-- `QcowSnapshot::get_size`: header, extra data, id string and name, rounded
up to 8 bytes. -/
def QcowSnapshot.getSize (s : QcowSnapshot) : Nat :=
  roundUp (SNAPSHOT_HEADER_SIZE + s.extraDataSize.toNat + (decimalBytes s.id.toNat).length +
    s.name.utf8ByteSize) 8

/-- `BigEndian::write_uN(&mut buf[start..start + w], n)`. -/
def beWriteAt (buf : List UInt8) (start w n : Nat) : List UInt8 :=
  spliceAt buf start (beEncode w n)

/-- `BigEndian::read_uN(&buf[start..start + w])`. -/
def beReadAt (buf : List UInt8) (start w : Nat) : Nat :=
  beDecode (slice buf start (start + w))

/-- `QcowSnapshot::gen_snapshot_table_entry`: the fields written into a zeroed
buffer of header and extra-data size, the id string and the name appended, and
the whole resized to a multiple of 8. The lengths are written `as u16`. With
less than 16 bytes of extra data the writes at 40..56 are past the buffer's
end and panic (`none`). -/
def QcowSnapshot.genSnapshotTableEntry (s : QcowSnapshot) : Option (List UInt8) :=
  let idStr := decimalBytes s.id.toNat
  let entrySize := SNAPSHOT_HEADER_SIZE + s.extraDataSize.toNat
  if entrySize < 56 then none
  else
    -- Snapshot Header.
    let buf := List.replicate entrySize 0
    let buf := beWriteAt buf 0 8 s.l1TableOffset.toNat
    let buf := beWriteAt buf 8 4 s.l1Size.toNat
    let buf := beWriteAt buf 12 2 idStr.length
    let buf := beWriteAt buf 14 2 s.name.utf8ByteSize
    let buf := beWriteAt buf 16 4 s.dateSec.toNat
    let buf := beWriteAt buf 20 4 s.dateNsec.toNat
    let buf := beWriteAt buf 24 8 s.vmClockNsec.toNat
    let buf := beWriteAt buf 32 4 s.vmStateSize.toNat
    let buf := beWriteAt buf 36 4 s.extraDataSize.toNat
    -- Snapshot Extra data: vm_state_size_large, disk_size and, with 24 bytes, icount.
    let buf := beWriteAt buf 40 8 s.vmStateSize.toNat
    let buf := beWriteAt buf 48 8 s.diskSize.toNat
    let buf := if s.extraDataSize.toNat = SNAPSHOT_EXTRA_DATA_LEN_24 then beWriteAt buf 56 8 s.icount.toNat
      else buf
    -- Snapshot ID and Name, then 8 bytes alignment.
    let buf := buf ++ idStr ++ utf8Bytes s.name
    some (buf ++ List.replicate (roundUp buf.length 8 - buf.length) 0)

/-- `QcowSnapshotHeader`. -/
structure QcowSnapshotHeader where
  l1TableOffset : UInt64
  l1Size : UInt32
  idStrSize : UInt16
  nameSize : UInt16
  dateSec : UInt32
  dateNsec : UInt32
  vmClockNsec : UInt64
  vmStateSize : UInt32
  extraDateSize : UInt32
  deriving DecidableEq, Repr

/-- `QcowSnapshotHeader::from_vec`. -/
def QcowSnapshotHeader.fromVec (buf : List UInt8) : Except String QcowSnapshotHeader :=
  if buf.length < SNAPSHOT_HEADER_SIZE then
    .error ("Invalid qcow2 snapshot header length " ++ toString buf.length ++ ".")
  else
    .ok { l1TableOffset := UInt64.ofNat (beReadAt buf 0 8),
          l1Size := UInt32.ofNat (beReadAt buf 8 4),
          idStrSize := UInt16.ofNat (beReadAt buf 12 2),
          nameSize := UInt16.ofNat (beReadAt buf 14 2),
          dateSec := UInt32.ofNat (beReadAt buf 16 4),
          dateNsec := UInt32.ofNat (beReadAt buf 20 4),
          vmClockNsec := UInt64.ofNat (beReadAt buf 24 8),
          vmStateSize := UInt32.ofNat (beReadAt buf 32 4),
          extraDateSize := UInt32.ofNat (beReadAt buf 36 4) }

/-- `QcowSnapshotExtraData`. -/
structure QcowSnapshotExtraData where
  vmStateSizeLarge : UInt64
  diskSize : UInt64
  icount : UInt64
  deriving DecidableEq, Repr

/-- `QcowSnapshotExtraData::from_vec`: 16 or 24 bytes; without the last 8,
`icount` is `u64::MAX`. -/
def QcowSnapshotExtraData.fromVec (buf : List UInt8) : Except String QcowSnapshotExtraData :=
  let hasIcount : Except String Bool :=
    if buf.length = SNAPSHOT_EXTRA_DATA_LEN_24 then .ok true
    else if buf.length = SNAPSHOT_EXTRA_DATA_LEN_16 then .ok false
    else .error ("Invalid snapshot extra data length " ++ toString buf.length ++ ".")
  hasIcount.map fun hasIcount =>
    { vmStateSizeLarge := UInt64.ofNat (beReadAt buf 0 8),
      diskSize := UInt64.ofNat (beReadAt buf 8 8),
      icount := if hasIcount then UInt64.ofNat (beReadAt buf 16 8) else U64_MAX }

/-! ## Loading the table -/

/-- `InternalSnapshot`, without its aio handle (the image is passed to the
reads) and its table offset (the load does not read it). -/
structure InternalSnapshot where
  snapshots : List QcowSnapshot
  clusterSize : UInt64
  snapshotSize : Nat
  nbSnapshots : Nat
  deriving DecidableEq, Repr

/-- `InternalSnapshot::new`. -/
def InternalSnapshot.new : InternalSnapshot :=
  { snapshots := [], clusterSize := 0, snapshotSize := 0, nbSnapshots := 0 }

/-- `InternalSnapshot::set_cluster_size`. -/
def InternalSnapshot.setClusterSize (t : InternalSnapshot) (clusterSize : UInt64) : InternalSnapshot :=
  { t with clusterSize := clusterSize }

/-- `InternalSnapshot::add_snapshot`. -/
def InternalSnapshot.addSnapshot (t : InternalSnapshot) (snap : QcowSnapshot) : InternalSnapshot :=
  { t with snapshots := t.snapshots ++ [snap], snapshotSize := t.snapshotSize + snap.getSize,
           nbSnapshots := t.nbSnapshots + 1 }

/-- `InternalSnapshot::del_snapshot`. -/
def InternalSnapshot.delSnapshot (t : InternalSnapshot) (index : Nat) : InternalSnapshot :=
  { t with snapshots := t.snapshots.eraseIdx index, nbSnapshots := t.nbSnapshots - 1,
           snapshotSize := t.snapshotSize - ((t.snapshots[index]?).map QcowSnapshot.getSize).getD 0 }

/-- `is_aligned`: `offset & (cluster_sz - 1) == 0`, with the `u64` subtraction
wrapping for a cluster size of 0. -/
def isAligned (clusterSz offset : UInt64) : Bool := offset &&& (clusterSz - 1) == 0

/-- `SyncAioInfo::read_buffer`: `n` bytes of the image at `offset`; a read
past the end is incomplete. -/
def readBuffer (image : List UInt8) (offset n : Nat) : Except String (List UInt8) :=
  if offset + n ≤ image.length then .ok (slice image offset (offset + n))
  else .error "Incomplete sync read/write."

/-- The hexadecimal form of an address in the messages. -/
def hexAddr (n : Nat) : String := String.ofList (Nat.toDigits 16 n)

/-- One round of the loop of `load_snapshot_table`: the entry at `offset`,
and whether its extra data was counted as dropped. -/
def readSnapshotEntry (image : List UInt8) (offset i : Nat) (repair : Bool) :
    Except String (QcowSnapshot × Bool) := do
  let headerBuf ← (readBuffer image offset SNAPSHOT_HEADER_SIZE).mapError
    fun _ => "read snapshot header error(addr " ++ hexAddr offset ++ ")."
  let header ← QcowSnapshotHeader.fromVec headerBuf
  let pos := SNAPSHOT_HEADER_SIZE
  let extraSize := header.extraDateSize.toNat
  let dropped := !(extraSize = SNAPSHOT_EXTRA_DATA_LEN_16 ∨ extraSize = SNAPSHOT_EXTRA_DATA_LEN_24)
  if dropped ∧ !repair then throw ("Too much extra metadata in snapshot table entry " ++ toString i)
  let extraBuf ← (readBuffer image (offset + pos) extraSize).mapError
    fun _ => "read snapshot extra data error(addr " ++ hexAddr (offset + pos) ++ ")."
  let extra ← QcowSnapshotExtraData.fromVec extraBuf
  let pos := pos + extraSize
  if header.idStrSize = 0 then throw "Invalid snapshot id size: 0"
  let idBuf ← (readBuffer image (offset + pos) header.idStrSize.toNat).mapError
    fun _ => "read snapshot ID error(addr " ++ hexAddr (offset + pos) ++ ")."
  -- from_utf8(&id_buf)?.parse::<u64>()?: the str's bytes are id_buf
  let _ ← fromUtf8 idBuf
  let id ← parseUnsigned (2 ^ 64) idBuf
  let pos := pos + header.idStrSize.toNat
  let nameBuf ← (readBuffer image (offset + pos) header.nameSize.toNat).mapError
    fun _ => "read snapshot name error(addr " ++ hexAddr (offset + pos) ++ ")."
  let name ← fromUtf8 nameBuf
  return ({ l1TableOffset := header.l1TableOffset, l1Size := header.l1Size, id := UInt64.ofNat id,
            name := name, diskSize := extra.diskSize, vmStateSize := header.vmStateSize,
            dateSec := header.dateSec, dateNsec := header.dateNsec,
            vmClockNsec := header.vmClockNsec, icount := extra.icount,
            extraDataSize := header.extraDateSize }, dropped)

/-- The state of the loop of `load_snapshot_table`: the index, the snapshot
state it fills, and the two counts it returns. -/
structure LoadState where
  i : Nat
  snap : InternalSnapshot
  clustersReduced : Int
  extraDataDropped : Int

/-- One pass of `for i in 0..nb_snapshots`: read the entry at the running
size, add it, and stop on a table past 64 MiB (with `repair`, dropping the
entry and the ones after it). -/
def loadBody (image : List UInt8) (addr nb : Nat) (repair : Bool) (st : LoadState) :
    Step LoadState String :=
  if st.i < nb then
    let offset := addr + st.snap.snapshotSize
    match readSnapshotEntry image offset st.i repair with
    | .error e => .fail e st
    | .ok (snap, dropped) =>
      let st := { st with snap := st.snap.addSnapshot snap,
                          extraDataDropped := st.extraDataDropped + if dropped then 1 else 0 }
      if st.snap.snapshotSize > QCOW2_MAX_SNAPSHOTS * 1024 ∨ offset - addr > I32_MAX then
        if !repair then .fail "Snapshot table is too big" st
        else
          .exit { st with snap := { st.snap.delSnapshot st.i with nbSnapshots := st.i },
                          clustersReduced := st.clustersReduced + (nb - st.i : Nat) }
      else .next { st with i := st.i + 1 }
  else .exit st

/-- The loop of `load_snapshot_table`; each pass moves the index towards `nb`. -/
def loadLoop (image : List UInt8) (addr nb : Nat) (repair : Bool) : Loop LoadState String where
  body := loadBody image addr nb repair
  measure st := nb - st.i
  decreasing := by
    intro st st' h
    unfold loadBody at h
    by_cases hi : st.i < nb
    · rw [if_pos hi] at h
      dsimp only at h
      split at h
      · cases h
      · -- only the pass that goes on reaches here, with the index one further
        split_ifs at h <;> cases h <;> exact Nat.sub_lt_sub_left hi (Nat.lt_succ_self _)
    · rw [if_neg hi] at h
      cases h

/-- `InternalSnapshot::load_snapshot_table`: the counts of clusters and extra
data dropped, or an error, and the snapshot state as the code leaves it. -/
def InternalSnapshot.loadSnapshotTable (t : InternalSnapshot) (image : List UInt8) (addr : UInt64)
    (nbSnapshots : UInt32) (repair : Bool) : Except String (Int × Int) × InternalSnapshot :=
  if nbSnapshots = 0 then (.ok (0, 0), { t with nbSnapshots := 0, snapshots := [] })
  else if addr = 0 ∨ !isAligned t.clusterSize addr then
    (.error ("The offset of snapshot table " ++ toString addr.toNat ++
      " can't be 0 and mut aligned to cluster size"), t)
  else
    match (loadLoop image addr.toNat nbSnapshots.toNat repair).run ⟨0, t, 0, 0⟩ with
    | .exit st => (.ok (st.clustersReduced, st.extraDataDropped), st.snap)
    | .fail e st => (.error e, st.snap)

/-! ## The layout of an entry -/

/-- The snapshots the table format holds: 16 or 24 bytes of extra data, and a
name whose length fits its `u16` field. -/
structure QcowSnapshot.Storable (s : QcowSnapshot) : Prop where
  extra : s.extraDataSize.toNat = SNAPSHOT_EXTRA_DATA_LEN_16 ∨ s.extraDataSize.toNat = SNAPSHOT_EXTRA_DATA_LEN_24
  name_lt : s.name.utf8ByteSize < 2 ^ 16

/-- The 40 header bytes of an entry, field after field. -/
def QcowSnapshot.headerBytes (s : QcowSnapshot) : List UInt8 :=
  beEncode 8 s.l1TableOffset.toNat ++ beEncode 4 s.l1Size.toNat ++
    beEncode 2 (decimalBytes s.id.toNat).length ++ beEncode 2 s.name.utf8ByteSize ++
    beEncode 4 s.dateSec.toNat ++ beEncode 4 s.dateNsec.toNat ++ beEncode 8 s.vmClockNsec.toNat ++
    beEncode 4 s.vmStateSize.toNat ++ beEncode 4 s.extraDataSize.toNat

/-- The extra data of an entry with 16 or 24 bytes of it. -/
def QcowSnapshot.extraBytes (s : QcowSnapshot) : List UInt8 :=
  beEncode 8 s.vmStateSize.toNat ++ beEncode 8 s.diskSize.toNat ++
    if s.extraDataSize.toNat = SNAPSHOT_EXTRA_DATA_LEN_24 then beEncode 8 s.icount.toNat else []

/-- An entry before its padding: header, extra data, id string, name. -/
def QcowSnapshot.rawEntry (s : QcowSnapshot) : List UInt8 :=
  s.headerBytes ++ s.extraBytes ++ decimalBytes s.id.toNat ++ utf8Bytes s.name

/-- An entry, padded to a multiple of 8. -/
def QcowSnapshot.entryBytes (s : QcowSnapshot) : List UInt8 :=
  s.rawEntry ++ List.replicate (roundUp s.rawEntry.length 8 - s.rawEntry.length) 0

section Layout

variable {s : QcowSnapshot}

@[simp] theorem QcowSnapshot.length_headerBytes (s : QcowSnapshot) : s.headerBytes.length = SNAPSHOT_HEADER_SIZE := by
  simp only [QcowSnapshot.headerBytes, List.length_append, beEncode_length]
  rfl

theorem QcowSnapshot.Storable.length_extraBytes (h : s.Storable) : s.extraBytes.length = s.extraDataSize.toNat := by
  unfold QcowSnapshot.extraBytes
  rcases h.extra with h16 | h24
  · rw [if_neg (by rw [h16]; decide), h16]
    simp only [List.length_append, beEncode_length, List.length_nil]
    rfl
  · rw [if_pos h24, h24]
    simp only [List.length_append, beEncode_length]
    rfl

/-- An entry is as long as `get_size` says. -/
theorem QcowSnapshot.Storable.length_entryBytes (h : s.Storable) : s.entryBytes.length = s.getSize := by
  have hraw : s.rawEntry.length = SNAPSHOT_HEADER_SIZE + s.extraDataSize.toNat +
      (decimalBytes s.id.toNat).length + s.name.utf8ByteSize := by
    rw [QcowSnapshot.rawEntry, List.length_append, List.length_append, List.length_append,
      QcowSnapshot.length_headerBytes, h.length_extraBytes, length_utf8Bytes]
  rw [QcowSnapshot.entryBytes, List.length_append, List.length_replicate, QcowSnapshot.getSize, ← hraw]
  exact Nat.add_sub_of_le le_roundUp

/-- A field written right after the bytes before it, into zeros. -/
private theorem beWriteAt_zeros (pre : List UInt8) {m start w : Nat} (n : Nat) (hpre : pre.length = start) :
    beWriteAt (pre ++ List.replicate m 0) start w n = (pre ++ beEncode w n) ++ List.replicate (m - w) 0 := by
  rw [beWriteAt, ← hpre, spliceAt_append_length, beEncode_length, List.drop_replicate]

/-- **The writer.** With 16 or 24 bytes of extra data the writes fill the
zeroed buffer exactly, and the entry is the header, the extra data, the id
and the name, padded. -/
theorem QcowSnapshot.Storable.genSnapshotTableEntry_eq (h : s.Storable) :
    s.genSnapshotTableEntry = some s.entryBytes := by
  unfold QcowSnapshot.genSnapshotTableEntry
  rcases h.extra with h16 | h24
  · rw [if_neg (by rw [h16]; decide)]
    dsimp only
    rw [if_neg (by rw [h16]; decide), h16,
      show List.replicate (SNAPSHOT_HEADER_SIZE + SNAPSHOT_EXTRA_DATA_LEN_16) (0 : UInt8) = [] ++ List.replicate 56 0
        from rfl]
    -- each write lands right after the one before, in the zeros still left
    repeat rw [beWriteAt_zeros]
    · simp [QcowSnapshot.entryBytes, QcowSnapshot.rawEntry, QcowSnapshot.headerBytes, QcowSnapshot.extraBytes,
        h16, SNAPSHOT_EXTRA_DATA_LEN_16, SNAPSHOT_EXTRA_DATA_LEN_24]
    all_goals simp
  · rw [if_neg (by rw [h24]; decide)]
    dsimp only
    rw [if_pos h24, h24,
      show List.replicate (SNAPSHOT_HEADER_SIZE + SNAPSHOT_EXTRA_DATA_LEN_24) (0 : UInt8) = [] ++ List.replicate 64 0
        from rfl]
    repeat rw [beWriteAt_zeros]
    · simp [QcowSnapshot.entryBytes, QcowSnapshot.rawEntry, QcowSnapshot.headerBytes, QcowSnapshot.extraBytes,
        h24]
    all_goals simp

end Layout

/-! ## Reading an entry back -/

/-- A read inside bytes the image holds at `offset`. -/
theorem readBuffer_within {image e : List UInt8} {offset : Nat} (he : e <+: image.drop offset) (hne : e ≠ [])
    {a n : Nat} (h : a + n ≤ e.length) : readBuffer image (offset + a) n = .ok (slice e a (a + n)) := by
  obtain ⟨rest, hrest⟩ := he
  have hlen : offset + a + n ≤ image.length := by
    have hl := congrArg List.length hrest
    have hpos := List.length_pos_of_ne_nil hne
    rw [List.length_append, List.length_drop] at hl
    omega
  rw [readBuffer, if_pos hlen]
  congr 1
  -- the window of the image is the window of what it holds at `offset`
  calc slice image (offset + a) (offset + a + n) = slice (image.drop offset) a (a + n) := by
        simp only [slice, List.drop_drop, Nat.add_sub_cancel_left]
    _ = slice (e ++ rest) a (a + n) := by rw [hrest]
    _ = slice e a (a + n) := slice_append_left _ _ h

private theorem ofNat_beDecode_beEncode_u64 (x : UInt64) : UInt64.ofNat (beDecode (beEncode 8 x.toNat)) = x := by
  rw [beDecode_beEncode_of_lt (x.toNat_lt_size.trans_eq rfl), UInt64.ofNat_toNat]

private theorem ofNat_beDecode_beEncode_u16 (n : Nat) : UInt16.ofNat (beDecode (beEncode 2 n)) = UInt16.ofNat n := by
  rw [beDecode_beEncode]
  apply UInt16.toNat_inj.1
  rw [UInt16.toNat_ofNat', UInt16.toNat_ofNat', Nat.mod_mod_of_dvd _ (by decide)]

private theorem ofNat_beDecode_beEncode_u32 (x : UInt32) : UInt32.ofNat (beDecode (beEncode 4 x.toNat)) = x := by
  rw [beDecode_beEncode_of_lt (x.toNat_lt_size.trans_eq rfl), UInt32.ofNat_toNat]

/-- The header of an entry reads back as the snapshot's fields, and the two
lengths as they were written. -/
theorem fromVec_headerBytes (s : QcowSnapshot) :
    QcowSnapshotHeader.fromVec s.headerBytes =
      .ok { l1TableOffset := s.l1TableOffset, l1Size := s.l1Size,
            idStrSize := UInt16.ofNat (decimalBytes s.id.toNat).length,
            nameSize := UInt16.ofNat s.name.utf8ByteSize, dateSec := s.dateSec, dateNsec := s.dateNsec,
            vmClockNsec := s.vmClockNsec, vmStateSize := s.vmStateSize, extraDateSize := s.extraDataSize } := by
  rw [QcowSnapshotHeader.fromVec, if_neg (by rw [QcowSnapshot.length_headerBytes]; decide)]
  simp [beReadAt, QcowSnapshot.headerBytes, slice_append_left, slice_append_right, ofNat_beDecode_beEncode_u64,
    ofNat_beDecode_beEncode_u32, ofNat_beDecode_beEncode_u16]

/-- A read of one part of what the image holds at `offset`. -/
theorem readBuffer_part {image : List UInt8} {offset : Nat} (pre mid post : List UInt8)
    (he : pre ++ mid ++ post <+: image.drop offset) (hne : pre ++ mid ++ post ≠ []) :
    readBuffer image (offset + pre.length) mid.length = .ok mid := by
  rw [readBuffer_within he hne (by simp only [List.length_append]; omega), slice_append_middle]

/-- The extra data of an entry reads back; `icount` only from 24 bytes. -/
theorem QcowSnapshot.Storable.fromVec_extraBytes {s : QcowSnapshot} (h : s.Storable) :
    QcowSnapshotExtraData.fromVec s.extraBytes =
      .ok { vmStateSizeLarge := UInt64.ofNat s.vmStateSize.toNat, diskSize := s.diskSize,
            icount := if s.extraDataSize.toNat = SNAPSHOT_EXTRA_DATA_LEN_24 then s.icount else U64_MAX } := by
  have hvm : beDecode (beEncode 8 s.vmStateSize.toNat) = s.vmStateSize.toNat :=
    beDecode_beEncode_of_lt (lt_trans s.vmStateSize.toNat_lt_size (by decide))
  rcases h.extra with h16 | h24
  · simp [QcowSnapshotExtraData.fromVec, QcowSnapshot.extraBytes, h16, beReadAt, slice_append_left,
      slice_append_right, hvm, ofNat_beDecode_beEncode_u64, Except.map, SNAPSHOT_EXTRA_DATA_LEN_16,
      SNAPSHOT_EXTRA_DATA_LEN_24]
  · simp [QcowSnapshotExtraData.fromVec, QcowSnapshot.extraBytes, h24, beReadAt, slice_append_left,
      slice_append_right, hvm, ofNat_beDecode_beEncode_u64, Except.map, SNAPSHOT_EXTRA_DATA_LEN_24]

/-- The snapshot as the loader gives it back: `icount` is read only from 24
bytes of extra data, and is `u64::MAX` otherwise. -/
def QcowSnapshot.loaded (s : QcowSnapshot) : QcowSnapshot :=
  { s with icount := if s.extraDataSize.toNat = SNAPSHOT_EXTRA_DATA_LEN_24 then s.icount else U64_MAX }

/-- The id string is 1 to 20 bytes long: its length fits its `u16` field and is not 0. -/
theorem length_decimalBytes_id (id : UInt64) :
    0 < (decimalBytes id.toNat).length ∧ (decimalBytes id.toNat).length < 2 ^ 16 := by
  refine ⟨List.length_pos_of_ne_nil (decimalBytes_ne_nil _), ?_⟩
  have h20 := length_decimalBytes_le (k := 20) (by decide) (lt_trans id.toNat_lt_size (by decide))
  omega

/-- **The reader.** An entry the image holds at `offset` reads back as the
snapshot, whatever the index and the repair flag. -/
theorem QcowSnapshot.Storable.readSnapshotEntry_entryBytes {s : QcowSnapshot} (h : s.Storable)
    {image : List UInt8} {offset : Nat} (he : s.entryBytes <+: image.drop offset) (i : Nat) (repair : Bool) :
    readSnapshotEntry image offset i repair = .ok (s.loaded, false) := by
  obtain ⟨pad, hsplit⟩ : ∃ pad, s.entryBytes =
      s.headerBytes ++ s.extraBytes ++ decimalBytes s.id.toNat ++ utf8Bytes s.name ++ pad := ⟨_, rfl⟩
  have hne : s.entryBytes ≠ [] := by
    intro hnil
    have hl := congrArg List.length hnil
    rw [hsplit, List.length_append, List.length_append, List.length_append, List.length_append,
      QcowSnapshot.length_headerBytes] at hl
    exact absurd hl (by simp [SNAPSHOT_HEADER_SIZE])
  rw [hsplit] at he hne
  -- the four reads, each of one part of the entry
  have rH := readBuffer_part [] s.headerBytes _ (by simpa only [List.nil_append, List.append_assoc] using he)
    (by simpa only [List.nil_append, List.append_assoc] using hne)
  have rX := readBuffer_part s.headerBytes s.extraBytes _ (by simpa only [List.append_assoc] using he)
    (by simpa only [List.append_assoc] using hne)
  have rI := readBuffer_part (s.headerBytes ++ s.extraBytes) (decimalBytes s.id.toNat) _
    (by simpa only [List.append_assoc] using he) (by simpa only [List.append_assoc] using hne)
  have rN := readBuffer_part _ (utf8Bytes s.name) _ he hne
  simp only [List.length_nil, Nat.add_zero, List.length_append, QcowSnapshot.length_headerBytes,
    h.length_extraBytes, length_utf8Bytes] at rH rX rI rN
  have hid := length_decimalBytes_id s.id
  have hidSize : (UInt16.ofNat (decimalBytes s.id.toNat).length).toNat = (decimalBytes s.id.toNat).length := by
    rw [UInt16.toNat_ofNat', Nat.mod_eq_of_lt hid.2]
  have hnameSize : (UInt16.ofNat s.name.utf8ByteSize).toNat = s.name.utf8ByteSize := by
    rw [UInt16.toNat_ofNat', Nat.mod_eq_of_lt h.name_lt]
  have hidNe : UInt16.ofNat (decimalBytes s.id.toNat).length ≠ 0 := by
    intro h0
    have := congrArg UInt16.toNat h0
    rw [hidSize, UInt16.toNat_zero] at this
    omega
  -- 16 or 24 bytes of extra data: nothing is dropped
  have hkept : ¬(s.extraDataSize.toNat ≠ SNAPSHOT_EXTRA_DATA_LEN_16 ∧ s.extraDataSize.toNat ≠ SNAPSHOT_EXTRA_DATA_LEN_24) := by
    rintro ⟨h16, h24⟩
    exact h.extra.elim h16 h24
  have hidUtf8 : fromUtf8 (decimalBytes s.id.toNat) = .ok (toString s.id.toNat) := fromUtf8_utf8Bytes _
  simp [readSnapshotEntry, rH, rX, rI, rN, Except.mapError, fromVec_headerBytes, hidSize, hnameSize, hidNe,
    h.fromVec_extraBytes, fromUtf8_utf8Bytes, hidUtf8,
    parseUnsigned_decimalBytes (lt_of_lt_of_eq s.id.toNat_lt_size rfl), except_ok_bind, hkept]
  exact ⟨rfl, h.extra.resolve_left⟩

/-! ## Loading a whole table -/

/-- The state after loading the snapshots of `l` into a fresh state with
cluster size `cs`. -/
def tableState (cs : UInt64) (l : List QcowSnapshot) : InternalSnapshot :=
  { snapshots := l.map QcowSnapshot.loaded, clusterSize := cs, snapshotSize := (l.map QcowSnapshot.getSize).sum,
    nbSnapshots := l.length }

@[simp] theorem QcowSnapshot.getSize_loaded (s : QcowSnapshot) : s.loaded.getSize = s.getSize := rfl

/-- Adding the next loaded snapshot extends the table state by it. -/
theorem addSnapshot_tableState (cs : UInt64) (l : List QcowSnapshot) (s : QcowSnapshot) :
    (tableState cs l).addSnapshot s.loaded = tableState cs (l ++ [s]) := by
  simp [tableState, InternalSnapshot.addSnapshot]

/-- What the loop of `load_snapshot_table` keeps while it reads the table of
`l` into a fresh state with cluster size `cs`: the first `i` snapshots are
loaded, nothing was counted, and the table so far is within 64 MiB. -/
structure LoadInv (cs : UInt64) (l : List QcowSnapshot) (st : LoadState) : Prop where
  i_le : st.i ≤ l.length
  snap : st.snap = tableState cs (l.take st.i)
  reduced : st.clustersReduced = 0
  dropped : st.extraDataDropped = 0
  size_le : ((l.take st.i).map QcowSnapshot.getSize).sum ≤ QCOW2_MAX_SNAPSHOTS * 1024

section Table

variable {cs : UInt64} {l : List QcowSnapshot} {image : List UInt8} {addr : Nat}

/-- The entries of the first `k` snapshots take `get_size` bytes each. -/
theorem length_flatten_entryBytes (hl : ∀ s ∈ l, s.Storable) (k : Nat) :
    ((l.take k).map QcowSnapshot.entryBytes).flatten.length = ((l.take k).map QcowSnapshot.getSize).sum := by
  have hmap : (l.take k).map (List.length ∘ QcowSnapshot.entryBytes) = (l.take k).map QcowSnapshot.getSize :=
    List.map_congr_left fun s hs => by
      rw [Function.comp_apply]
      exact (hl s (List.mem_of_mem_take hs)).length_entryBytes
  rw [List.length_flatten, List.map_map, hmap]

/-- Entry `i` of a table the image holds at `addr` starts at `addr` plus the
sizes of the entries before it. -/
theorem entryBytes_prefix_drop (hl : ∀ s ∈ l, s.Storable)
    (himg : (l.map QcowSnapshot.entryBytes).flatten <+: image.drop addr) {i : Nat} (hi : i < l.length) :
    l[i].entryBytes <+: image.drop (addr + ((l.take i).map QcowSnapshot.getSize).sum) := by
  obtain ⟨rest, hrest⟩ := himg
  have hsplit : (l.map QcowSnapshot.entryBytes).flatten =
      ((l.take i).map QcowSnapshot.entryBytes).flatten ++
        (l[i].entryBytes ++ ((l.drop (i + 1)).map QcowSnapshot.entryBytes).flatten) := by
    conv_lhs => rw [← List.take_append_drop i l, List.drop_eq_getElem_cons hi]
    rw [List.map_append, List.flatten_append, List.map_cons, List.flatten_cons]
  have hdrop : image.drop (addr + ((l.take i).map QcowSnapshot.getSize).sum) =
      (image.drop addr).drop ((l.take i).map QcowSnapshot.getSize).sum := by
    rw [List.drop_drop]
  refine ⟨((l.drop (i + 1)).map QcowSnapshot.entryBytes).flatten ++ rest, ?_⟩
  rw [hdrop, ← hrest, hsplit, ← length_flatten_entryBytes hl i, List.append_assoc, List.drop_left,
    List.append_assoc]

/-- Entry `i` reads back at the running size of a state holding the entries before it. -/
theorem readSnapshotEntry_table (hl : ∀ s ∈ l, s.Storable)
    (himg : (l.map QcowSnapshot.entryBytes).flatten <+: image.drop addr) {st : LoadState} (hinv : LoadInv cs l st)
    (hi : st.i < l.length) (repair : Bool) :
    readSnapshotEntry image (addr + st.snap.snapshotSize) st.i repair = .ok (l[st.i].loaded, false) := by
  have hsize : st.snap.snapshotSize = ((l.take st.i).map QcowSnapshot.getSize).sum := by
    rw [hinv.snap]
    rfl
  rw [hsize]
  exact (hl _ (List.getElem_mem hi)).readSnapshotEntry_entryBytes (entryBytes_prefix_drop hl himg hi) _ _

/-- The size of the table up to entry `i` and past it. -/
theorem sum_take_succ (hi : i < l.length) :
    ((l.take (i + 1)).map QcowSnapshot.getSize).sum = ((l.take i).map QcowSnapshot.getSize).sum + l[i].getSize := by
  rw [List.take_succ_eq_append_getElem hi, List.map_append, List.sum_append, List.map_singleton, List.sum_singleton]

/-- The running size of a state holding the first `i` entries. -/
theorem LoadInv.snapshotSize_eq {st : LoadState} (hinv : LoadInv cs l st) :
    st.snap.snapshotSize = ((l.take st.i).map QcowSnapshot.getSize).sum := by
  rw [hinv.snap]
  rfl

/-- A pass below the end: the entry is read and added; the table then either
stays within 64 MiB and the loop goes on, or, without `repair`, fails. -/
theorem loadBody_of_lt (hl : ∀ s ∈ l, s.Storable)
    (himg : (l.map QcowSnapshot.entryBytes).flatten <+: image.drop addr) {st : LoadState} (hinv : LoadInv cs l st)
    (hi : st.i < l.length) :
    loadBody image addr l.length false st =
      if ((l.take (st.i + 1)).map QcowSnapshot.getSize).sum > QCOW2_MAX_SNAPSHOTS * 1024 then
        .fail "Snapshot table is too big" ⟨st.i, st.snap.addSnapshot l[st.i].loaded, 0, 0⟩
      else .next ⟨st.i + 1, st.snap.addSnapshot l[st.i].loaded, 0, 0⟩ := by
  have hsize : (st.snap.addSnapshot l[st.i].loaded).snapshotSize =
      ((l.take (st.i + 1)).map QcowSnapshot.getSize).sum := by
    rw [hinv.snap, addSnapshot_tableState, ← List.take_succ_eq_append_getElem hi]
    rfl
  -- the table read so far is within 64 MiB, far below `i32::MAX`
  have hoff : ¬(addr + st.snap.snapshotSize - addr > I32_MAX) := by
    have hle := hinv.size_le
    rw [Nat.add_sub_cancel_left, hinv.snapshotSize_eq]
    unfold I32_MAX QCOW2_MAX_SNAPSHOTS at *
    omega
  unfold loadBody
  rw [if_pos hi]
  dsimp only
  rw [readSnapshotEntry_table hl himg hinv hi false]
  dsimp only
  simp only [hsize, hoff, or_false, hinv.reduced, hinv.dropped, Bool.false_eq_true, if_false, Int.add_zero,
    Bool.not_false, if_true]

/-- A pass that goes on keeps the invariant, one entry further. -/
theorem LoadInv.next {st : LoadState} (hinv : LoadInv cs l st) (hi : st.i < l.length)
    (hfit : ((l.take (st.i + 1)).map QcowSnapshot.getSize).sum ≤ QCOW2_MAX_SNAPSHOTS * 1024) :
    LoadInv cs l ⟨st.i + 1, st.snap.addSnapshot l[st.i].loaded, 0, 0⟩ where
  i_le := hi
  snap := by
    show _ = tableState cs (l.take (st.i + 1))
    rw [hinv.snap, addSnapshot_tableState, ← List.take_succ_eq_append_getElem hi]
  reduced := rfl
  dropped := rfl
  size_le := hfit


/-- The table up to any entry is no bigger than the whole table. -/
theorem sum_take_getSize_le (k : Nat) :
    ((l.take k).map QcowSnapshot.getSize).sum ≤ (l.map QcowSnapshot.getSize).sum := by
  have hsplit := congrArg List.sum (List.take_append_drop k (l.map QcowSnapshot.getSize))
  rw [List.sum_append] at hsplit
  rw [List.map_take]
  omega

/-- At the end of the table the loop leaves. -/
theorem loadBody_of_ge {nb : Nat} {repair : Bool} {st : LoadState} (hi : ¬st.i < nb) :
    loadBody image addr nb repair st = .exit st := by
  unfold loadBody
  rw [if_neg hi]

theorem loadInv_start : LoadInv cs l ⟨0, tableState cs [], 0, 0⟩ where
  i_le := Nat.zero_le _
  snap := rfl
  reduced := rfl
  dropped := rfl
  size_le := Nat.zero_le _

/-- **A table within 64 MiB.** The loop reads every entry and leaves with the
whole table loaded and nothing counted. -/
theorem loadLoop_run_fits (hl : ∀ s ∈ l, s.Storable)
    (himg : (l.map QcowSnapshot.entryBytes).flatten <+: image.drop addr)
    (hfits : (l.map QcowSnapshot.getSize).sum ≤ QCOW2_MAX_SNAPSHOTS * 1024) :
    (loadLoop image addr l.length false).run ⟨0, tableState cs [], 0, 0⟩ = .exit ⟨l.length, tableState cs l, 0, 0⟩ := by
  -- below the end a pass never fails: the table up to it fits
  have hpass : ∀ st, LoadInv cs l st → ∀ hi : st.i < l.length,
      loadBody image addr l.length false st = .next ⟨st.i + 1, st.snap.addSnapshot l[st.i].loaded, 0, 0⟩ := by
    intro st hinv hi
    rw [loadBody_of_lt hl himg hinv hi, if_neg (not_lt.2 (le_trans (sum_take_getSize_le _) hfits))]
  obtain ⟨t, hrun, ht⟩ := (loadLoop image addr l.length false).run_exit_of_conserved (LoadInv cs l)
    (fun _ => (⟨l.length, tableState cs l, 0, 0⟩ : LoadState)) id
    (by
      intro st st' hinv hbody
      by_cases hi : st.i < l.length
      · rw [show (loadLoop image addr l.length false).body st = _ from hpass st hinv hi] at hbody
        cases hbody
        exact ⟨hinv.next hi (le_trans (sum_take_getSize_le _) hfits), rfl⟩
      · rw [show (loadLoop image addr l.length false).body st = _ from loadBody_of_ge hi] at hbody
        cases hbody)
    (by
      intro st t hinv hbody
      by_cases hi : st.i < l.length
      · rw [show (loadLoop image addr l.length false).body st = _ from hpass st hinv hi] at hbody
        cases hbody
      · -- the loop leaves from the end, with every entry loaded
        rw [show (loadLoop image addr l.length false).body st = _ from loadBody_of_ge hi] at hbody
        cases hbody
        have hend : st.i = l.length := le_antisymm hinv.i_le (not_lt.1 hi)
        obtain ⟨i, snap, reduced, dropped⟩ := st
        have hsnap := hinv.snap
        have hred := hinv.reduced
        have hdrop := hinv.dropped
        dsimp only at hend hsnap hred hdrop
        subst hend hred hdrop
        rw [hsnap, List.take_length]
        rfl)
    (by
      intro st e t hinv hbody
      by_cases hi : st.i < l.length
      · rw [show (loadLoop image addr l.length false).body st = _ from hpass st hinv hi] at hbody
        cases hbody
      · rw [show (loadLoop image addr l.length false).body st = _ from loadBody_of_ge hi] at hbody
        cases hbody)
    ⟨0, tableState cs [], 0, 0⟩ loadInv_start
  rw [hrun]
  exact congrArg Exit.exit ht

/-- **A table past 64 MiB.** The loop fails with "Snapshot table is too big"
at the first entry that takes the table past the limit. -/
theorem loadLoop_run_too_big (hl : ∀ s ∈ l, s.Storable)
    (himg : (l.map QcowSnapshot.entryBytes).flatten <+: image.drop addr)
    (hbig : QCOW2_MAX_SNAPSHOTS * 1024 < (l.map QcowSnapshot.getSize).sum) :
    ∃ t, (loadLoop image addr l.length false).run ⟨0, tableState cs [], 0, 0⟩ = .fail "Snapshot table is too big" t := by
  -- the invariant bounds the table read so far, so its end is never reached
  have hlt : ∀ st, LoadInv cs l st → st.i < l.length := by
    intro st hinv
    by_contra hge
    have hend : st.i = l.length := le_antisymm hinv.i_le (not_lt.1 hge)
    have hle := hinv.size_le
    rw [hend, List.take_length] at hle
    omega
  refine (loadLoop image addr l.length false).run_fail_of_inv (LoadInv cs l) ?_ ?_ ?_ _ loadInv_start
  · intro st st' hinv hbody
    rw [show (loadLoop image addr l.length false).body st = _ from loadBody_of_lt hl himg hinv (hlt st hinv)] at hbody
    split_ifs at hbody with hover
    cases hbody
    exact hinv.next (hlt st hinv) (not_lt.1 hover)
  · intro st t hinv hbody
    rw [show (loadLoop image addr l.length false).body st = _ from loadBody_of_lt hl himg hinv (hlt st hinv)] at hbody
    split_ifs at hbody
  · intro st e t hinv hbody
    rw [show (loadLoop image addr l.length false).body st = _ from loadBody_of_lt hl himg hinv (hlt st hinv)] at hbody
    split_ifs at hbody
    cases hbody
    rfl

end Table

/-- Every snapshot the format holds is written without a panic, as its entry. -/
theorem mapM_genSnapshotTableEntry {l : List QcowSnapshot} (hl : ∀ s ∈ l, s.Storable) :
    l.mapM QcowSnapshot.genSnapshotTableEntry = some (l.map QcowSnapshot.entryBytes) := by
  induction l with
  | nil => rfl
  | cons s l ih =>
    rw [List.mapM_cons, (hl s List.mem_cons_self).genSnapshotTableEntry_eq,
      ih (fun t ht => hl t (List.mem_cons_of_mem s ht))]
    rfl

section Load

variable {cs addr : UInt64} {nb : UInt32} {l : List QcowSnapshot} {image : List UInt8}

/-- `load_snapshot_table` of a table within 64 MiB, on a fresh state. -/
theorem loadSnapshotTable_fits (hl : ∀ s ∈ l, s.Storable) (hnb : nb.toNat = l.length) (haddr : addr ≠ 0)
    (halign : isAligned cs addr = true)
    (himg : (l.map QcowSnapshot.entryBytes).flatten <+: image.drop addr.toNat)
    (hfits : (l.map QcowSnapshot.getSize).sum ≤ QCOW2_MAX_SNAPSHOTS * 1024) :
    (InternalSnapshot.new.setClusterSize cs).loadSnapshotTable image addr nb false = (.ok (0, 0), tableState cs l) := by
  unfold InternalSnapshot.loadSnapshotTable
  by_cases h0 : nb = 0
  · -- no entries: nothing is read
    have hnil : l = [] := List.length_eq_zero_iff.1 (by rw [← hnb, h0]; rfl)
    subst hnil
    rw [if_pos h0]
    rfl
  · rw [if_neg h0, if_neg (by simp [haddr, halign, InternalSnapshot.setClusterSize]), hnb,
      show InternalSnapshot.new.setClusterSize cs = tableState cs [] from rfl, loadLoop_run_fits hl himg hfits]

/-- `load_snapshot_table` of a table past 64 MiB fails. -/
theorem loadSnapshotTable_too_big (hl : ∀ s ∈ l, s.Storable) (hnb : nb.toNat = l.length) (haddr : addr ≠ 0)
    (halign : isAligned cs addr = true)
    (himg : (l.map QcowSnapshot.entryBytes).flatten <+: image.drop addr.toNat)
    (hbig : QCOW2_MAX_SNAPSHOTS * 1024 < (l.map QcowSnapshot.getSize).sum) :
    ((InternalSnapshot.new.setClusterSize cs).loadSnapshotTable image addr nb false).1 =
      .error "Snapshot table is too big" := by
  have h0 : nb ≠ 0 := by
    rintro rfl
    have hnil : l = [] := List.length_eq_zero_iff.1 (by rw [← hnb]; rfl)
    subst hnil
    exact absurd hbig (by decide)
  obtain ⟨t, hrun⟩ := (loadLoop_run_too_big hl himg hbig :
    ∃ t, (loadLoop _ _ _ false).run ⟨0, tableState cs [], 0, 0⟩ = .fail "Snapshot table is too big" t)
  unfold InternalSnapshot.loadSnapshotTable
  rw [if_neg h0, if_neg (by simp [haddr, halign, InternalSnapshot.setClusterSize]), hnb,
    show InternalSnapshot.new.setClusterSize cs = tableState cs [] from rfl, hrun]

end Load

/-- **Round trip.** Snapshots the format holds, their entries written one
after the other at an aligned address and within 64 MiB, load back on a fresh
state in order: every field again, `icount` as written with 24 bytes of extra
data and `u64::MAX` with 16; each entry is as long as `get_size`, and
`snapshot_size` is their sum. -/
theorem loadSnapshotTable_genSnapshotTableEntry {cs addr : UInt64} {l : List QcowSnapshot}
    {entries : List (List UInt8)} {image : List UInt8} (hl : ∀ s ∈ l, s.Storable) (hlen : l.length < 2 ^ 32)
    (hgen : l.mapM QcowSnapshot.genSnapshotTableEntry = some entries) (haddr : addr ≠ 0)
    (halign : isAligned cs addr = true) (himg : entries.flatten <+: image.drop addr.toNat)
    (hfits : (l.map QcowSnapshot.getSize).sum ≤ QCOW2_MAX_SNAPSHOTS * 1024) :
    entries.map List.length = l.map QcowSnapshot.getSize ∧
      (InternalSnapshot.new.setClusterSize cs).loadSnapshotTable image addr (UInt32.ofNat l.length) false =
        (.ok (0, 0),
          { snapshots := l.map fun s =>
              { s with icount := if s.extraDataSize.toNat = SNAPSHOT_EXTRA_DATA_LEN_24 then s.icount else U64_MAX },
            clusterSize := cs, snapshotSize := (l.map QcowSnapshot.getSize).sum, nbSnapshots := l.length }) := by
  have hentries : entries = l.map QcowSnapshot.entryBytes := by
    rw [mapM_genSnapshotTableEntry hl] at hgen
    exact (Option.some.inj hgen).symm
  subst hentries
  have hnb : (UInt32.ofNat l.length).toNat = l.length := by
    rw [UInt32.toNat_ofNat', Nat.mod_eq_of_lt hlen]
  refine ⟨?_, loadSnapshotTable_fits hl hnb haddr halign himg hfits⟩
  rw [List.map_map]
  exact List.map_congr_left fun s hs => by
    rw [Function.comp_apply]
    exact (hl s hs).length_entryBytes

/-- Two snapshots, one with `icount` and one without, at the first cluster of
an image with 512-byte clusters. -/
theorem loadSnapshotTable_two_entries :
    let l : List QcowSnapshot :=
      [⟨0x30000, 16, 1, "base", 0x100000, 0, 1700000000, 5, 42, 7, 24⟩,
       ⟨0x40000, 16, 12, "", 0x100000, 0, 1700000100, 0, 43, 9, 16⟩]
    let image := List.replicate 512 0 ++ (l.map QcowSnapshot.entryBytes).flatten
    (∀ s ∈ l, s.Storable) ∧ (l.map QcowSnapshot.getSize).sum ≤ QCOW2_MAX_SNAPSHOTS * 1024 ∧
      (l.map QcowSnapshot.entryBytes).map List.length = l.map QcowSnapshot.getSize ∧
      (InternalSnapshot.new.setClusterSize 512).loadSnapshotTable image 512 (UInt32.ofNat l.length) false =
        (.ok (0, 0),
          { snapshots := l.map fun s =>
              { s with icount := if s.extraDataSize.toNat = SNAPSHOT_EXTRA_DATA_LEN_24 then s.icount else U64_MAX },
            clusterSize := 512, snapshotSize := (l.map QcowSnapshot.getSize).sum, nbSnapshots := l.length }) := by
  intro l image
  have hl : ∀ s ∈ l, s.Storable := by
    intro s hs
    rcases List.mem_pair.1 hs with rfl | rfl
    · exact ⟨Or.inr rfl, by decide⟩
    · exact ⟨Or.inl rfl, by decide⟩
  have hdrop : image.drop (512 : UInt64).toNat = (l.map QcowSnapshot.entryBytes).flatten :=
    List.drop_left' (List.length_replicate ..)
  have himg : (l.map QcowSnapshot.entryBytes).flatten <+: image.drop (512 : UInt64).toNat :=
    hdrop ▸ List.prefix_refl _
  have hfits : (l.map QcowSnapshot.getSize).sum ≤ QCOW2_MAX_SNAPSHOTS * 1024 := by decide
  exact ⟨hl, hfits, loadSnapshotTable_genSnapshotTableEntry hl (by decide) (mapM_genSnapshotTableEntry hl)
    (by decide) (by decide) himg hfits⟩

/-- A table of `2^20 + 1` snapshots with empty names and 16 bytes of extra
data: 64 bytes each, one entry past 64 MiB. The entries are what
`gen_snapshot_table_entry` writes, and the load fails. -/
theorem loadSnapshotTable_over_table_limit :
    let s : QcowSnapshot := ⟨0, 0, 0, "", 0, 0, 0, 0, 0, 0, 16⟩
    let l := List.replicate (2 ^ 20 + 1) s
    let image := List.replicate 512 0 ++ (l.map QcowSnapshot.entryBytes).flatten
    l.mapM QcowSnapshot.genSnapshotTableEntry = some (l.map QcowSnapshot.entryBytes) ∧
      ((InternalSnapshot.new.setClusterSize 512).loadSnapshotTable image 512 (UInt32.ofNat l.length) false).1 =
        .error "Snapshot table is too big" := by
  intro s l image
  have hs : s.Storable := ⟨Or.inl rfl, by decide⟩
  have hl : ∀ t ∈ l, t.Storable := fun t ht => (List.eq_of_mem_replicate ht) ▸ hs
  have hbig : QCOW2_MAX_SNAPSHOTS * 1024 < (l.map QcowSnapshot.getSize).sum := by
    have hsize : s.getSize = 64 := by decide
    rw [List.map_replicate, List.sum_replicate_nat, hsize]
    decide
  have hnb : (UInt32.ofNat l.length).toNat = l.length := by
    rw [List.length_replicate]
    rfl
  have hdrop : image.drop (512 : UInt64).toNat = (l.map QcowSnapshot.entryBytes).flatten :=
    List.drop_left' (List.length_replicate ..)
  have himg : (l.map QcowSnapshot.entryBytes).flatten <+: image.drop (512 : UInt64).toNat :=
    hdrop ▸ List.prefix_refl _
  exact ⟨mapM_genSnapshotTableEntry hl, loadSnapshotTable_too_big hl hnb (by decide) (by decide) himg hbig⟩

end StratoVirt.Qcow2
