import StratoVirt.Lib.Codec
import StratoVirt.Lib.Loop
import StratoVirt.Lib.LittleEndian
import StratoVirt.Migration.StateDesc
import StratoVirt.Pci.Config

/-!
# MSI-X: masking, the pending bit array and delivery: `Msix`

`devices/src/pci/msix.rs`. A function with MSI-X has a table of 16-byte
entries, one per vector (message address, data, and a vector-control word
whose bit 0 masks the vector), and a pending bit array (PBA). A vector is
masked when MSI-X is disabled, when the whole function is masked (both bits
of the capability's control register), or when its entry's mask bit is set.
The device calls `notify`: a masked vector has its pending bit set, an
unmasked one has its message sent. A vector that becomes unmasked, through a
guest write to its table entry (`table_write`) or to the control register
(`write_config`), has a pending notification sent and its bit cleared.

The pending helpers address the PBA as 64-bit words at byte offset
`vector / 64`, so vector `v` owns bit `pendingSlot v = 8 * (v / 64) + v % 64`
of the PBA read as a little-endian bit array. That is bit `v` for the first 64
vectors only; past them vectors share bits (vector 64 owns vector 8's bit).
The table write handler copies the guest's bytes into a four-byte window
whatever their number, so a write of 1, 2 or 8 bytes panics.

Panics are `Except.error` with the text Rust gives them; a handler that
returns `false` returns `.ok (false, …)`. The irqfd routes
(`gsi_msi_routes`) and the device id are not modelled: whether
`update_irq_routing` succeeded is an input of the table write, and a sent
message is a `Delivery` labelled with its vector.

* `tableWrite_panics_iff`: a guest table write that passes the bounds check
  panics exactly when it is not four bytes;
* `runMsix_ok`: any sequence of guest accesses, control register writes and
  `notify` calls on a device sized by `init_msix` runs without panic when its
  table writes are four bytes wide;
* `runMsix_refines`: for at most 64 vectors, with four-byte table writes
  whose routing update succeeds, the PBA bits and the messages sent are the
  contract's (`pendingRun`): a notification of a masked vector stays pending
  until the vector is unmasked, and is then sent once;
* `MsixOp.apply_ok`: every message sent is sent for a vector that is
  unmasked after the operation;
* `notify_sets_other_bit`: past the first 64 vectors, `notify` of a masked
  vector sets another vector's bit and not its own.
-/

namespace StratoVirt.Pci

open StratoVirt.Lib
open StratoVirt.Migration (sliceIndex)

/-! ## Constants and little-endian access -/

/-- `MSIX_TABLE_ENTRY_SIZE`. -/
def MSIX_TABLE_ENTRY_SIZE : Nat := 16
/-- `MSIX_TABLE_VEC_CTL`: the vector-control word of an entry. -/
def MSIX_TABLE_VEC_CTL : Nat := 0x0c
/-- `MSIX_TABLE_MASK_BIT`. -/
def MSIX_TABLE_MASK_BIT : UInt8 := 0x01
/-- `MSIX_MSG_UPPER_ADDR`. -/
def MSIX_MSG_UPPER_ADDR : Nat := 0x04
/-- `MSIX_MSG_DATA`. -/
def MSIX_MSG_DATA : Nat := 0x08
/-- `MSIX_CAP_CONTROL`: the control register in the capability. -/
def MSIX_CAP_CONTROL : Nat := 0x02
/-- `MSIX_CAP_ENABLE`. -/
def MSIX_CAP_ENABLE : UInt16 := 0x8000
/-- `MSIX_CAP_FUNC_MASK`. -/
def MSIX_CAP_FUNC_MASK : UInt16 := 0x4000

/-- The error of `le_read!` past the end of the buffer. -/
def outOfBoundsRead (bufLen offset dataLen : Nat) : String :=
  "Out-of-bounds read access: buf_len = " ++ toString bufLen ++ ", offset = " ++ toString offset ++
    ", data_len = " ++ toString dataLen

/-- The error of `le_write!` past the end of the buffer. -/
def outOfBoundsWrite (bufLen offset dataLen : Nat) : String :=
  "Out-of-bounds write access: buf_len = " ++ toString bufLen ++ ", offset = " ++ toString offset ++
    ", data_len = " ++ toString dataLen

/-- `le_read!`: the `dataLen`-byte register at `offset`. -/
def leRead (dataLen : Nat) (buf : List UInt8) (offset : Nat) : Except String Nat :=
  if offset + dataLen > buf.length then .error (outOfBoundsRead buf.length offset dataLen)
  else .ok (leReadAt buf offset dataLen)

/-- `le_write!`: write the `dataLen`-byte register at `offset`. -/
def leWrite (dataLen : Nat) (buf : List UInt8) (offset data : Nat) : Except String (List UInt8) :=
  if offset + dataLen > buf.length then .error (outOfBoundsWrite buf.length offset dataLen)
  else .ok (leWriteAt buf offset dataLen data)

/-- `le_read_u16`. -/
def leReadU16 (buf : List UInt8) (offset : Nat) : Except String Nat := leRead 2 buf offset
/-- `le_read_u32`. -/
def leReadU32 (buf : List UInt8) (offset : Nat) : Except String Nat := leRead 4 buf offset
/-- `le_read_u64`. -/
def leReadU64 (buf : List UInt8) (offset : Nat) : Except String Nat := leRead 8 buf offset
/-- `le_write_u64`. -/
def leWriteU64 (buf : List UInt8) (offset data : Nat) : Except String (List UInt8) :=
  leWrite 8 buf offset data

/-- `Result::unwrap`: an error becomes a panic. -/
def unwrapResult {α : Type} : Except String α → Except String α
  | .ok a => .ok a
  | .error e => .error ("called Result::unwrap() on an Err value: " ++ e)

/-- The panic of `s[i]` past the end. -/
def indexPanic (len index : Nat) : String :=
  "index out of bounds: the len is " ++ toString len ++ " but the index is " ++ toString index

/-- The panic of `copy_from_slice` between slices of different lengths. -/
def copyLenPanic (srcLen dstLen : Nat) : String :=
  "copy_from_slice: source slice length (" ++ toString srcLen ++
    ") does not match destination slice length (" ++ toString dstLen ++ ")"

/-- `buf[start..stop].copy_from_slice(src)`. -/
def copyFromSlice (buf : List UInt8) (start stop : Nat) (src : List UInt8) :
    Except String (List UInt8) := do
  let window ← sliceIndex buf start stop
  if window.length ≠ src.length then .error (copyLenPanic src.length window.length)
  else .ok (spliceAt buf start src)

@[simp] theorem leRead_of_le {dataLen offset : Nat} {buf : List UInt8} (h : offset + dataLen ≤ buf.length) :
    leRead dataLen buf offset = .ok (leReadAt buf offset dataLen) := by
  simp only [leRead, gt_iff_lt, Nat.not_lt.2 h, if_false]

@[simp] theorem leWrite_of_le {dataLen offset data : Nat} {buf : List UInt8}
    (h : offset + dataLen ≤ buf.length) :
    leWrite dataLen buf offset data = .ok (leWriteAt buf offset dataLen data) := by
  simp only [leWrite, gt_iff_lt, Nat.not_lt.2 h, if_false]

@[simp] theorem unwrapResult_ok {α : Type} (a : α) : unwrapResult (.ok a : Except String α) = .ok a := rfl

/-! ## The device -/

/-- `Message`: what an entry says to send. -/
structure Message where
  addressLo : Nat
  addressHi : Nat
  data : Nat
  deriving Repr, DecidableEq

/-- `Msix`, without the irqfd routes and the device id. -/
structure Msix where
  table : List UInt8
  pba : List UInt8
  funcMasked : Bool
  enabled : Bool
  msixCapOffset : Nat
  deriving Repr, DecidableEq

/-- One `send_msix`, labelled with the vector whose message it is. -/
structure Delivery where
  vector : Nat
  msg : Message
  deriving Repr, DecidableEq

namespace Msix

/-- `mask_all_vectors`: set the mask bit of every entry. -/
def maskAllVectors (m : Msix) : Msix :=
  let nrVectors := m.table.length / MSIX_TABLE_ENTRY_SIZE
  { m with
    table := (List.range nrVectors).foldl (fun table v =>
      let offset := v * MSIX_TABLE_ENTRY_SIZE + MSIX_TABLE_VEC_CTL
      table.set offset (table.getD offset 0 ||| MSIX_TABLE_MASK_BIT)) m.table }

/-- `Msix::new`. -/
def new (tableSize pbaSize msixCapOffset : Nat) : Msix :=
  maskAllVectors
    { table := List.replicate tableSize 0
      pba := List.replicate pbaSize 0
      funcMasked := true
      enabled := true
      msixCapOffset }

/-- `Msix::reset`. -/
def reset (m : Msix) : Msix :=
  maskAllVectors
    { m with
      table := List.replicate m.table.length 0
      pba := List.replicate m.pba.length 0
      funcMasked := true
      enabled := true }

/-- `is_vector_masked`. -/
def isVectorMasked (m : Msix) (vector : Nat) : Except String Bool :=
  if !m.enabled || m.funcMasked then .ok true
  else
    let offset := vector * MSIX_TABLE_ENTRY_SIZE + MSIX_TABLE_VEC_CTL
    match m.table[offset]? with
    | some b => .ok (b &&& MSIX_TABLE_MASK_BIT != 0)
    | none => .error (indexPanic m.table.length offset)

/-- `1 << (vector % 64)`: the vector's bit in its PBA word. -/
def pendingBit (vector : Nat) : UInt64 := 1 <<< UInt64.ofNat (vector % 64)

/-- `is_vector_pending`. -/
def isVectorPending (m : Msix) (vector : Nat) : Except String Bool := do
  let value ← unwrapResult (leReadU64 m.pba (vector / 64))
  pure (UInt64.ofNat value &&& pendingBit vector > 0)

/-- The body shared by `set_pending_vector` and `clear_pending_vector`: read
the 64-bit word at byte `vector / 64`, change it, write it back. -/
def updatePendingWord (m : Msix) (vector : Nat) (f : UInt64 → UInt64) : Except String Msix := do
  let offset := vector / 64
  let oldVal ← unwrapResult (leReadU64 m.pba offset)
  let pba ← unwrapResult (leWriteU64 m.pba offset (f (UInt64.ofNat oldVal)).toNat)
  pure { m with pba }

/-- `set_pending_vector`. -/
def setPendingVector (m : Msix) (vector : Nat) : Except String Msix :=
  updatePendingWord m vector (· ||| pendingBit vector)

/-- `clear_pending_vector`. -/
def clearPendingVector (m : Msix) (vector : Nat) : Except String Msix :=
  updatePendingWord m vector (· &&& ~~~(pendingBit vector))

/-- `get_message`. -/
def getMessage (m : Msix) (vector : Nat) : Except String Message := do
  let entryOffset := vector * MSIX_TABLE_ENTRY_SIZE
  let addressLo ← unwrapResult (leReadU32 m.table entryOffset)
  let addressHi ← unwrapResult (leReadU32 m.table (entryOffset + MSIX_MSG_UPPER_ADDR))
  let data ← unwrapResult (leReadU32 m.table (entryOffset + MSIX_MSG_DATA))
  pure { addressLo, addressHi, data }

/-- `notify`: a vector past the table is ignored, a masked one becomes
pending, an unmasked one has its message sent. -/
def notify (m : Msix) (vector : Nat) : Except String (Msix × List Delivery) :=
  if vector ≥ m.table.length / MSIX_TABLE_ENTRY_SIZE then .ok (m, [])
  else do
    let masked ← isVectorMasked m vector
    if masked then
      let m' ← setPendingVector m vector
      pure (m', [])
    else
      let msg ← getMessage m vector
      pure (m, [⟨vector, msg⟩])

/-- The `table_read` handler: the bytes read, or `false` past the table. -/
def tableRead (m : Msix) (offset len : Nat) : Option (List UInt8) :=
  if offset + len > m.table.length then none else some (slice m.table offset (offset + len))

/-- The `table_write` handler. `routeOk` is whether `update_irq_routing`
succeeds when it is called. -/
def tableWrite (m : Msix) (data : List UInt8) (offset : Nat) (routeOk : Bool) :
    Except String (Bool × Msix × List Delivery) :=
  if offset + data.length > m.table.length then .ok (false, m, [])
  else do
    let vector := offset / MSIX_TABLE_ENTRY_SIZE
    let wasMasked ← isVectorMasked m vector
    -- the copy window is four bytes, whatever the access size
    let table ← copyFromSlice m.table offset (offset + 4) data
    let m := { m with table }
    let isMasked ← isVectorMasked m vector
    if wasMasked != isMasked && !routeOk then .ok (false, m, [])
    else if wasMasked && !isMasked then do
      let pending ← isVectorPending m vector
      if pending then
        let m ← clearPendingVector m vector
        let (m, sent) ← notify m vector
        pure (true, m, sent)
      else pure (true, m, [])
    else pure (true, m, [])

/-- The `pba_read` handler. -/
def pbaRead (m : Msix) (offset len : Nat) : Option (List UInt8) :=
  if offset + len > m.pba.length then none else some (slice m.pba offset (offset + len))

/-- The bit test shared by `is_msix_enabled` and `is_msix_func_masked`. -/
def msixCtlBit (bit : UInt16) (msixCapOffset : Nat) (config : List UInt8) : Except String Bool := do
  let msixCtl ← unwrapResult (leReadU16 config (msixCapOffset + MSIX_CAP_CONTROL))
  pure (UInt16.ofNat msixCtl &&& bit > 0)

/-- `is_msix_enabled`. -/
def isMsixEnabled (msixCapOffset : Nat) (config : List UInt8) : Except String Bool :=
  msixCtlBit MSIX_CAP_ENABLE msixCapOffset config

/-- `is_msix_func_masked`. -/
def isMsixFuncMasked (msixCapOffset : Nat) (config : List UInt8) : Except String Bool :=
  msixCtlBit MSIX_CAP_FUNC_MASK msixCapOffset config

/-- One pass of the replay loop of `write_config`: an unmasked pending vector
has its bit cleared and its message sent. -/
def replayStep (acc : Msix × List Delivery) (v : Nat) : Except String (Msix × List Delivery) := do
  let masked ← isVectorMasked acc.1 v
  if masked then pure acc
  else
    let pending ← isVectorPending acc.1 v
    if pending then
      let m ← clearPendingVector acc.1 v
      let msg ← getMessage m v
      pure (m, acc.2 ++ [⟨v, msg⟩])
    else pure acc

/-- `write_config`, called with the configuration space after a guest write. -/
def writeConfig (m : Msix) (config : List UInt8) (offset : Nat) (data : List UInt8) :
    Except String (Msix × List Delivery) :=
  let msixCapControlOff := m.msixCapOffset + MSIX_CAP_CONTROL
  -- only a write reaching the byte with the enable and function-mask bits counts
  if !rangesOverlap offset data.length (msixCapControlOff + 1) 1 then .ok (m, [])
  else do
    let masked ← isMsixFuncMasked m.msixCapOffset config
    let enabled ← isMsixEnabled m.msixCapOffset config
    let maskStateChanged := !(m.funcMasked == masked && m.enabled == enabled)
    let m := { m with funcMasked := masked, enabled }
    if maskStateChanged && (m.enabled && !m.funcMasked) then
      (List.range (m.table.length / MSIX_TABLE_ENTRY_SIZE)).foldlM replayStep (m, [])
    else .ok (m, [])

end Msix

/-- What can happen to the device: guest accesses to the table and the PBA,
guest writes reaching `write_config`, and `notify` calls. -/
inductive MsixOp where
  | tableRead (offset len : Nat)
  | tableWrite (offset : Nat) (data : List UInt8) (routeOk : Bool)
  | pbaRead (offset len : Nat)
  | pbaWrite (offset : Nat) (data : List UInt8)
  | writeConfig (config : List UInt8) (offset : Nat) (data : List UInt8)
  | notify (vector : Nat)

namespace MsixOp

/-- One operation: the state after it and the messages it sent. Reads and
PBA writes change nothing (`pba_write` ignores its data). -/
def apply (m : Msix) : MsixOp → Except String (Msix × List Delivery)
  | tableRead _ _ => .ok (m, [])
  | tableWrite offset data routeOk =>
    (m.tableWrite data offset routeOk).map fun r => r.2
  | pbaRead _ _ => .ok (m, [])
  | pbaWrite _ _ => .ok (m, [])
  | writeConfig config offset data => m.writeConfig config offset data
  | notify vector => m.notify vector

/-- The vector an operation notifies. -/
def notified : MsixOp → Option Nat
  | notify vector => some vector
  | _ => none

end MsixOp

/-- A sequence of operations: the final state and every message sent. -/
def runMsix : Msix → List MsixOp → Except String (Msix × List Delivery)
  | m, [] => .ok (m, [])
  | m, op :: ops => do
    let (m', sent) ← op.apply m
    let (m'', rest) ← runMsix m' ops
    pure (m'', sent ++ rest)

/-! ## What each helper does -/

/-- `init_msix`'s PBA size, `round_up(vector_nr, 64) / 64 * 8`: a 64-bit word
for every 64 vectors. -/
def pbaSize (vectorNr : Nat) : Nat := (vectorNr + 63) / 64 * 8

/-- The bit of the PBA, read as a little-endian bit array, that the pending
helpers use for `vector`: bit `vector % 64` of the word at byte `vector / 64`. -/
def pendingSlot (vector : Nat) : Nat := 8 * (vector / 64) + vector % 64

namespace Msix

/-- The buffers of a device of `n` vectors, as `init_msix` sizes them. -/
structure Sized (n : Nat) (m : Msix) : Prop where
  table_length : m.table.length = n * MSIX_TABLE_ENTRY_SIZE
  pba_length : m.pba.length = pbaSize n

/-- Whether vector `v` is masked: MSI-X off, the function masked, or the
entry's mask bit set. -/
def vectorMasked (m : Msix) (v : Nat) : Bool :=
  !m.enabled || m.funcMasked ||
    (m.table.getD (v * MSIX_TABLE_ENTRY_SIZE + MSIX_TABLE_VEC_CTL) 0 &&& MSIX_TABLE_MASK_BIT != 0)

section Helpers

variable {m : Msix} {n v : Nat}

theorem Sized.ctl_lt (hs : m.Sized n) (hv : v < n) :
    v * MSIX_TABLE_ENTRY_SIZE + MSIX_TABLE_VEC_CTL < m.table.length := by
  rw [hs.table_length]
  simp only [MSIX_TABLE_ENTRY_SIZE, MSIX_TABLE_VEC_CTL]
  omega

theorem Sized.word_le (hs : m.Sized n) (hv : v < n) : v / 64 + 8 ≤ m.pba.length := by
  rw [hs.pba_length]
  unfold pbaSize
  omega

theorem Sized.entry_le (hs : m.Sized n) (hv : v < n) :
    v * MSIX_TABLE_ENTRY_SIZE + MSIX_MSG_DATA + 4 ≤ m.table.length := by
  rw [hs.table_length]
  simp only [MSIX_TABLE_ENTRY_SIZE, MSIX_MSG_DATA]
  omega

theorem Sized.nrVectors (hs : m.Sized n) : m.table.length / MSIX_TABLE_ENTRY_SIZE = n := by
  rw [hs.table_length]
  simp [MSIX_TABLE_ENTRY_SIZE]

theorem length_maskAllVectors (m : Msix) : m.maskAllVectors.table.length = m.table.length := by
  unfold maskAllVectors
  dsimp only
  generalize List.range _ = vs
  generalize m.table = t
  induction vs generalizing t with
  | nil => rfl
  | cons v vs ih => rw [List.foldl_cons, ih, List.length_set]

/-- `init_msix` builds a device of `n` vectors. -/
theorem sized_new (n msixCapOffset : Nat) :
    (Msix.new (n * MSIX_TABLE_ENTRY_SIZE) (pbaSize n) msixCapOffset).Sized n :=
  ⟨by rw [new, length_maskAllVectors, List.length_replicate], List.length_replicate⟩

theorem isVectorMasked_eq (h : v * MSIX_TABLE_ENTRY_SIZE + MSIX_TABLE_VEC_CTL < m.table.length) :
    m.isVectorMasked v = .ok (m.vectorMasked v) := by
  unfold isVectorMasked vectorMasked
  by_cases hoff : (!m.enabled || m.funcMasked) = true
  · rw [if_pos hoff, hoff, Bool.true_or]
  · have hon : (!m.enabled || m.funcMasked) = false := by simpa using hoff
    rw [if_neg hoff, hon, Bool.false_or]
    dsimp only
    rw [List.getElem?_eq_getElem h, List.getD_eq_getElem _ _ h]

/-- The PBA word of a vector, bit by bit. -/
theorem testBit_pendingWord (pba : List UInt8) (v : Nat) {j : Nat} (hj : j < 64) :
    (UInt64.ofNat (leReadAt pba (v / 64) 8)).toNat.testBit j = bitAt pba (8 * (v / 64) + j) := by
  rw [UInt64.toNat_ofNat', Nat.testBit_mod_two_pow, testBit_leReadAt, decide_eq_true hj, Bool.true_and,
    Bool.true_and]

theorem isVectorPending_eq (h : v / 64 + 8 ≤ m.pba.length) :
    m.isVectorPending v = .ok (bitAt m.pba (pendingSlot v)) := by
  have hs : v % 64 < 64 := Nat.mod_lt _ (by omega)
  have hbit : decide ((UInt64.ofNat (leReadAt m.pba (v / 64) 8) &&& pendingBit v) > 0) =
      (UInt64.ofNat (leReadAt m.pba (v / 64) 8)).toNat.testBit (v % 64) :=
    decide_and_shiftLeft_pos _ hs
  simp only [isVectorPending, leReadU64, leRead_of_le h, unwrapResult_ok, except_ok_bind]
  show Except.ok _ = _
  rw [hbit, testBit_pendingWord _ _ hs]
  rfl

/-- A word update rewrites the 64 bits of the vector's word by a bitwise
rule and keeps every other bit of the PBA. -/
theorem updatePendingWord_spec (h : v / 64 + 8 ≤ m.pba.length) {f : UInt64 → UInt64}
    {g : Bool → Nat → Bool} (hf : ∀ x j, (f x).toNat.testBit j = g (x.toNat.testBit j) j) :
    ∃ pba, m.updatePendingWord v f = .ok { m with pba } ∧ pba.length = m.pba.length ∧
      ∀ k, bitAt pba k =
        if 8 * (v / 64) ≤ k ∧ k < 8 * (v / 64) + 64 then g (bitAt m.pba k) (k - 8 * (v / 64))
        else bitAt m.pba k := by
  refine ⟨leWriteAt m.pba (v / 64) 8 (f (UInt64.ofNat (leReadAt m.pba (v / 64) 8))).toNat, ?_,
    length_leWriteAt _ h, fun k => ?_⟩
  · simp only [updatePendingWord, leReadU64, leWriteU64, leRead_of_le h, leWrite_of_le h, unwrapResult_ok,
      except_ok_bind]
    rfl
  · rw [bitAt_leWriteAt _ h]
    by_cases hk : 8 * (v / 64) ≤ k ∧ k < 8 * (v / 64) + 64
    · -- inside the word: the rule applied to the old bit
      rw [if_pos (by omega), if_pos hk, hf, testBit_pendingWord _ _ (by omega)]
      congr 2
      omega
    · rw [if_neg (by omega), if_neg hk]

theorem decide_eq_pendingSlot {v k : Nat} (hk : 8 * (v / 64) ≤ k ∧ k < 8 * (v / 64) + 64) :
    decide (k - 8 * (v / 64) = v % 64) = decide (k = pendingSlot v) :=
  decide_eq_decide.2 (by unfold pendingSlot; omega)

theorem ne_pendingSlot {v k : Nat} (hk : ¬(8 * (v / 64) ≤ k ∧ k < 8 * (v / 64) + 64)) :
    decide (k = pendingSlot v) = false :=
  decide_eq_false (by unfold pendingSlot; omega)

/-- `set_pending_vector` sets the vector's slot and no other bit. -/
theorem setPendingVector_spec (h : v / 64 + 8 ≤ m.pba.length) :
    ∃ pba, m.setPendingVector v = .ok { m with pba } ∧ pba.length = m.pba.length ∧
      ∀ k, bitAt pba k = (bitAt m.pba k || decide (k = pendingSlot v)) := by
  have hs : v % 64 < 64 := Nat.mod_lt _ (by omega)
  obtain ⟨pba, hm, hlen, hbits⟩ := updatePendingWord_spec (m := m) h
    (f := (· ||| pendingBit v)) (g := fun b j => b || decide (j = v % 64))
    (fun x j => testBit_or_shiftLeft x hs j)
  refine ⟨pba, hm, hlen, fun k => ?_⟩
  rw [hbits]
  by_cases hk : 8 * (v / 64) ≤ k ∧ k < 8 * (v / 64) + 64
  · rw [if_pos hk, decide_eq_pendingSlot hk]
  · rw [if_neg hk, ne_pendingSlot hk, Bool.or_false]

/-- `clear_pending_vector` clears the vector's slot and no other bit. -/
theorem clearPendingVector_spec (h : v / 64 + 8 ≤ m.pba.length) :
    ∃ pba, m.clearPendingVector v = .ok { m with pba } ∧ pba.length = m.pba.length ∧
      ∀ k, bitAt pba k = (bitAt m.pba k && !decide (k = pendingSlot v)) := by
  have hs : v % 64 < 64 := Nat.mod_lt _ (by omega)
  obtain ⟨pba, hm, hlen, hbits⟩ := updatePendingWord_spec (m := m) h
    (f := (· &&& ~~~(pendingBit v))) (g := fun b j => b && !decide (j = v % 64))
    (fun x j => testBit_and_not_shiftLeft x hs j)
  refine ⟨pba, hm, hlen, fun k => ?_⟩
  rw [hbits]
  by_cases hk : 8 * (v / 64) ≤ k ∧ k < 8 * (v / 64) + 64
  · rw [if_pos hk, decide_eq_pendingSlot hk]
  · rw [if_neg hk, ne_pendingSlot hk, Bool.not_false, Bool.and_true]

theorem getMessage_eq (h : v * MSIX_TABLE_ENTRY_SIZE + MSIX_MSG_DATA + 4 ≤ m.table.length) :
    m.getMessage v = .ok
      { addressLo := leReadAt m.table (v * MSIX_TABLE_ENTRY_SIZE) 4
        addressHi := leReadAt m.table (v * MSIX_TABLE_ENTRY_SIZE + MSIX_MSG_UPPER_ADDR) 4
        data := leReadAt m.table (v * MSIX_TABLE_ENTRY_SIZE + MSIX_MSG_DATA) 4 } := by
  have h0 : v * MSIX_TABLE_ENTRY_SIZE + 4 ≤ m.table.length := by
    simp only [MSIX_MSG_DATA] at h
    omega
  have h1 : v * MSIX_TABLE_ENTRY_SIZE + MSIX_MSG_UPPER_ADDR + 4 ≤ m.table.length := by
    simp only [MSIX_MSG_DATA, MSIX_MSG_UPPER_ADDR] at h ⊢
    omega
  simp only [getMessage, leReadU32, leRead_of_le h0, leRead_of_le h1, leRead_of_le h, unwrapResult_ok,
    except_ok_bind]
  rfl

/-- The mask status does not read the PBA. -/
@[simp] theorem vectorMasked_with_pba (pba : List UInt8) (v : Nat) :
    ({ m with pba } : Msix).vectorMasked v = m.vectorMasked v := rfl

theorem Sized.with_pba (hs : m.Sized n) {pba : List UInt8} (hlen : pba.length = m.pba.length) :
    ({ m with pba } : Msix).Sized n :=
  ⟨hs.table_length, hlen.trans hs.pba_length⟩

theorem notify_of_ge (h : m.table.length / MSIX_TABLE_ENTRY_SIZE ≤ v) : m.notify v = .ok (m, []) := by
  rw [notify, if_pos h]

/-- `notify` of a masked vector sets its slot. -/
theorem notify_masked (hs : m.Sized n) (hv : v < n) (hmask : m.vectorMasked v = true) :
    ∃ pba, m.notify v = .ok ({ m with pba }, []) ∧ pba.length = m.pba.length ∧
      ∀ k, bitAt pba k = (bitAt m.pba k || decide (k = pendingSlot v)) := by
  obtain ⟨pba, hset, hlen, hbits⟩ := setPendingVector_spec (hs.word_le hv)
  refine ⟨pba, ?_, hlen, hbits⟩
  rw [notify, if_neg (by rw [hs.nrVectors]; omega), isVectorMasked_eq (hs.ctl_lt hv), except_ok_bind, hmask,
    if_pos rfl, hset, except_ok_bind]
  rfl

/-- `notify` of an unmasked vector sends its message. -/
theorem notify_unmasked (hs : m.Sized n) (hv : v < n) (hmask : m.vectorMasked v = false) :
    ∃ msg, m.notify v = .ok (m, [⟨v, msg⟩]) := by
  obtain ⟨msg, hmsg⟩ : ∃ msg, m.getMessage v = .ok msg := ⟨_, getMessage_eq (hs.entry_le hv)⟩
  refine ⟨msg, ?_⟩
  rw [notify, if_neg (by rw [hs.nrVectors]; omega), isVectorMasked_eq (hs.ctl_lt hv), except_ok_bind, hmask,
    if_neg (by decide), hmsg, except_ok_bind]
  rfl

/-- **Past the first 64 vectors the pending helpers use another vector's
bit.** `notify` of a masked vector `v ≥ 64` sets bit `pendingSlot v`, which is
below `v` and so the bit of another vector, and leaves bit `v` as it was. -/
theorem notify_sets_other_bit (hs : m.Sized n) (hv : v < n) (h64 : 64 ≤ v) (hmask : m.vectorMasked v = true) :
    ∃ m', m.notify v = .ok (m', []) ∧ pendingSlot v < v ∧ bitAt m'.pba (pendingSlot v) = true ∧
      bitAt m'.pba v = bitAt m.pba v := by
  obtain ⟨pba, h, -, hbits⟩ := notify_masked hs hv hmask
  have hlt : pendingSlot v < v := by
    unfold pendingSlot
    omega
  refine ⟨_, h, hlt, by rw [hbits]; simp, ?_⟩
  rw [hbits, decide_eq_false (by omega), Bool.or_false]

/-- Vector 64 uses the bit of vector 8. -/
example : pendingSlot 64 = 8 := by decide

theorem copyFromSlice_eq {buf src : List UInt8} {start : Nat} (h : start + src.length ≤ buf.length) :
    copyFromSlice buf start (start + src.length) src = .ok (spliceAt buf start src) := by
  unfold copyFromSlice sliceIndex
  rw [if_neg (by omega), if_neg (by omega), except_ok_bind, length_slice h, Nat.add_sub_cancel_left,
    if_neg (by simp)]

/-- A copy into a window of another width panics. -/
theorem copyFromSlice_ne {buf src : List UInt8} {start w : Nat} (hw : w ≠ src.length) :
    ∃ e, copyFromSlice buf start (start + w) src = .error e := by
  unfold copyFromSlice sliceIndex
  by_cases hend : start + w > buf.length
  · -- the window runs past the table
    exact ⟨_, by rw [if_neg (by omega), if_pos hend]; rfl⟩
  · rw [if_neg (by omega), if_neg hend, except_ok_bind, length_slice (by omega), Nat.add_sub_cancel_left,
      if_pos hw]
    exact ⟨_, rfl⟩

/-- The table with the guest's bytes copied in at `offset`. -/
def writeTable (m : Msix) (offset : Nat) (data : List UInt8) : Msix :=
  { m with table := spliceAt m.table offset data }

/-- Whether a table write replays the written vector: the routing update
succeeded, the vector went from masked to unmasked, and its slot was set. -/
def tableFires (m : Msix) (offset : Nat) (data : List UInt8) (routeOk : Bool) : Bool :=
  let u := offset / MSIX_TABLE_ENTRY_SIZE
  routeOk && m.vectorMasked u && !(m.writeTable offset data).vectorMasked u && bitAt m.pba (pendingSlot u)

@[simp] theorem writeTable_pba (offset : Nat) (data : List UInt8) : (m.writeTable offset data).pba = m.pba :=
  rfl

theorem Sized.writeTable (hs : m.Sized n) {offset : Nat} {data : List UInt8}
    (h : offset + data.length ≤ m.table.length) : (m.writeTable offset data).Sized n :=
  ⟨(length_spliceAt h).trans hs.table_length, hs.pba_length⟩

/-- A table write leaves the mask bit of every other entry. -/
theorem vectorMasked_writeTable {offset w : Nat} {data : List UInt8} (hd : data.length = 4)
    (h : offset + 4 ≤ m.table.length) (hw : w ≠ offset / MSIX_TABLE_ENTRY_SIZE) :
    (m.writeTable offset data).vectorMasked w = m.vectorMasked w := by
  have hbyte : (spliceAt m.table offset data)[w * MSIX_TABLE_ENTRY_SIZE + MSIX_TABLE_VEC_CTL]? =
      m.table[w * MSIX_TABLE_ENTRY_SIZE + MSIX_TABLE_VEC_CTL]? := by
    -- the mask byte of entry `w` lies in the window only when `w` is the written entry
    apply getElem?_spliceAt_of_not_mem (by omega)
    simp only [MSIX_TABLE_ENTRY_SIZE, MSIX_TABLE_VEC_CTL] at hw ⊢
    omega
  simp only [vectorMasked, writeTable, List.getD_eq_getElem?_getD, hbyte]

theorem tableWrite_of_gt {data : List UInt8} {offset : Nat} {routeOk : Bool}
    (h : offset + data.length > m.table.length) : m.tableWrite data offset routeOk = .ok (false, m, []) := by
  rw [tableWrite, if_pos h]

/-- A four-byte table write: the entry is written, and when its vector goes
from masked to unmasked with its slot set (and the routing update succeeds)
the slot is cleared and the message sent. -/
theorem tableWrite_four (hs : m.Sized n) {data : List UInt8} {offset : Nat} (hd : data.length = 4)
    (hoff : offset + 4 ≤ m.table.length) (routeOk : Bool) :
    ∃ pba sent, m.tableWrite data offset routeOk =
        .ok (!(m.vectorMasked (offset / MSIX_TABLE_ENTRY_SIZE) !=
              (m.writeTable offset data).vectorMasked (offset / MSIX_TABLE_ENTRY_SIZE) && !routeOk),
          { m.writeTable offset data with pba }, sent) ∧
      pba.length = m.pba.length ∧
      (∀ k, bitAt pba k = (bitAt m.pba k && !(tableFires m offset data routeOk &&
        decide (k = pendingSlot (offset / MSIX_TABLE_ENTRY_SIZE))))) ∧
      sent.map Delivery.vector =
        if tableFires m offset data routeOk then [offset / MSIX_TABLE_ENTRY_SIZE] else [] := by
  have hu : offset / MSIX_TABLE_ENTRY_SIZE < n := by
    rw [hs.table_length] at hoff
    simp only [MSIX_TABLE_ENTRY_SIZE] at hoff ⊢
    omega
  have hs1 : (m.writeTable offset data).Sized n := hs.writeTable (by omega)
  have hcopy : copyFromSlice m.table offset (offset + 4) data = .ok (spliceAt m.table offset data) := by
    have h : copyFromSlice m.table offset (offset + data.length) data = .ok (spliceAt m.table offset data) :=
      copyFromSlice_eq (by omega)
    rwa [hd] at h
  have hm1 : ({ m with table := spliceAt m.table offset data } : Msix) = m.writeTable offset data := rfl
  rw [tableWrite, if_neg (by omega)]
  dsimp only
  rw [isVectorMasked_eq (hs.ctl_lt hu), except_ok_bind, hcopy, except_ok_bind, hm1,
    isVectorMasked_eq (hs1.ctl_lt hu), except_ok_bind]
  generalize hw : m.vectorMasked (offset / MSIX_TABLE_ENTRY_SIZE) = was
  generalize hi : (m.writeTable offset data).vectorMasked (offset / MSIX_TABLE_ENTRY_SIZE) = now
  have hfires : tableFires m offset data routeOk =
      (routeOk && was && !now && bitAt m.pba (pendingSlot (offset / MSIX_TABLE_ENTRY_SIZE))) := by
    rw [tableFires, hw, hi]
  rw [hfires]
  by_cases hflip : (was != now && !routeOk) = true
  · -- the routing update failed: the handler stops after the copy
    have hquiet : (routeOk && was && !now && bitAt m.pba (pendingSlot (offset / MSIX_TABLE_ENTRY_SIZE))) = false := by
      cases routeOk <;> simp_all
    rw [if_pos hflip, hquiet]
    exact ⟨m.pba, [], by rw [hflip]; rfl, rfl, by simp, rfl⟩
  · rw [if_neg hflip]
    by_cases hun : (was && !now) = true
    · -- the vector was unmasked: its slot decides the replay
      have hr : routeOk = true := by cases routeOk <;> cases was <;> cases now <;> simp_all
      rw [if_pos hun, isVectorPending_eq (hs1.word_le hu), except_ok_bind, writeTable_pba]
      by_cases hp : bitAt m.pba (pendingSlot (offset / MSIX_TABLE_ENTRY_SIZE)) = true
      · obtain ⟨pba, hclr, hlen, hbits⟩ := clearPendingVector_spec (hs1.word_le hu)
        have hnow : ({ m.writeTable offset data with pba } : Msix).vectorMasked (offset / MSIX_TABLE_ENTRY_SIZE) = false := by
          rw [vectorMasked_with_pba, hi]
          cases was <;> cases now <;> simp_all
        obtain ⟨msg, hnot⟩ := notify_unmasked (hs1.with_pba hlen) hu hnow
        have hfire : (routeOk && was && !now && bitAt m.pba (pendingSlot (offset / MSIX_TABLE_ENTRY_SIZE))) = true := by
          rw [hr, hp, Bool.and_true, Bool.true_and]
          exact hun
        rw [if_pos hp, hclr, except_ok_bind, hnot, except_ok_bind, hfire, if_pos rfl]
        refine ⟨pba, [⟨_, msg⟩], ?_, hlen, fun k => ?_, rfl⟩
        · rw [Bool.eq_false_iff.2 hflip]
          rfl
        · rw [hbits, Bool.true_and]
          rfl
      · have hquiet : (routeOk && was && !now && bitAt m.pba (pendingSlot (offset / MSIX_TABLE_ENTRY_SIZE))) = false := by
          simp_all
        rw [if_neg hp, hquiet]
        exact ⟨m.pba, [], by rw [Bool.eq_false_iff.2 hflip]; rfl, rfl, by simp, rfl⟩
    · -- no unmasking: the entry written, nothing else
      have hquiet : (routeOk && was && !now && bitAt m.pba (pendingSlot (offset / MSIX_TABLE_ENTRY_SIZE))) = false := by
        cases routeOk <;> cases was <;> cases now <;> simp_all
      rw [if_neg hun, hquiet]
      exact ⟨m.pba, [], by rw [Bool.eq_false_iff.2 hflip]; rfl, rfl, by simp, rfl⟩

/-- **The table write handler panics on every access that is not four
bytes wide.** A guest write inside the table panics exactly when its length is
not four: the copy into the four-byte window fails, or, for a write of zero
bytes at the end, the mask read of the entry past the table. -/
theorem tableWrite_panics_iff (hs : m.Sized n) (data : List UInt8) (offset : Nat) (routeOk : Bool) :
    (∃ e, m.tableWrite data offset routeOk = .error e) ↔
      offset + data.length ≤ m.table.length ∧ data.length ≠ 4 := by
  constructor
  · rintro ⟨e, he⟩
    by_cases hgt : offset + data.length > m.table.length
    · rw [tableWrite_of_gt hgt] at he
      cases he
    · refine ⟨by omega, fun hd => ?_⟩
      have hoff : offset + 4 ≤ m.table.length := by omega
      obtain ⟨pba, sent, hok, -⟩ := tableWrite_four hs hd hoff routeOk
      rw [hok] at he
      cases he
  · rintro ⟨hle, hd⟩
    rw [tableWrite, if_neg (by omega)]
    dsimp only
    cases hmask : m.isVectorMasked (offset / MSIX_TABLE_ENTRY_SIZE) with
    | error e => exact ⟨e, rfl⟩
    | ok was =>
      -- the mask read succeeded; the copy into the four-byte window panics
      have hcopy : ∃ e, copyFromSlice m.table offset (offset + 4) data = .error e :=
        copyFromSlice_ne (Ne.symm hd)
      obtain ⟨e, he⟩ := hcopy
      rw [except_ok_bind, he]
      exact ⟨e, rfl⟩

/-- An eight-byte write to the first entry of a one-vector table panics. -/
theorem tableWrite_eight_bytes :
    (Msix.new (1 * MSIX_TABLE_ENTRY_SIZE) (pbaSize 1) 0x40).Sized 1 ∧
      ∃ e, (Msix.new (1 * MSIX_TABLE_ENTRY_SIZE) (pbaSize 1) 0x40).tableWrite (List.replicate 8 0) 0 true =
        .error e :=
  ⟨sized_new 1 0x40,
    (tableWrite_panics_iff (sized_new 1 0x40) (List.replicate 8 0) 0 true).2 ⟨by decide, by decide⟩⟩

/-! ### `write_config` -/

/-- Bit `bit` of the control register, as `is_msix_enabled` and
`is_msix_func_masked` test it. -/
def ctlBit (bit : UInt16) (msixCapOffset : Nat) (config : List UInt8) : Bool :=
  decide (UInt16.ofNat (leReadAt config (msixCapOffset + MSIX_CAP_CONTROL) 2) &&& bit > 0)

/-- The device once `write_config` has read the control register. -/
def configState (m : Msix) (config : List UInt8) : Msix :=
  { m with
    funcMasked := ctlBit MSIX_CAP_FUNC_MASK m.msixCapOffset config
    enabled := ctlBit MSIX_CAP_ENABLE m.msixCapOffset config }

/-- Whether `write_config` replays pending vectors: the mask state changed,
and the function is now enabled and unmasked. -/
def configReplays (m : Msix) (config : List UInt8) : Bool :=
  !(m.funcMasked == (m.configState config).funcMasked && m.enabled == (m.configState config).enabled) &&
    ((m.configState config).enabled && !(m.configState config).funcMasked)

/-- Whether a replay pass sends vector `v`: unmasked with its slot set. -/
def replayFires (m : Msix) (v : Nat) : Bool := !m.vectorMasked v && bitAt m.pba (pendingSlot v)

theorem Sized.configState (hs : m.Sized n) (config : List UInt8) : (m.configState config).Sized n :=
  ⟨hs.table_length, hs.pba_length⟩

theorem msixCtlBit_eq {config : List UInt8} (h : m.msixCapOffset + MSIX_CAP_CONTROL + 2 ≤ config.length)
    (bit : UInt16) : msixCtlBit bit m.msixCapOffset config = .ok (ctlBit bit m.msixCapOffset config) := by
  simp only [msixCtlBit, leReadU16, leRead_of_le h, unwrapResult_ok, except_ok_bind]
  rfl

theorem writeConfig_eq {config data : List UInt8} {offset : Nat}
    (h : m.msixCapOffset + MSIX_CAP_CONTROL + 2 ≤ config.length) :
    m.writeConfig config offset data =
      if !rangesOverlap offset data.length (m.msixCapOffset + MSIX_CAP_CONTROL + 1) 1 then .ok (m, [])
      else if m.configReplays config then
        (List.range (m.table.length / MSIX_TABLE_ENTRY_SIZE)).foldlM replayStep (m.configState config, [])
      else .ok (m.configState config, []) := by
  unfold writeConfig
  dsimp only
  by_cases ho : (!rangesOverlap offset data.length (m.msixCapOffset + MSIX_CAP_CONTROL + 1) 1) = true
  · rw [if_pos ho, if_pos ho]
  · rw [if_neg ho, if_neg ho]
    simp only [isMsixFuncMasked, isMsixEnabled, msixCtlBit_eq h, except_ok_bind]
    rfl

/-- A replay is only made from a function-masked or disabled state, where
every vector is masked. -/
theorem vectorMasked_of_configReplays {config : List UInt8} (h : m.configReplays config = true)
    (v : Nat) : m.vectorMasked v = true := by
  unfold configReplays at h
  unfold vectorMasked
  simp only [configState] at h
  generalize ctlBit MSIX_CAP_FUNC_MASK m.msixCapOffset config = fm at h
  generalize ctlBit MSIX_CAP_ENABLE m.msixCapOffset config = en at h
  cases hf : m.funcMasked <;> cases he : m.enabled <;> cases fm <;> cases en <;> simp_all

/-- Without a replay, a masked vector stays masked: either the mask state did
not change, or the function is now masked or disabled. -/
theorem vectorMasked_configState {config : List UInt8} (h : m.configReplays config = false) {v : Nat}
    (hv : m.vectorMasked v = true) : (m.configState config).vectorMasked v = true := by
  unfold configReplays at h
  unfold vectorMasked at hv ⊢
  simp only [configState] at h ⊢
  generalize ctlBit MSIX_CAP_FUNC_MASK m.msixCapOffset config = fm at h ⊢
  generalize ctlBit MSIX_CAP_ENABLE m.msixCapOffset config = en at h ⊢
  cases hf : m.funcMasked <;> cases he : m.enabled <;> cases fm <;> cases en <;> simp_all

/-- One replay pass clears the vector's slot and sends its message when it
fires, and changes nothing else. -/
theorem replayStep_spec (hs : m.Sized n) (hv : v < n) (sent : List Delivery) :
    ∃ pba sent', replayStep (m, sent) v = .ok ({ m with pba }, sent ++ sent') ∧ pba.length = m.pba.length ∧
      (∀ k, bitAt pba k = (bitAt m.pba k && !(m.replayFires v && decide (k = pendingSlot v)))) ∧
      sent'.map Delivery.vector = if m.replayFires v then [v] else [] := by
  unfold replayStep
  dsimp only
  rw [isVectorMasked_eq (hs.ctl_lt hv), except_ok_bind]
  cases hmask : m.vectorMasked v with
  | true =>
    -- masked: the pass is skipped
    have hquiet : m.replayFires v = false := by simp [replayFires, hmask]
    rw [if_pos rfl]
    exact ⟨m.pba, [], by rw [List.append_nil]; rfl, rfl, by simp [hquiet], by simp [hquiet]⟩
  | false =>
    rw [if_neg (by decide), isVectorPending_eq (hs.word_le hv), except_ok_bind]
    cases hp : bitAt m.pba (pendingSlot v) with
    | false =>
      have hquiet : m.replayFires v = false := by simp [replayFires, hp]
      rw [if_neg (by decide)]
      exact ⟨m.pba, [], by rw [List.append_nil]; rfl, rfl, by simp [hquiet], by simp [hquiet]⟩
    | true =>
      -- unmasked and pending: cleared, then sent
      have hfire : m.replayFires v = true := by simp [replayFires, hmask, hp]
      obtain ⟨pba, hclr, hlen, hbits⟩ := clearPendingVector_spec (hs.word_le hv)
      rw [if_pos rfl, hclr, except_ok_bind, getMessage_eq ((hs.with_pba hlen).entry_le hv), except_ok_bind]
      refine ⟨pba, [_], rfl, hlen, fun k => ?_, ?_⟩
      · rw [hbits, hfire, Bool.true_and]
      · rw [if_pos hfire]
        rfl

/-- A delivery list whose vectors are `[u]` when `b` holds and none
otherwise. -/
theorem mem_of_map_vector {sent : List Delivery} {b : Bool} {u : Nat}
    (h : sent.map Delivery.vector = if b then [u] else []) {d : Delivery} (hd : d ∈ sent) :
    b = true ∧ d.vector = u := by
  have hmem : d.vector ∈ sent.map Delivery.vector := List.mem_map_of_mem hd
  rw [h] at hmem
  cases b
  · simp at hmem
  · exact ⟨rfl, List.mem_singleton.1 hmem⟩

/-- The replay loop runs to its end, changes only the PBA, and sends only
vectors unmasked in the state it runs on. -/
theorem replay_ok (hs : m.Sized n) :
    ∃ pba sent, (List.range n).foldlM replayStep (m, []) = .ok ({ m with pba }, sent) ∧
      pba.length = m.pba.length ∧ ∀ d ∈ sent, m.vectorMasked d.vector = false := by
  let I : List Nat → Msix × List Delivery → Prop := fun _ acc =>
    ∃ pba, acc.1 = { m with pba } ∧ pba.length = m.pba.length ∧
      ∀ d ∈ acc.2, m.vectorMasked d.vector = false
  have hstep : ∀ done x rest acc, done ++ x :: rest = List.range n → I done acc →
      ∃ acc', replayStep acc x = .ok acc' ∧ I (done ++ [x]) acc' := by
    rintro done x rest ⟨_, sent⟩ hsplit ⟨pba, rfl, hlen, hsent⟩
    have hx : x < n := List.mem_range.1 (hsplit ▸ List.mem_append_right done List.mem_cons_self)
    obtain ⟨pba', sent', hpass, hlen', -, hvec⟩ := replayStep_spec (hs.with_pba hlen) hx sent
    refine ⟨_, hpass, pba', rfl, hlen'.trans hlen, fun d hd => ?_⟩
    rcases List.mem_append.1 hd with hd | hd
    · exact hsent d hd
    · -- the pass sends `x` only when it fires, that is unmasked
      obtain ⟨hf, hdx⟩ := mem_of_map_vector hvec hd
      have hunm : m.vectorMasked x = false ∧ bitAt pba (pendingSlot x) = true := by
        simpa [replayFires] using hf
      rw [hdx]
      exact hunm.1
  obtain ⟨⟨m', sent⟩, hrun, pba, hm', hlen, hsent⟩ :=
    foldlM_ok_of_step I (List.range n) hstep (b := (m, [])) ⟨m.pba, rfl, rfl, by simp⟩
  dsimp only at hm'
  exact ⟨pba, sent, by rw [hrun, hm'], hlen, hsent⟩

theorem pendingSlot_of_lt {v : Nat} (h : v < 64) : pendingSlot v = v := by
  unfold pendingSlot
  omega

/-- For at most 64 vectors, where vector `v` owns bit `v`, the replay loop
clears exactly the bits of the unmasked vectors and sends exactly those that
were pending, in ascending order. -/
theorem replay_bits (hs : m.Sized n) (hn : n ≤ 64) :
    ∃ pba sent, (List.range n).foldlM replayStep (m, []) = .ok ({ m with pba }, sent) ∧
      pba.length = m.pba.length ∧
      (∀ k, bitAt pba k = (bitAt m.pba k && !(decide (k < n) && !m.vectorMasked k))) ∧
      sent.map Delivery.vector = (List.range n).filter (fun v => !m.vectorMasked v && bitAt m.pba v) := by
  -- the invariant: the vectors done so far are handled, the others untouched
  let I : List Nat → Msix × List Delivery → Prop := fun done acc =>
    ∃ pba, acc.1 = { m with pba } ∧ pba.length = m.pba.length ∧
      (∀ k, bitAt pba k = (bitAt m.pba k && !(decide (k ∈ done) && !m.vectorMasked k))) ∧
      acc.2.map Delivery.vector = done.filter (fun v => !m.vectorMasked v && bitAt m.pba v)
  have hstep : ∀ done x rest acc, done ++ x :: rest = List.range n → I done acc →
      ∃ acc', replayStep acc x = .ok acc' ∧ I (done ++ [x]) acc' := by
    rintro done x rest ⟨_, sent⟩ hsplit ⟨pba, rfl, hlen, hbits, hsent⟩
    have hx : x < n := List.mem_range.1 (hsplit ▸ List.mem_append_right done List.mem_cons_self)
    have hslot : pendingSlot x = x := pendingSlot_of_lt (by omega)
    -- each vector comes once, so `x` still has its first bit
    have hnew : x ∉ done := by
      have hnd := List.nodup_range (n := n)
      rw [← hsplit] at hnd
      exact fun hmem => (List.nodup_append.1 hnd).2.2 x hmem x List.mem_cons_self rfl
    have hfire : ({ m with pba } : Msix).replayFires x = (!m.vectorMasked x && bitAt m.pba x) := by
      simp only [replayFires, vectorMasked_with_pba, hslot, hbits, hnew, decide_false, Bool.false_and,
        Bool.not_false, Bool.and_true]
    obtain ⟨pba', sent', hpass, hlen', hbits', hvec⟩ := replayStep_spec (hs.with_pba hlen) hx sent
    refine ⟨_, hpass, pba', rfl, hlen'.trans hlen, fun k => ?_, ?_⟩
    · rw [hbits', hbits, hfire, hslot]
      by_cases hk : k = x
      · subst hk
        cases bitAt m.pba k <;> cases m.vectorMasked k <;> simp [hnew]
      · simp [hk]
    · rw [List.map_append, hsent, hvec, hfire, List.filter_append]
      cases hf : (!m.vectorMasked x && bitAt m.pba x) <;> simp [hf]
  obtain ⟨⟨m', sent⟩, hrun, pba, hm', hlen, hbits, hsent⟩ :=
    foldlM_ok_of_step I (List.range n) hstep (b := (m, [])) ⟨m.pba, rfl, rfl, by simp, rfl⟩
  dsimp only at hm' hsent
  refine ⟨pba, sent, by rw [hrun, hm'], hlen, fun k => ?_, hsent⟩
  rw [hbits]
  simp only [List.mem_range]

/-- `write_config` runs to its end, keeps the buffers, and sends only
vectors unmasked after it. -/
theorem writeConfig_ok (hs : m.Sized n) {config data : List UInt8} {offset : Nat}
    (h : m.msixCapOffset + MSIX_CAP_CONTROL + 2 ≤ config.length) :
    ∃ m' sent, m.writeConfig config offset data = .ok (m', sent) ∧ m'.Sized n ∧
      m'.msixCapOffset = m.msixCapOffset ∧ ∀ d ∈ sent, m'.vectorMasked d.vector = false := by
  rw [writeConfig_eq h]
  split
  · exact ⟨m, [], rfl, hs, rfl, by simp⟩
  · split
    · -- the replay runs over every vector of the table
      obtain ⟨pba, sent, hrun, hlen, hsent⟩ := replay_ok (hs.configState config)
      rw [hs.nrVectors]
      exact ⟨_, sent, hrun, (hs.configState config).with_pba hlen, rfl, hsent⟩
    · exact ⟨_, [], rfl, hs.configState config, rfl, by simp⟩

/-- A table write that fires leaves its vector unmasked. -/
theorem unmasked_of_tableFires {offset : Nat} {data : List UInt8} {routeOk : Bool}
    (h : m.tableFires offset data routeOk = true) :
    (m.writeTable offset data).vectorMasked (offset / MSIX_TABLE_ENTRY_SIZE) = false := by
  simp only [tableFires, Bool.and_eq_true, Bool.not_eq_true'] at h
  exact h.1.2

end Helpers

end Msix

/-! ## No panic but the table write -/

namespace MsixOp

/-- The operations that cannot panic: table writes of four bytes or past the
table, and control register writes of a configuration space holding the
register. -/
def Safe (n msixCapOffset : Nat) : MsixOp → Prop
  | tableWrite offset data _ => data.length = 4 ∨ n * MSIX_TABLE_ENTRY_SIZE < offset + data.length
  | writeConfig config _ _ => msixCapOffset + MSIX_CAP_CONTROL + 2 ≤ config.length
  | _ => True

variable {m : Msix} {n : Nat}

/-- **One operation.** A safe operation runs without panic, keeps the
buffers, and sends messages only for vectors unmasked after it. -/
theorem apply_ok (hs : m.Sized n) {op : MsixOp} (hop : op.Safe n m.msixCapOffset) :
    ∃ m' sent, op.apply m = .ok (m', sent) ∧ m'.Sized n ∧ m'.msixCapOffset = m.msixCapOffset ∧
      ∀ d ∈ sent, m'.vectorMasked d.vector = false := by
  cases op with
  | tableRead _ _ => exact ⟨m, [], rfl, hs, rfl, by simp⟩
  | pbaRead _ _ => exact ⟨m, [], rfl, hs, rfl, by simp⟩
  | pbaWrite _ _ => exact ⟨m, [], rfl, hs, rfl, by simp⟩
  | writeConfig config offset data => exact Msix.writeConfig_ok hs hop
  | notify v =>
    by_cases hv : v < n
    · cases hmask : m.vectorMasked v with
      | true =>
        obtain ⟨pba, h, hlen, -⟩ := Msix.notify_masked hs hv hmask
        exact ⟨_, [], h, hs.with_pba hlen, rfl, by simp⟩
      | false =>
        obtain ⟨msg, h⟩ := Msix.notify_unmasked hs hv hmask
        exact ⟨m, _, h, hs, rfl, by simp [hmask]⟩
    · exact ⟨m, [], Msix.notify_of_ge (by rw [hs.nrVectors]; omega), hs, rfl, by simp⟩
  | tableWrite offset data routeOk =>
    by_cases hoff : offset + data.length ≤ m.table.length
    · -- inside the table: a safe write is four bytes wide
      have hd : data.length = 4 := by
        rcases hop with hd | hgt
        · exact hd
        · rw [hs.table_length] at hoff
          omega
      have hoff4 : offset + 4 ≤ m.table.length := by omega
      obtain ⟨pba, sent, h, hlen, -, hvec⟩ := Msix.tableWrite_four hs hd hoff4 routeOk
      refine ⟨_, sent, by rw [apply, h]; rfl, (hs.writeTable hoff).with_pba hlen, rfl, fun d hd => ?_⟩
      obtain ⟨hf, hdu⟩ := Msix.mem_of_map_vector hvec hd
      rw [hdu, Msix.vectorMasked_with_pba]
      exact Msix.unmasked_of_tableFires hf
    · exact ⟨m, [], by rw [apply, Msix.tableWrite_of_gt (by omega)]; rfl, hs, rfl, by simp⟩

end MsixOp

/-- **No panic.** A run of safe operations on a device of `n` vectors
completes. -/
theorem runMsix_ok {m : Msix} {n : Nat} (hs : m.Sized n) {ops : List MsixOp}
    (hops : ∀ op ∈ ops, op.Safe n m.msixCapOffset) :
    ∃ m' sent, runMsix m ops = .ok (m', sent) ∧ m'.Sized n := by
  induction ops generalizing m with
  | nil => exact ⟨m, [], rfl, hs⟩
  | cons op ops ih =>
    obtain ⟨m1, sent1, h1, hs1, hcap, -⟩ := MsixOp.apply_ok hs (hops op List.mem_cons_self)
    obtain ⟨m2, sent2, h2, hs2⟩ := ih hs1 (fun op' hop' => hcap ▸ hops op' (List.mem_cons_of_mem _ hop'))
    refine ⟨m2, sent1 ++ sent2, ?_, hs2⟩
    simp only [runMsix, h1, h2, except_ok_bind]
    rfl

/-! ## The contract, and the device refines it up to 64 vectors -/

/-- The contract of one operation over the vectors with a notification not
yet sent (`pending`), given the mask status before and after it and the vector
it notifies. A notification of a masked vector becomes pending, one of an
unmasked vector is sent; a pending vector that the operation unmasks is sent,
once, and is no longer pending. Returns the pending vectors after it and the
vectors sent, in ascending order. -/
def pendingStep (n : Nat) (before after : Nat → Bool) (notified : Option Nat) (pending : Nat → Bool) :
    (Nat → Bool) × List Nat :=
  match notified with
  | some v =>
    if v < n then
      if before v then (fun u => pending u || decide (u = v), []) else (pending, [v])
    else (pending, [])
  | none =>
    let released := fun u => pending u && before u && !after u
    (fun u => pending u && !released u, (List.range n).filter released)

/-- The contract along a run of the device, with the mask status each
operation leaves. -/
def pendingRun (n : Nat) : Msix → List MsixOp → (Nat → Bool) → (Nat → Bool) × List Nat
  | _, [], pending => (pending, [])
  | m, op :: ops, pending =>
    match op.apply m with
    | .ok (m', _) =>
      let step := pendingStep n m.vectorMasked m'.vectorMasked op.notified pending
      let rest := pendingRun n m' ops step.1
      (rest.1, step.2 ++ rest.2)
    | .error _ => (pending, [])

section Contract

variable {n : Nat} {before after : Nat → Bool} {pending : Nat → Bool}

/-- An operation that masks no vector less releases none. -/
theorem pendingStep_of_masked (h : ∀ u, before u = true → after u = true) :
    pendingStep n before after none pending = (pending, []) := by
  have hrel : ∀ u, (pending u && before u && !after u) = false := fun u => by
    cases hb : before u
    · simp
    · simp [h u hb]
  simp only [pendingStep, hrel, Bool.not_false, Bool.and_true, List.filter_false]

/-- The vectors of the table for which a flag holds together with being `u`. -/
theorem filter_range_eq_single {u : Nat} (hu : u < n) (b : Bool) :
    (List.range n).filter (fun k => b && decide (k = u)) = if b then [u] else [] := by
  cases b
  · simp
  · simp only [Bool.true_and, if_true]
    rw [List.filter_eq u, List.count_range, if_pos hu, List.replicate_one]

end Contract

/-- What holds between operations of a device that keeps the contract: its
buffers are sized for `n` vectors, and a PBA bit is set only for a masked
vector below `n`. -/
structure PendingInv (n : Nat) (m : Msix) : Prop where
  sized : m.Sized n
  pending_masked : ∀ v, bitAt m.pba v = true → v < n ∧ m.vectorMasked v = true

/-- A new device keeps the contract: its PBA is clear. -/
theorem pendingInv_new (n msixCapOffset : Nat) :
    PendingInv n (Msix.new (n * MSIX_TABLE_ENTRY_SIZE) (pbaSize n) msixCapOffset) :=
  ⟨Msix.sized_new n msixCapOffset, fun v hv => by simp [Msix.new, Msix.maskAllVectors] at hv⟩

/-- `Msix::reset` clears the PBA, so a reset device keeps the contract. -/
theorem pendingInv_reset {m : Msix} {n : Nat} (hs : m.Sized n) : PendingInv n m.reset := by
  refine ⟨⟨?_, ?_⟩, fun v hv => by simp [Msix.reset, Msix.maskAllVectors] at hv⟩
  · rw [Msix.reset, Msix.length_maskAllVectors, List.length_replicate, hs.table_length]
  · simp only [Msix.reset, Msix.maskAllVectors, List.length_replicate, hs.pba_length]

namespace MsixOp

/-- The operations the contract is stated for: table writes of four bytes
whose routing update succeeds, and control register writes of a
configuration space holding the register. -/
def Fits (msixCapOffset : Nat) : MsixOp → Prop
  | tableWrite _ data routeOk => data.length = 4 ∧ routeOk = true
  | writeConfig config _ _ => msixCapOffset + MSIX_CAP_CONTROL + 2 ≤ config.length
  | _ => True

/-- `op` takes `m` to `m'` sending `sent` as the contract says, with the PBA
bits as the pending vectors, and keeps the invariant. -/
structure Refines (n : Nat) (m : Msix) (op : MsixOp) (m' : Msix) (sent : List Delivery) : Prop where
  apply_eq : op.apply m = .ok (m', sent)
  inv : PendingInv n m'
  cap : m'.msixCapOffset = m.msixCapOffset
  contract : (bitAt m'.pba, sent.map Delivery.vector) =
    pendingStep n m.vectorMasked m'.vectorMasked op.notified (bitAt m.pba)

variable {m : Msix} {n : Nat}

/-- An operation that changes nothing keeps the contract. -/
theorem refines_self (hi : PendingInv n m) {op : MsixOp} (h : op.apply m = .ok (m, []))
    (hn : op.notified = none) : Refines n m op m [] :=
  ⟨h, hi, rfl, by rw [hn, pendingStep_of_masked (fun _ h => h)]; rfl⟩

theorem refines_notify (hn : n ≤ 64) (hi : PendingInv n m) (v : Nat) :
    ∃ m' sent, Refines n m (notify v) m' sent := by
  by_cases hv : v < n
  · cases hmask : m.vectorMasked v with
    | true =>
      -- masked: bit `v` is set
      have hslot : pendingSlot v = v := Msix.pendingSlot_of_lt (by omega)
      obtain ⟨pba, h, hlen, hbits⟩ := Msix.notify_masked hi.sized hv hmask
      refine ⟨_, [], ⟨h, ⟨hi.sized.with_pba hlen, fun u hu => ?_⟩, rfl, ?_⟩⟩
      · rw [hbits, hslot, Bool.or_eq_true, decide_eq_true_iff] at hu
        rw [Msix.vectorMasked_with_pba]
        rcases hu with hu | rfl
        · exact hi.pending_masked u hu
        · exact ⟨hv, hmask⟩
      · simp only [pendingStep, notified, if_pos hv, hmask, if_true]
        refine Prod.ext (funext fun k => ?_) rfl
        show bitAt pba k = (bitAt m.pba k || decide (k = v))
        rw [hbits, hslot]
    | false =>
      -- unmasked: the message is sent
      obtain ⟨msg, h⟩ := Msix.notify_unmasked hi.sized hv hmask
      refine ⟨m, _, ⟨h, hi, rfl, ?_⟩⟩
      simp only [pendingStep, notified, if_pos hv, hmask]
      rfl
  · -- past the table: ignored
    refine ⟨m, [], ⟨Msix.notify_of_ge (by rw [hi.sized.nrVectors]; omega), hi, rfl, ?_⟩⟩
    simp only [pendingStep, notified, if_neg hv]
    rfl

theorem refines_tableWrite (hn : n ≤ 64) (hi : PendingInv n m) (offset : Nat) {data : List UInt8}
    (hd : data.length = 4) : ∃ m' sent, Refines n m (tableWrite offset data true) m' sent := by
  by_cases hoff : offset + 4 ≤ m.table.length
  · obtain ⟨pba, sent, h, hlen, hbits, hvec⟩ := Msix.tableWrite_four hi.sized hd hoff true
    have hu : offset / MSIX_TABLE_ENTRY_SIZE < n := by
      rw [hi.sized.table_length] at hoff
      simp only [MSIX_TABLE_ENTRY_SIZE] at hoff ⊢
      omega
    have hslot : pendingSlot (offset / MSIX_TABLE_ENTRY_SIZE) = offset / MSIX_TABLE_ENTRY_SIZE :=
      Msix.pendingSlot_of_lt (by omega)
    -- the write releases the written vector when it fires, and no other
    have hrel : ∀ w, (bitAt m.pba w && m.vectorMasked w && !(m.writeTable offset data).vectorMasked w) =
        (m.tableFires offset data true && decide (w = offset / MSIX_TABLE_ENTRY_SIZE)) := by
      intro w
      by_cases hw : w = offset / MSIX_TABLE_ENTRY_SIZE
      · subst hw
        simp only [Msix.tableFires, hslot, decide_true, Bool.and_true, Bool.true_and]
        cases bitAt m.pba (offset / MSIX_TABLE_ENTRY_SIZE) <;> simp [Bool.and_comm]
      · rw [Msix.vectorMasked_writeTable hd hoff hw, decide_eq_false hw, Bool.and_false]
        cases m.vectorMasked w <;> simp
    refine ⟨_, sent, ⟨by rw [apply, h]; rfl, ⟨(hi.sized.writeTable (by omega)).with_pba hlen, fun w hw => ?_⟩,
      rfl, ?_⟩⟩
    · -- a bit still set is of a vector masked before and not released, so still masked
      rw [hbits, hslot, Bool.and_eq_true, Bool.not_eq_true'] at hw
      obtain ⟨hlt, hmask⟩ := hi.pending_masked w hw.1
      have hr : (bitAt m.pba w && m.vectorMasked w && !(m.writeTable offset data).vectorMasked w) = false :=
        (hrel w).trans hw.2
      rw [Msix.vectorMasked_with_pba]
      exact ⟨hlt, by simpa [hw.1, hmask] using hr⟩
    · simp only [pendingStep, notified, Msix.vectorMasked_with_pba, hrel]
      refine Prod.ext (funext fun k => ?_) ?_
      · dsimp only
        rw [hbits, hslot]
      · dsimp only
        rw [hvec, filter_range_eq_single hu]
  · exact ⟨m, [], refines_self hi (by rw [apply, Msix.tableWrite_of_gt (by omega)]; rfl) rfl⟩

theorem refines_writeConfig (hn : n ≤ 64) (hi : PendingInv n m) {config data : List UInt8} (offset : Nat)
    (h : m.msixCapOffset + MSIX_CAP_CONTROL + 2 ≤ config.length) :
    ∃ m' sent, Refines n m (writeConfig config offset data) m' sent := by
  have happly : (writeConfig config offset data).apply m = m.writeConfig config offset data := rfl
  by_cases ho : (!rangesOverlap offset data.length (m.msixCapOffset + MSIX_CAP_CONTROL + 1) 1) = true
  · -- the write misses the control byte
    exact ⟨m, [], refines_self hi (by rw [happly, Msix.writeConfig_eq h, if_pos ho]) rfl⟩
  · cases hrep : m.configReplays config with
    | false =>
      -- no replay: a masked vector stays masked, nothing is released
      refine ⟨m.configState config, [], ⟨by rw [happly, Msix.writeConfig_eq h, if_neg ho, hrep]; rfl,
        ⟨hi.sized.configState config, fun v hv => ?_⟩, rfl, ?_⟩⟩
      · obtain ⟨hlt, hmask⟩ := hi.pending_masked v hv
        exact ⟨hlt, Msix.vectorMasked_configState hrep hmask⟩
      · change _ = pendingStep n m.vectorMasked (m.configState config).vectorMasked none (bitAt m.pba)
        rw [pendingStep_of_masked (fun u hu => Msix.vectorMasked_configState hrep hu)]
        rfl
    | true =>
      -- replay from a state where every vector was masked
      have hs1 := hi.sized.configState config
      obtain ⟨pba, sent, hrun, hlen, hbits, hvec⟩ := Msix.replay_bits hs1 hn
      have hrun' : m.writeConfig config offset data = .ok ({ m.configState config with pba }, sent) := by
        rw [Msix.writeConfig_eq h, if_neg ho, hrep, if_pos rfl, hi.sized.nrVectors]
        exact hrun
      have hbefore : ∀ u, m.vectorMasked u = true := Msix.vectorMasked_of_configReplays hrep
      -- the bits of `m1` are those of `m`
      have hpba : (m.configState config).pba = m.pba := rfl
      rw [hpba] at hbits hvec
      refine ⟨_, sent, ⟨by rw [happly, hrun'], ⟨hs1.with_pba hlen, fun v hv => ?_⟩, rfl, ?_⟩⟩
      · rw [hbits, Bool.and_eq_true, Bool.not_eq_true'] at hv
        have hlt := (hi.pending_masked v hv.1).1
        rw [decide_eq_true hlt, Bool.true_and, Bool.not_eq_false'] at hv
        exact ⟨hlt, by rw [Msix.vectorMasked_with_pba]; exact hv.2⟩
      · simp only [pendingStep, notified, Msix.vectorMasked_with_pba, hbefore, Bool.and_true]
        refine Prod.ext (funext fun k => ?_) ?_
        · dsimp only
          rw [hbits]
          cases hk : bitAt m.pba k
          · rfl
          · rw [decide_eq_true (hi.pending_masked k hk).1]
        · dsimp only
          rw [hvec]
          congr 1
          funext v
          exact Bool.and_comm _ _

/-- **One step of the refinement.** For at most 64 vectors, an operation the
contract is stated for keeps the invariant, and its PBA bits and messages are
the contract's. -/
theorem apply_refines (hn : n ≤ 64) (hi : PendingInv n m) {op : MsixOp} (hop : op.Fits m.msixCapOffset) :
    ∃ m' sent, Refines n m op m' sent := by
  cases op with
  | tableRead _ _ => exact ⟨m, [], refines_self hi rfl rfl⟩
  | pbaRead _ _ => exact ⟨m, [], refines_self hi rfl rfl⟩
  | pbaWrite _ _ => exact ⟨m, [], refines_self hi rfl rfl⟩
  | notify v => exact refines_notify hn hi v
  | writeConfig config offset data => exact refines_writeConfig hn hi offset hop
  | tableWrite offset data routeOk =>
    obtain ⟨hd, rfl⟩ := hop
    exact refines_tableWrite hn hi offset hd

end MsixOp

/-- **The device refines the contract up to 64 vectors.** From any state
where PBA bits are set only for masked vectors, a run of operations the
contract is stated for completes, and the PBA bits after it and the messages
sent along it are those of the contract run from the PBA bits before it. -/
theorem runMsix_refines {m : Msix} {n : Nat} (hn : n ≤ 64) (hi : PendingInv n m) {ops : List MsixOp}
    (hops : ∀ op ∈ ops, op.Fits m.msixCapOffset) :
    ∃ m' sent, runMsix m ops = .ok (m', sent) ∧ PendingInv n m' ∧
      (bitAt m'.pba, sent.map Delivery.vector) = pendingRun n m ops (bitAt m.pba) := by
  induction ops generalizing m with
  | nil => exact ⟨m, [], rfl, hi, rfl⟩
  | cons op ops ih =>
    obtain ⟨m1, sent1, hstep⟩ := MsixOp.apply_refines hn hi (hops op List.mem_cons_self)
    obtain ⟨m2, sent2, hrun, hi2, hcontract⟩ :=
      ih hstep.inv (fun op' hop' => hstep.cap ▸ hops op' (List.mem_cons_of_mem _ hop'))
    refine ⟨m2, sent1 ++ sent2, ?_, hi2, ?_⟩
    · simp only [runMsix, hstep.apply_eq, hrun, except_ok_bind]
      rfl
    · -- the contract's step, then the contract's run from the bits the step left
      have hstep1 := hstep.contract
      simp only [pendingRun, hstep.apply_eq, ← hstep1, ← hcontract, List.map_append]

end StratoVirt.Pci
