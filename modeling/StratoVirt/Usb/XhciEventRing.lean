import StratoVirt.Lib.LittleEndian
import StratoVirt.Lib.ModWindow
import StratoVirt.AddressSpace.Types

/-!
# The xHCI interrupter and its event ring

`devices/src/usb/xhci/xhci_regs.rs` (`XhciInterrupter`, the interrupter arms
of the runtime register write) and `xhci_controller.rs` (`reset_event_ring`,
`XhciEvent::to_trb`, `addr64_from_u32`). The device produces event TRBs into
a ring of `er_size` slots of 16 bytes at `er_start` in guest memory; the guest
consumes them and reports how far it got by writing the dequeue pointer
`ERDP`. The producer index `er_ep_idx` and the producer cycle state `er_pcs`
are the device's; the slot the guest reads next is
`dp = (erdp - er_start) / 16`, and `send_event` refuses to fill the last slot
before it: with one slot left it writes an `EventRingFullError` event instead
of the event, with none left it drops the event.

The model keeps what these functions read and write: the interrupter's
registers as fields (`u64` addresses and `u32` counters as `Nat`, with the
`u32` wrap written out where the source's arithmetic could wrap, register
values as `UInt32`), guest memory as one byte list that a DMA access must fit
in, the interrupt callback as a parameter, and Rust's panic on `% 0` as the
`rustPanic` error.

Main results:

* `reachable_wellFormed`: from `XhciInterrupter::new`, every sequence of
  register writes and `send_event` calls keeps the ring either unset or of
  16 to 4096 slots with the producer index inside it; so
  `reachable_sendEvent_in_ring`: `send_event` writes only into the producer's
  slot, inside the ring, and `sendEvent_ne_panic`: it never divides by zero.
* `sendEvent_eq`: on such a ring, with `erdp` in it, `send_event` is the
  decision `produced` (the event, the `EventRingFullError` event with one free
  slot left, nothing with none), the two writes of `write_trb` into the
  producer's slot (the TRB with its cycle bit toggled, then the cycle byte:
  `trbWrites`), the index update (`advanceIdx_eq`: `er_pcs` flips exactly
  when the index wraps) and the interrupt.
* `sendEvent_pending`: the events the guest has not consumed, the slots from
  `dp` up to the producer's, are never overwritten; a produced TRB is appended
  to them.
* `sendEvent_event_ring_safe`: all of it along any run on a 16-byte-aligned
  ring set up by `reset_event_ring`. There the interrupt `send_event` raises
  (which sets the `EHB` bit of `erdp`) does not move `dp`
  (`dequeueSlot?_sendIntr`), so after the `EventRingFullError` event every
  later event is dropped until the guest writes `ERDP`. On an unaligned ring it
  moves `dp` by one slot and a second `EventRingFullError` event follows
  (`sendEvent_unaligned_ring_refills`).
-/

namespace StratoVirt.Usb

open StratoVirt.Lib StratoVirt.AddressSpace

/-! ## Constants -/

/-- `TRB_SIZE`. -/
def TRB_SIZE : Nat := 16
/-- `TRB_C`, the cycle bit of a TRB's control word. -/
def TRB_C : UInt32 := 1
/-- `TRB_TYPE_SHIFT`. -/
def TRB_TYPE_SHIFT : UInt32 := 10
/-- `TRB_EV_ED`, the event-data flag of a transfer event. -/
def TRB_EV_ED : UInt32 := (1 : UInt32) <<< 2
/-- `EVENT_TRB_CCODE_SHIFT`. -/
def EVENT_TRB_CCODE_SHIFT : UInt32 := 24
/-- `EVENT_TRB_SLOT_ID_SHIFT`. -/
def EVENT_TRB_SLOT_ID_SHIFT : UInt32 := 24
/-- `EVENT_TRB_EP_ID_SHIFT`. -/
def EVENT_TRB_EP_ID_SHIFT : UInt32 := 16
/-- `IMAN_IP`, interrupt pending. -/
def IMAN_IP : UInt32 := (1 : UInt32) <<< 0
/-- `IMAN_IE`, interrupt enable. -/
def IMAN_IE : UInt32 := (1 : UInt32) <<< 1
/-- `ERDP_EHB`, the event handler busy bit of `ERDP`. -/
def ERDP_EHB : UInt32 := (1 : UInt32) <<< 3
/-- `USB_CMD_INTE`. -/
def USB_CMD_INTE : UInt32 := (1 : UInt32) <<< 2
/-- `USB_STS_EINT`. -/
def USB_STS_EINT : UInt32 := (1 : UInt32) <<< 3
/-- `2^32`, the modulus of `u32` arithmetic. -/
def U32_MOD : Nat := 2 ^ 32

/-! ## Events and TRBs -/

/-- The event TRB types of `TRBType` (`Er*`, codes 32 to 39): every
`XhciEvent` the controller builds has one of them. -/
inductive TRBType
  | erTransfer
  | erCommandComplete
  | erPortStatusChange
  | erBandwidthRequest
  | erDoorbell
  | erHostController
  | erDeviceNotification
  | erMfindexWrap
  deriving Repr, DecidableEq

/-- `trb_type as u32`. -/
def TRBType.toU32 : TRBType → UInt32
  | .erTransfer => 32
  | .erCommandComplete => 33
  | .erPortStatusChange => 34
  | .erBandwidthRequest => 35
  | .erDoorbell => 36
  | .erHostController => 37
  | .erDeviceNotification => 38
  | .erMfindexWrap => 39

/-- `TRBCCode::EventRingFullError as u32`. -/
def EVENT_RING_FULL_ERROR : UInt32 := 21

/-- The three words of a TRB that reach guest memory. -/
structure XhciTRB where
  parameter : UInt64
  status : UInt32
  control : UInt32
  deriving Repr, DecidableEq

/-- `XhciEvent`. Its `flags` are private to the controller, which only ever
sets them to `0` or `TRB_EV_ED`: an event never carries the cycle bit itself. -/
structure XhciEvent where
  trbType : TRBType
  ccode : UInt32
  ptr : UInt64
  length : UInt32
  flags : UInt32
  slotId : UInt8
  epId : UInt8
  flags_cycle : flags &&& TRB_C = 0
  deriving DecidableEq

/-- `XhciEvent::new`. -/
def XhciEvent.new (trbType : TRBType) (ccode : UInt32) : XhciEvent :=
  { trbType := trbType, ccode := ccode, ptr := 0, length := 0, flags := 0, slotId := 0,
    epId := 0, flags_cycle := by decide }

/-- `XhciEvent::to_trb`. -/
def XhciEvent.toTrb (e : XhciEvent) : XhciTRB :=
  { parameter := e.ptr
    status := e.length ||| e.ccode <<< EVENT_TRB_CCODE_SHIFT
    control := e.slotId.toUInt32 <<< EVENT_TRB_SLOT_ID_SHIFT
      ||| e.epId.toUInt32 <<< EVENT_TRB_EP_ID_SHIFT
      ||| e.flags
      ||| e.trbType.toU32 <<< TRB_TYPE_SHIFT }

/-! ## The interrupter -/

/-- The errors of the modelled functions: `UsbError::MemoryAccessOverflow`,
the `bail!`s of `send_event` and `reset_event_ring`, a failed DMA access, and
a Rust panic. -/
inductive XhciError
  | memoryAccessOverflow (addr offset : Nat)
  | dmaOutOfRange (erdp erStart erSize : Nat)
  | dmaRead (addr len : Nat)
  | dmaWrite (addr len : Nat)
  | invalidSegmentSize (size : Nat)
  | rustPanic (text : String)
  deriving Repr, DecidableEq

/-- `XhciInterrupter`, with the two operational registers it shares with the
controller (`oper_usb_cmd`, `oper_usb_status`). -/
structure XhciInterrupter where
  id : Nat
  operUsbCmd : UInt32
  operUsbStatus : UInt32
  iman : UInt32
  imod : UInt32
  erstsz : UInt32
  erstba : Nat
  erdp : Nat
  erPcs : Bool
  erStart : Nat
  erSize : Nat
  erEpIdx : Nat
  deriving Repr, DecidableEq

/-- `XhciInterrupter::new`. -/
def XhciInterrupter.new (operUsbCmd operUsbStatus : UInt32) (id : Nat) : XhciInterrupter :=
  { id := id, operUsbCmd := operUsbCmd, operUsbStatus := operUsbStatus, iman := 0, imod := 0,
    erstsz := 0, erstba := 0, erdp := 0, erPcs := true, erStart := 0, erSize := 0,
    erEpIdx := 0 }

/-- `XhciInterrupter::reset`. -/
def XhciInterrupter.reset (s : XhciInterrupter) : XhciInterrupter :=
  { s with iman := 0, imod := 0, erstsz := 0, erstba := 0, erdp := 0, erPcs := true,
           erStart := 0, erSize := 0, erEpIdx := 0 }

/-- `read_u32`: one 32-bit half of a `u64`. -/
def readU32 (value page : Nat) : UInt32 :=
  match page with
  | 0 => UInt32.ofNat value
  | 1 => UInt32.ofNat (value >>> 32)
  | _ => 0

/-- `write_u64_low`. -/
def writeU64Low (origin : Nat) (value : UInt32) : Nat :=
  origin &&& 0xFFFF_FFFF_0000_0000 ||| value.toNat

/-- `write_u64_high`. -/
def writeU64High (origin : Nat) (value : UInt32) : Nat :=
  value.toNat <<< 32 ||| origin &&& 0x0000_0000_FFFF_FFFF

/-- `addr64_from_u32`. The shift `high << 16` is a `u32` shift, so the top 16
bits of `high` are lost before the value is widened. -/
def addr64FromU32 (low high : Nat) : Nat :=
  ((high <<< 16) % U32_MOD) <<< 16 ||| low

/-- `oper_intr_enabled`. -/
def XhciInterrupter.operIntrEnabled (s : XhciInterrupter) : Bool :=
  s.operUsbCmd &&& USB_CMD_INTE == USB_CMD_INTE

/-- `enable_intr`. -/
def XhciInterrupter.enableIntr (s : XhciInterrupter) : XhciInterrupter :=
  { s with operUsbStatus := s.operUsbStatus ||| USB_STS_EINT }

/-- `send_intr`: set `EHB` in `erdp` and `IP` in `iman`, and call the
interrupt callback `intrOps` unless the guest is still busy, the interrupter
is disabled, or the controller has interrupts off. -/
def XhciInterrupter.sendIntr (intrOps : Option (Nat → UInt8 → Bool)) (s : XhciInterrupter) :
    XhciInterrupter :=
  let pending := readU32 s.erdp 0 &&& ERDP_EHB == ERDP_EHB
  let erdpLow := readU32 s.erdp 0 ||| ERDP_EHB
  let s := { s with erdp := writeU64Low s.erdp erdpLow, iman := s.iman ||| IMAN_IP }.enableIntr
  if pending then s
  else if s.iman &&& IMAN_IE != IMAN_IE then s
  else if !s.operIntrEnabled then s
  else
    match intrOps with
    | some f => if f s.id 1 then { s with iman := s.iman &&& ~~~IMAN_IP } else s
    | none => s

/-- `update_intr`: interrupter 0 reports its level to the callback. -/
def XhciInterrupter.updateIntr (intrOps : Option (Nat → UInt8 → Bool)) (s : XhciInterrupter) :
    XhciInterrupter :=
  if s.id = 0 then
    let level : UInt8 :=
      if s.iman &&& IMAN_IP == IMAN_IP && s.iman &&& IMAN_IE == IMAN_IE && s.operIntrEnabled
      then 1 else 0
    match intrOps with
    | some f => if f 0 level then { s with iman := s.iman &&& ~~~IMAN_IP } else s
    | none => s
  else s

/-! ## Guest memory -/

/-- `dma_write_bytes`: the write lands when it fits in guest memory. -/
def dmaWriteBytes (mem : List UInt8) (addr : Nat) (buf : List UInt8) :
    Except XhciError (List UInt8) :=
  if addr + buf.length ≤ mem.length then .ok (spliceAt mem addr buf)
  else .error (.dmaWrite addr buf.length)

/-- `dma_read_bytes`. -/
def dmaReadBytes (mem : List UInt8) (addr len : Nat) : Except XhciError (List UInt8) :=
  if addr + len ≤ mem.length then .ok (slice mem addr (addr + len))
  else .error (.dmaRead addr len)

/-! ## Producing events -/

/-- The 16 bytes `write_trb` builds: the parameter, the status and the
control word, little endian, in a zeroed buffer. -/
def trbBuf (parameter status control : Nat) : List UInt8 :=
  leWriteAt (leWriteAt (leWriteAt (List.replicate TRB_SIZE 0) 0 8 parameter) 8 4 status) 12 4
    control

/-- `write_trb`'s copy of a control word with the cycle bit toggled, so that
the driver does not take the slot for a new event before it is complete. -/
def toggleCycle (control : UInt32) : UInt32 :=
  if control &&& TRB_C == TRB_C then control &&& ~~~TRB_C else control ||| TRB_C

/-- `write_trb`: write the TRB into slot `er_ep_idx` with its cycle bit
toggled, then write the byte holding the cycle bit. The memory returned on an
error is the memory after the writes that landed. -/
def XhciInterrupter.writeTrb (s : XhciInterrupter) (mem : List UInt8) (trb : XhciTRB) :
    Except XhciError Unit × List UInt8 :=
  let offset := TRB_SIZE * s.erEpIdx % U32_MOD
  match checkedAdd64 s.erStart offset with
  | none => (.error (.memoryAccessOverflow s.erStart offset), mem)
  | some addr =>
    let cycle := trb.control.toUInt8
    let buf := trbBuf trb.parameter.toNat trb.status.toNat (toggleCycle trb.control).toNat
    match dmaWriteBytes mem addr buf with
    | .error e => (.error e, mem)
    | .ok mem =>
      -- "Write the cycle bit at last."
      match dmaWriteBytes mem (wrapAdd addr 12) [cycle] with
      | .error e => (.error e, mem)
      | .ok mem => (.ok (), mem)

/-- The TRB `write_event` writes for `evt`: the event's TRB with the cycle
bit set when the producer cycle state is. -/
def eventTrb (pcs : Bool) (evt : XhciEvent) : XhciTRB :=
  let trb := evt.toTrb
  if pcs then { trb with control := trb.control ||| TRB_C } else trb

/-- The index update of `write_event`: the next slot, wrapping to 0 and
flipping `er_pcs` at the end of the ring. -/
def XhciInterrupter.advanceIdx (s : XhciInterrupter) : XhciInterrupter :=
  let idx := (s.erEpIdx + 1) % U32_MOD
  if idx ≥ s.erSize then { s with erEpIdx := 0, erPcs := !s.erPcs } else { s with erEpIdx := idx }

/-- `write_event`. -/
def XhciInterrupter.writeEvent (s : XhciInterrupter) (mem : List UInt8) (evt : XhciEvent) :
    Except XhciError Unit × XhciInterrupter × List UInt8 :=
  match s.writeTrb mem (eventTrb s.erPcs evt) with
  | (.error e, mem) => (.error e, s, mem)
  | (.ok (), mem) => (.ok (), s.advanceIdx, mem)

/-- The event `send_event` writes when one free slot is left. -/
def fullErrorEvent : XhciEvent := XhciEvent.new .erHostController EVENT_RING_FULL_ERROR

/-- The text of Rust's panic on `%` by zero. -/
def remZeroPanic : String := "attempt to calculate the remainder with a divisor of zero"

/-- The end of `send_event`: raise the interrupt after a write or a drop; an
error of `write_event` returns at once. -/
def raiseAfter (intrOps : Option (Nat → UInt8 → Bool)) :
    Except XhciError Unit × XhciInterrupter × List UInt8 →
      Except XhciError Unit × XhciInterrupter × List UInt8
  | (.error e, s, mem) => (.error e, s, mem)
  | (.ok (), s, mem) => (.ok (), s.sendIntr intrOps, mem)

/-- `send_event`: check that `erdp` lies in the ring, then write the event,
or an `EventRingFullError` event when one free slot is left, or drop the event
when none is, and raise the interrupt. -/
def XhciInterrupter.sendEvent (intrOps : Option (Nat → UInt8 → Bool)) (s : XhciInterrupter)
    (mem : List UInt8) (evt : XhciEvent) : Except XhciError Unit × XhciInterrupter × List UInt8 :=
  let len := TRB_SIZE * s.erSize % U32_MOD
  match checkedAdd64 s.erStart len with
  | none => (.error (.memoryAccessOverflow s.erStart len), s, mem)
  | some erEnd =>
    if s.erdp < s.erStart ∨ s.erdp ≥ erEnd then
      (.error (.dmaOutOfRange s.erdp s.erStart s.erSize), s, mem)
    else
      let dpIdx := (s.erdp - s.erStart) / TRB_SIZE
      if s.erSize = 0 then (.error (.rustPanic remZeroPanic), s, mem)
      else
        raiseAfter intrOps <|
          if (s.erEpIdx + 2) % U32_MOD % s.erSize = dpIdx then s.writeEvent mem fullErrorEvent
          -- "Event Ring full, drop Event."
          else if (s.erEpIdx + 1) % U32_MOD % s.erSize = dpIdx then (.ok (), s, mem)
          else s.writeEvent mem evt

/-! ## Setting up the ring and the guest's register writes -/

/-- `XhciEventRingSeg::fetch_event_ring_seg`: the segment's base address
halves and its size (the reserved word is read and not used). -/
def fetchEventRingSeg (mem : List UInt8) (addr : Nat) : Except XhciError (Nat × Nat × Nat) := do
  let buf ← dmaReadBytes mem addr TRB_SIZE
  .ok (leReadAt buf 0 4, leReadAt buf 4 4, leReadAt buf 8 4)

/-- `XhciDevice::reset_event_ring`. With no segment table the ring is unset
(and `er_ep_idx` is left as it was); otherwise the one segment's base and size
become the ring, which must hold 16 to 4096 TRBs. -/
def XhciInterrupter.resetEventRing (s : XhciInterrupter) (mem : List UInt8) :
    Except XhciError XhciInterrupter :=
  if s.erstsz = 0 ∨ s.erstba = 0 then .ok { s with erStart := 0, erSize := 0 }
  else do
    let (addrLo, addrHi, size) ← fetchEventRingSeg mem s.erstba
    if size < 16 ∨ size > 4096 then .error (.invalidSegmentSize size)
    else .ok { s with erStart := addr64FromU32 addrLo addrHi, erSize := size, erEpIdx := 0,
                      erPcs := true }

/-- The registers of one interrupter in the runtime register space. -/
inductive IntrReg
  | iman
  | imod
  | erstsz
  | erstbaLo
  | erstbaHi
  | erdpLo
  | erdpHi
  deriving Repr, DecidableEq

/-- The register at `offset & 0x1f` of an interrupter's block
(`XHCI_INTR_REG_*`); other offsets are refused. -/
def IntrReg.ofOffset (offset : Nat) : Option IntrReg :=
  match offset &&& 0x1f with
  | 0x00 => some .iman
  | 0x04 => some .imod
  | 0x08 => some .erstsz
  | 0x10 => some .erstbaLo
  | 0x14 => some .erstbaHi
  | 0x18 => some .erdpLo
  | 0x1c => some .erdpHi
  | _ => none

/-- The interrupter arms of `runtime_write`. A failed `reset_event_ring` is
logged and leaves the interrupter as it was. -/
def XhciInterrupter.write (intrOps : Option (Nat → UInt8 → Bool)) (mem : List UInt8)
    (s : XhciInterrupter) (reg : IntrReg) (value : UInt32) : XhciInterrupter :=
  match reg with
  | .iman =>
    let iman := if value &&& IMAN_IP == IMAN_IP then s.iman &&& ~~~IMAN_IP else s.iman
    let iman := iman &&& ~~~IMAN_IE ||| value &&& IMAN_IE
    XhciInterrupter.updateIntr intrOps { s with iman := iman }
  | .imod => { s with imod := value }
  | .erstsz => { s with erstsz := value &&& 0xffff }
  | .erstbaLo => { s with erstba := writeU64Low s.erstba (value &&& 0xffffffc0) }
  | .erstbaHi =>
    let s := { s with erstba := writeU64High s.erstba value }
    match s.resetEventRing mem with
    | .ok s => s
    | .error _ => s
  | .erdpLo =>
    -- "ERDP_EHB is write 1 clear."
    let erdpLo := if value &&& ERDP_EHB != ERDP_EHB
      then value &&& ~~~ERDP_EHB ||| readU32 s.erdp 0 &&& ERDP_EHB
      else value &&& ~~~ERDP_EHB
    let s := { s with erdp := writeU64Low s.erdp erdpLo }
    if value &&& ERDP_EHB == ERDP_EHB then
      let len := TRB_SIZE * s.erSize % U32_MOD
      match checkedAdd64 s.erStart len with
      | none => s
      | some erEnd =>
        if s.erdp ≥ s.erStart ∧ s.erdp < erEnd ∧ (s.erdp - s.erStart) / TRB_SIZE ≠ s.erEpIdx
        then s.sendIntr intrOps
        else s
    else s
  | .erdpHi => { s with erdp := writeU64High s.erdp value }

/-- What can happen to an interrupter: the device sends an event, or the guest
writes one of its registers. Each carries the guest memory it sees. -/
inductive IntrOp
  | sendEvent (mem : List UInt8) (evt : XhciEvent)
  | write (mem : List UInt8) (reg : IntrReg) (value : UInt32)

/-- One operation. A failed `send_event` keeps the state it left. -/
def IntrOp.apply (intrOps : Option (Nat → UInt8 → Bool)) (s : XhciInterrupter) :
    IntrOp → XhciInterrupter
  | .sendEvent mem evt => (s.sendEvent intrOps mem evt).2.1
  | .write mem reg value => s.write intrOps mem reg value

/-- A run of operations. -/
def runOps (intrOps : Option (Nat → UInt8 → Bool)) (s : XhciInterrupter) (ops : List IntrOp) :
    XhciInterrupter :=
  ops.foldl (IntrOp.apply intrOps) s

/-! ## Cycle bits and the bytes of a TRB -/

section Bytes

private theorem testBit_one_eq (j : Nat) : Nat.testBit 1 j = decide (j = 0) := by
  rw [show (1 : Nat) = 2 ^ 0 from rfl, Nat.testBit_two_pow]
  exact decide_eq_decide.2 eq_comm

/-- The source's test `control & TRB_C == TRB_C` reads the low bit. -/
theorem and_cycle_beq (c : UInt32) : (c &&& TRB_C == TRB_C) = c.toNat.testBit 0 := by
  rw [Nat.testBit_zero]
  have h : (c &&& TRB_C).toNat = c.toNat % 2 := by
    rw [UInt32.toNat_and, show TRB_C.toNat = 1 from rfl, Nat.and_one_is_mod]
  by_cases hc : c.toNat % 2 = 1
  · have : c &&& TRB_C = TRB_C := UInt32.toNat_inj.1 (by rw [h, hc]; rfl)
    simp [this, hc]
  · have : c &&& TRB_C ≠ TRB_C := fun h' => hc (by rw [← h, h']; rfl)
    simp [this, hc]

/-- Toggling the cycle bit is `xor 1` on the word. -/
theorem toNat_toggleCycle (c : UInt32) : (toggleCycle c).toNat = c.toNat ^^^ 1 := by
  apply Nat.eq_of_testBit_eq
  intro j
  unfold toggleCycle
  rw [and_cycle_beq, Nat.testBit_xor, testBit_one_eq]
  split
  · -- the bit was set: `c & !TRB_C` keeps bits 1 to 31
    rename_i h0
    rw [UInt32.toNat_and, UInt32.toNat_not, Nat.testBit_and]
    rcases Nat.eq_zero_or_pos j with rfl | hj0
    · simp [h0, show TRB_C.toNat = 1 from rfl]
    rcases Nat.lt_or_ge j 32 with hj | hj
    · rw [show UInt32.size - 1 - TRB_C.toNat = (2 ^ 31 - 1) * 2 ^ 1 by decide,
        Nat.testBit_mul_two_pow, Nat.testBit_two_pow_sub_one]
      simp only [show j ≠ 0 by omega, decide_false, Bool.xor_false]
      simp
      omega
    · have hn : c.toNat.testBit j = false :=
        Nat.testBit_lt_two_pow (Nat.lt_of_lt_of_le c.toNat_lt (Nat.pow_le_pow_right (by omega) hj))
      simp [hn, show j ≠ 0 by omega]
  · -- the bit was clear: `c | TRB_C` sets it
    rename_i h0
    rw [UInt32.toNat_or, Nat.testBit_or, show TRB_C.toNat = 1 from rfl, testBit_one_eq]
    rcases Nat.eq_zero_or_pos j with rfl | hj0
    · simp [h0]
    · simp [show j ≠ 0 by omega]

/-- Toggling flips the low bit ... -/
theorem testBit_toggleCycle (c : UInt32) :
    (toggleCycle c).toNat.testBit 0 = !c.toNat.testBit 0 := by
  rw [toNat_toggleCycle, Nat.testBit_xor, testBit_one_eq]
  simp

/-- ... and leaves the bytes above the low one alone. -/
theorem toggleCycle_div (c : UInt32) : (toggleCycle c).toNat / 256 = c.toNat / 256 := by
  rw [toNat_toggleCycle]
  rcases Nat.even_or_odd c.toNat with he | ho
  · rw [Nat.xor_one_of_even he]
    have := Nat.even_iff.1 he
    omega
  · rw [Nat.xor_one_of_odd ho]
    have := Nat.odd_iff.1 ho
    omega

/-- An event's own TRB never has the cycle bit set. -/
theorem toTrb_cycle (e : XhciEvent) : e.toTrb.control.toNat.testBit 0 = false := by
  have hf : e.flags.toNat % 2 = 0 := by
    have h := congrArg UInt32.toNat e.flags_cycle
    rw [UInt32.toNat_and, show TRB_C.toNat = 1 from rfl, Nat.and_one_is_mod] at h
    exact h
  simp [XhciEvent.toTrb, UInt32.toNat_or, UInt32.toNat_shiftLeft, EVENT_TRB_SLOT_ID_SHIFT,
    EVENT_TRB_EP_ID_SHIFT, TRB_TYPE_SHIFT, hf]

/-- The TRB `write_event` writes carries the producer cycle state. -/
theorem eventTrb_cycle (pcs : Bool) (evt : XhciEvent) :
    (eventTrb pcs evt).control.toNat.testBit 0 = pcs := by
  cases pcs
  · exact toTrb_cycle evt
  · simp [eventTrb, UInt32.toNat_or, show TRB_C.toNat = 1 from rfl]

/-- `write_trb`'s buffer is the three words side by side. -/
theorem trbBuf_eq (p st c : Nat) :
    trbBuf p st c = leEncode 8 p ++ leEncode 4 st ++ leEncode 4 c := by
  simp [trbBuf, leWriteAt, spliceAt, TRB_SIZE, List.take_append, List.drop_append,
    List.take_of_length_le, List.drop_eq_nil_of_le]

@[simp] theorem length_trbBuf (p st c : Nat) : (trbBuf p st c).length = TRB_SIZE := by
  simp [trbBuf_eq, TRB_SIZE]

/-- The byte `write_trb` writes last is the low byte of the control word. -/
theorem getElem?_trbBuf_twelve (p st c : Nat) : (trbBuf p st c)[12]? = some (UInt8.ofNat c) := by
  simp [trbBuf_eq, leEncode]

/-- The cycle byte written over the toggled TRB completes the TRB. -/
theorem spliceAt_trbBuf_toggleCycle (p st : Nat) (c : UInt32) :
    spliceAt (trbBuf p st (toggleCycle c).toNat) 12 [c.toUInt8] = trbBuf p st c.toNat := by
  have hdiv := toggleCycle_div c
  simp [trbBuf_eq, spliceAt, leEncode, hdiv]

end Bytes

/-! ## The ring, and what leaves it alone -/

/-- The address of slot `i` of the ring. -/
def XhciInterrupter.slotAddr (s : XhciInterrupter) (i : Nat) : Nat := s.erStart + TRB_SIZE * i

/-- The slot `erdp` lies in, when it lies in the ring: the slot the guest
reads next. -/
def XhciInterrupter.dequeueSlot? (s : XhciInterrupter) : Option Nat :=
  if s.erStart ≤ s.erdp ∧ s.erdp < s.slotAddr s.erSize then
    some ((s.erdp - s.erStart) / TRB_SIZE)
  else none

/-- A ring as `reset_event_ring` sets it up: 16 to 4096 slots, ending below
`2^64`, with the producer index inside. -/
structure RingOk (s : XhciInterrupter) : Prop where
  size_ge : 16 ≤ s.erSize
  size_le : s.erSize ≤ 4096
  end_lt : s.slotAddr s.erSize < U64_MOD
  idx_lt : s.erEpIdx < s.erSize

/-- Two interrupters with the same ring and the same producer state. -/
structure SameRing (s s' : XhciInterrupter) : Prop where
  start : s'.erStart = s.erStart
  size : s'.erSize = s.erSize
  idx : s'.erEpIdx = s.erEpIdx
  pcs : s'.erPcs = s.erPcs

section Ring

variable {s s' s'' : XhciInterrupter}

theorem SameRing.refl (s : XhciInterrupter) : SameRing s s := ⟨rfl, rfl, rfl, rfl⟩

theorem SameRing.trans (h : SameRing s s') (h' : SameRing s' s'') : SameRing s s'' :=
  ⟨h'.start.trans h.start, h'.size.trans h.size, h'.idx.trans h.idx, h'.pcs.trans h.pcs⟩

theorem RingOk.of_sameRing (h : RingOk s) (hs : SameRing s s') : RingOk s' := by
  have hslot : s'.slotAddr s'.erSize = s.slotAddr s.erSize := by
    simp only [XhciInterrupter.slotAddr, hs.start, hs.size]
  exact ⟨hs.size ▸ h.size_ge, hs.size ▸ h.size_le, hslot ▸ h.end_lt, by
    rw [hs.idx, hs.size]; exact h.idx_lt⟩

/-- The slot after the producer's still lies in the ring. -/
theorem RingOk.slot_succ_le (h : RingOk s) :
    s.slotAddr s.erEpIdx + TRB_SIZE ≤ s.slotAddr s.erSize := by
  have := h.idx_lt
  simp only [XhciInterrupter.slotAddr, TRB_SIZE]
  omega

/-- On a set-up ring the end of the ring computes without overflow. -/
theorem RingOk.checkedAdd_end (h : RingOk s) :
    checkedAdd64 s.erStart (TRB_SIZE * s.erSize % U32_MOD) = some (s.slotAddr s.erSize) := by
  have hlt : TRB_SIZE * s.erSize < U32_MOD := by
    have := h.size_le
    simp only [TRB_SIZE, U32_MOD]
    omega
  rw [Nat.mod_eq_of_lt hlt, checkedAdd64_eq_some]
  exact ⟨h.end_lt, rfl⟩

/-- `send_intr` only touches `erdp`, `iman` and the status register. -/
theorem sendIntr_eq (intrOps : Option (Nat → UInt8 → Bool)) (s : XhciInterrupter) :
    ∃ iman, s.sendIntr intrOps =
      { s with erdp := writeU64Low s.erdp (readU32 s.erdp 0 ||| ERDP_EHB), iman := iman,
               operUsbStatus := s.operUsbStatus ||| USB_STS_EINT } := by
  unfold XhciInterrupter.sendIntr XhciInterrupter.enableIntr
  dsimp only
  split_ifs
  · exact ⟨_, rfl⟩
  · exact ⟨_, rfl⟩
  · exact ⟨_, rfl⟩
  · cases intrOps with
    | none => exact ⟨_, rfl⟩
    | some f =>
      dsimp only
      split_ifs
      · exact ⟨_, rfl⟩
      · exact ⟨_, rfl⟩

theorem sameRing_sendIntr (intrOps : Option (Nat → UInt8 → Bool)) (s : XhciInterrupter) :
    SameRing s (s.sendIntr intrOps) := by
  obtain ⟨iman, h⟩ := sendIntr_eq intrOps s
  rw [h]
  exact ⟨rfl, rfl, rfl, rfl⟩

theorem erdp_sendIntr (intrOps : Option (Nat → UInt8 → Bool)) (s : XhciInterrupter) :
    (s.sendIntr intrOps).erdp = writeU64Low s.erdp (readU32 s.erdp 0 ||| ERDP_EHB) := by
  obtain ⟨iman, h⟩ := sendIntr_eq intrOps s
  rw [h]

/-- `update_intr` only touches `iman`. -/
theorem updateIntr_eq (intrOps : Option (Nat → UInt8 → Bool)) (s : XhciInterrupter) :
    ∃ iman, s.updateIntr intrOps = { s with iman := iman } := by
  unfold XhciInterrupter.updateIntr
  cases intrOps <;> dsimp only <;> split_ifs <;> exact ⟨_, rfl⟩

end Ring

/-! ## The busy bit and the guest's slot -/

section Busy

variable {s : XhciInterrupter}

@[simp] theorem readU32_zero (x : Nat) : readU32 x 0 = UInt32.ofNat x := rfl

/-- Setting `EHB` through the low half of `erdp` sets bit 3 of the pointer. -/
theorem writeU64Low_ehb {x : Nat} (h : x < U64_MOD) :
    writeU64Low x (readU32 x 0 ||| ERDP_EHB) = x ||| 8 := by
  apply Nat.eq_of_testBit_eq
  intro j
  unfold writeU64Low
  rw [readU32_zero, Nat.testBit_or, Nat.testBit_and, UInt32.toNat_or, Nat.testBit_or,
    UInt32.toNat_ofNat', Nat.testBit_mod_two_pow, Nat.testBit_or, show ERDP_EHB.toNat = 8 from rfl,
    show (0xFFFF_FFFF_0000_0000 : Nat) = (2 ^ 32 - 1) * 2 ^ 32 by decide, Nat.testBit_mul_two_pow,
    Nat.testBit_two_pow_sub_one]
  -- the low half is the one written, the high half is kept, nothing lies above bit 63
  rcases Nat.lt_or_ge j 32 with hj | hj
  · simp [hj, show ¬ 32 ≤ j by omega]
  rcases Nat.lt_or_ge j 64 with hj' | hj'
  · simp [hj, show j - 32 < 32 by omega, show ¬ j < 32 by omega]
  · have hx : x.testBit j = false :=
      Nat.testBit_lt_two_pow (Nat.lt_of_lt_of_le h (Nat.pow_le_pow_right (by omega) hj'))
    simp [hx, show ¬ j - 32 < 32 by omega, show ¬ j < 32 by omega]

/-- Bit 3 lies inside a slot: setting it does not change the slot. -/
theorem or_eight_div (x : Nat) : (x ||| 8) / TRB_SIZE = x / TRB_SIZE := by
  apply Nat.eq_of_testBit_eq
  intro j
  rw [show TRB_SIZE = 2 ^ 4 from rfl, Nat.testBit_div_two_pow, Nat.testBit_div_two_pow,
    Nat.testBit_or, show (8 : Nat) = 2 ^ 3 from rfl, Nat.testBit_two_pow]
  simp

/-- On a 16-byte-aligned ring, the interrupt `send_event` raises leaves the
guest's slot where it was. -/
theorem dequeueSlot?_sendIntr (h : RingOk s) (hal : s.erStart % TRB_SIZE = 0) {dp : Nat}
    (hdp : s.dequeueSlot? = some dp) (intrOps : Option (Nat → UInt8 → Bool)) :
    (s.sendIntr intrOps).dequeueSlot? = some dp := by
  have hring := sameRing_sendIntr intrOps s
  unfold XhciInterrupter.dequeueSlot? XhciInterrupter.slotAddr at hdp ⊢
  rw [erdp_sendIntr, hring.start, hring.size]
  split at hdp
  · rename_i hin
    have hlt : s.erdp < U64_MOD := Nat.lt_trans hin.2 h.end_lt
    have hle : s.erdp ≤ s.erdp ||| 8 := Nat.left_le_or
    have hdiv := or_eight_div s.erdp
    rw [writeU64Low_ehb hlt, ← Option.some.inj hdp]
    simp only [TRB_SIZE] at hin hdiv hal
    -- `erdp | 8` lies in the same slot, and the ring starts on a slot boundary
    have hin' : s.erStart ≤ s.erdp ||| 8 ∧
        (s.erdp ||| 8) < s.erStart + TRB_SIZE * s.erSize := by
      simp only [TRB_SIZE]
      omega
    rw [if_pos hin']
    simp only [TRB_SIZE]
    congr 1
    omega
  · exact absurd hdp (by simp)

end Busy

/-! ## `write_trb`, `write_event` and `send_event` on a set-up ring -/

/-- The two DMA writes of `write_trb` at `addr`, in their order: the TRB with
its cycle bit toggled, then the byte that holds the cycle bit. -/
def trbWrites (mem : List UInt8) (addr : Nat) (trb : XhciTRB) : List UInt8 :=
  spliceAt
    (spliceAt mem addr
      (trbBuf trb.parameter.toNat trb.status.toNat (toggleCycle trb.control).toNat))
    (addr + 12) [trb.control.toUInt8]

/-- The 16 bytes of a TRB in the ring. -/
def XhciTRB.bytes (trb : XhciTRB) : List UInt8 :=
  trbBuf trb.parameter.toNat trb.status.toNat trb.control.toNat

/-- What `send_event` does with `evt` when the guest reads slot `dp` next:
the TRB it writes into slot `er_ep_idx`, or `none` when it drops the event. -/
def XhciInterrupter.produced (s : XhciInterrupter) (dp : Nat) (evt : XhciEvent) :
    Option XhciTRB :=
  if (s.erEpIdx + 2) % s.erSize = dp then some (eventTrb s.erPcs fullErrorEvent)
  else if (s.erEpIdx + 1) % s.erSize = dp then none
  else some (eventTrb s.erPcs evt)

section Spec

variable {s : XhciInterrupter} {mem : List UInt8}

/-- Once both writes have landed the slot holds the TRB. -/
theorem trbWrites_eq {addr : Nat} (h : addr + TRB_SIZE ≤ mem.length) (trb : XhciTRB) :
    trbWrites mem addr trb = spliceAt mem addr trb.bytes := by
  unfold trbWrites XhciTRB.bytes
  rw [spliceAt_spliceAt_inner (by rw [length_trbBuf]; exact h) (by simp [TRB_SIZE]),
    spliceAt_trbBuf_toggleCycle]

/-- Between the two writes the cycle bit of the slot is the opposite of the
TRB's: the driver cannot take the slot for the new event before it is whole. -/
theorem cycle_between_writes {addr : Nat} (h : addr + TRB_SIZE ≤ mem.length) (trb : XhciTRB) :
    (spliceAt mem addr
        (trbBuf trb.parameter.toNat trb.status.toNat (toggleCycle trb.control).toNat))[addr + 12]?.map
      (fun b => b.toNat.testBit 0) = some (!trb.control.toNat.testBit 0) := by
  rw [getElem?_spliceAt (by rw [length_trbBuf]; exact h), if_pos ⟨by omega, by simp [TRB_SIZE]⟩,
    Nat.add_sub_cancel_left, getElem?_trbBuf_twelve, Option.map_some,
    testBit_toNat_ofNat (by decide), testBit_toggleCycle]

/-- `write_trb` on a set-up ring: both writes land when the slot lies in guest
memory, and nothing is written otherwise. -/
theorem writeTrb_eq (h : RingOk s) (trb : XhciTRB) :
    s.writeTrb mem trb =
      if s.slotAddr s.erEpIdx + TRB_SIZE ≤ mem.length then
        (.ok (), trbWrites mem (s.slotAddr s.erEpIdx) trb)
      else (.error (.dmaWrite (s.slotAddr s.erEpIdx) TRB_SIZE), mem) := by
  have hslot := h.slot_succ_le
  have hend := h.end_lt
  have hoff : TRB_SIZE * s.erEpIdx % U32_MOD = TRB_SIZE * s.erEpIdx := by
    have := h.idx_lt
    have := h.size_le
    exact Nat.mod_eq_of_lt (by simp only [TRB_SIZE, U32_MOD]; omega)
  have hadd : checkedAdd64 s.erStart (TRB_SIZE * s.erEpIdx) = some (s.slotAddr s.erEpIdx) :=
    checkedAdd64_eq_some.2
      ⟨by simp only [XhciInterrupter.slotAddr] at hslot hend ⊢; omega, rfl⟩
  unfold XhciInterrupter.writeTrb
  dsimp only
  rw [hoff, hadd]
  dsimp only
  unfold dmaWriteBytes
  rw [length_trbBuf]
  by_cases hfit : s.slotAddr s.erEpIdx + TRB_SIZE ≤ mem.length
  · -- the cycle byte lies inside the slot just written
    have h12 : AddressSpace.wrapAdd (s.slotAddr s.erEpIdx) 12 = s.slotAddr s.erEpIdx + 12 :=
      wrapAdd_of_lt (by simp only [TRB_SIZE] at hslot; omega)
    have hlen : s.slotAddr s.erEpIdx + 12 + [(trb.control.toUInt8)].length ≤
        (spliceAt mem (s.slotAddr s.erEpIdx)
          (trbBuf trb.parameter.toNat trb.status.toNat (toggleCycle trb.control).toNat)).length := by
      rw [length_spliceAt (by rw [length_trbBuf]; exact hfit)]
      simp only [TRB_SIZE, List.length_singleton] at hfit ⊢
      omega
    rw [if_pos hfit, if_pos hfit, h12]
    dsimp only
    rw [if_pos hlen]
    rfl
  · rw [if_neg hfit, if_neg hfit]

/-- The index update on a set-up ring: the next slot modulo the ring size,
and the cycle state flips exactly when the index comes round to 0. -/
theorem advanceIdx_eq (h : RingOk s) :
    s.advanceIdx =
      { s with erEpIdx := (s.erEpIdx + 1) % s.erSize,
               erPcs := if (s.erEpIdx + 1) % s.erSize = 0 then !s.erPcs else s.erPcs } := by
  have hlt := h.idx_lt
  have hle := h.size_le
  have hsucc : (s.erEpIdx + 1) % U32_MOD = s.erEpIdx + 1 :=
    Nat.mod_eq_of_lt (by simp only [U32_MOD]; omega)
  unfold XhciInterrupter.advanceIdx
  dsimp only
  rw [hsucc]
  by_cases hwrap : s.erEpIdx + 1 ≥ s.erSize
  · have hz : (s.erEpIdx + 1) % s.erSize = 0 := by
      rw [show s.erEpIdx + 1 = s.erSize by omega, Nat.mod_self]
    rw [if_pos hwrap, hz, if_pos rfl]
  · have hm : (s.erEpIdx + 1) % s.erSize = s.erEpIdx + 1 := Nat.mod_eq_of_lt (by omega)
    rw [if_neg hwrap, hm, if_neg (by omega)]

theorem sameRing_advanceIdx_start (h : RingOk s) :
    s.advanceIdx.erStart = s.erStart ∧ s.advanceIdx.erSize = s.erSize := by
  rw [advanceIdx_eq h]
  exact ⟨rfl, rfl⟩

theorem RingOk.advanceIdx (h : RingOk s) : RingOk s.advanceIdx := by
  have hpos : 0 < s.erSize := by have := h.size_ge; omega
  rw [advanceIdx_eq h]
  exact ⟨h.size_ge, h.size_le, h.end_lt, Nat.mod_lt _ hpos⟩

/-- `write_event` on a set-up ring. -/
theorem writeEvent_eq (h : RingOk s) (evt : XhciEvent) :
    s.writeEvent mem evt =
      if s.slotAddr s.erEpIdx + TRB_SIZE ≤ mem.length then
        (.ok (), s.advanceIdx, trbWrites mem (s.slotAddr s.erEpIdx) (eventTrb s.erPcs evt))
      else (.error (.dmaWrite (s.slotAddr s.erEpIdx) TRB_SIZE), s, mem) := by
  unfold XhciInterrupter.writeEvent
  rw [writeTrb_eq h]
  split_ifs <;> rfl

/-- `send_event` on a set-up ring when `erdp` lies outside it: an error, and
nothing changes. -/
theorem sendEvent_of_outside (h : RingOk s) (hdp : s.dequeueSlot? = none)
    (intrOps : Option (Nat → UInt8 → Bool)) (evt : XhciEvent) :
    s.sendEvent intrOps mem evt = (.error (.dmaOutOfRange s.erdp s.erStart s.erSize), s, mem) := by
  unfold XhciInterrupter.dequeueSlot? at hdp
  have hout : ¬ (s.erStart ≤ s.erdp ∧ s.erdp < s.slotAddr s.erSize) := fun hin => by
    rw [if_pos hin] at hdp
    exact absurd hdp (by simp)
  unfold XhciInterrupter.sendEvent
  dsimp only
  rw [h.checkedAdd_end]
  dsimp only
  rw [if_pos (by omega)]

/-- **`send_event` on a set-up ring** when the guest reads slot `dp` next:
the decision `produced`, then the two writes into slot `er_ep_idx` and the
index update, and the interrupt. A write outside guest memory fails and
changes nothing. -/
theorem sendEvent_eq (h : RingOk s) {dp : Nat} (hdp : s.dequeueSlot? = some dp)
    (intrOps : Option (Nat → UInt8 → Bool)) (evt : XhciEvent) :
    s.sendEvent intrOps mem evt =
      match s.produced dp evt with
      | none => (.ok (), s.sendIntr intrOps, mem)
      | some trb =>
        if s.slotAddr s.erEpIdx + TRB_SIZE ≤ mem.length then
          (.ok (), s.advanceIdx.sendIntr intrOps, trbWrites mem (s.slotAddr s.erEpIdx) trb)
        else (.error (.dmaWrite (s.slotAddr s.erEpIdx) TRB_SIZE), s, mem) := by
  unfold XhciInterrupter.dequeueSlot? at hdp
  split at hdp
  · rename_i hin
    have hsize := h.size_ge
    have hlt := h.idx_lt
    have hle := h.size_le
    have h2 : (s.erEpIdx + 2) % U32_MOD = s.erEpIdx + 2 :=
      Nat.mod_eq_of_lt (by simp only [U32_MOD]; omega)
    have h1 : (s.erEpIdx + 1) % U32_MOD = s.erEpIdx + 1 :=
      Nat.mod_eq_of_lt (by simp only [U32_MOD]; omega)
    unfold XhciInterrupter.sendEvent
    dsimp only
    rw [h.checkedAdd_end]
    dsimp only
    rw [if_neg (by omega), if_neg (by omega), h2, h1, Option.some.inj hdp]
    unfold XhciInterrupter.produced
    -- the three branches of the source, in its order
    by_cases hfull : (s.erEpIdx + 2) % s.erSize = dp
    · rw [if_pos hfull, if_pos hfull, writeEvent_eq h]
      split_ifs <;> rfl
    · rw [if_neg hfull, if_neg hfull]
      by_cases hdrop : (s.erEpIdx + 1) % s.erSize = dp
      · rw [if_pos hdrop, if_pos hdrop]
        rfl
      · rw [if_neg hdrop, if_neg hdrop, writeEvent_eq h]
        split_ifs <;> rfl
  · exact absurd hdp (by simp)

end Spec

/-! ## The events the guest has not consumed -/

/-- The slots from `dp` up to `ep`, going round a ring of `size` slots,
oldest first. -/
def pendingSlots (size dp ep : Nat) : List Nat :=
  (List.range (Lib.wrapSub size ep dp)).map fun j => (dp + j) % size

/-- The events the guest has not consumed: the bytes of the slots from the one
it reads next up to the producer's, oldest first. -/
def XhciInterrupter.pending (s : XhciInterrupter) (mem : List UInt8) (dp : Nat) :
    List (List UInt8) :=
  (pendingSlots s.erSize dp s.erEpIdx).map fun i =>
    slice mem (s.slotAddr i) (s.slotAddr i + TRB_SIZE)

section Pending

variable {size dp ep : Nat}

/-- The pending slots are the window `[dp, ep)` of the ring. -/
theorem mem_pendingSlots {i : Nat} : i ∈ pendingSlots size dp ep ↔ InWindow size dp ep i := by
  unfold pendingSlots InWindow
  simp only [List.mem_map, List.mem_range]

theorem length_pendingSlots (size dp ep : Nat) :
    (pendingSlots size dp ep).length = Lib.wrapSub size ep dp := by
  simp [pendingSlots]

/-- The producer's slot is never pending. -/
theorem not_mem_pendingSlots_self (h1 : 1 < size) (hdp : dp < size) (hep : ep < size) :
    ep ∉ pendingSlots size dp ep := by
  rw [mem_pendingSlots, inWindow_iff h1 hdp hep hep, wrapSub_eq hep hep, if_pos (Nat.le_refl ep),
    Nat.sub_self, wrapSub_eq (by omega) h1, if_neg (by omega), wrapSub_eq hep hdp]
  split <;> omega

/-- Producing into slot `ep` when the next slot is not `dp` appends `ep` to
the pending slots. -/
theorem pendingSlots_succ (hdp : dp < size) (hep : ep < size) (hne : (ep + 1) % size ≠ dp) :
    pendingSlots size dp ((ep + 1) % size) = pendingSlots size dp ep ++ [ep] := by
  have h1 : 1 < size ∨ size = 1 := by omega
  -- the window grows by one, and its new last slot is `ep`
  have hw : Lib.wrapSub size ((ep + 1) % size) dp = Lib.wrapSub size ep dp + 1 := by
    have hm : (ep + 1) % size < size := Nat.mod_lt _ (by omega)
    rw [wrapSub_eq hm hdp, wrapSub_eq hep hdp]
    by_cases hlt : ep + 1 < size
    · rw [Nat.mod_eq_of_lt hlt] at hne ⊢
      split_ifs <;> omega
    · rw [show ep + 1 = size by omega, Nat.mod_self] at hne ⊢
      split_ifs <;> omega
  have hlast : (dp + Lib.wrapSub size ep dp) % size = ep := by
    rw [wrapSub_eq hep hdp]
    split
    · rw [show dp + (ep - dp) = ep by omega, Nat.mod_eq_of_lt hep]
    · rw [show dp + (ep + size - dp) = ep + size by omega, Nat.add_mod_right, Nat.mod_eq_of_lt hep]
  unfold pendingSlots
  rw [hw, List.range_succ, List.map_append, List.map_singleton, hlast]

end Pending

section PendingRing

variable {s s' : XhciInterrupter} {mem : List UInt8} {dp : Nat}

theorem pending_of_sameRing (hs : SameRing s s') : s'.pending mem dp = s.pending mem dp := by
  simp only [XhciInterrupter.pending, XhciInterrupter.slotAddr, hs.start, hs.size, hs.idx]

/-- A TRB is produced only when the slot after the producer's is not the one
the guest reads next. -/
theorem produced_eq_none_iff (h : RingOk s) (evt : XhciEvent) :
    s.produced dp evt = none ↔ (s.erEpIdx + 1) % s.erSize = dp := by
  have hlt := h.idx_lt
  have hsize := h.size_ge
  have h1 := add_mod_eq hlt (show 1 < s.erSize by omega)
  have h2 := add_mod_eq hlt (show 2 < s.erSize by omega)
  unfold XhciInterrupter.produced
  by_cases hfull : (s.erEpIdx + 2) % s.erSize = dp
  · rw [if_pos hfull]
    simp only [reduceCtorEq, false_iff]
    intro hdrop
    rw [← hdrop, h1, h2] at hfull
    split_ifs at hfull <;> omega
  · rw [if_neg hfull]
    split <;> simp_all

/-- Writing `bytes` into slot `ep` leaves the other pending slots alone and
fills `ep`: the pending events are the old ones followed by the new one. -/
theorem pending_after_write (h : RingOk s) (hdp : dp < s.erSize)
    (hne : (s.erEpIdx + 1) % s.erSize ≠ dp) {bytes : List UInt8} (hb : bytes.length = TRB_SIZE)
    (hfit : s.slotAddr s.erEpIdx + TRB_SIZE ≤ mem.length) :
    s.advanceIdx.pending (spliceAt mem (s.slotAddr s.erEpIdx) bytes) dp =
      s.pending mem dp ++ [bytes] := by
  have hfit' : s.slotAddr s.erEpIdx + bytes.length ≤ mem.length := by rw [hb]; exact hfit
  have hsize := h.size_ge
  rw [advanceIdx_eq h]
  unfold XhciInterrupter.pending
  simp only
  rw [pendingSlots_succ hdp h.idx_lt hne, List.map_append, List.map_singleton]
  congr 1
  · -- a pending slot is another slot of the ring, apart from the one written
    apply List.map_congr_left
    intro i hi
    have hne' : i ≠ s.erEpIdx := fun hie =>
      not_mem_pendingSlots_self (by omega) hdp h.idx_lt (hie ▸ hi)
    have hlt : i < s.erSize := by
      unfold pendingSlots at hi
      obtain ⟨j, -, rfl⟩ := List.mem_map.1 hi
      exact Nat.mod_lt _ (by omega)
    apply slice_spliceAt_of_disjoint hfit'
    simp only [XhciInterrupter.slotAddr, TRB_SIZE, hb] at hne' ⊢
    omega
  · have hslice := slice_spliceAt hfit'
    rw [hb] at hslice
    simp only [XhciInterrupter.slotAddr] at hslice ⊢
    rw [hslice]

end PendingRing

/-! ## What `send_event` does to the ring -/

section Send

variable {s : XhciInterrupter} {mem : List UInt8} {dp : Nat}
  {intrOps : Option (Nat → UInt8 → Bool)}

/-- The guest's slot lies in the ring. -/
theorem dequeueSlot?_lt (hdp : s.dequeueSlot? = some dp) : dp < s.erSize := by
  unfold XhciInterrupter.dequeueSlot? at hdp
  split at hdp
  · rename_i hin
    rw [← Option.some.inj hdp]
    simp only [XhciInterrupter.slotAddr, TRB_SIZE] at hin ⊢
    omega
  · exact absurd hdp (by simp)

/-- **No event the guest has not consumed is overwritten.** When `send_event`
succeeds, the pending events are the old ones followed by the TRB it produced,
if it produced one; when it fails, nothing has changed. -/
theorem sendEvent_pending (h : RingOk s) (hdp : s.dequeueSlot? = some dp)
    (intrOps : Option (Nat → UInt8 → Bool))    (mem : List UInt8) (evt : XhciEvent) :
    let r := s.sendEvent intrOps mem evt
    (r.1 = .ok () →
      r.2.1.pending r.2.2 dp = s.pending mem dp ++ (s.produced dp evt).toList.map XhciTRB.bytes) ∧
    (r.1 ≠ .ok () → r.2 = (s, mem)) := by
  rw [sendEvent_eq h hdp]
  cases hp : s.produced dp evt with
  | none =>
    refine ⟨fun _ => ?_, fun hne => absurd rfl hne⟩
    rw [pending_of_sameRing (sameRing_sendIntr intrOps s)]
    simp
  | some trb =>
    dsimp only
    by_cases hfit : s.slotAddr s.erEpIdx + TRB_SIZE ≤ mem.length
    · rw [if_pos hfit]
      refine ⟨fun _ => ?_, fun hne => absurd rfl hne⟩
      have hne : (s.erEpIdx + 1) % s.erSize ≠ dp := fun hdrop =>
        absurd ((produced_eq_none_iff h evt).2 hdrop) (by rw [hp]; simp)
      have hb : trb.bytes.length = TRB_SIZE := length_trbBuf _ _ _
      dsimp only
      rw [pending_of_sameRing (sameRing_sendIntr intrOps _), trbWrites_eq hfit,
        pending_after_write h (dequeueSlot?_lt hdp) hne hb hfit]
      rfl
    · rw [if_neg hfit]
      exact ⟨fun hok => absurd hok (by simp), fun _ => rfl⟩

/-- With one free slot left, the `EventRingFullError` event fills it and the
ring is full: the slot after the producer's is the guest's. -/
theorem advanceIdx_full (h : RingOk s) (hfull : (s.erEpIdx + 2) % s.erSize = dp) :
    (s.advanceIdx.erEpIdx + 1) % s.advanceIdx.erSize = dp := by
  rw [advanceIdx_eq h]
  dsimp only
  rw [Nat.mod_add_mod, ← hfull]

/-- On an aligned ring, a full ring stays full under `send_event`: the event
is dropped, memory is untouched, and the guest's slot stays where it is. -/
theorem sendEvent_of_full (h : RingOk s) (hal : s.erStart % TRB_SIZE = 0)
    (hdp : s.dequeueSlot? = some dp) (hfull : (s.erEpIdx + 1) % s.erSize = dp)
    (intrOps : Option (Nat → UInt8 → Bool)) (mem : List UInt8) (evt : XhciEvent) :
    s.sendEvent intrOps mem evt = (.ok (), s.sendIntr intrOps, mem) ∧
      SameRing s (s.sendIntr intrOps) ∧ (s.sendIntr intrOps).dequeueSlot? = some dp := by
  have hnone := (produced_eq_none_iff h evt).2 hfull
  refine ⟨?_, sameRing_sendIntr intrOps s, dequeueSlot?_sendIntr h hal hdp intrOps⟩
  rw [sendEvent_eq h hdp, hnone]

/-- The errors `write_trb` can return: an address overflow or a failed DMA
write, never a panic. -/
theorem writeTrb_ne_panic (s : XhciInterrupter) (mem : List UInt8) (trb : XhciTRB) (text : String) :
    (s.writeTrb mem trb).1 ≠ .error (.rustPanic text) := by
  unfold XhciInterrupter.writeTrb dmaWriteBytes
  dsimp only
  split
  · simp
  · split_ifs
    · dsimp only
      split_ifs <;> simp
    · simp

/-- `write_event` either fails and keeps the interrupter, or advances the
producer. -/
theorem writeEvent_cases (s : XhciInterrupter) (mem : List UInt8) (evt : XhciEvent) :
    (∃ e mem', s.writeEvent mem evt = (.error e, s, mem') ∧ ∀ text, e ≠ .rustPanic text) ∨
      ∃ mem', s.writeEvent mem evt = (.ok (), s.advanceIdx, mem') := by
  have hne := writeTrb_ne_panic s mem (eventTrb s.erPcs evt)
  unfold XhciInterrupter.writeEvent
  cases hw : s.writeTrb mem (eventTrb s.erPcs evt) with
  | mk r mem' =>
    rw [hw] at hne
    cases r with
    | error e => exact .inl ⟨e, mem', rfl, fun text he => hne text (by rw [he])⟩
    | ok u => exact .inr ⟨mem', rfl⟩

/-- Whatever the interrupter, `send_event` never divides by zero: with an
empty ring `erdp` cannot lie inside it, so the `%` is never reached. -/
theorem sendEvent_ne_panic (s : XhciInterrupter) (mem : List UInt8) (evt : XhciEvent)
    (text : String) : (s.sendEvent intrOps mem evt).1 ≠ .error (.rustPanic text) := by
  unfold XhciInterrupter.sendEvent
  dsimp only
  split
  · simp
  · rename_i erEnd hend
    have hw : ∀ evt', (raiseAfter intrOps (s.writeEvent mem evt')).1 ≠
        .error (.rustPanic text) := fun evt' => by
      rcases writeEvent_cases s mem evt' with ⟨e, mem', hw, he⟩ | ⟨mem', hw⟩
      · rw [hw]
        simp only [raiseAfter, ne_eq, Except.error.injEq]
        exact he text
      · rw [hw]
        simp [raiseAfter]
    split_ifs with hout hzero
    · simp
    · -- an empty ring ends where it starts, so the range check has already failed
      have hend' := (checkedAdd64_eq_some.1 hend).2
      rw [hzero] at hend'
      simp only [Nat.mul_zero, Nat.zero_mod, Nat.add_zero] at hend'
      omega
    · exact hw _
    · simp [raiseAfter]
    · exact hw _

/-- The interrupter after `send_event` is the one before, or it after the
interrupt, or it after the index update and the interrupt. -/
theorem sendEvent_state (intrOps : Option (Nat → UInt8 → Bool)) (s : XhciInterrupter)
    (mem : List UInt8) (evt : XhciEvent) :
    (s.sendEvent intrOps mem evt).2.1 = s ∨
      (s.sendEvent intrOps mem evt).2.1 = s.sendIntr intrOps ∨
      (s.sendEvent intrOps mem evt).2.1 = s.advanceIdx.sendIntr intrOps := by
  have hw : ∀ evt', (raiseAfter intrOps (s.writeEvent mem evt')).2.1 = s ∨
      (raiseAfter intrOps (s.writeEvent mem evt')).2.1 = s.advanceIdx.sendIntr intrOps := by
    intro evt'
    rcases writeEvent_cases s mem evt' with ⟨e, mem', hw, -⟩ | ⟨mem', hw⟩
    · rw [hw]
      exact .inl rfl
    · rw [hw]
      exact .inr rfl
  unfold XhciInterrupter.sendEvent
  dsimp only
  split
  · exact .inl rfl
  · split_ifs
    · exact .inl rfl
    · exact .inl rfl
    · rcases hw fullErrorEvent with h | h
      · exact .inl h
      · exact .inr (.inr h)
    · exact .inr (.inl rfl)
    · rcases hw evt with h | h
      · exact .inl h
      · exact .inr (.inr h)

end Send

/-! ## Setting up the ring, and runs -/

/-- What every interrupter reachable from `XhciInterrupter::new` satisfies:
its ring is unset, or it is a set-up ring. -/
def WellFormed (s : XhciInterrupter) : Prop := s.erSize = 0 ∨ RingOk s

/-- The operations that keep the ring: all but the `ERSTBA_HI` write, which
sets up a new one. -/
def IntrOp.keepsRing : IntrOp → Bool
  | .write _ .erstbaHi _ => false
  | _ => true

section Runs

variable {s s' : XhciInterrupter} {mem : List UInt8} {intrOps : Option (Nat → UInt8 → Bool)}

/-- A ring base read from a segment entry lies below `2^48`. -/
theorem addr64FromU32_lt {low : Nat} (high : Nat) (hlow : low < 2 ^ 32) :
    addr64FromU32 low high < 2 ^ 48 := by
  unfold addr64FromU32
  have hx : (high <<< 16) % U32_MOD < 2 ^ 32 := Nat.mod_lt _ (by decide)
  apply Nat.or_lt_two_pow
  · rw [Nat.shiftLeft_eq]
    calc (high <<< 16) % U32_MOD * 2 ^ 16 < 2 ^ 32 * 2 ^ 16 :=
          Nat.mul_lt_mul_of_pos_right hx (by decide)
      _ = 2 ^ 48 := by decide
  · exact Nat.lt_of_lt_of_le hlow (by decide)

theorem fetchEventRingSeg_lt {addr low high size : Nat}
    (h : fetchEventRingSeg mem addr = .ok (low, high, size)) : low < 2 ^ 32 := by
  unfold fetchEventRingSeg at h
  cases hr : dmaReadBytes mem addr TRB_SIZE with
  | error e => rw [hr] at h; cases h
  | ok buf =>
    rw [hr] at h
    cases h
    exact leReadAt_lt buf 0 4

/-- **`reset_event_ring`** leaves the ring unset, or sets up a ring of 16 to
4096 slots, with the producer at slot 0 and the cycle state set. -/
theorem resetEventRing_wellFormed (h : s.resetEventRing mem = .ok s') :
    s'.erSize = 0 ∨ (RingOk s' ∧ s'.erEpIdx = 0 ∧ s'.erPcs = true) := by
  unfold XhciInterrupter.resetEventRing at h
  split_ifs at h
  · cases h
    exact .inl rfl
  · cases hf : fetchEventRingSeg mem s.erstba with
    | error e => rw [hf] at h; cases h
    | ok seg =>
      obtain ⟨low, high, size⟩ := seg
      rw [hf] at h
      dsimp only [bind, Except.bind] at h
      split_ifs at h with hsize
      cases h
      have hstart := addr64FromU32_lt high (fetchEventRingSeg_lt hf)
      have hs : 16 ≤ size ∧ size ≤ 4096 := by omega
      refine .inr ⟨⟨hs.1, hs.2, ?_, show 0 < size by omega⟩, rfl, rfl⟩
      simp only [XhciInterrupter.slotAddr, TRB_SIZE, U64_MOD]
      omega

/-- A register write other than `ERSTBA_HI` keeps the ring and the producer. -/
theorem sameRing_write (intrOps : Option (Nat → UInt8 → Bool)) (mem : List UInt8)
    {reg : IntrReg}    (hreg : reg ≠ .erstbaHi)    (value : UInt32) :
    SameRing s (s.write intrOps mem reg value) := by
  cases reg with
  | iman =>
    obtain ⟨iman, h⟩ := updateIntr_eq intrOps
      { s with iman := (if value &&& IMAN_IP == IMAN_IP then s.iman &&& ~~~IMAN_IP else s.iman)
                         &&& ~~~IMAN_IE ||| value &&& IMAN_IE }
    simp only [XhciInterrupter.write, h]
    exact ⟨rfl, rfl, rfl, rfl⟩
  | imod => exact ⟨rfl, rfl, rfl, rfl⟩
  | erstsz => exact ⟨rfl, rfl, rfl, rfl⟩
  | erstbaLo => exact ⟨rfl, rfl, rfl, rfl⟩
  | erstbaHi => exact absurd rfl hreg
  | erdpLo =>
    -- the new `erdp`, then possibly the interrupt
    have hset : ∀ erdp, SameRing s { s with erdp := erdp } := fun _ => ⟨rfl, rfl, rfl, rfl⟩
    unfold XhciInterrupter.write
    dsimp only
    -- every branch is the new `erdp`, possibly followed by the interrupt
    split_ifs <;> (try split) <;> (try split_ifs) <;>
      first | exact hset _ | exact (hset _).trans (sameRing_sendIntr intrOps _)
  | erdpHi => exact ⟨rfl, rfl, rfl, rfl⟩

theorem RingOk.sendEvent (h : RingOk s) (evt : XhciEvent) :
    RingOk (s.sendEvent intrOps mem evt).2.1 := by
  rcases sendEvent_state intrOps s mem evt with hs | hs | hs <;> rw [hs]
  · exact h
  · exact h.of_sameRing (sameRing_sendIntr intrOps s)
  · exact h.advanceIdx.of_sameRing (sameRing_sendIntr intrOps _)

/-- `send_event` keeps where the ring is. -/
theorem sendEvent_start (intrOps : Option (Nat → UInt8 → Bool)) (mem : List UInt8)
    (s : XhciInterrupter) (evt : XhciEvent) :
    (s.sendEvent intrOps mem evt).2.1.erStart = s.erStart ∧
      (s.sendEvent intrOps mem evt).2.1.erSize = s.erSize := by
  have hadv : s.advanceIdx.erStart = s.erStart ∧ s.advanceIdx.erSize = s.erSize := by
    unfold XhciInterrupter.advanceIdx
    dsimp only
    split <;> exact ⟨rfl, rfl⟩
  rcases sendEvent_state intrOps s mem evt with hs | hs | hs <;> rw [hs]
  · exact ⟨rfl, rfl⟩
  · exact ⟨(sameRing_sendIntr intrOps s).start, (sameRing_sendIntr intrOps s).size⟩
  · exact ⟨(sameRing_sendIntr intrOps _).start.trans hadv.1,
      (sameRing_sendIntr intrOps _).size.trans hadv.2⟩

theorem WellFormed.sendEvent (h : WellFormed s) (evt : XhciEvent) :
    WellFormed (s.sendEvent intrOps mem evt).2.1 := by
  rcases h with h0 | h
  · exact .inl ((sendEvent_start intrOps mem s evt).2.trans h0)
  · exact .inr (h.sendEvent evt)

/-- One operation keeps a well-formed interrupter well formed. -/
theorem WellFormed.apply (h : WellFormed s) (op : IntrOp) :
    WellFormed (op.apply intrOps s) := by
  cases op with
  | sendEvent mem evt => exact h.sendEvent evt
  | write mem reg value =>
    by_cases hreg : reg = .erstbaHi
    · subst hreg
      simp only [IntrOp.apply, XhciInterrupter.write]
      split
      · rename_i s' hr
        rcases resetEventRing_wellFormed hr with h0 | ⟨hok, -, -⟩
        · exact .inl h0
        · exact .inr hok
      · rcases h with h0 | hok
        · exact .inl h0
        · exact .inr ⟨hok.size_ge, hok.size_le, hok.end_lt, hok.idx_lt⟩
    · have hs := sameRing_write (s := s) intrOps mem hreg value
      rcases h with h0 | hok
      · exact .inl (hs.size.trans h0)
      · exact .inr (hok.of_sameRing hs)

/-- One operation that keeps the ring keeps a set-up ring set up, where it
was. -/
theorem RingOk.apply (h : RingOk s) (intrOps : Option (Nat → UInt8 → Bool)) {op : IntrOp}
    (hop : op.keepsRing = true) :
    RingOk (op.apply intrOps s) ∧ (op.apply intrOps s).erStart = s.erStart := by
  cases op with
  | sendEvent mem evt => exact ⟨h.sendEvent evt, (sendEvent_start intrOps mem s evt).1⟩
  | write mem reg value =>
    have hreg : reg ≠ .erstbaHi := by
      rintro rfl
      simp [IntrOp.keepsRing] at hop
    have hs := sameRing_write (s := s) intrOps mem hreg value
    exact ⟨h.of_sameRing hs, hs.start⟩

/-- **Run lemma**: along any run of operations that keep the ring, a set-up
ring stays set up, where it was. -/
theorem RingOk.runOps (h : RingOk s) (intrOps : Option (Nat → UInt8 → Bool)) (ops : List IntrOp)
    (hops : ∀ op ∈ ops, op.keepsRing = true) :
    RingOk (runOps intrOps s ops) ∧ (runOps intrOps s ops).erStart = s.erStart := by
  induction ops generalizing s with
  | nil => exact ⟨h, rfl⟩
  | cons op ops ih =>
    obtain ⟨hok, hstart⟩ := h.apply intrOps (hops op (List.mem_cons_self ..))
    obtain ⟨hok', hstart'⟩ := ih hok fun op' hop' => hops op' (List.mem_cons_of_mem _ hop')
    exact ⟨hok', hstart'.trans hstart⟩

/-- Run lemma: every run keeps a well-formed interrupter well formed. -/
theorem WellFormed.runOps (h : WellFormed s) (ops : List IntrOp) :
    WellFormed (runOps intrOps s ops) := by
  induction ops generalizing s with
  | nil => exact h
  | cons op ops ih => exact ih (h.apply op)

/-- **Every reachable interrupter is well formed**: from
`XhciInterrupter::new`, any sequence of register writes and `send_event`
calls leaves the ring unset or set up with the producer inside it. -/
theorem reachable_wellFormed (intrOps : Option (Nat → UInt8 → Bool))
    (operUsbCmd operUsbStatus : UInt32) (id : Nat)    (ops : List IntrOp) :
    WellFormed (runOps intrOps (XhciInterrupter.new operUsbCmd operUsbStatus id) ops) :=
  WellFormed.runOps (.inl rfl) ops

end Runs

/-! ## Where `send_event` writes -/

section Where

variable {s : XhciInterrupter} {mem : List UInt8} {intrOps : Option (Nat → UInt8 → Bool)}

/-- With the ring unset, `send_event` writes nothing. -/
theorem sendEvent_mem_of_size_zero (h0 : s.erSize = 0) (evt : XhciEvent) :
    (s.sendEvent intrOps mem evt).2.2 = mem := by
  unfold XhciInterrupter.sendEvent
  dsimp only
  split
  · rfl
  · rename_i erEnd hend
    have hend' := (checkedAdd64_eq_some.1 hend).2
    rw [h0] at hend'
    simp only [Nat.mul_zero, Nat.zero_mod, Nat.add_zero] at hend'
    rw [if_pos (by omega)]

/-- On a set-up ring, a byte `send_event` changes lies in the producer's slot. -/
theorem RingOk.sendEvent_mem (h : RingOk s) (evt : XhciEvent) {i : Nat}
    (hi : (s.sendEvent intrOps mem evt).2.2[i]? ≠ mem[i]?) :
    s.slotAddr s.erEpIdx ≤ i ∧ i < s.slotAddr s.erEpIdx + TRB_SIZE := by
  cases hdp : s.dequeueSlot? with
  | none =>
    rw [sendEvent_of_outside h hdp] at hi
    exact absurd rfl hi
  | some dp =>
    rw [sendEvent_eq h hdp] at hi
    cases hp : s.produced dp evt with
    | none =>
      rw [hp] at hi
      exact absurd rfl hi
    | some trb =>
      rw [hp] at hi
      dsimp only at hi
      split_ifs at hi with hfit
      · have hb : trb.bytes.length = TRB_SIZE := length_trbBuf _ _ _
        rw [trbWrites_eq hfit, getElem?_spliceAt (by rw [hb]; exact hfit), hb] at hi
        split_ifs at hi with hin
        · exact hin
        · exact absurd rfl hi
      · exact absurd rfl hi

/-- **`send_event` writes only inside the ring.** For every interrupter
reachable from `XhciInterrupter::new` by register writes and `send_event`
calls, a byte the next `send_event` changes lies in the producer's slot, and
that slot lies inside the ring. -/
theorem reachable_sendEvent_in_ring (operUsbCmd operUsbStatus : UInt32) (id : Nat)
    (ops : List IntrOp) (evt : XhciEvent) (i : Nat) :
    let s := runOps intrOps (XhciInterrupter.new operUsbCmd operUsbStatus id) ops
    (s.sendEvent intrOps mem evt).2.2[i]? ≠ mem[i]? →
      s.slotAddr s.erEpIdx ≤ i ∧ i < s.slotAddr s.erEpIdx + TRB_SIZE ∧
        s.slotAddr s.erEpIdx + TRB_SIZE ≤ s.slotAddr s.erSize := by
  intro s hi
  rcases reachable_wellFormed intrOps operUsbCmd operUsbStatus id ops with h0 | h
  · rw [sendEvent_mem_of_size_zero h0] at hi
    exact absurd rfl hi
  · obtain ⟨hlo, hhi⟩ := h.sendEvent_mem evt hi
    exact ⟨hlo, hhi, h.slot_succ_le⟩

/-- On an aligned ring that is full, every further `send_event` drops its
event and leaves the ring full, until the guest writes `ERDP`. -/
theorem runOps_sends_of_full (h : RingOk s) (hal : s.erStart % TRB_SIZE = 0)
    (intrOps : Option (Nat → UInt8 → Bool)) {dp : Nat}
    (hdp : s.dequeueSlot? = some dp) (hfull : (s.erEpIdx + 1) % s.erSize = dp)
    (sends : List (List UInt8 × XhciEvent)) :
    let s' := runOps intrOps s (sends.map fun p => .sendEvent p.1 p.2)
    SameRing s s' ∧ s'.dequeueSlot? = some dp := by
  induction sends generalizing s with
  | nil => exact ⟨SameRing.refl s, hdp⟩
  | cons p sends ih =>
    obtain ⟨hsend, hring, hdp'⟩ := sendEvent_of_full h hal hdp hfull intrOps p.1 p.2
    have happly : IntrOp.apply intrOps s (.sendEvent p.1 p.2) = s.sendIntr intrOps := by
      simp only [IntrOp.apply, hsend]
    have hal' : (s.sendIntr intrOps).erStart % TRB_SIZE = 0 := by rw [hring.start]; exact hal
    have hfull' : ((s.sendIntr intrOps).erEpIdx + 1) % (s.sendIntr intrOps).erSize = dp := by
      rw [hring.idx, hring.size]; exact hfull
    obtain ⟨hring', hdp''⟩ := ih (h.of_sameRing hring) hal' hdp' hfull'
    simp only [List.map_cons, runOps, List.foldl_cons] at hring' hdp'' ⊢
    rw [happly]
    exact ⟨hring.trans hring', hdp''⟩

end Where

/-! ## The event ring never overwrites an unconsumed event -/

section Safe

variable {s : XhciInterrupter} {mem : List UInt8} {intrOps : Option (Nat → UInt8 → Bool)}
  {dp : Nat}

theorem length_pending (s : XhciInterrupter) (mem : List UInt8) (dp : Nat) :
    (s.pending mem dp).length = Lib.wrapSub s.erSize s.erEpIdx dp := by
  rw [XhciInterrupter.pending, List.length_map, length_pendingSlots]

/-- Every TRB `send_event` produces carries the producer cycle state. -/
theorem produced_cycle {evt : XhciEvent} {trb : XhciTRB} (hp : s.produced dp evt = some trb) :
    trb.control.toNat.testBit 0 = s.erPcs := by
  unfold XhciInterrupter.produced at hp
  split_ifs at hp
  · cases hp
    exact eventTrb_cycle _ _
  · cases hp
    exact eventTrb_cycle _ _

/-- A `send_event` that produced a TRB and succeeded made both writes into
the producer's slot and advanced the producer. -/
theorem sendEvent_eq_of_produced (h : RingOk s) (hdp : s.dequeueSlot? = some dp)
    {evt : XhciEvent} {trb : XhciTRB} (hp : s.produced dp evt = some trb)
    (hok : (s.sendEvent intrOps mem evt).1 = .ok ()) :
    s.sendEvent intrOps mem evt =
      (.ok (), s.advanceIdx.sendIntr intrOps, trbWrites mem (s.slotAddr s.erEpIdx) trb) ∧
      s.slotAddr s.erEpIdx + TRB_SIZE ≤ mem.length := by
  rw [sendEvent_eq h hdp, hp] at hok ⊢
  dsimp only at hok ⊢
  by_cases hfit : s.slotAddr s.erEpIdx + TRB_SIZE ≤ mem.length
  · rw [if_pos hfit]
    exact ⟨rfl, hfit⟩
  · rw [if_neg hfit] at hok
    cases hok

/-- The producer's index moves the guest's slot nowhere. -/
theorem dequeueSlot?_advanceIdx (h : RingOk s) : s.advanceIdx.dequeueSlot? = s.dequeueSlot? := by
  rw [advanceIdx_eq h]
  rfl

/-- **The event ring keeps every event the guest has not consumed**, on a
16-byte-aligned ring set up by `reset_event_ring`. After any run of
`send_event` calls and guest register writes that keep the ring, the next
`send_event`

* never panics, and changes only bytes of the producer's slot, which lies
  inside the ring;
* when `erdp` lies in slot `dp` of the ring, produces a TRB exactly when the
  slot after the producer's is not `dp`, and the `EventRingFullError` event
  when the one after that is; an event it drops leaves guest memory and the
  producer's index as they were;
* leaves the pending events as they were, followed by the TRB it produced,
  and fewer of them than the ring has slots;
* writes a TRB that carries `er_pcs`: first the TRB with the cycle bit the
  other way, then the byte holding the cycle bit, ending with the TRB in the
  slot, and flips `er_pcs` exactly when the index comes round to 0;
* and after the `EventRingFullError` event, drops every event, keeping the
  ring full, until the guest writes `ERDP`. -/
theorem sendEvent_event_ring_safe {r s0 : XhciInterrupter} {mem0 : List UInt8}
    (hreset : r.resetEventRing mem0 = .ok s0) (hsize : 16 ≤ s0.erSize)
    (halign : s0.erStart % TRB_SIZE = 0) (ops : List IntrOp)
    (hops : ∀ op ∈ ops, op.keepsRing = true) (mem : List UInt8) (evt : XhciEvent) :
    let s := runOps intrOps s0 ops
    let res := s.sendEvent intrOps mem evt
    (∀ text, res.1 ≠ .error (.rustPanic text)) ∧
    (∀ i, res.2.2[i]? ≠ mem[i]? →
      s.slotAddr s.erEpIdx ≤ i ∧ i < s.slotAddr s.erEpIdx + TRB_SIZE) ∧
    s.slotAddr s.erEpIdx + TRB_SIZE ≤ s.slotAddr s.erSize ∧
    ∀ dp, s.dequeueSlot? = some dp →
      (s.produced dp evt = none ↔ (s.erEpIdx + 1) % s.erSize = dp) ∧
      (s.produced dp evt = none →
        res.1 = .ok () ∧ res.2.2 = mem ∧ res.2.1.erEpIdx = s.erEpIdx) ∧
      ((s.erEpIdx + 2) % s.erSize = dp →
        s.produced dp evt = some (eventTrb s.erPcs fullErrorEvent)) ∧
      (res.1 = .ok () →
        res.2.1.pending res.2.2 dp =
          s.pending mem dp ++ (s.produced dp evt).toList.map XhciTRB.bytes ∧
        (res.2.1.pending res.2.2 dp).length < s.erSize) ∧
      (∀ trb, s.produced dp evt = some trb → res.1 = .ok () →
        trb.control.toNat.testBit 0 = s.erPcs ∧
        res.2.2 = trbWrites mem (s.slotAddr s.erEpIdx) trb ∧
        (spliceAt mem (s.slotAddr s.erEpIdx)
            (trbBuf trb.parameter.toNat trb.status.toNat (toggleCycle trb.control).toNat))[
              s.slotAddr s.erEpIdx + 12]?.map (fun b => b.toNat.testBit 0) = some (!s.erPcs) ∧
        res.2.2 = spliceAt mem (s.slotAddr s.erEpIdx) trb.bytes ∧
        res.2.1.erEpIdx = (s.erEpIdx + 1) % s.erSize ∧
        res.2.1.erPcs = (if res.2.1.erEpIdx = 0 then !s.erPcs else s.erPcs)) ∧
      ((s.erEpIdx + 2) % s.erSize = dp → res.1 = .ok () →
        ∀ sends : List (List UInt8 × XhciEvent),
          let s' := runOps intrOps res.2.1 (sends.map fun p => .sendEvent p.1 p.2)
          s'.dequeueSlot? = some dp ∧
            ∀ mem' evt', (s'.sendEvent intrOps mem' evt').2.2 = mem' ∧
              (s'.sendEvent intrOps mem' evt').2.1.erEpIdx = s'.erEpIdx) := by
  -- the ring the reset set up, kept by the run
  have h0 : RingOk s0 := by
    rcases resetEventRing_wellFormed hreset with hz | ⟨hok, -, -⟩
    · omega
    · exact hok
  obtain ⟨h, hstart⟩ := h0.runOps intrOps ops hops
  dsimp only
  generalize runOps intrOps s0 ops = s at h hstart ⊢
  have hal : s.erStart % TRB_SIZE = 0 := by
    rw [hstart]
    exact halign
  refine ⟨fun text => sendEvent_ne_panic s mem evt text, fun i hi => h.sendEvent_mem evt hi,
    h.slot_succ_le, fun dp hdp => ?_⟩
  have hpend := sendEvent_pending h hdp intrOps mem evt
  have hsize' := h.size_ge
  refine ⟨produced_eq_none_iff h evt, fun hnone => ?_, fun hfull => ?_, fun hok => ?_,
    fun trb hp hok => ?_, fun hfull hok sends => ?_⟩
  · -- a dropped event: only the interrupt is sent
    rw [sendEvent_eq h hdp, hnone]
    exact ⟨rfl, rfl, (sameRing_sendIntr intrOps s).idx⟩
  · -- one free slot left
    unfold XhciInterrupter.produced
    rw [if_pos hfull]
  · -- the pending events: the old ones and the new one, fewer than the slots
    refine ⟨hpend.1 hok, ?_⟩
    have hsz := (sendEvent_start intrOps mem s evt).2
    rw [length_pending, ← hsz]
    exact wrapSub_lt (by rw [hsz]; omega) _ _
  · -- the written TRB, its cycle bit, the order of the writes and the index update
    obtain ⟨hres, hfit⟩ := sendEvent_eq_of_produced h hdp hp hok
    have hidx := advanceIdx_eq h
    refine ⟨produced_cycle hp, by rw [hres],
      by rw [← produced_cycle hp]; exact cycle_between_writes hfit trb,
      by rw [hres, trbWrites_eq hfit], ?_, ?_⟩
    · rw [hres, (sameRing_sendIntr intrOps _).idx, hidx]
    · rw [hres, (sameRing_sendIntr intrOps _).pcs, (sameRing_sendIntr intrOps _).idx, hidx]
  · -- the `EventRingFullError` event fills the ring, and the ring stays full
    have hp : s.produced dp evt = some (eventTrb s.erPcs fullErrorEvent) := by
      unfold XhciInterrupter.produced
      rw [if_pos hfull]
    obtain ⟨hres, -⟩ := sendEvent_eq_of_produced h hdp hp hok
    have hring := sameRing_sendIntr intrOps s.advanceIdx
    have h1 : RingOk (s.advanceIdx.sendIntr intrOps) := h.advanceIdx.of_sameRing hring
    have hal1 : (s.advanceIdx.sendIntr intrOps).erStart % TRB_SIZE = 0 := by
      rw [hring.start, (sameRing_advanceIdx_start h).1]
      exact hal
    have hdp1 : (s.advanceIdx.sendIntr intrOps).dequeueSlot? = some dp :=
      dequeueSlot?_sendIntr h.advanceIdx (by rw [(sameRing_advanceIdx_start h).1]; exact hal)
        (by rw [dequeueSlot?_advanceIdx h]; exact hdp) intrOps
    have hfull1 : ((s.advanceIdx.sendIntr intrOps).erEpIdx + 1) %
        (s.advanceIdx.sendIntr intrOps).erSize = dp := by
      rw [hring.idx, hring.size]
      exact advanceIdx_full h hfull
    rw [hres]
    obtain ⟨hsame, hdp'⟩ := runOps_sends_of_full h1 hal1 intrOps hdp1 hfull1 sends
    refine ⟨hdp', fun mem' evt' => ?_⟩
    have h' := h1.of_sameRing hsame
    have hal' : (runOps intrOps (s.advanceIdx.sendIntr intrOps)
        (sends.map fun p => .sendEvent p.1 p.2)).erStart % TRB_SIZE = 0 := by
      rw [hsame.start]
      exact hal1
    have hfull' : ((runOps intrOps (s.advanceIdx.sendIntr intrOps)
        (sends.map fun p => .sendEvent p.1 p.2)).erEpIdx + 1) %
        (runOps intrOps (s.advanceIdx.sendIntr intrOps)
          (sends.map fun p => .sendEvent p.1 p.2)).erSize = dp := by
      rw [hsame.idx, hsame.size]
      exact hfull1
    obtain ⟨hsend, hring', -⟩ := sendEvent_of_full h' hal' hdp' hfull' intrOps mem' evt'
    rw [hsend]
    exact ⟨rfl, hring'.idx⟩

/-- The theorem on a ring at `0x10` of 16 slots whose segment table sits at
`0x30`, after the guest points `erdp` at slot 2 so that one free slot is
left. -/
theorem sendEvent_event_ring_safe_aligned16 :
    ¬∃ text, ((runOps none
        { XhciInterrupter.new 0 0 0 with erstsz := 1, erstba := 48, erStart := 16, erSize := 16,
                                         erEpIdx := 0, erPcs := true }
        [.write (List.replicate 48 0 ++ [16, 0, 0, 0, 0, 0, 0, 0, 16, 0, 0, 0, 0, 0, 0, 0])
          .erdpLo 0x30]).sendEvent none
        (List.replicate 48 0 ++ [16, 0, 0, 0, 0, 0, 0, 0, 16, 0, 0, 0, 0, 0, 0, 0])
        (XhciEvent.new .erPortStatusChange 1)).1 = .error (.rustPanic text) := fun ⟨text, hpanic⟩ =>
  (sendEvent_event_ring_safe
    (show ({ XhciInterrupter.new 0 0 0 with erstsz := 1, erstba := 48 } : XhciInterrupter).resetEventRing
        (List.replicate 48 0 ++ [16, 0, 0, 0, 0, 0, 0, 0, 16, 0, 0, 0, 0, 0, 0, 0]) =
      .ok { XhciInterrupter.new 0 0 0 with erstsz := 1, erstba := 48, erStart := 16, erSize := 16,
                                           erEpIdx := 0, erPcs := true } by decide)
    (by decide) (by decide)
    [.write (List.replicate 48 0 ++ [16, 0, 0, 0, 0, 0, 0, 0, 16, 0, 0, 0, 0, 0, 0, 0]) .erdpLo 0x30]
    (by decide) _ _).1 text hpanic

/-- On a ring whose base is not a multiple of 16, the interrupt that follows
the `EventRingFullError` event moves the guest's slot: a ring at `0x8` whose
guest wrote `erdp = 0x30` (slot 2, one free slot left) gets a second
`EventRingFullError` event in slot 1 instead of dropping the next event, with
no `ERDP` write in between. -/
theorem sendEvent_unaligned_ring_refills :
    let r : XhciInterrupter := { XhciInterrupter.new 0 0 0 with erstsz := 1, erstba := 48 }
    let mem0 : List UInt8 := List.replicate 48 0 ++ [8, 0, 0, 0, 0, 0, 0, 0, 16, 0, 0, 0, 0, 0, 0, 0]
    let s0 : XhciInterrupter := { r with erStart := 8, erSize := 16, erEpIdx := 0, erPcs := true }
    let s := runOps none s0 [.write mem0 .erdpLo 0x30]
    let evt := XhciEvent.new .erPortStatusChange 1
    let r1 := s.sendEvent none mem0 evt
    let r2 := r1.2.1.sendEvent none r1.2.2 evt
    r.resetEventRing mem0 = .ok s0 ∧ 16 ≤ s0.erSize ∧
      s.dequeueSlot? = some 2 ∧ (s.erEpIdx + 2) % s.erSize = 2 ∧ r1.1 = .ok () ∧
      r1.2.1.dequeueSlot? = some 3 ∧ (r1.2.1.erEpIdx + 2) % r1.2.1.erSize = 3 ∧ r2.1 = .ok () ∧
      r2.2.2 = spliceAt r1.2.2 (r1.2.1.slotAddr 1) (eventTrb true fullErrorEvent).bytes ∧
      r2.2.2 ≠ r1.2.2 := by
  intro r mem0 s0 s evt r1 r2
  refine ⟨by decide, by decide, by decide, by decide, by decide, by decide, by decide, by decide,
    by decide, by decide⟩

end Safe

end StratoVirt.Usb
