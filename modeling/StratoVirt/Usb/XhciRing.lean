import Mathlib
import StratoVirt.Usb.XhciEventRing
import StratoVirt.Lib.Loop

/-!
# The xHCI command and transfer rings, as the device consumes them

`devices/src/usb/xhci/xhci_ring.rs`. The guest driver produces TRBs into a
ring in guest memory and marks each one ready by giving its cycle bit the
ring's current phase; the device keeps a dequeue pointer and a consumer cycle
state `ccs`, and takes the TRB at its dequeue pointer only when the TRB's
cycle bit equals `ccs`. A Link TRB sends the device to another address (the
start of the ring, for a ring of one segment) and, with Toggle Cycle, flips
`ccs`: the driver's next lap writes the opposite phase.

* `XhciCommandRing::fetch_trb` (`XhciCommandRing.fetchTrb`) follows up to
  `TRB_LINK_LIMIT` Link TRBs and returns the first other TRB whose cycle bit
  matches, or `None`. The ring's dequeue pointer and `ccs` move with every
  Link TRB it follows, also when it fails later.
* `XhciTransferRing::fetch_td` (`XhciTransferRing.fetchTd`) collects the TRBs
  of one transfer descriptor: up to the first TRB without the chain flag,
  where a control transfer's TRBs from its Setup TRB up to its Status TRB all
  count as chained. It works on copies of the dequeue pointer and `ccs` and
  stores them back only when it returns a whole descriptor.

Both loops are `Lib.Loop` bodies: `fetch_trb`'s goes round only on a Link
TRB, at most `TRB_LINK_LIMIT` times; `fetch_td`'s `for` loop counts its passes
up to `RING_LEN_LIMIT`.

Mirroring notes:

- Guest memory is the byte list of `XhciEventRing` and `dma_read_bytes` its
  `dmaReadBytes`; the `fence` between reading the cycle bit and the TRB has
  no counterpart in a sequential model.
- `TRBType` is compared only with `TrLink`, `TrSetup` and `TrStatus`, and
  `From<u32> for TRBType` gives each of them on exactly one code, so
  `get_type` is the code and the three types are their codes.
- The atomics of `XhciTransferRing` are plain fields; `refresh_dequeue_ptr`'s
  read and write of the endpoint context are left out, and
  `update_dequeue_to_ctx` gives the two context words.
-/

namespace StratoVirt.Usb

open StratoVirt.Lib StratoVirt.AddressSpace

/-! ## Constants -/

/-- `TRB_TYPE_MASK`. -/
def TRB_TYPE_MASK : UInt32 := 0x3f
/-- `TRB_LK_TC`, the Toggle Cycle flag of a Link TRB. -/
def TRB_LK_TC : UInt32 := (1 : UInt32) <<< 1
/-- `TRB_TR_CH`, the chain flag of a transfer TRB. -/
def TRB_TR_CH : UInt32 := (1 : UInt32) <<< 4
/-- `TRB_LINK_LIMIT`. -/
def TRB_LINK_LIMIT : Nat := 32
/-- `RING_SEGMENT_LIMIT`: a ring segment has at most 64 KiB. -/
def RING_SEGMENT_LIMIT : Nat := 0x1_0000
/-- `RING_LEN_LIMIT`. -/
def RING_LEN_LIMIT : Nat := TRB_LINK_LIMIT * RING_SEGMENT_LIMIT / TRB_SIZE

/-- `TRBType::TrSetup`, by its code. -/
def TR_SETUP : UInt32 := 2
/-- `TRBType::TrStatus`, by its code. -/
def TR_STATUS : UInt32 := 4
/-- `TRBType::TrLink`, by its code. -/
def TR_LINK : UInt32 := 6

/-- `XhciTRB::get_type`, as the type's code. -/
def XhciTRB.getType (trb : XhciTRB) : UInt32 :=
  (trb.control >>> TRB_TYPE_SHIFT) &&& TRB_TYPE_MASK

/-- `XhciTRB` as the fetch loops return it: the three words read from the
ring, the address they were read at (`addr`) and the consumer cycle state
then (`ccs`). -/
structure FetchedTRB where
  trb : XhciTRB
  addr : Nat
  ccs : Bool
  deriving Repr, DecidableEq

/-- The errors of the fetch loops: a failed DMA read or
`UsbError::MemoryAccessOverflow`, and the texts of `bail!` and of the
context `read_cycle_bit` gives an address overflow. -/
inductive RingError
  | xhci (e : XhciError)
  | msg (text : String)
  deriving Repr, DecidableEq

/-- `format!("Ring address overflow, {:x}", addr)`. -/
def ringAddrOverflowText (addr : Nat) : String :=
  "Ring address overflow, " ++ String.ofList (Nat.toDigits 16 addr)

/-- `fetch_trb`'s `bail!` on too many Link TRBs. -/
def trbLinkLimitText : String := "TRB reach link limit"

/-- `fetch_td`'s `bail!` on too many Link TRBs. -/
def tdLinkLimitText : String := "TRB link over limit"

/-- `fetch_td`'s `bail!` once its `for` loop is done. -/
def tdLengthLimitText : String := "Transfer TRB length over limit"

/-! ## Reading the ring -/

/-- `read_trb`: the 16 bytes at `addr`, three little-endian words. -/
def readTrb (mem : List UInt8) (addr : Nat) : Except XhciError XhciTRB := do
  let buf ← dmaReadBytes mem addr TRB_SIZE
  pure { parameter := (leReadAt buf 0 8).toUInt64
         status := (leReadAt buf 8 4).toUInt32
         control := (leReadAt buf 12 4).toUInt32 }

/-- `read_cycle_bit`: the low bit of the control word, read as one `u32` at
`addr + 12`. -/
def readCycleBit (mem : List UInt8) (addr : Nat) : Except RingError Bool :=
  match checkedAdd64 addr 12 with
  | none => .error (.msg (ringAddrOverflowText addr))
  | some a =>
    match dmaReadBytes mem a 4 with
    | .error e => .error (.xhci e)
    | .ok buf => .ok ((leReadAt buf 0 4).toUInt32 &&& TRB_C == TRB_C)

/-- What one pass of either fetch loop reads at the dequeue pointer: nothing
when the cycle bit does not match (`.ok none`), or the TRB. -/
def readMatching (mem : List UInt8) (dequeue : Nat) (ccs : Bool) :
    Except RingError (Option FetchedTRB) :=
  match readCycleBit mem dequeue with
  | .error e => .error e
  | .ok c =>
    if c != ccs then .ok none
    else
      match readTrb mem dequeue with
      | .error e => .error (.xhci e)
      | .ok t => .ok (some ⟨t, dequeue, ccs⟩)

/-- Where a Link TRB sends the dequeue pointer, and the cycle state after it:
flipped by Toggle Cycle. -/
def followLink (trb : XhciTRB) (ccs : Bool) : Nat × Bool :=
  (trb.parameter.toNat, if trb.control &&& TRB_LK_TC == TRB_LK_TC then !ccs else ccs)

/-! ## The command ring -/

/-- `XhciCommandRing`. -/
structure XhciCommandRing where
  dequeue : Nat
  ccs : Bool
  deriving Repr, DecidableEq

/-- `XhciCommandRing::new`. -/
def XhciCommandRing.new : XhciCommandRing := ⟨0, true⟩

/-- `XhciCommandRing::init`. -/
def XhciCommandRing.init (addr : Nat) : XhciCommandRing := ⟨addr, true⟩

/-- `XhciCommandRing::set_cycle_bit`. -/
def XhciCommandRing.setCycleBit (r : XhciCommandRing) (v : Bool) : XhciCommandRing :=
  { r with ccs := v }

/-- The variables of `fetch_trb`'s loop: the ring it advances, `link_cnt`, and
the TRB it returns once it leaves. -/
structure FetchTrbState where
  ring : XhciCommandRing
  linkCnt : Nat
  found : Option FetchedTRB

/-- One pass of `fetch_trb`'s `loop`: leave with `None` on a cycle mismatch,
follow a Link TRB, or take the TRB and step over it. -/
def fetchTrbStep (mem : List UInt8) (st : FetchTrbState) : Step FetchTrbState RingError :=
  match readMatching mem st.ring.dequeue st.ring.ccs with
  | .error e => .fail e st
  | .ok none => .exit st
  | .ok (some trb) =>
    if trb.trb.getType == TR_LINK then
      if st.linkCnt + 1 > TRB_LINK_LIMIT then .fail (.msg trbLinkLimitText) st
      else
        let (dequeue, ccs) := followLink trb.trb st.ring.ccs
        .next ⟨⟨dequeue, ccs⟩, st.linkCnt + 1, none⟩
    else
      match checkedAdd64 st.ring.dequeue TRB_SIZE with
      | none => .fail (.xhci (.memoryAccessOverflow st.ring.dequeue TRB_SIZE)) st
      | some dequeue => .exit ⟨{ st.ring with dequeue }, st.linkCnt, some trb⟩

/-- A pass that goes round followed one more Link TRB, within the limit. -/
theorem fetchTrbStep_next {mem : List UInt8} {st st' : FetchTrbState}
    (h : fetchTrbStep mem st = .next st') :
    st.linkCnt + 1 ≤ TRB_LINK_LIMIT ∧ ∃ trb, readMatching mem st.ring.dequeue st.ring.ccs =
      .ok (some trb) ∧ trb.trb.getType = TR_LINK ∧
      st' = ⟨⟨(followLink trb.trb st.ring.ccs).1, (followLink trb.trb st.ring.ccs).2⟩,
        st.linkCnt + 1, none⟩ := by
  unfold fetchTrbStep at h
  split at h
  · cases h
  · cases h
  · rename_i trb hread
    split at h
    · rename_i hlink
      split at h
      · cases h
      · rename_i hlim
        cases h
        exact ⟨by omega, trb, hread, by simpa using hlink, rfl⟩
    · split at h <;> cases h

/-- `fetch_trb`'s loop: it goes round only on a Link TRB, and gives up after
`TRB_LINK_LIMIT` of them. -/
def fetchTrbLoop (mem : List UInt8) : Loop FetchTrbState RingError where
  body := fetchTrbStep mem
  measure st := TRB_LINK_LIMIT - st.linkCnt
  decreasing h := by
    obtain ⟨hlim, -, -, -, rfl⟩ := fetchTrbStep_next h
    dsimp only
    omega

/-- `XhciCommandRing::fetch_trb`: the TRB, and the ring as the loop left it
(also on an error, after the Link TRBs it followed). -/
def XhciCommandRing.fetchTrb (mem : List UInt8) (r : XhciCommandRing) :
    Except RingError (Option FetchedTRB) × XhciCommandRing :=
  match (fetchTrbLoop mem).run ⟨r, 0, none⟩ with
  | .exit st => (.ok st.found, st.ring)
  | .fail e st => (.error e, st.ring)

/-! ## The transfer ring -/

/-- `XhciTransferRing`, by the dequeue pointer and the cycle state. -/
structure XhciTransferRing where
  dequeue : Nat
  ccs : Bool
  deriving Repr, DecidableEq

/-- `XhciTransferRing::new`. -/
def XhciTransferRing.new : XhciTransferRing := ⟨0, true⟩

/-- `XhciTransferRing::init`. -/
def XhciTransferRing.init (addr : Nat) : XhciTransferRing := ⟨addr, true⟩

/-- `XhciTransferRing::set_cycle_bit`. -/
def XhciTransferRing.setCycleBit (r : XhciTransferRing) (v : Bool) : XhciTransferRing :=
  { r with ccs := v }

/-- `XhciTransferRing::update_dequeue_to_ctx`: the endpoint context's
`deq_lo` and `deq_hi`. -/
def XhciTransferRing.updateDequeueToCtx (r : XhciTransferRing) : UInt32 × UInt32 :=
  (r.dequeue.toUInt32 ||| (if r.ccs then 1 else 0), (r.dequeue >>> 32).toUInt32)

/-- The variables of `fetch_td`'s loop: the pass count of its `for`, the
dequeue pointer and cycle state copies, `ctrl_td`, `link_cnt`, the TRBs taken,
and whether a whole descriptor was found. -/
structure FetchTdState where
  pass : Nat
  dequeue : Nat
  ccs : Bool
  ctrlTd : Bool
  linkCnt : Nat
  td : List FetchedTRB
  done : Bool

/-- Whether a taken TRB ends the descriptor: outside a control transfer, a
TRB without the chain flag. `ctrl_td` is set by a Setup TRB and cleared by a
Status TRB. -/
def tdCtrl (ctrlTd : Bool) (trb : XhciTRB) : Bool :=
  if trb.getType == TR_SETUP then true
  else if trb.getType == TR_STATUS then false
  else ctrlTd

/-- One pass of `fetch_td`'s `for` loop. -/
def fetchTdStep (mem : List UInt8) (st : FetchTdState) : Step FetchTdState RingError :=
  if st.pass ≥ RING_LEN_LIMIT then .fail (.msg tdLengthLimitText) st
  else
    match readMatching mem st.dequeue st.ccs with
    | .error e => .fail e st
    | .ok none => .exit st
    | .ok (some trb) =>
      if trb.trb.getType == TR_LINK then
        if st.linkCnt + 1 > TRB_LINK_LIMIT then .fail (.msg tdLinkLimitText) st
        else
          let (dequeue, ccs) := followLink trb.trb st.ccs
          .next { st with pass := st.pass + 1, dequeue, ccs, linkCnt := st.linkCnt + 1 }
      else
        let td := st.td ++ [trb]
        match checkedAdd64 st.dequeue TRB_SIZE with
        | none => .fail (.xhci (.memoryAccessOverflow st.dequeue TRB_SIZE)) { st with td }
        | some dequeue =>
          let ctrlTd := tdCtrl st.ctrlTd trb.trb
          if !ctrlTd && (trb.trb.control &&& TRB_TR_CH != TRB_TR_CH) then
            .exit { st with dequeue, ctrlTd, td, done := true }
          else .next { st with pass := st.pass + 1, dequeue, ctrlTd, td }

/-- Every pass that goes round is one more pass of the `for` loop. -/
theorem fetchTdStep_pass {mem : List UInt8} {st st' : FetchTdState}
    (h : fetchTdStep mem st = .next st') : st.pass < RING_LEN_LIMIT ∧ st'.pass = st.pass + 1 := by
  unfold fetchTdStep at h
  split at h
  · cases h
  · rename_i hlt
    split at h
    · cases h
    · cases h
    · split at h
      · split at h
        · cases h
        · cases h
          exact ⟨by omega, rfl⟩
      · split at h
        · cases h
        · dsimp only at h
          split at h
          · cases h
          · cases h
            exact ⟨by omega, rfl⟩

/-- `fetch_td`'s loop. -/
def fetchTdLoop (mem : List UInt8) : Loop FetchTdState RingError where
  body := fetchTdStep mem
  measure st := RING_LEN_LIMIT - st.pass
  decreasing h := by
    obtain ⟨hlt, heq⟩ := fetchTdStep_pass h
    rw [heq]
    omega

/-- `XhciTransferRing::fetch_td`: the loop runs on copies of the dequeue
pointer and the cycle state, which are stored back only with a whole
descriptor. -/
def XhciTransferRing.fetchTd (mem : List UInt8) (r : XhciTransferRing) :
    Except RingError (Option (List FetchedTRB)) × XhciTransferRing :=
  match (fetchTdLoop mem).run ⟨0, r.dequeue, r.ccs, false, 0, [], false⟩ with
  | .fail e _ => (.error e, r)
  | .exit st => if st.done then (.ok (some st.td), ⟨st.dequeue, st.ccs⟩) else (.ok none, r)

/-! ## Reading a slot that holds a TRB -/

theorem bytes_eq (t : XhciTRB) :
    t.bytes = leEncode 8 t.parameter.toNat ++ leEncode 4 t.status.toNat ++ leEncode 4 t.control.toNat :=
  trbBuf_eq _ _ _

theorem leReadAt_bytes_parameter (t : XhciTRB) : leReadAt t.bytes 0 8 = t.parameter.toNat := by
  rw [leReadAt, bytes_eq, slice_append_left _ _ (by simp), slice_append_left _ _ (by simp),
    slice_zero_of_length_le (by simp), leDecode_leEncode]
  exact Nat.mod_eq_of_lt t.parameter.toNat_lt

theorem leReadAt_bytes_status (t : XhciTRB) : leReadAt t.bytes 8 4 = t.status.toNat := by
  rw [leReadAt, bytes_eq, slice_append_left _ _ (by simp), slice_append_right _ _ (by simp)]
  simp only [length_leEncode, Nat.sub_self, Nat.reduceAdd, Nat.reduceSub]
  rw [slice_zero_of_length_le (by simp), leDecode_leEncode]
  exact Nat.mod_eq_of_lt t.status.toNat_lt

theorem leReadAt_bytes_control (t : XhciTRB) : leReadAt t.bytes 12 4 = t.control.toNat := by
  rw [leReadAt, bytes_eq, slice_append_right _ _ (by simp)]
  simp only [List.length_append, length_leEncode, Nat.sub_self, Nat.reduceAdd, Nat.reduceSub]
  rw [slice_zero_of_length_le (by simp), leDecode_leEncode]
  exact Nat.mod_eq_of_lt t.control.toNat_lt

theorem readTrb_of_slice {mem : List UInt8} {a : Nat} {t : XhciTRB}
    (hlen : a + TRB_SIZE ≤ mem.length) (h : slice mem a (a + TRB_SIZE) = t.bytes) :
    readTrb mem a = .ok t := by
  have hread : dmaReadBytes mem a TRB_SIZE = .ok t.bytes := by
    rw [dmaReadBytes, if_pos hlen, h]
  simp only [readTrb, hread, bind, Except.bind, pure, Except.pure, leReadAt_bytes_parameter,
    leReadAt_bytes_status, leReadAt_bytes_control, UInt64.ofNat_toNat, UInt32.ofNat_toNat,
    Nat.toUInt64_eq, Nat.toUInt32_eq]

/-- The cycle bit of the slot at `a`, as `read_cycle_bit` reads it. -/
def cycleBitAt (mem : List UInt8) (a : Nat) : Bool := (leReadAt mem (a + 12) 4).testBit 0

theorem readCycleBit_eq {mem : List UInt8} {a : Nat} (hlen : a + TRB_SIZE ≤ mem.length)
    (hov : a + 12 < U64_MOD) : readCycleBit mem a = .ok (cycleBitAt mem a) := by
  have hadd : checkedAdd64 a 12 = some (a + 12) := checkedAdd64_eq_some.2 ⟨hov, rfl⟩
  have hread : dmaReadBytes mem (a + 12) 4 = .ok (slice mem (a + 12) (a + 12 + 4)) := by
    rw [dmaReadBytes, if_pos (by simp only [TRB_SIZE] at hlen; omega)]
  have hw : leReadAt (slice mem (a + 12) (a + 12 + 4)) 0 4 = leReadAt mem (a + 12) 4 := by
    rw [leReadAt, slice_zero_of_length_le (by rw [length_slice_eq]; omega), leReadAt]
  have hlt : leReadAt mem (a + 12) 4 < 2 ^ 32 := leReadAt_lt _ _ _
  rw [readCycleBit, hadd]
  simp only [hread, hw, and_cycle_beq, cycleBitAt]
  congr
  simpa using hlt

theorem cycleBitAt_of_slice {mem : List UInt8} {a : Nat} {t : XhciTRB}
    (h : slice mem a (a + TRB_SIZE) = t.bytes) :
    cycleBitAt mem a = t.control.toNat.testBit 0 := by
  have hs : slice mem (a + 12) (a + 12 + 4) = slice t.bytes 12 (12 + 4) := by
    rw [← h, slice_slice _ (by simp [TRB_SIZE])]
  have hc := leReadAt_bytes_control t
  rw [leReadAt] at hc
  rw [cycleBitAt, leReadAt, hs, hc]


/-- The slot at `a` lies in guest memory and holds the TRB `t`. -/
def SlotHolds (mem : List UInt8) (a : Nat) (t : XhciTRB) : Prop :=
  a + TRB_SIZE ≤ mem.length ∧ slice mem a (a + TRB_SIZE) = t.bytes

/-- A slot whose cycle bit is not the consumer's reads as nothing. -/
theorem readMatching_of_ne {mem : List UInt8} {a : Nat} {ccs : Bool}
    (hlen : a + TRB_SIZE ≤ mem.length) (hov : a + 12 < U64_MOD) (hc : cycleBitAt mem a ≠ ccs) :
    readMatching mem a ccs = .ok none := by
  rw [readMatching, readCycleBit_eq hlen hov]
  simp [hc]

/-- A slot holding a TRB with the consumer's cycle bit reads as that TRB. -/
theorem readMatching_of_holds {mem : List UInt8} {a : Nat} {ccs : Bool} {t : XhciTRB}
    (h : SlotHolds mem a t) (hov : a + 12 < U64_MOD) (hc : t.control.toNat.testBit 0 = ccs) :
    readMatching mem a ccs = .ok (some ⟨t, a, ccs⟩) := by
  rw [readMatching, readCycleBit_eq h.1 hov, cycleBitAt_of_slice h.2, hc,
    readTrb_of_slice h.1 h.2]
  simp


/-! ## One pass of `fetch_trb` -/

section FetchTrbStep

variable {mem : List UInt8} {st : FetchTrbState}

/-- A cycle mismatch leaves the loop as it is. -/
theorem fetchTrbStep_of_none (hr : readMatching mem st.ring.dequeue st.ring.ccs = .ok none) :
    fetchTrbStep mem st = .exit st := by
  rw [fetchTrbStep, hr]

/-- A TRB other than a Link TRB is taken and stepped over. -/
theorem fetchTrbStep_of_take {trb : FetchedTRB}
    (hr : readMatching mem st.ring.dequeue st.ring.ccs = .ok (some trb))
    (ht : trb.trb.getType ≠ TR_LINK) (hov : st.ring.dequeue + TRB_SIZE < U64_MOD) :
    fetchTrbStep mem st =
      .exit ⟨{ st.ring with dequeue := st.ring.dequeue + TRB_SIZE }, st.linkCnt, some trb⟩ := by
  have hadd : checkedAdd64 st.ring.dequeue TRB_SIZE = some (st.ring.dequeue + TRB_SIZE) :=
    checkedAdd64_eq_some.2 ⟨hov, rfl⟩
  rw [fetchTrbStep, hr]
  simp only [beq_iff_eq, ht, if_false, hadd]

/-- A Link TRB within the limit is followed. -/
theorem fetchTrbStep_of_link {trb : FetchedTRB}
    (hr : readMatching mem st.ring.dequeue st.ring.ccs = .ok (some trb))
    (ht : trb.trb.getType = TR_LINK) (hlim : st.linkCnt + 1 ≤ TRB_LINK_LIMIT) :
    fetchTrbStep mem st = .next ⟨⟨(followLink trb.trb st.ring.ccs).1,
      (followLink trb.trb st.ring.ccs).2⟩, st.linkCnt + 1, none⟩ := by
  rw [fetchTrbStep, hr]
  simp only [ht, beq_self_eq_true, if_true, if_neg (show ¬st.linkCnt + 1 > TRB_LINK_LIMIT by omega)]

end FetchTrbStep

/-! ## One pass of `fetch_td` -/

section FetchTdStep

variable {mem : List UInt8} {st : FetchTdState}

/-- A cycle mismatch leaves the loop, with no descriptor. -/
theorem fetchTdStep_of_none (hp : st.pass < RING_LEN_LIMIT)
    (hr : readMatching mem st.dequeue st.ccs = .ok none) : fetchTdStep mem st = .exit st := by
  rw [fetchTdStep, if_neg (by omega), hr]

/-- A Link TRB within the limit is followed. -/
theorem fetchTdStep_of_link {trb : FetchedTRB} (hp : st.pass < RING_LEN_LIMIT)
    (hr : readMatching mem st.dequeue st.ccs = .ok (some trb)) (ht : trb.trb.getType = TR_LINK)
    (hlim : st.linkCnt + 1 ≤ TRB_LINK_LIMIT) :
    fetchTdStep mem st = .next
      { st with
        pass := st.pass + 1, dequeue := (followLink trb.trb st.ccs).1,
        ccs := (followLink trb.trb st.ccs).2, linkCnt := st.linkCnt + 1 } := by
  rw [fetchTdStep, if_neg (by omega), hr]
  simp only [ht, beq_self_eq_true, if_true, if_neg (show ¬st.linkCnt + 1 > TRB_LINK_LIMIT by omega)]

/-- Any other TRB is taken; the pass leaves with the descriptor when the TRB
ends it. -/
theorem fetchTdStep_of_take {trb : FetchedTRB} (hp : st.pass < RING_LEN_LIMIT)
    (hr : readMatching mem st.dequeue st.ccs = .ok (some trb)) (ht : trb.trb.getType ≠ TR_LINK)
    (hov : st.dequeue + TRB_SIZE < U64_MOD) :
    fetchTdStep mem st =
      if !tdCtrl st.ctrlTd trb.trb && (trb.trb.control &&& TRB_TR_CH != TRB_TR_CH) then
        .exit
          { st with
            dequeue := st.dequeue + TRB_SIZE, ctrlTd := tdCtrl st.ctrlTd trb.trb,
            td := st.td ++ [trb], done := true }
      else
        .next
          { st with
            pass := st.pass + 1, dequeue := st.dequeue + TRB_SIZE,
            ctrlTd := tdCtrl st.ctrlTd trb.trb, td := st.td ++ [trb] } := by
  have hadd : checkedAdd64 st.dequeue TRB_SIZE = some (st.dequeue + TRB_SIZE) :=
    checkedAdd64_eq_some.2 ⟨hov, rfl⟩
  rw [fetchTdStep, if_neg (by omega), hr]
  simp only [beq_iff_eq, ht, if_false, hadd]

end FetchTdStep

end StratoVirt.Usb
