import Mathlib
import StratoVirt.Usb.XhciRing
import StratoVirt.Lib.PhaseRing

/-!
# The command ring hands the device the driver's commands in order, each once

`XhciRing` models the device's side of a ring. Here the driver's side is
added as the xHCI specification has it for a ring of one segment (4.9.2): the
ring is `size` slots from `base`, the last holding a Link TRB back to `base`
with Toggle Cycle; the driver fills the other slots in turn, each TRB with its
producer cycle state in the cycle bit, and when it reaches the Link TRB it
gives it the same cycle bit, goes back to the first slot and flips its cycle
state (`RingProducer.enqueue`).

The driver never reads the device's dequeue pointer and the device never
reads the driver's enqueue index: all they share is the cycle bits in guest
memory. This is the phase ring of `Lib.PhaseRing`, with the wrap made
explicit by the Link TRB, which the device has to read (and whose cycle bit
has to match) before it goes back to the first slot.

`RingInv` is what holds between their steps, in terms of the number of TRBs
the device has taken, `consumed`, and the driver's TRBs it has not taken yet,
`pending`: the `k`-th pending TRB is in slot `(consumed + k) % (size - 1)`
with the cycle bit of its lap, every other slot has the cycle bit opposite to
the one the driver will write there next, and the Link TRB's cycle bit is
opposite to the driver's cycle state. The device is at the slot of its next
TRB, or still at the Link TRB right after taking the last TRB of a lap.

Main results:

* `RingInv.enqueue`: the driver's write keeps the invariant with the TRB
  appended to `pending`, as long as it leaves one slot free.
* `fetchTrb_of_pending`, `fetchTrb_of_empty`: from the invariant,
  `fetch_trb` returns the oldest pending TRB, read at its slot, and keeps the
  invariant with it removed; or it returns `None` when nothing is pending.
* `cmdRingRun_eq_fifoRun`: on a fresh ring, every interleaving of the
  driver's writes and `fetch_trb` calls in which the driver leaves one slot
  free gives the device exactly the pops of a queue of `size - 2` commands:
  the driver's commands, in order, none lost, none twice, and no error.
-/

namespace StratoVirt.Usb

open StratoVirt.Lib StratoVirt.AddressSpace

/-! ## TRBs as the driver writes them -/

/-- The TRB `t` with its cycle bit set to `b`. -/
def XhciTRB.withCycle (t : XhciTRB) (b : Bool) : XhciTRB :=
  if t.control.toNat.testBit 0 = b then t else { t with control := toggleCycle t.control }

section WithCycle

variable (t : XhciTRB) (b : Bool)

@[simp] theorem testBit_withCycle : (t.withCycle b).control.toNat.testBit 0 = b := by
  unfold XhciTRB.withCycle
  split
  · assumption
  · rename_i h
    rw [testBit_toggleCycle]
    cases hb : b <;> simp_all

/-- Only the cycle bit changes. -/
theorem div_two_withCycle : (t.withCycle b).control.toNat / 2 = t.control.toNat / 2 := by
  unfold XhciTRB.withCycle
  split
  · rfl
  · dsimp only
    rw [toNat_toggleCycle]
    rcases Nat.even_or_odd t.control.toNat with he | ho
    · rw [Nat.xor_one_of_even he]
      have := Nat.even_iff.1 he
      omega
    · rw [Nat.xor_one_of_odd ho]
      have := Nat.odd_iff.1 ho
      omega

theorem toggleCycle_toggleCycle (c : UInt32) : toggleCycle (toggleCycle c) = c := by
  apply UInt32.toNat_inj.1
  rw [toNat_toggleCycle, toNat_toggleCycle, Nat.xor_assoc, Nat.xor_self, Nat.xor_zero]

/-- Setting the cycle bit twice is setting it once. -/
@[simp] theorem withCycle_withCycle (b' : Bool) : (t.withCycle b).withCycle b' = t.withCycle b' := by
  by_cases ht : t.control.toNat.testBit 0 = b
  · have hw : t.withCycle b = t := by rw [XhciTRB.withCycle, if_pos ht]
    rw [hw]
  · have ht' : t.control.toNat.testBit 0 = !b := by cases b <;> simp_all
    have hw : t.withCycle b = { t with control := toggleCycle t.control } := by
      rw [XhciTRB.withCycle, if_neg ht]
    by_cases hb : b' = b
    · subst hb
      rw [hw, XhciTRB.withCycle, if_pos (by rw [testBit_toggleCycle, ht', Bool.not_not])]
    · have hb' : b' = !b := by cases b <;> cases b' <;> simp_all
      subst hb'
      rw [hw, XhciTRB.withCycle, if_neg (by rw [testBit_toggleCycle, ht']; simp),
        toggleCycle_toggleCycle, XhciTRB.withCycle, if_pos ht']

end WithCycle

/-- Bits above the lowest agree when the words agree once halved. -/
theorem testBit_succ_of_div_two {x y : Nat} (h : x / 2 = y / 2) (i : Nat) :
    x.testBit (i + 1) = y.testBit (i + 1) := by
  rw [← Nat.testBit_div_two, h, Nat.testBit_div_two]

/-- The type does not read the cycle bit. -/
theorem getType_congr {t t' : XhciTRB} (h : t.control.toNat / 2 = t'.control.toNat / 2) :
    t.getType = t'.getType := by
  apply UInt32.toNat_inj.1
  apply Nat.eq_of_testBit_eq
  intro j
  simp only [XhciTRB.getType, UInt32.toNat_and, UInt32.toNat_shiftRight, Nat.testBit_and,
    Nat.testBit_shiftRight, TRB_TYPE_SHIFT]
  rw [show (10 : UInt32).toNat % 32 + j = (j + 9) + 1 by simp; omega,
    testBit_succ_of_div_two h]

/-- Neither does the chain flag. -/
theorem chain_congr {t t' : XhciTRB} (h : t.control.toNat / 2 = t'.control.toNat / 2) :
    t.control &&& TRB_TR_CH = t'.control &&& TRB_TR_CH := by
  apply UInt32.toNat_inj.1
  apply Nat.eq_of_testBit_eq
  intro j
  simp only [UInt32.toNat_and, Nat.testBit_and]
  rcases Nat.eq_zero_or_pos j with rfl | hj
  · have h0 : TRB_TR_CH.toNat.testBit 0 = false := by decide
    simp [h0]
  · obtain ⟨i, rfl⟩ : ∃ i, j = i + 1 := ⟨j - 1, by omega⟩
    rw [testBit_succ_of_div_two h]

@[simp] theorem getType_withCycle (t : XhciTRB) (b : Bool) : (t.withCycle b).getType = t.getType :=
  getType_congr (div_two_withCycle t b)

@[simp] theorem chain_withCycle (t : XhciTRB) (b : Bool) :
    (t.withCycle b).control &&& TRB_TR_CH = t.control &&& TRB_TR_CH :=
  chain_congr (div_two_withCycle t b)

/-! ## The Link TRB that ends the ring -/

/-- Its control word: type `TrLink`, Toggle Cycle, and the cycle bit. -/
def linkControl (cycle : Bool) : UInt32 :=
  TR_LINK <<< TRB_TYPE_SHIFT ||| TRB_LK_TC ||| (if cycle then TRB_C else 0)

/-- The Link TRB back to `base`. -/
def linkTrb (base : Nat) (cycle : Bool) : XhciTRB := ⟨base.toUInt64, 0, linkControl cycle⟩

@[simp] theorem getType_linkTrb (base : Nat) (c : Bool) : (linkTrb base c).getType = TR_LINK := by
  simp only [XhciTRB.getType, linkTrb]
  cases c <;> decide

@[simp] theorem testBit_linkTrb (base : Nat) (c : Bool) :
    (linkTrb base c).control.toNat.testBit 0 = c := by
  simp only [linkTrb]
  cases c <;> decide

/-- Following it leads back to `base` in the other phase. -/
theorem followLink_linkTrb {base : Nat} (h : base < U64_MOD) (c ccs : Bool) :
    followLink (linkTrb base c) ccs = (base, !ccs) := by
  have htc : (linkControl c &&& TRB_LK_TC == TRB_LK_TC) = true := by cases c <;> decide
  simp only [followLink, linkTrb, htc, if_true, Prod.mk.injEq, and_true]
  exact Nat.mod_eq_of_lt h

/-! ## The ring and the driver -/

/-- A ring of one segment: `size` slots of 16 bytes from `base`, the last one
for the Link TRB, all at addresses a `u64` holds. -/
structure RingLayout where
  base : Nat
  size : Nat
  two_le_size : 2 ≤ size
  fits : base + TRB_SIZE * size < U64_MOD

namespace RingLayout

variable (L : RingLayout)

/-- The address of slot `j`. -/
def slot (j : Nat) : Nat := L.base + TRB_SIZE * j

/-- The slots for TRBs: all but the Link TRB's. -/
def usable : Nat := L.size - 1

theorem usable_pos : 0 < L.usable := by
  have := L.two_le_size
  simp only [usable]
  omega

@[simp] theorem slot_zero : L.slot 0 = L.base := by simp [slot]

theorem slot_succ (j : Nat) : L.slot (j + 1) = L.slot j + TRB_SIZE := by
  simp only [slot, Nat.mul_succ]
  omega

/-- Every slot, the Link TRB's included, ends below `2^64`. -/
theorem slot_end_lt {j : Nat} (hj : j ≤ L.usable) : L.slot j + TRB_SIZE < U64_MOD := by
  have := L.fits
  have := L.two_le_size
  simp only [slot, usable, TRB_SIZE] at *
  omega

/-- Two slots do not overlap. -/
theorem slot_disjoint {i j : Nat} (hne : i ≠ j) :
    L.slot i + TRB_SIZE ≤ L.slot j ∨ L.slot j + TRB_SIZE ≤ L.slot i := by
  simp only [slot, TRB_SIZE]
  omega

/-- Every slot lies in memory that holds the ring. -/
theorem slot_end_le {mem : List UInt8} (h : L.base + TRB_SIZE * L.size ≤ mem.length) {j : Nat}
    (hj : j ≤ L.usable) : L.slot j + TRB_SIZE ≤ mem.length := by
  have := L.two_le_size
  simp only [slot, usable, TRB_SIZE] at *
  omega

end RingLayout

/-- The driver's side of a ring: the slot it fills next and its producer
cycle state. -/
structure RingProducer where
  enqueueIdx : Nat
  pcs : Bool
  deriving Repr, DecidableEq

/-- The driver puts `t` on the ring: the TRB with its producer cycle state in
its cycle bit goes into the next slot; after the last slot before the Link
TRB, the Link TRB gets the same cycle bit, and the driver goes back to the
first slot with its cycle state flipped. -/
def RingProducer.enqueue (L : RingLayout) (p : RingProducer) (mem : List UInt8) (t : XhciTRB) :
    RingProducer × List UInt8 :=
  let mem := spliceAt mem (L.slot p.enqueueIdx) (t.withCycle p.pcs).bytes
  if p.enqueueIdx + 1 = L.usable then
    (⟨0, !p.pcs⟩, spliceAt mem (L.slot L.usable) (linkTrb L.base p.pcs).bytes)
  else (⟨p.enqueueIdx + 1, p.pcs⟩, mem)

/-! ## Writes to one slot leave the others alone -/

section Frame

variable {mem : List UInt8} {a w : Nat} {src : List UInt8}

@[simp] theorem length_bytes (t : XhciTRB) : t.bytes.length = TRB_SIZE := length_trbBuf _ _ _

theorem slotHolds_spliceAt_self {t : XhciTRB} (h : a + TRB_SIZE ≤ mem.length) :
    SlotHolds (spliceAt mem a t.bytes) a t := by
  have hlen : a + t.bytes.length ≤ mem.length := by rw [length_bytes]; exact h
  refine ⟨by rw [length_spliceAt hlen]; exact h, ?_⟩
  have hs := slice_spliceAt hlen
  rw [length_bytes] at hs
  exact hs

theorem slotHolds_spliceAt_of_disjoint {t : XhciTRB} (h : SlotHolds mem a t)
    (hw : w + src.length ≤ mem.length) (hd : a + TRB_SIZE ≤ w ∨ w + src.length ≤ a) :
    SlotHolds (spliceAt mem w src) a t :=
  ⟨by rw [length_spliceAt hw]; exact h.1, by rw [slice_spliceAt_of_disjoint hw hd]; exact h.2⟩

theorem cycleBitAt_spliceAt_of_disjoint (hw : w + src.length ≤ mem.length)
    (hd : a + TRB_SIZE ≤ w ∨ w + src.length ≤ a) :
    cycleBitAt (spliceAt mem w src) a = cycleBitAt mem a := by
  simp only [cycleBitAt, leReadAt]
  rw [slice_spliceAt_of_disjoint hw (by simp only [TRB_SIZE] at hd; omega)]

theorem cycleBitAt_of_slotHolds {t : XhciTRB} (h : SlotHolds mem a t) :
    cycleBitAt mem a = t.control.toNat.testBit 0 :=
  cycleBitAt_of_slice h.2

variable {L : RingLayout} {i j : Nat} {t t' : XhciTRB}

/-- Writing a TRB into one slot keeps what another slot holds. -/
theorem slotHolds_write (hne : i ≠ j) (hi : L.slot i + TRB_SIZE ≤ mem.length)
    (h : SlotHolds mem (L.slot j) t) : SlotHolds (spliceAt mem (L.slot i) t'.bytes) (L.slot j) t :=
  slotHolds_spliceAt_of_disjoint h (by rw [length_bytes]; exact hi)
    (by rw [length_bytes]; exact L.slot_disjoint hne.symm)

/-- ... and its cycle bit. -/
theorem cycleBitAt_write (hne : i ≠ j) (hi : L.slot i + TRB_SIZE ≤ mem.length) :
    cycleBitAt (spliceAt mem (L.slot i) t'.bytes) (L.slot j) = cycleBitAt mem (L.slot j) :=
  cycleBitAt_spliceAt_of_disjoint (by rw [length_bytes]; exact hi)
    (by rw [length_bytes]; exact L.slot_disjoint hne.symm)

theorem length_write (hi : L.slot i + TRB_SIZE ≤ mem.length) :
    (spliceAt mem (L.slot i) t'.bytes).length = mem.length :=
  length_spliceAt (by rw [length_bytes]; exact hi)

end Frame

instance (mem : List UInt8) (a : Nat) (t : XhciTRB) : Decidable (SlotHolds mem a t) :=
  inferInstanceAs (Decidable (_ ∧ _))

/-! ## The invariant -/

/-- What holds of a ring between the driver's and the device's steps, after
the device took `consumed` TRBs, with the driver's TRBs `pending` not taken
yet, oldest first. The device's position is given by its dequeue pointer and
cycle state. -/
structure RingInv (L : RingLayout) (c0 : Bool) (mem : List UInt8) (p : RingProducer)
    (dequeue : Nat) (ccs : Bool) (consumed : Nat) (pending : List XhciTRB) : Prop where
  inMem : L.base + TRB_SIZE * L.size ≤ mem.length
  room : pending.length < L.usable
  enqueueIdx : p.enqueueIdx = (consumed + pending.length) % L.usable
  pcs : p.pcs = phase c0 L.usable (consumed + pending.length)
  -- at the slot of the next TRB, or at the Link TRB after the last slot of a lap
  consumer : (dequeue = L.slot (consumed % L.usable) ∧ ccs = phase c0 L.usable consumed) ∨
    (consumed % L.usable = 0 ∧ 0 < consumed ∧ dequeue = L.slot L.usable ∧
      ccs = phase c0 L.usable (consumed - 1))
  holds : ∀ k (hk : k < pending.length), SlotHolds mem (L.slot ((consumed + k) % L.usable))
    (pending[k].withCycle (phase c0 L.usable (consumed + k)))
  -- the other slots, up to a lap from `consumed`, are not the driver's next writes
  free : ∀ k, consumed + pending.length ≤ k → k < consumed + L.usable →
    cycleBitAt mem (L.slot (k % L.usable)) = !phase c0 L.usable k
  link : SlotHolds mem (L.slot L.usable)
    (linkTrb L.base (!phase c0 L.usable (consumed + pending.length)))
  noLink : ∀ t ∈ pending, t.getType ≠ TR_LINK

section Inv

variable {L : RingLayout} {c0 : Bool} {mem : List UInt8} {p : RingProducer} {dequeue : Nat}
  {ccs : Bool} {consumed : Nat} {pending : List XhciTRB}

theorem mod_usable_lt (L : RingLayout) (k : Nat) : k % L.usable < L.usable :=
  Nat.mod_lt _ L.usable_pos

/-- The device reads a pending TRB at its slot. -/
theorem RingInv.readMatching_pending (h : RingInv L c0 mem p dequeue ccs consumed pending)
    {k : Nat} (hk : k < pending.length) :
    readMatching mem (L.slot ((consumed + k) % L.usable)) (phase c0 L.usable (consumed + k)) =
      .ok (some ⟨pending[k].withCycle (phase c0 L.usable (consumed + k)),
        L.slot ((consumed + k) % L.usable), phase c0 L.usable (consumed + k)⟩) := by
  have hov := L.slot_end_lt (mod_usable_lt L (consumed + k)).le
  exact readMatching_of_holds (h.holds k hk) (by simp only [TRB_SIZE] at hov; omega)
    (testBit_withCycle _ _)

/-- The device reads nothing at the first slot the driver has not written. -/
theorem RingInv.readMatching_free (h : RingInv L c0 mem p dequeue ccs consumed pending) :
    readMatching mem (L.slot ((consumed + pending.length) % L.usable))
      (phase c0 L.usable (consumed + pending.length)) = .ok none := by
  have hov := L.slot_end_lt (mod_usable_lt L (consumed + pending.length)).le
  apply readMatching_of_ne (L.slot_end_le h.inMem (mod_usable_lt L _).le)
    (by simp only [TRB_SIZE] at hov; omega)
  rw [h.free _ le_rfl (by have := h.room; omega)]
  simp

/-- At the Link TRB after a lap, the device's cycle state matches the Link
TRB's: the driver has wrapped, and not yet once more. -/
theorem RingInv.readMatching_link (h : RingInv L c0 mem p dequeue ccs consumed pending)
    (hmod : consumed % L.usable = 0) (hpos : 0 < consumed) :
    readMatching mem (L.slot L.usable) (phase c0 L.usable (consumed - 1)) =
      .ok (some ⟨linkTrb L.base (phase c0 L.usable (consumed - 1)), L.slot L.usable,
        phase c0 L.usable (consumed - 1)⟩) := by
  have hlap : phase c0 L.usable (consumed + pending.length) = phase c0 L.usable consumed := by
    apply phase_of_div_eq
    have := h.room
    rw [Nat.add_div_of_dvd_right (Nat.dvd_of_mod_eq_zero hmod), Nat.div_eq_of_lt this,
      Nat.add_zero]
  have hwrap : phase c0 L.usable consumed = !phase c0 L.usable (consumed - 1) :=
    phase_of_mod_eq_zero hmod hpos
  have hcyc : (!phase c0 L.usable (consumed + pending.length)) = phase c0 L.usable (consumed - 1) := by
    rw [hlap, hwrap, Bool.not_not]
  have hov := L.slot_end_lt (le_refl L.usable)
  rw [← hcyc]
  exact readMatching_of_holds h.link (by simp only [TRB_SIZE] at hov; omega) (testBit_linkTrb _ _)

/-- The invariant with the device at the slot of its next TRB, where
following the Link TRB takes it. -/
theorem RingInv.atSlot (h : RingInv L c0 mem p dequeue ccs consumed pending) :
    RingInv L c0 mem p (L.slot (consumed % L.usable)) (phase c0 L.usable consumed) consumed
      pending :=
  { h with consumer := Or.inl ⟨rfl, rfl⟩ }

/-- The invariant after the device took the oldest pending TRB from its slot
and stepped over it. -/
theorem RingInv.take {t : XhciTRB} {rest : List XhciTRB}
    (h : RingInv L c0 mem p (L.slot (consumed % L.usable)) (phase c0 L.usable consumed) consumed
      (t :: rest)) :
    RingInv L c0 mem p (L.slot (consumed % L.usable) + TRB_SIZE) (phase c0 L.usable consumed)
      (consumed + 1) rest := by
  have hlen : consumed + 1 + rest.length = consumed + (t :: rest).length := by
    simp only [List.length_cons]
    omega
  -- a pending TRB means the ring has at least two slots for TRBs
  have hroom := h.room
  simp only [List.length_cons] at hroom
  refine ⟨h.inMem, by omega, ?_, ?_, ?_, ?_, ?_, ?_, ?_⟩
  · rw [hlen]; exact h.enqueueIdx
  · rw [hlen]; exact h.pcs
  · -- the next slot, or the Link TRB after the last slot of the lap
    have hm := mod_usable_lt L consumed
    rw [← L.slot_succ]
    by_cases hend : consumed % L.usable + 1 = L.usable
    · have hmod : (consumed + 1) % L.usable = 0 := by
        rw [Nat.add_mod, Nat.one_mod_eq_one.2 (by omega), hend, Nat.mod_self]
      exact Or.inr ⟨hmod, by omega, by rw [hend], by rw [Nat.add_sub_cancel]⟩
    · have hmod : (consumed + 1) % L.usable = consumed % L.usable + 1 := by
        rw [Nat.add_mod, Nat.one_mod_eq_one.2 (by omega)]
        exact Nat.mod_eq_of_lt (by omega)
      refine Or.inl ⟨by rw [hmod], ?_⟩
      rw [phase_succ_of_mod_ne (by omega)]
  · intro k hk
    have hh := h.holds (k + 1) (by simp only [List.length_cons]; omega)
    rw [show consumed + (k + 1) = consumed + 1 + k by omega] at hh
    simpa using hh
  · intro k hk1 hk2
    by_cases hk : k < consumed + L.usable
    · exact h.free k (by rw [← hlen]; exact hk1) hk
    · -- the slot just taken, one lap on
      have hk' : k = consumed + L.usable := by omega
      subst hk'
      have hh := h.holds 0 (by simp)
      rw [Nat.add_zero] at hh
      rw [Nat.add_mod_right, cycleBitAt_of_slotHolds hh, testBit_withCycle,
        phase_add L.usable_pos, Bool.not_not]
  · rw [hlen]; exact h.link
  · intro t' ht'
    exact h.noLink t' (List.mem_cons_of_mem _ ht')

/-- The driver's write keeps the invariant, with its TRB pending last, when
it leaves a slot free. -/
theorem RingInv.enqueue (h : RingInv L c0 mem p dequeue ccs consumed pending) {t : XhciTRB}
    (hroom : pending.length + 1 < L.usable) (ht : t.getType ≠ TR_LINK) :
    RingInv L c0 (p.enqueue L mem t).2 (p.enqueue L mem t).1 dequeue ccs consumed
      (pending ++ [t]) := by
  have hm := L.usable_pos
  have hq := h.room
  have hlen : consumed + (pending ++ [t]).length = consumed + pending.length + 1 := by
    simp only [List.length_append, List.length_singleton]
    omega
  -- the slot written is none of the others up to a lap from `consumed`
  have hwin : ∀ k, consumed ≤ k → k < consumed + L.usable → k ≠ consumed + pending.length →
      (consumed + pending.length) % L.usable ≠ k % L.usable :=
    fun k h1 h2 hne => mod_ne_of_window (by omega) h1 (by omega) h2 (Ne.symm hne)
  have hj := mod_usable_lt L (consumed + pending.length)
  have hslot := L.slot_end_le h.inMem hj.le
  have hlinkSlot := L.slot_end_le h.inMem (le_refl L.usable)
  -- what the write of the TRB into its slot leaves
  have holds1 : ∀ k (hk : k < (pending ++ [t]).length),
      SlotHolds (spliceAt mem (L.slot ((consumed + pending.length) % L.usable))
          (t.withCycle (phase c0 L.usable (consumed + pending.length))).bytes)
        (L.slot ((consumed + k) % L.usable))
        ((pending ++ [t])[k].withCycle (phase c0 L.usable (consumed + k))) := by
    intro k hk
    rcases Nat.lt_or_ge k pending.length with hk' | hk'
    · rw [List.getElem_append_left hk']
      exact slotHolds_write (hwin _ (by omega) (by omega) (by omega)) hslot (h.holds k hk')
    · have hk'' : k = pending.length := by
        simp only [List.length_append, List.length_singleton] at hk
        omega
      subst hk''
      rw [List.getElem_append_right (le_refl _)]
      simpa using slotHolds_spliceAt_self hslot
  have free1 : ∀ k, consumed + pending.length + 1 ≤ k → k < consumed + L.usable →
      cycleBitAt (spliceAt mem (L.slot ((consumed + pending.length) % L.usable))
          (t.withCycle (phase c0 L.usable (consumed + pending.length))).bytes)
        (L.slot (k % L.usable)) = !phase c0 L.usable k := by
    intro k hk1 hk2
    rw [cycleBitAt_write (hwin k (by omega) hk2 (by omega)) hslot]
    exact h.free k (by omega) hk2
  have link1 : SlotHolds (spliceAt mem (L.slot ((consumed + pending.length) % L.usable))
      (t.withCycle (phase c0 L.usable (consumed + pending.length))).bytes) (L.slot L.usable)
      (linkTrb L.base (!phase c0 L.usable (consumed + pending.length))) :=
    slotHolds_write (Nat.ne_of_lt hj) hslot h.link
  have len1 : (spliceAt mem (L.slot ((consumed + pending.length) % L.usable))
      (t.withCycle (phase c0 L.usable (consumed + pending.length))).bytes).length = mem.length :=
    length_write hslot
  have noLink' : ∀ t' ∈ pending ++ [t], t'.getType ≠ TR_LINK := by
    intro t' ht'
    rcases List.mem_append.1 ht' with ht' | ht'
    · exact h.noLink t' ht'
    · rw [List.mem_singleton.1 ht']
      exact ht
  simp only [RingProducer.enqueue, h.enqueueIdx, h.pcs]
  generalize spliceAt mem (L.slot ((consumed + pending.length) % L.usable))
    (t.withCycle (phase c0 L.usable (consumed + pending.length))).bytes = mem1
    at holds1 free1 link1 len1
  split
  · -- the driver wraps: the Link TRB gets the lap's cycle bit
    rename_i hwrap
    have hmod : (consumed + pending.length + 1) % L.usable = 0 := by
      rw [← Nat.mod_add_mod, hwrap, Nat.mod_self]
    have hph : phase c0 L.usable (consumed + pending.length + 1) =
        !phase c0 L.usable (consumed + pending.length) := phase_succ_of_mod_eq hmod
    have hlink1 : L.slot L.usable + TRB_SIZE ≤ mem1.length := by rw [len1]; exact hlinkSlot
    refine ⟨by rw [length_write hlink1, len1]; exact h.inMem, by rw [List.length_append]; omega,
      by rw [hlen, hmod], by rw [hlen, hph], h.consumer, ?_, ?_, ?_, noLink'⟩
    · intro k hk
      exact slotHolds_write (Nat.ne_of_lt (mod_usable_lt L _)).symm hlink1 (holds1 k hk)
    · intro k hk1 hk2
      rw [cycleBitAt_write (Nat.ne_of_lt (mod_usable_lt L _)).symm hlink1]
      exact free1 k (by rw [hlen] at hk1; exact hk1) hk2
    · rw [hlen, hph, Bool.not_not]
      exact slotHolds_spliceAt_self hlink1
  · -- no wrap: the Link TRB stays as it was
    rename_i hwrap
    have hmod : (consumed + pending.length + 1) % L.usable =
        (consumed + pending.length) % L.usable + 1 := by
      rw [← Nat.mod_add_mod]
      exact Nat.mod_eq_of_lt (by omega)
    have hph : phase c0 L.usable (consumed + pending.length + 1) =
        phase c0 L.usable (consumed + pending.length) := phase_succ_of_mod_ne (by rw [hmod]; omega)
    refine ⟨by rw [len1]; exact h.inMem, by rw [List.length_append]; omega,
      by rw [hlen, hmod], by rw [hlen, hph], h.consumer, holds1, ?_, ?_, noLink'⟩
    · intro k hk1 hk2
      exact free1 k (by rw [hlen] at hk1; exact hk1) hk2
    · rw [hlen, hph]
      exact link1

/-! ## `fetch_trb` on the ring -/

/-- At the slot of its next TRB, `fetch_trb`'s pass takes the oldest pending
TRB and steps over it. -/
theorem RingInv.fetchTrbStep_pending {t : XhciTRB} {rest : List XhciTRB}
    (h : RingInv L c0 mem p dequeue ccs consumed (t :: rest)) (n : Nat) :
    fetchTrbStep mem ⟨⟨L.slot (consumed % L.usable), phase c0 L.usable consumed⟩, n, none⟩ =
      .exit ⟨⟨L.slot (consumed % L.usable) + TRB_SIZE, phase c0 L.usable consumed⟩, n,
        some ⟨t.withCycle (phase c0 L.usable consumed), L.slot (consumed % L.usable),
          phase c0 L.usable consumed⟩⟩ := by
  have hr := h.readMatching_pending (k := 0) (by simp)
  simp only [Nat.add_zero, List.getElem_cons_zero] at hr
  have hov := L.slot_end_lt (mod_usable_lt L consumed).le
  exact fetchTrbStep_of_take hr (by rw [getType_withCycle]; exact h.noLink t (by simp)) hov

/-- With nothing pending, the pass finds the cycle bit of the slot not yet
written and leaves. -/
theorem RingInv.fetchTrbStep_empty (h : RingInv L c0 mem p dequeue ccs consumed []) (n : Nat) :
    fetchTrbStep mem ⟨⟨L.slot (consumed % L.usable), phase c0 L.usable consumed⟩, n, none⟩ =
      .exit ⟨⟨L.slot (consumed % L.usable), phase c0 L.usable consumed⟩, n, none⟩ := by
  have hr := h.readMatching_free
  simp only [List.length_nil, Nat.add_zero] at hr
  exact fetchTrbStep_of_none hr

/-- At the Link TRB after a lap, the pass follows it to the first slot. -/
theorem RingInv.fetchTrbStep_link (h : RingInv L c0 mem p dequeue ccs consumed pending)
    (hmod : consumed % L.usable = 0) (hpos : 0 < consumed) {n : Nat}
    (hn : n + 1 ≤ TRB_LINK_LIMIT) :
    fetchTrbStep mem ⟨⟨L.slot L.usable, phase c0 L.usable (consumed - 1)⟩, n, none⟩ =
      .next ⟨⟨L.slot (consumed % L.usable), phase c0 L.usable consumed⟩, n + 1, none⟩ := by
  have hbase : L.base < U64_MOD := by have := L.fits; omega
  have hwrap : phase c0 L.usable consumed = !phase c0 L.usable (consumed - 1) :=
    phase_of_mod_eq_zero hmod hpos
  rw [@fetchTrbStep_of_link mem ⟨⟨L.slot L.usable, phase c0 L.usable (consumed - 1)⟩, n, none⟩ _
    (h.readMatching_link hmod hpos) (getType_linkTrb _ _) hn]
  simp only [followLink_linkTrb hbase, hmod, L.slot_zero, hwrap]

/-- Wherever the invariant has the device, `fetch_trb`'s loop comes to the
slot of the next TRB having followed at most one Link TRB. -/
theorem RingInv.run_fetchTrb_eq {r : XhciCommandRing}
    (h : RingInv L c0 mem p r.dequeue r.ccs consumed pending) :
    ∃ n, n + 1 ≤ TRB_LINK_LIMIT ∧ (fetchTrbLoop mem).run ⟨r, 0, none⟩ =
      (fetchTrbLoop mem).run
        ⟨⟨L.slot (consumed % L.usable), phase c0 L.usable consumed⟩, n, none⟩ := by
  rcases h.consumer with ⟨hd, hc⟩ | ⟨hmod, hpos, hd, hc⟩
  · -- already there
    obtain ⟨dequeue, ccs⟩ := r
    dsimp only at hd hc
    subst hd hc
    exact ⟨0, by decide, rfl⟩
  · -- at the Link TRB
    obtain ⟨dequeue, ccs⟩ := r
    dsimp only at hd hc
    subst hd hc
    exact ⟨1, by decide,
      Loop.run_of_next (L := fetchTrbLoop mem) (h.fetchTrbStep_link hmod hpos (by decide))⟩

/-- **`fetch_trb` takes the oldest pending TRB.** It returns it with the
cycle bit of its lap, read at its slot, and the invariant holds with it taken. -/
theorem fetchTrb_of_pending {r : XhciCommandRing} {t : XhciTRB} {rest : List XhciTRB}
    (h : RingInv L c0 mem p r.dequeue r.ccs consumed (t :: rest)) :
    ∃ r', r.fetchTrb mem = (.ok (some ⟨t.withCycle (phase c0 L.usable consumed),
        L.slot (consumed % L.usable), phase c0 L.usable consumed⟩), r') ∧
      RingInv L c0 mem p r'.dequeue r'.ccs (consumed + 1) rest := by
  obtain ⟨n, -, hrun⟩ := h.run_fetchTrb_eq
  refine ⟨⟨L.slot (consumed % L.usable) + TRB_SIZE, phase c0 L.usable consumed⟩, ?_,
    h.atSlot.take⟩
  rw [XhciCommandRing.fetchTrb, hrun,
    Loop.run_of_exit (L := fetchTrbLoop mem) (h.fetchTrbStep_pending n)]

/-- **`fetch_trb` finds nothing on a ring with nothing pending**, and the
invariant still holds. -/
theorem fetchTrb_of_empty {r : XhciCommandRing}
    (h : RingInv L c0 mem p r.dequeue r.ccs consumed []) :
    ∃ r', r.fetchTrb mem = (.ok none, r') ∧ RingInv L c0 mem p r'.dequeue r'.ccs consumed [] := by
  obtain ⟨n, -, hrun⟩ := h.run_fetchTrb_eq
  refine ⟨⟨L.slot (consumed % L.usable), phase c0 L.usable consumed⟩, ?_, h.atSlot⟩
  rw [XhciCommandRing.fetchTrb, hrun,
    Loop.run_of_exit (L := fetchTrbLoop mem) (h.fetchTrbStep_empty n)]

end Inv

/-! ## The driver and the device taking turns -/

/-- A run of the ring: a push is the driver's write, a pop is `fetch_trb`,
observed as the command it returns, without its cycle bit. -/
def cmdRingRun (L : RingLayout) :
    List UInt8 → RingProducer → XhciCommandRing → List (QueueOp XhciTRB) →
      Except RingError (List (Option XhciTRB))
  | _, _, _, [] => .ok []
  | mem, p, r, .push t :: ops =>
    let (p', mem') := p.enqueue L mem t
    cmdRingRun L mem' p' r ops
  | mem, p, r, .pop :: ops =>
    match r.fetchTrb mem with
    | (.error e, _) => .error e
    | (.ok f, r') => ((f.map fun f => f.trb.withCycle false) :: ·) <$> cmdRingRun L mem p r' ops

/-- From the invariant, a run gives the pops of the queue of pending TRBs, as
long as the driver leaves a slot free and writes no Link TRB. -/
theorem cmdRingRun_of_inv {L : RingLayout} {c0 : Bool} (ops : List (QueueOp XhciTRB)) :
    ∀ {mem : List UInt8} {p : RingProducer} {r : XhciCommandRing} {consumed : Nat}
      {pending : List XhciTRB} {outs : List (Option XhciTRB)},
      RingInv L c0 mem p r.dequeue r.ccs consumed pending →
      (∀ t ∈ ops.filterMap QueueOp.item?, t.getType ≠ TR_LINK) →
      fifoRun (L.usable - 1) pending ops = some outs →
      cmdRingRun L mem p r ops = .ok (outs.map (Option.map (·.withCycle false))) := by
  induction ops with
  | nil =>
    intro mem p r consumed pending outs _ _ hrun
    simp only [fifoRun, Option.some.injEq] at hrun
    subst hrun
    rfl
  | cons op ops ih =>
    intro mem p r consumed pending outs h hops hrun
    have hops' : ∀ t ∈ ops.filterMap QueueOp.item?, t.getType ≠ TR_LINK :=
      fun t ht => hops t (QueueOp.mem_filterMap_item_of_cons ht)
    cases op with
    | push t =>
      -- the driver's write, into a slot the queue has room for
      simp only [fifoRun] at hrun
      split at hrun
      · rename_i hroom
        have ht : t.getType ≠ TR_LINK := hops t (by simp [QueueOp.item?])
        exact ih (h.enqueue (by omega) ht) hops' hrun
      · cases hrun
    | pop =>
      simp only [fifoRun] at hrun
      obtain ⟨outs', hrun', rfl⟩ := Option.map_eq_some_iff.1 hrun
      cases pending with
      | nil =>
        obtain ⟨r', hfetch, h'⟩ := fetchTrb_of_empty h
        simp only [cmdRingRun, hfetch, ih h' hops' hrun']
        rfl
      | cons t rest =>
        -- the device's TRB is the driver's command with the cycle bit of its lap
        obtain ⟨r', hfetch, h'⟩ := fetchTrb_of_pending h
        simp only [cmdRingRun, hfetch, ih h' hops' hrun']
        simp [Functor.map, Except.map]

/-- A ring as the driver hands it over: it lies in guest memory, every slot
for TRBs has its cycle bit opposite to the first lap's, and the Link TRB ends
it with that cycle bit too. -/
def RingLayout.Fresh (L : RingLayout) (c0 : Bool) (mem : List UInt8) : Prop :=
  L.base + TRB_SIZE * L.size ≤ mem.length ∧ (∀ j < L.usable, cycleBitAt mem (L.slot j) = !c0) ∧
    SlotHolds mem (L.slot L.usable) (linkTrb L.base (!c0))

instance (L : RingLayout) (c0 : Bool) (mem : List UInt8) : Decidable (L.Fresh c0 mem) :=
  inferInstanceAs (Decidable (_ ∧ _ ∧ _))

/-- A fresh ring, with the device at its start in the first lap's phase and
the driver about to write its first slot, satisfies the invariant. -/
theorem RingInv.fresh {L : RingLayout} {c0 : Bool} {mem : List UInt8} (h : L.Fresh c0 mem) :
    RingInv L c0 mem ⟨0, c0⟩ L.base c0 0 [] := by
  obtain ⟨hmem, hfree, hlink⟩ := h
  have hm := L.usable_pos
  refine ⟨hmem, hm, by simp, by simp [phase_of_lt hm], Or.inl ⟨by simp, by simp [phase_of_lt hm]⟩,
    by simp, ?_, by simpa [phase_of_lt hm] using hlink, by simp⟩
  intro k _ hk
  rw [Nat.zero_add] at hk
  rw [Nat.mod_eq_of_lt hk, hfree k hk, phase_of_lt hk]

/-- **The command ring is a queue.** On a fresh ring set up by
`XhciCommandRing::init`, every interleaving of the driver's writes and
`fetch_trb` calls, in which the driver leaves a slot free and writes no Link
TRB of its own, gives the device exactly what a queue of `size - 2` commands
gives: each of the driver's commands once, in order, `None` when none is
waiting, and never an error. -/
theorem cmdRingRun_eq_fifoRun (L : RingLayout) (mem : List UInt8) (hfresh : L.Fresh true mem)
    (ops : List (QueueOp XhciTRB)) (hops : ∀ t ∈ ops.filterMap QueueOp.item?, t.getType ≠ TR_LINK)
    (outs : List (Option XhciTRB)) (hrun : fifoRun (L.usable - 1) [] ops = some outs) :
    cmdRingRun L mem ⟨0, true⟩ (XhciCommandRing.init L.base) ops =
      .ok (outs.map (Option.map (·.withCycle false))) :=
  cmdRingRun_of_inv ops (RingInv.fresh hfresh) hops hrun

/-- A ring of three slots at address 0 holds one command at a time: the
driver's Enable Slot command, then its Disable Slot command, each fetched
once, then nothing. -/
theorem cmdRingRun_eq_fifoRun_three_slots :
    cmdRingRun ⟨0, 3, by decide, by decide⟩ (List.replicate 32 0 ++ (linkTrb 0 false).bytes)
        ⟨0, true⟩ (XhciCommandRing.init 0)
        [.push (XhciTRB.mk 0 0 9216), .pop, .push (XhciTRB.mk 0 0 10240), .pop, .pop] =
      .ok ([some (XhciTRB.mk 0 0 9216), some (XhciTRB.mk 0 0 10240), none].map
        (Option.map (·.withCycle false))) :=
  cmdRingRun_eq_fifoRun ⟨0, 3, by decide, by decide⟩ _ (by decide) _ (by decide) _ (by decide)

end StratoVirt.Usb
