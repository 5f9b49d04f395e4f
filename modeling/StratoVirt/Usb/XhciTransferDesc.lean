import Mathlib
import StratoVirt.Usb.XhciRingProtocol

/-!
# The transfer ring hands the device whole transfer descriptors

A transfer ring is filled by the driver exactly like the command ring
(`XhciRingProtocol`), but the device takes a transfer descriptor at a time:
`XhciTransferRing::fetch_td` reads TRBs until one ends the descriptor (no
chain flag, outside a control transfer's Setup to Status TRBs), on copies of
its dequeue pointer and cycle state, and stores them back only then. So the
guest can write a descriptor TRB by TRB while the device polls the ring, and
the device never acts on part of one.

`tdLength` says, of a list of TRBs, how long its first whole descriptor is.

Main results:

* `RingInv.run_fetchTdLoop`: from the slot of the device's next TRB, the loop
  of `fetch_td` reads the pending TRBs one by one (following the Link TRB at
  most once) and leaves with the first whole descriptor, or finds the slot
  the driver has not written yet and leaves without one.
* `fetchTd_of_inv`: so `fetch_td` returns the first whole descriptor of the
  pending TRBs, read at their slots, and the invariant holds with it taken;
  with no whole descriptor pending it returns `None` and leaves the ring as it
  was.
* `trRingRun_eq_tdQueueRun`: on a fresh ring set up by `init` and
  `set_cycle_bit`, in a segment of at most 64 KiB, every interleaving of the
  driver's writes and `fetch_td` calls in which the driver leaves a slot free
  and writes no Link TRB gives the device the driver's TRBs cut into whole
  descriptors, in order, each once, and never an error.
-/

namespace StratoVirt.Usb

open StratoVirt.Lib StratoVirt.AddressSpace

/-! ## Descriptors in a list of TRBs -/

/-- The length of the first whole transfer descriptor of `trbs`, where
`ctrlTd` says whether a control transfer is open: up to the first TRB that,
outside a control transfer, has no chain flag. `none` when there is none. -/
def tdLength (ctrlTd : Bool) : List XhciTRB → Option Nat
  | [] => none
  | t :: ts =>
    if !tdCtrl ctrlTd t && (t.control &&& TRB_TR_CH != TRB_TR_CH) then some 1
    else (· + 1) <$> tdLength (tdCtrl ctrlTd t) ts

@[simp] theorem tdCtrl_withCycle (ctrlTd : Bool) (t : XhciTRB) (b : Bool) :
    tdCtrl ctrlTd (t.withCycle b) = tdCtrl ctrlTd t := by
  simp only [tdCtrl, getType_withCycle]

/-- A descriptor has at least one TRB and no more than the list. -/
theorem tdLength_bounds {ctrlTd : Bool} {ts : List XhciTRB} {n : Nat}
    (h : tdLength ctrlTd ts = some n) : 0 < n ∧ n ≤ ts.length := by
  induction ts generalizing ctrlTd n with
  | nil => cases h
  | cons t ts ih =>
    simp only [tdLength] at h
    split at h
    · cases h
      simp
    · obtain ⟨n', hn', rfl⟩ := Option.map_eq_some_iff.1 h
      have := ih hn'
      simp only [List.length_cons]
      omega

/-- The TRBs the device reads from logical slot `k` on, as the fetch loops
return them: with the cycle bit of their lap, their slot's address and the
cycle state. -/
def fetchedFrom (L : RingLayout) (c0 : Bool) : Nat → List XhciTRB → List FetchedTRB
  | _, [] => []
  | k, t :: ts =>
    ⟨t.withCycle (phase c0 L.usable k), L.slot (k % L.usable), phase c0 L.usable k⟩ ::
      fetchedFrom L c0 (k + 1) ts

/-- Without their cycle bits, the TRBs read are the driver's. -/
theorem map_fetchedFrom (L : RingLayout) (c0 : Bool) (k : Nat) (ts : List XhciTRB) :
    (fetchedFrom L c0 k ts).map (·.trb.withCycle false) = ts.map (·.withCycle false) := by
  induction ts generalizing k with
  | nil => rfl
  | cons t ts ih => simp [fetchedFrom, ih]

/-! ## `fetch_td` on the ring -/

section Walk

variable {L : RingLayout} {c0 : Bool} {mem : List UInt8} {p : RingProducer}

/-- At the Link TRB after a lap, a pass of `fetch_td` follows it to the first
slot, in the next lap's phase. -/
theorem RingInv.fetchTdStep_link {dequeue : Nat} {ccs : Bool} {C : Nat} {pending : List XhciTRB}
    (h : RingInv L c0 mem p dequeue ccs C pending) (st : FetchTdState)
    (hmod : C % L.usable = 0) (hpos : 0 < C)
    (hst : st.dequeue = L.slot L.usable) (hcs : st.ccs = phase c0 L.usable (C - 1))
    (hp : st.pass < RING_LEN_LIMIT) (hlim : st.linkCnt + 1 ≤ TRB_LINK_LIMIT) :
    fetchTdStep mem st = .next
      { st with
        pass := st.pass + 1, dequeue := L.slot (C % L.usable), ccs := phase c0 L.usable C,
        linkCnt := st.linkCnt + 1 } := by
  have hbase : L.base < U64_MOD := by have := L.fits; omega
  have hr := h.readMatching_link hmod hpos
  rw [← hst, ← hcs] at hr
  rw [fetchTdStep_of_link hp hr (getType_linkTrb _ _) hlim]
  simp only [followLink_linkTrb hbase, hmod, L.slot_zero, hcs, phase_of_mod_eq_zero hmod hpos]

/-- After a pass that took the TRB of logical slot `C` and went round, the
loop comes to the slot of logical slot `C + 1`: at once, or through the Link
TRB when `C` was the last slot of its lap, which the loop can have followed
only if it had not followed one before. -/
theorem RingInv.fetchTdLoop_next_slot {st : FetchTdState} {C : Nat} {rest : List XhciTRB}
    (h : RingInv L c0 mem p st.dequeue st.ccs (C + 1) rest)
    (hst : st.dequeue = L.slot (C % L.usable) + TRB_SIZE) (hcs : st.ccs = phase c0 L.usable C)
    (hlink : st.linkCnt = 0 ∨ (st.linkCnt = 1 ∧ C % L.usable + rest.length + 1 < L.usable))
    (hpass : st.pass + rest.length + (1 - st.linkCnt) < RING_LEN_LIMIT) :
    ∃ st', (fetchTdLoop mem).run st = (fetchTdLoop mem).run st' ∧ st'.td = st.td ∧
      st'.ctrlTd = st.ctrlTd ∧ st'.done = st.done ∧
      st'.dequeue = L.slot ((C + 1) % L.usable) ∧ st'.ccs = phase c0 L.usable (C + 1) ∧
      (st'.linkCnt = 0 ∨ (st'.linkCnt = 1 ∧ (C + 1) % L.usable + rest.length < L.usable)) ∧
      st'.pass + rest.length + (1 - st'.linkCnt) < RING_LEN_LIMIT := by
  have hroom := h.room
  have hm := mod_usable_lt L C
  by_cases hend : C % L.usable + 1 = L.usable
  · -- the last slot of the lap: the next pass follows the Link TRB
    have hmod : (C + 1) % L.usable = 0 := by rw [← Nat.mod_add_mod, hend, Nat.mod_self]
    have h0 : st.linkCnt = 0 := by omega
    have hat : st.dequeue = L.slot L.usable := by rw [hst, ← L.slot_succ, hend]
    have hstep := h.fetchTdStep_link st hmod (Nat.succ_pos C) hat
      (by rw [hcs, Nat.add_sub_cancel]) (by omega) (by rw [h0]; decide)
    refine ⟨_, Loop.run_of_next (L := fetchTdLoop mem) hstep, rfl, rfl, rfl, rfl, rfl,
      Or.inr ⟨by simp [h0], by simp only [hmod]; omega⟩, ?_⟩
    simp only [h0] at hpass ⊢
    omega
  · -- another slot of the same lap
    have hmod : (C + 1) % L.usable = C % L.usable + 1 := by
      rw [← Nat.mod_add_mod]
      exact Nat.mod_eq_of_lt (by omega)
    refine ⟨st, rfl, rfl, rfl, rfl, by rw [hst, hmod, L.slot_succ], ?_, ?_, hpass⟩
    · rw [hcs, phase_succ_of_mod_ne (by omega)]
    · rcases hlink with h0 | ⟨h1, hlt⟩
      · exact Or.inl h0
      · exact Or.inr ⟨h1, by omega⟩

/-- **The loop of `fetch_td`.** From the slot of logical slot `C`, with
`rest` pending, it leaves: with the first whole descriptor of `rest` added to
the TRBs it took, at the slot after it, when there is one; and as it was
otherwise. -/
theorem RingInv.run_fetchTdLoop {rest : List XhciTRB} : ∀ (st : FetchTdState) {C : Nat},
    RingInv L c0 mem p st.dequeue st.ccs C rest →
    st.dequeue = L.slot (C % L.usable) → st.ccs = phase c0 L.usable C →
    (st.linkCnt = 0 ∨ (st.linkCnt = 1 ∧ C % L.usable + rest.length < L.usable)) →
    st.pass + rest.length + (1 - st.linkCnt) < RING_LEN_LIMIT →
    ∃ st', (fetchTdLoop mem).run st = .exit st' ∧
      (∀ n, tdLength st.ctrlTd rest = some n → st'.done = true ∧
        st'.td = st.td ++ fetchedFrom L c0 C (rest.take n) ∧
        RingInv L c0 mem p st'.dequeue st'.ccs (C + n) (rest.drop n)) ∧
      (tdLength st.ctrlTd rest = none → st'.done = st.done) := by
  induction rest with
  | nil =>
    -- the slot the driver has not written yet
    intro st C h hst hcs _ hpass
    have hr := h.readMatching_free
    simp only [List.length_nil, Nat.add_zero, ← hst, ← hcs] at hr
    refine ⟨st, Loop.run_of_exit (L := fetchTdLoop mem) (fetchTdStep_of_none (by omega) hr),
      fun n hn => by simp [tdLength] at hn, fun _ => rfl⟩
  | cons t rest ih =>
    intro st C h hst hcs hlink hpass
    rw [hst, hcs] at h
    simp only [List.length_cons] at hpass hlink
    have hr : readMatching mem st.dequeue st.ccs = .ok (some ⟨t.withCycle (phase c0 L.usable C),
        L.slot (C % L.usable), phase c0 L.usable C⟩) := by
      have hr := h.readMatching_pending (k := 0) (by simp)
      simp only [Nat.add_zero, List.getElem_cons_zero] at hr
      rw [hst, hcs, hr]
    have hov := L.slot_end_lt (mod_usable_lt L C).le
    have hstep := fetchTdStep_of_take (by omega) hr
      (by rw [getType_withCycle]; exact h.noLink t (by simp)) (by rw [hst]; exact hov)
    rw [tdCtrl_withCycle, chain_withCycle] at hstep
    by_cases hend : (!tdCtrl st.ctrlTd t && (t.control &&& TRB_TR_CH != TRB_TR_CH)) = true
    · -- the TRB ends the descriptor
      rw [if_pos hend] at hstep
      refine ⟨_, Loop.run_of_exit (L := fetchTdLoop mem) hstep, ?_, ?_⟩
      · intro n hn
        simp only [tdLength, hend, if_true, Option.some.injEq] at hn
        subst hn
        refine ⟨rfl, by simp [fetchedFrom], ?_⟩
        simpa [hst, hcs] using h.take
      · intro hn
        simp [tdLength, hend] at hn
    · -- the descriptor goes on: to the next slot, then the rest of the walk
      rw [if_neg hend] at hstep
      have hlen : tdLength st.ctrlTd (t :: rest) = (· + 1) <$> tdLength (tdCtrl st.ctrlTd t) rest := by
        simp [tdLength, hend]
      obtain ⟨st1, hstep1, hd1, hc1, hp1, hl1, htd1, hctrl1, hdone1⟩ : ∃ st1 : FetchTdState,
          fetchTdStep mem st = .next st1 ∧ st1.dequeue = L.slot (C % L.usable) + TRB_SIZE ∧
          st1.ccs = phase c0 L.usable C ∧ st1.pass = st.pass + 1 ∧ st1.linkCnt = st.linkCnt ∧
          st1.td = st.td ++ [⟨t.withCycle (phase c0 L.usable C), L.slot (C % L.usable),
            phase c0 L.usable C⟩] ∧
          st1.ctrlTd = tdCtrl st.ctrlTd t ∧ st1.done = st.done :=
        ⟨_, hstep, by simp [hst], hcs, rfl, rfl, rfl, rfl, rfl⟩
      have h1 : RingInv L c0 mem p st1.dequeue st1.ccs (C + 1) rest := by
        rw [hd1, hc1]
        exact h.take
      obtain ⟨st2, hrun2, htd2, hctrl2, hdone2, hst2, hcs2, hlink2, hpass2⟩ :=
        h1.fetchTdLoop_next_slot hd1 hc1 (by rw [hl1]; omega) (by rw [hp1, hl1]; omega)
      have h2 : RingInv L c0 mem p st2.dequeue st2.ccs (C + 1) rest := by
        rw [hst2, hcs2]
        exact h.take.atSlot
      obtain ⟨st', hrun', hsome, hnone⟩ := ih st2 h2 hst2 hcs2 hlink2 hpass2
      refine ⟨st', by rw [Loop.run_of_next (L := fetchTdLoop mem) hstep1, hrun2, hrun'], ?_, ?_⟩
      · intro n hn
        rw [hlen] at hn
        obtain ⟨n', hn', rfl⟩ := Option.map_eq_some_iff.1 hn
        obtain ⟨hdone', htd', hinv'⟩ := hsome n' (by rw [hctrl2, hctrl1]; exact hn')
        refine ⟨hdone', ?_, ?_⟩
        · rw [htd', htd2, htd1]
          simp [fetchedFrom]
        · rw [show C + (n' + 1) = C + 1 + n' by omega]
          simpa using hinv'
      · intro hn
        rw [hlen] at hn
        rw [hnone (by rw [hctrl2, hctrl1]; exact Option.map_eq_none_iff.1 hn), hdone2, hdone1]

/-- In a segment of at most 64 KiB, the pending TRBs and a Link TRB fit in
the passes of one `fetch_td`. -/
theorem RingInv.length_add_two_le {dequeue : Nat} {ccs : Bool} {C : Nat} {pending : List XhciTRB}
    (h : RingInv L c0 mem p dequeue ccs C pending)
    (hseg : TRB_SIZE * L.size ≤ RING_SEGMENT_LIMIT) : pending.length + 2 ≤ RING_LEN_LIMIT := by
  have hroom := h.room
  unfold RingLayout.usable at hroom
  simp only [TRB_SIZE, RING_SEGMENT_LIMIT] at hseg
  simp only [RING_LEN_LIMIT, TRB_LINK_LIMIT, RING_SEGMENT_LIMIT, TRB_SIZE]
  omega

/-- Wherever the invariant has the device, the loop of `fetch_td` leaves with
the first whole descriptor of the pending TRBs when there is one, and without
a descriptor otherwise. -/
theorem RingInv.run_fetchTd {r : XhciTransferRing} {C : Nat} {pending : List XhciTRB}
    (h : RingInv L c0 mem p r.dequeue r.ccs C pending)
    (hseg : TRB_SIZE * L.size ≤ RING_SEGMENT_LIMIT) :
    ∃ st', (fetchTdLoop mem).run ⟨0, r.dequeue, r.ccs, false, 0, [], false⟩ = .exit st' ∧
      (∀ n, tdLength false pending = some n → st'.done = true ∧
        st'.td = fetchedFrom L c0 C (pending.take n) ∧
        RingInv L c0 mem p st'.dequeue st'.ccs (C + n) (pending.drop n)) ∧
      (tdLength false pending = none → st'.done = false) := by
  have hlen := h.length_add_two_le hseg
  rcases h.consumer with ⟨hd, hc⟩ | ⟨hmod, hpos, hd, hc⟩
  · -- at the slot of the next TRB
    obtain ⟨st', hrun, hsome, hnone⟩ := h.run_fetchTdLoop ⟨0, r.dequeue, r.ccs, false, 0, [], false⟩
      hd hc (Or.inl rfl) (by dsimp only; omega)
    exact ⟨st', hrun, fun n hn => by simpa using hsome n hn, hnone⟩
  · -- at the Link TRB after a lap: the first pass follows it
    have hstep : (fetchTdLoop mem).body ⟨0, r.dequeue, r.ccs, false, 0, [], false⟩ =
        .next ⟨1, L.slot (C % L.usable), phase c0 L.usable C, false, 1, [], false⟩ :=
      h.fetchTdStep_link ⟨0, r.dequeue, r.ccs, false, 0, [], false⟩ hmod hpos hd hc
        (show 0 < RING_LEN_LIMIT by decide) (show 0 + 1 ≤ TRB_LINK_LIMIT by decide)
    have hroom := h.room
    obtain ⟨st', hrun, hsome, hnone⟩ := h.atSlot.run_fetchTdLoop
      ⟨1, L.slot (C % L.usable), phase c0 L.usable C, false, 1, [], false⟩
      rfl rfl (Or.inr ⟨rfl, by rw [hmod]; omega⟩) (by dsimp only; omega)
    exact ⟨st', (Loop.run_of_next hstep).trans hrun, fun n hn => by simpa using hsome n hn, hnone⟩

/-- **`fetch_td` hands out a whole descriptor.** With one pending, it returns
its TRBs read at their slots and moves past them; the invariant holds with
them taken. -/
theorem fetchTd_of_tdLength_some {r : XhciTransferRing} {C n : Nat} {pending : List XhciTRB}
    (h : RingInv L c0 mem p r.dequeue r.ccs C pending)
    (hseg : TRB_SIZE * L.size ≤ RING_SEGMENT_LIMIT) (hn : tdLength false pending = some n) :
    ∃ r', r.fetchTd mem = (.ok (some (fetchedFrom L c0 C (pending.take n))), r') ∧
      RingInv L c0 mem p r'.dequeue r'.ccs (C + n) (pending.drop n) := by
  obtain ⟨st', hrun, hsome, -⟩ := h.run_fetchTd hseg
  obtain ⟨hdone, htd, h'⟩ := hsome n hn
  refine ⟨⟨st'.dequeue, st'.ccs⟩, ?_, h'⟩
  rw [XhciTransferRing.fetchTd, hrun]
  simp [hdone, htd]

/-- **`fetch_td` waits for the rest of a descriptor.** With no whole one
pending, it returns nothing and leaves the ring as it was. -/
theorem fetchTd_of_tdLength_none {r : XhciTransferRing} {C : Nat} {pending : List XhciTRB}
    (h : RingInv L c0 mem p r.dequeue r.ccs C pending)
    (hseg : TRB_SIZE * L.size ≤ RING_SEGMENT_LIMIT) (hn : tdLength false pending = none) :
    r.fetchTd mem = (.ok none, r) := by
  obtain ⟨st', hrun, -, hnone⟩ := h.run_fetchTd hseg
  rw [XhciTransferRing.fetchTd, hrun]
  simp [hnone hn]

end Walk

/-! ## Runs of the transfer ring -/

/-- A run of the transfer ring: the driver's writes (`push`) and the device's
`fetch_td` calls (`pop`) in any interleaving, with the descriptors the device
takes, their TRBs without cycle bits. -/
def trRingRun (L : RingLayout) :
    List UInt8 → RingProducer → XhciTransferRing → List (QueueOp XhciTRB) →
      Except RingError (List (Option (List XhciTRB)))
  | _, _, _, [] => .ok []
  | mem, p, r, .push t :: ops =>
    let (p', mem') := p.enqueue L mem t
    trRingRun L mem' p' r ops
  | mem, p, r, .pop :: ops =>
    match r.fetchTd mem with
    | (.error e, _) => .error e
    | (.ok td, r') =>
      ((td.map (List.map fun f => f.trb.withCycle false)) :: ·) <$> trRingRun L mem p r' ops

/-- From the invariant, a run gives the pops of the queue of pending TRBs,
taken a whole descriptor at a time, as long as the driver leaves a slot free
and writes no Link TRB. -/
theorem trRingRun_of_inv {L : RingLayout} {c0 : Bool} (hseg : TRB_SIZE * L.size ≤ RING_SEGMENT_LIMIT)
    (ops : List (QueueOp XhciTRB)) :
    ∀ {mem : List UInt8} {p : RingProducer} {r : XhciTransferRing} {C : Nat}
      {pending : List XhciTRB} {outs : List (Option (List XhciTRB))},
      RingInv L c0 mem p r.dequeue r.ccs C pending →
      (∀ t ∈ ops.filterMap QueueOp.item?, t.getType ≠ TR_LINK) →
      chunkRun (L.usable - 1) (tdLength false) pending ops = some outs →
      trRingRun L mem p r ops = .ok (outs.map (Option.map (List.map (·.withCycle false)))) := by
  induction ops with
  | nil =>
    intro mem p r C pending outs _ _ hrun
    simp only [chunkRun, Option.some.injEq] at hrun
    subst hrun
    rfl
  | cons op ops ih =>
    intro mem p r C pending outs h hops hrun
    have hops' : ∀ t ∈ ops.filterMap QueueOp.item?, t.getType ≠ TR_LINK :=
      fun t ht => hops t (QueueOp.mem_filterMap_item_of_cons ht)
    cases op with
    | push t =>
      -- the driver's write, into a slot the queue has room for
      simp only [chunkRun] at hrun
      split at hrun
      · exact ih (h.enqueue (by omega) (hops t (by simp [QueueOp.item?]))) hops' hrun
      · cases hrun
    | pop =>
      simp only [chunkRun] at hrun
      split at hrun
      · -- a whole descriptor is pending: the device takes it
        rename_i n hn
        obtain ⟨outs', hrun', rfl⟩ := Option.map_eq_some_iff.1 hrun
        obtain ⟨r', hfetch, h'⟩ := fetchTd_of_tdLength_some h hseg hn
        simp only [trRingRun, hfetch, ih h' hops' hrun']
        simp [Functor.map, Except.map, map_fetchedFrom]
      · -- only part of one: the device waits, and the ring stays as it was
        rename_i hn
        obtain ⟨outs', hrun', rfl⟩ := Option.map_eq_some_iff.1 hrun
        simp only [trRingRun, fetchTd_of_tdLength_none h hseg hn, ih h hops' hrun']
        rfl

/-- **The transfer ring is a queue of whole descriptors.** On a fresh ring set
up by `XhciTransferRing::init` and `set_cycle_bit`, in a segment of at most
64 KiB, every interleaving of the driver's writes and `fetch_td` calls in
which the driver leaves a slot free and writes no Link TRB runs without an
error, and the device takes the driver's TRBs a whole descriptor at a time,
in order, each once. -/
theorem trRingRun_eq_chunkRun (L : RingLayout) (hseg : TRB_SIZE * L.size ≤ RING_SEGMENT_LIMIT)
    (c0 : Bool) (mem : List UInt8) (hfresh : L.Fresh c0 mem) (ops : List (QueueOp XhciTRB))
    (hops : ∀ t ∈ ops.filterMap QueueOp.item?, t.getType ≠ TR_LINK)
    (outs : List (Option (List XhciTRB)))
    (hrun : chunkRun (L.usable - 1) (tdLength false) [] ops = some outs) :
    trRingRun L mem ⟨0, c0⟩ ((XhciTransferRing.init L.base).setCycleBit c0) ops =
      .ok (outs.map (Option.map (List.map (·.withCycle false)))) :=
  trRingRun_of_inv hseg ops (RingInv.fresh hfresh) hops hrun

/-- A ring of four slots at address 0: the device waits while only the first
TRB of a chained pair is written, takes the pair once the second is, and
then finds nothing. -/
theorem trRingRun_eq_chunkRun_chained_pair :
    trRingRun ⟨0, 4, by decide, by decide⟩ (List.replicate 48 0 ++ (linkTrb 0 false).bytes)
        ⟨0, true⟩ ((XhciTransferRing.init 0).setCycleBit true)
        [.push ⟨0, 0, 1040⟩, .pop, .push ⟨0, 0, 1024⟩, .pop, .pop] =
      .ok ([none, some [XhciTRB.mk 0 0 1040, XhciTRB.mk 0 0 1024], none].map
        (Option.map (List.map (·.withCycle false)))) :=
  trRingRun_eq_chunkRun ⟨0, 4, by decide, by decide⟩ (by decide) true _ (by decide) _ (by decide) _
    (by decide)

/-- **The device never loses, repeats, reorders or makes up a TRB.** On a
fresh ring, the descriptors the device takes, one after another, are a prefix
of the TRBs the driver wrote. -/
theorem trRingRun_flatten_prefix (L : RingLayout) (hseg : TRB_SIZE * L.size ≤ RING_SEGMENT_LIMIT)
    (c0 : Bool) (mem : List UInt8) (hfresh : L.Fresh c0 mem) (ops : List (QueueOp XhciTRB))
    (hops : ∀ t ∈ ops.filterMap QueueOp.item?, t.getType ≠ TR_LINK)
    (hfree : chunkRun (L.usable - 1) (tdLength false) [] ops ≠ none) :
    ∃ tds, trRingRun L mem ⟨0, c0⟩ ((XhciTransferRing.init L.base).setCycleBit c0) ops = .ok tds ∧
      (tds.filterMap id).flatten <+: (ops.filterMap QueueOp.item?).map (·.withCycle false) := by
  obtain ⟨outs, hrun⟩ := Option.ne_none_iff_exists'.1 hfree
  refine ⟨_, trRingRun_of_inv hseg ops (RingInv.fresh hfresh) hops hrun, ?_⟩
  have hpre := chunkRun_flatten_prefix ops hrun
  rw [List.nil_append] at hpre
  simpa [List.filterMap_map, List.map_filterMap, List.map_flatten] using hpre.map (·.withCycle false)

/-- The chained pair again: the device takes both TRBs, in order. -/
theorem trRingRun_flatten_prefix_chained_pair :
    ∃ tds, trRingRun ⟨0, 4, by decide, by decide⟩ (List.replicate 48 0 ++ (linkTrb 0 false).bytes)
        ⟨0, true⟩ ((XhciTransferRing.init 0).setCycleBit true)
        [.push ⟨0, 0, 1040⟩, .pop, .push ⟨0, 0, 1024⟩, .pop, .pop] = .ok tds ∧
      (tds.filterMap id).flatten <+: [XhciTRB.mk 0 0 1040, XhciTRB.mk 0 0 1024].map (·.withCycle false) :=
  trRingRun_flatten_prefix ⟨0, 4, by decide, by decide⟩ (by decide) true _ (by decide) _ (by decide)
    (by decide)

end StratoVirt.Usb
