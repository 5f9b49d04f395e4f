import StratoVirt.Virtio.Vring
import StratoVirt.Virtio.DescChain

/-!
# Split-ring indices: which slot each pop and each `add_used` touches

`next_avail` and `next_used` are free-running `Wrapping<u16>` counters, and a
ring slot is the counter modulo `actual_size`: `pop_avail` reads the chain head
in avail slot `next_avail % actual_size`, `add_used` writes used slot
`next_used % actual_size`. `is_valid` accepts only a power-of-two size, which
divides `2^16`, so reducing the count modulo `2^16` first does not move the
slot (`isValid_size`).

`ringRun` runs any sequence of `pop_avail`, `push_back` and `add_used` calls,
each on guest memory of its own. Each call moves the two counters by what it
returned (`call_counters`), so a whole run does (`ringRun_counters`). From a
valid ring with both counters at zero, as `reset` leaves them:

> `splitVring_ring_slots`: after any calls, the next pop that returns a
> non-empty element found `avail_idx - next_avail` nonzero in `u16`, read the
> head in avail slot `(p - b) mod size`, where `p` counts the non-empty pops
> and `b` the `push_back`s before it, and advanced `next_avail` by one; an empty
> pop or an `Err` leaves `next_avail`, `push_back` lowers it by one; and the next
> successful `add_used` writes used slot `u mod size`, `u` counting the
> successful `add_used`s before it.
-/

namespace StratoVirt.Virtio

open StratoVirt.Lib StratoVirt.AddressSpace

namespace SplitVring

/-! ## A valid size divides `2^16` -/

/-- A ring `is_valid` accepts uses its whole `size`, which is a power of two
and so divides `2^16`. -/
theorem isValid_size {v : SplitVring} {invalidMemory : Bool}
    (h : v.isValid invalidMemory = true) :
    v.actualSize = v.queueConfig.size ∧ 0 < v.queueConfig.size.toNat ∧
      v.queueConfig.size.toNat ∣ 2 ^ 16 := by
  unfold isValid at h
  split at h
  · cases h
  split at h
  · cases h
  rename_i hsize
  simp only [not_or, Decidable.not_not] at hsize
  obtain ⟨hle, hne, hpow⟩ := hsize
  have hpos : 0 < v.queueConfig.size.toNat := by
    have hne' : v.queueConfig.size.toNat ≠ 0 := fun h0 => hne (UInt16.toNat_inj.1 h0)
    omega
  have hle' : v.queueConfig.size ≤ v.queueConfig.maxSize := by
    rw [gt_iff_lt, UInt16.lt_iff_toNat_lt] at hle
    exact UInt16.le_iff_toNat_le.2 (by omega)
  refine ⟨if_pos hle', hpos, ?_⟩
  -- `size & (size - 1) = 0` makes the size a power of two below `2^16`
  have hone : (1 : UInt16) ≤ v.queueConfig.size := UInt16.le_iff_toNat_le.2 (by rw [UInt16.toNat_one]; exact hpos)
  have hand : v.queueConfig.size.toNat &&& (v.queueConfig.size.toNat - 1) = 0 := by
    have h0 := congrArg UInt16.toNat hpow
    rwa [UInt16.toNat_and, UInt16.toNat_sub_of_le _ _ hone, UInt16.toNat_one] at h0
  obtain ⟨k, hk⟩ := (Nat.and_sub_one_eq_zero_iff_isPowerOfTwo (by omega)).1 hand
  have hlt := UInt16.toNat_lt v.queueConfig.size
  rw [hk] at hlt ⊢
  exact Nat.pow_dvd_pow 2 (Nat.le_of_lt ((Nat.pow_lt_pow_iff_right (by decide)).1 hlt))

/-- The slot of a `u16` counter that holds a count modulo `2^16` is the
count's slot, for a size dividing `2^16`. -/
theorem slot_eq_of_dvd {size : Nat} (hdvd : size ∣ 2 ^ 16) {n : UInt16} {k : Int}
    (hk : (n.toNat : Int) = k % 2 ^ 16) : n.toNat % size = (k % size).toNat := by
  have hdvd' : (size : Int) ∣ 2 ^ 16 := by exact_mod_cast hdvd
  have hcast : ((n.toNat % size : Nat) : Int) = k % size := by
    rw [Int.natCast_emod, hk, Int.emod_emod_of_dvd _ hdvd']
  rw [← hcast, Int.toNat_natCast]

/-! ## What one call does to the counters -/

/-- What `get_vring_element` does: an `Err` leaves the configuration (the
region cache may change); an `Ok` is the chain headed at the avail entry in
slot `next_avail % actual_size`, with at least one buffer, and advances
`next_avail`. -/
theorem getVringElement_cases {v : SplitVring} {sys : SysMem} {mem : VringMem} {features : Nat}
    {elem : Element} {r : Except VirtioError Element} {v' : SplitVring} {mem' : VringMem}
    (h : v.getVringElement sys mem features elem = (r, v', mem')) :
    (v'.queueConfig = v.queueConfig ∧ ∃ e, r = .error e) ∨
    (∃ el, r = .ok el ∧ 0 < el.descNum ∧
      el.index = (mem.availRing (v.queueConfig.nextAvail % v.actualSize).toNat).toNat ∧
      v'.queueConfig = { v.queueConfig with nextAvail := v.queueConfig.nextAvail + 1 }) := by
  unfold getVringElement at h
  split at h
  · simp only [Prod.mk.injEq] at h
    obtain ⟨rfl, rfl, -⟩ := h
    exact .inl ⟨rfl, _, rfl⟩
  -- the head descriptor, then the chain from it
  rcases hnew : SplitVringDesc.new sys v.queueConfig.descTableHost v.actualSize.toNat
      (mem.availRing (v.queueConfig.nextAvail % v.actualSize).toNat).toNat v.cache with
    ⟨_ | desc, cache⟩
  · simp only [hnew, Prod.mk.injEq] at h
    obtain ⟨rfl, rfl, -⟩ := h
    exact .inl ⟨rfl, _, rfl⟩
  rcases hget : getElement sys ⟨v.queueConfig.descTableHost, v.actualSize.toNat,
      (mem.availRing (v.queueConfig.nextAvail % v.actualSize).toNat).toNat, desc⟩ cache elem with
    ⟨_ | el, cache'⟩
  · simp only [hnew, hget, Prod.mk.injEq] at h
    obtain ⟨rfl, rfl, -⟩ := h
    exact .inl ⟨rfl, _, rfl⟩
  · simp only [hnew, hget, Prod.mk.injEq] at h
    obtain ⟨rfl, rfl, -⟩ := h
    obtain ⟨hidx, hpos⟩ := getElement_ok_index hget
    exact .inr ⟨el, rfl, hpos, hidx, rfl⟩

/-- The converse: a head descriptor that reads back valid and a chain walk
that succeeds make `get_vring_element` return the element and advance
`next_avail`, with the walk's region cache. -/
theorem getVringElement_of_ok {v : SplitVring} {sys : SysMem} {mem : VringMem} {features : Nat}
    {elem el : Element} {desc : SplitVringDesc} {cache cache' : Option RegionCache}
    (hsize : v.actualSize ≠ 0)
    (hnew : SplitVringDesc.new sys v.queueConfig.descTableHost v.actualSize.toNat
      (mem.availRing (v.queueConfig.nextAvail % v.actualSize).toNat).toNat v.cache = (.ok desc, cache))
    (hget : getElement sys ⟨v.queueConfig.descTableHost, v.actualSize.toNat,
      (mem.availRing (v.queueConfig.nextAvail % v.actualSize).toNat).toNat, desc⟩ cache elem =
        (.ok el, cache')) :
    (v.getVringElement sys mem features elem).1 = .ok el ∧
      (v.getVringElement sys mem features elem).2.1 = ⟨cache', { v.queueConfig with
        nextAvail := v.queueConfig.nextAvail + 1 }⟩ := by
  unfold getVringElement
  rw [if_neg hsize]
  simp only [hnew, hget, true_and]

/-- What `pop_avail` does: an empty element without any change when the queue
is disabled or nothing is available; otherwise `get_vring_element`. -/
theorem popAvail_cases {v : SplitVring} {sys : SysMem} {mem : VringMem} {features : Nat}
    {r : Except VirtioError Element} {v' : SplitVring} {mem' : VringMem}
    (h : v.popAvail sys mem features = (r, v', mem')) :
    (r = .ok (Element.new 0) ∧ v' = v) ∨
    (v.availRingLen mem ≠ 0 ∧ v'.queueConfig = v.queueConfig ∧ ∃ e, r = .error e) ∨
    (v.availRingLen mem ≠ 0 ∧ ∃ el, r = .ok el ∧ 0 < el.descNum ∧
      el.index = (mem.availRing (v.queueConfig.nextAvail % v.actualSize).toNat).toNat ∧
      v'.queueConfig = { v.queueConfig with nextAvail := v.queueConfig.nextAvail + 1 }) := by
  unfold popAvail at h
  split at h
  · simp only [Prod.mk.injEq] at h
    exact .inl ⟨h.1.symm, h.2.1.symm⟩
  · rename_i hgo
    have hlen : v.availRingLen mem ≠ 0 := by
      intro h0
      simp [h0] at hgo
    rcases getVringElement_cases h with ⟨hc, he⟩ | hok
    · exact .inr (.inl ⟨hlen, hc, he⟩)
    · exact .inr (.inr ⟨hlen, hok⟩)

/-- What a successful `add_used` does: `(index, len)` goes to used slot
`next_used % actual_size` and `next_used` advances; nothing else of the
configuration the counters depend on moves. -/
theorem addUsed_eq_ok {v : SplitVring} {mem : VringMem} {index : UInt16} {len : Nat}
    {v' : SplitVring} {mem' : VringMem} (h : v.addUsed mem index len = .ok (v', mem')) :
    mem'.usedRing (v.queueConfig.nextUsed % v.actualSize).toNat = ⟨index.toNat, len⟩ ∧
      v'.queueConfig.nextUsed = v.queueConfig.nextUsed + 1 ∧
      v'.queueConfig.nextAvail = v.queueConfig.nextAvail ∧
      v'.queueConfig.size = v.queueConfig.size ∧
      v'.queueConfig.maxSize = v.queueConfig.maxSize := by
  unfold addUsed at h
  split at h
  · cases h
  split at h
  · cases h
  simp only [Except.ok.injEq, Prod.mk.injEq] at h
  obtain ⟨rfl, rfl⟩ := h
  refine ⟨by simp, ?_⟩
  -- dropping `last_signal_used` touches neither counter
  split <;> exact ⟨rfl, rfl, rfl, rfl⟩

/-- A call the device makes on the ring, with the guest memory it sees. -/
inductive RingCall where
  | popAvail (sys : SysMem) (mem : VringMem) (features : Nat)
  | pushBack
  | addUsed (mem : VringMem) (index : UInt16) (len : Nat)

/-- What a call returned. -/
inductive RingEvent where
  | popped (r : Except VirtioError Element)
  | pushedBack
  | used (r : Except VirtioError VringMem)

/-- One call: the ring it leaves and what it returned. -/
def call (v : SplitVring) : RingCall → SplitVring × RingEvent
  | .popAvail sys mem features =>
    match v.popAvail sys mem features with
    | (r, v', _) => (v', .popped r)
  | .pushBack => (v.pushBack, .pushedBack)
  | .addUsed mem index len =>
    match v.addUsed mem index len with
    | .ok (v', mem') => (v', .used (.ok mem'))
    | .error e => (v, .used (.error e))

/-- A sequence of calls: the ring they leave and what each returned. -/
def ringRun (v : SplitVring) : List RingCall → SplitVring × List RingEvent
  | [] => (v, [])
  | c :: cs =>
    match v.call c with
    | (v', e) =>
      match ringRun v' cs with
      | (w, es) => (w, e :: es)

/-- How a call moves the count of chains the device holds: a non-empty pop
takes one, `push_back` gives one back. -/
def RingEvent.taken : RingEvent → Int
  | .popped (.ok e) => if e.descNum = 0 then 0 else 1
  | .popped (.error _) => 0
  | .pushedBack => -1
  | .used _ => 0

/-- Whether a call published a used element. -/
def RingEvent.published : RingEvent → Nat
  | .used (.ok _) => 1
  | _ => 0

/-- Chains taken over a run: non-empty pops less `push_back`s. -/
def netPops (es : List RingEvent) : Int := (es.map RingEvent.taken).sum

/-- Used elements published over a run. -/
def usedCount (es : List RingEvent) : Nat := (es.map RingEvent.published).sum

/-- The counters and the sizes after one call. -/
structure Moves (v w : SplitVring) (e : RingEvent) : Prop where
  size : w.queueConfig.size = v.queueConfig.size
  maxSize : w.queueConfig.maxSize = v.queueConfig.maxSize
  nextAvail : (w.queueConfig.nextAvail.toNat : Int) = (v.queueConfig.nextAvail.toNat + e.taken) % 2 ^ 16
  nextUsed : w.queueConfig.nextUsed.toNat = (v.queueConfig.nextUsed.toNat + e.published) % 2 ^ 16

/-- A call that changes neither counter. -/
theorem moves_of_queueConfig {v w : SplitVring} {e : RingEvent} (hc : w.queueConfig = v.queueConfig)
    (ht : e.taken = 0) (hp : e.published = 0) : Moves v w e where
  size := by rw [hc]
  maxSize := by rw [hc]
  nextAvail := by
    rw [hc, ht, Int.add_zero]
    have := UInt16.toNat_lt v.queueConfig.nextAvail
    omega
  nextUsed := by
    rw [hc, hp, Nat.add_zero]
    exact (Nat.mod_eq_of_lt (UInt16.toNat_lt _)).symm

/-- **Step.** Each call moves `next_avail` by what it took and `next_used` by
what it published, and keeps the sizes. -/
theorem call_counters (v : SplitVring) (c : RingCall) : Moves v (v.call c).1 (v.call c).2 := by
  cases c with
  | popAvail sys mem features =>
    rcases hp : v.popAvail sys mem features with ⟨r, v', mem'⟩
    simp only [call, hp]
    rcases popAvail_cases hp with ⟨rfl, rfl⟩ | ⟨-, hc, e, rfl⟩ | ⟨-, el, rfl, hpos, -, hc⟩
    · exact moves_of_queueConfig rfl rfl rfl
    · exact moves_of_queueConfig hc rfl rfl
    · -- a non-empty element: `next_avail` steps by one
      have ht : (RingEvent.popped (.ok el)).taken = 1 := by
        simp [RingEvent.taken, Nat.pos_iff_ne_zero.1 hpos]
      refine ⟨by rw [hc], by rw [hc], ?_, by rw [hc]; exact (Nat.mod_eq_of_lt (UInt16.toNat_lt _)).symm⟩
      rw [ht, hc, UInt16.toNat_add, UInt16.toNat_one]
      omega
  | pushBack =>
    refine ⟨rfl, rfl, ?_, (Nat.mod_eq_of_lt (UInt16.toNat_lt _)).symm⟩
    show ((v.queueConfig.nextAvail - 1).toNat : Int) = (v.queueConfig.nextAvail.toNat + -1) % 2 ^ 16
    rw [UInt16.toNat_sub, UInt16.toNat_one]
    have := UInt16.toNat_lt v.queueConfig.nextAvail
    omega
  | addUsed mem index len =>
    cases hu : v.addUsed mem index len with
    | error e =>
      simp only [call, hu]
      exact moves_of_queueConfig rfl rfl rfl
    | ok res =>
      obtain ⟨v', mem'⟩ := res
      simp only [call, hu]
      obtain ⟨-, hused, havail, hsize, hmax⟩ := addUsed_eq_ok hu
      refine ⟨hsize, hmax, ?_, ?_⟩
      · rw [havail]
        simp only [RingEvent.taken, Int.add_zero]
        have := UInt16.toNat_lt v.queueConfig.nextAvail
        omega
      · rw [hused, UInt16.toNat_add, UInt16.toNat_one]
        rfl

/-- **Run.** Over any calls, `next_avail` moves by the chains taken and
`next_used` by the elements published, modulo `2^16`, and the sizes stay. -/
theorem ringRun_counters : ∀ (cs : List RingCall) (v : SplitVring),
    (ringRun v cs).1.queueConfig.size = v.queueConfig.size ∧
      (ringRun v cs).1.queueConfig.maxSize = v.queueConfig.maxSize ∧
      ((ringRun v cs).1.queueConfig.nextAvail.toNat : Int) =
        (v.queueConfig.nextAvail.toNat + netPops (ringRun v cs).2) % 2 ^ 16 ∧
      (ringRun v cs).1.queueConfig.nextUsed.toNat =
        (v.queueConfig.nextUsed.toNat + usedCount (ringRun v cs).2) % 2 ^ 16
  | [], v => by
    refine ⟨rfl, rfl, ?_, ?_⟩
    · simp only [ringRun, netPops, List.map_nil, List.sum_nil, Int.add_zero]
      have := UInt16.toNat_lt v.queueConfig.nextAvail
      omega
    · simp only [ringRun, usedCount, List.map_nil, List.sum_nil, Nat.add_zero]
      exact (Nat.mod_eq_of_lt (UInt16.toNat_lt _)).symm
  | c :: cs, v => by
    obtain ⟨ih1, ih2, ih3, ih4⟩ := ringRun_counters cs (v.call c).1
    have hstep := call_counters v c
    simp only [ringRun]
    refine ⟨ih1.trans hstep.size, ih2.trans hstep.maxSize, ?_, ?_⟩
    · -- the run's count continues the first call's
      rw [ih3, hstep.nextAvail]
      simp only [netPops, List.map_cons, List.sum_cons]
      rw [Int.emod_add_emod, Int.add_assoc]
    · rw [ih4, hstep.nextUsed]
      simp only [usedCount, List.map_cons, List.sum_cons]
      rw [Nat.mod_add_mod, Nat.add_assoc]

/-! ## The slots of a whole run -/

/-- **Ring slots.** From a valid ring whose counters `reset` left at zero,
after any calls: the next pop that returns a non-empty element found
`avail_idx - next_avail` nonzero in `u16`, took the chain headed in avail slot
`(p - b) mod size` (`p` non-empty pops, `b` push_backs before it) and advanced
`next_avail` by one; an empty pop or an `Err` leaves `next_avail`; `push_back`
lowers it by one; the next successful `add_used` writes used slot
`u mod size` (`u` successful `add_used`s before it) and advances `next_used`. -/
theorem splitVring_ring_slots {v : SplitVring} {invalidMemory : Bool}
    (hvalid : v.isValid invalidMemory = true) (havail : v.queueConfig.nextAvail = 0)
    (hused : v.queueConfig.nextUsed = 0) (pre : List RingCall) :
    let w := (ringRun v pre).1
    let es := (ringRun v pre).2
    (∀ sys mem features el w' mem', w.popAvail sys mem features = (.ok el, w', mem') →
        0 < el.descNum →
        0 < (mem.availIdx - w.queueConfig.nextAvail).toNat ∧
          el.index = (mem.availRing (netPops es % v.queueConfig.size.toNat).toNat).toNat ∧
          w'.queueConfig.nextAvail = w.queueConfig.nextAvail + 1) ∧
      (∀ sys mem features r w' mem', w.popAvail sys mem features = (r, w', mem') →
        (∀ el, r = .ok el → el.descNum = 0) →
        w'.queueConfig.nextAvail = w.queueConfig.nextAvail) ∧
      w.pushBack.queueConfig.nextAvail = w.queueConfig.nextAvail - 1 ∧
      (∀ mem index len w' mem', w.addUsed mem index len = .ok (w', mem') →
        mem'.usedRing (usedCount es % v.queueConfig.size.toNat) = ⟨index.toNat, len⟩ ∧
          w'.queueConfig.nextUsed = w.queueConfig.nextUsed + 1) := by
  intro w es
  obtain ⟨hactual, -, hdvd⟩ := isValid_size hvalid
  obtain ⟨hsize, hmax, hna, hnu⟩ := ringRun_counters pre v
  -- the ring keeps its size, so its slots are the counts modulo the size
  have hwsize : w.actualSize = v.queueConfig.size := by
    show min w.queueConfig.size w.queueConfig.maxSize = _
    rw [hsize, hmax]
    exact hactual
  have hslotA : (w.queueConfig.nextAvail % w.actualSize).toNat =
      (netPops es % v.queueConfig.size.toNat).toNat := by
    rw [UInt16.toNat_mod, hwsize]
    exact slot_eq_of_dvd hdvd (by simpa [havail] using hna)
  have hslotU : (w.queueConfig.nextUsed % w.actualSize).toNat =
      usedCount es % v.queueConfig.size.toNat := by
    rw [UInt16.toNat_mod, hwsize]
    show w.queueConfig.nextUsed.toNat % _ = _
    rw [hnu, hused, UInt16.toNat_zero, Nat.zero_add, Nat.mod_mod_of_dvd _ hdvd]
  refine ⟨?_, ?_, rfl, ?_⟩
  · intro sys mem features el w' mem' hpop hne
    rcases popAvail_cases hpop with ⟨hr, -⟩ | ⟨-, -, e, hr⟩ | ⟨hlen, el', hr, -, hidx, hc⟩
    · -- the element of an empty pop has no buffers
      cases hr
      exact absurd hne (Nat.lt_irrefl 0)
    · cases hr
    · cases hr
      refine ⟨Nat.pos_of_ne_zero fun h0 => hlen (UInt16.toNat_inj.1 h0), ?_, by rw [hc]⟩
      rw [hidx, hslotA]
  · intro sys mem features r w' mem' hpop hempty
    rcases popAvail_cases hpop with ⟨-, rfl⟩ | ⟨-, hc, -⟩ | ⟨-, el, rfl, hpos, -⟩
    · rfl
    · rw [hc]
    · exact absurd (hempty el rfl) (Nat.pos_iff_ne_zero.1 hpos)
  · intro mem index len w' mem' hadd
    obtain ⟨hslot, hnext, -⟩ := addUsed_eq_ok hadd
    rw [← hslotU]
    exact ⟨hslot, hnext⟩

/-- Guest memory whose every descriptor entry is one device-readable byte at
`0x1000`, with no `NEXT` flag. -/
def oneBufferSys : SysMem where
  readDesc _ := some ⟨0x1000, 1, 0, 0⟩
  addressInMemory _ _ := true
  getRegionCache _ := none
  addrCacheInit _ := none

/-- An avail ring that offers heads 0 and 1, in its slots 0 and 1. -/
def twoHeadsMem : VringMem where
  availFlags := 0
  availIdx := 2
  availRing i := if i = 0 then 0 else 1
  usedEvent := 0
  usedFlags := 0
  usedIdx := 0
  usedRing _ := ⟨0, 0⟩
  availEvent := 0

/-- The first pop from the reset ring of four reads avail slot 0, takes the
one-buffer chain at head 0 and moves `next_avail` to 1. -/
theorem popAvail_ready4_twoHeads :
    ((SplitVring.new { QueueConfig.new 4 with ready := true }).popAvail
        oneBufferSys twoHeadsMem 0).1 = .ok ⟨0, 1, [⟨0x1000, 1⟩], []⟩ ∧
      ((SplitVring.new { QueueConfig.new 4 with ready := true }).popAvail
        oneBufferSys twoHeadsMem 0).2.1 =
        ⟨none, { QueueConfig.new 4 with ready := true, nextAvail := 1 }⟩ := by
  have hgo : ¬ (!(SplitVring.new { QueueConfig.new 4 with ready := true }).isEnabled ||
      (SplitVring.new { QueueConfig.new 4 with ready := true }).availRingLen twoHeadsMem = 0) =
        true := by decide
  unfold popAvail
  rw [if_neg hgo]
  exact getVringElement_of_ok (by decide) rfl (getElement_of_last (by decide) rfl rfl (by decide))

/-- A ready ring of four entries, reset, before any call: a pop takes head 0
from avail slot 0 and moves `next_avail` to 1; a pop from an avail ring with
nothing new leaves `next_avail`; `push_back` steps it back to `0xffff`;
`add_used` writes used slot 0 and moves `next_used` to 1. -/
theorem splitVring_ring_slots_ready4 :
    (SplitVring.new { QueueConfig.new 4 with ready := true }).isValid false = true ∧
      (∃ el w' mem', (SplitVring.new { QueueConfig.new 4 with ready := true }).popAvail
          oneBufferSys twoHeadsMem 0 = (.ok el, w', mem') ∧ 0 < el.descNum ∧
        0 < (twoHeadsMem.availIdx - 0).toNat ∧ el.index = (twoHeadsMem.availRing 0).toNat ∧
        w'.queueConfig.nextAvail = 1) ∧
      (∃ r w' mem', (SplitVring.new { QueueConfig.new 4 with ready := true }).popAvail
          oneBufferSys { twoHeadsMem with availIdx := 0 } 0 = (r, w', mem') ∧
        w'.queueConfig.nextAvail = 0) ∧
      (SplitVring.new { QueueConfig.new 4 with ready := true }).pushBack.queueConfig.nextAvail =
        0xffff ∧
      (∃ w' mem', (SplitVring.new { QueueConfig.new 4 with ready := true }).addUsed
          twoHeadsMem 0 1 = .ok (w', mem') ∧
        mem'.usedRing 0 = ⟨0, 1⟩ ∧ w'.queueConfig.nextUsed = 1) := by
  have hslots := @splitVring_ring_slots (SplitVring.new { QueueConfig.new 4 with ready := true })
    false (by decide) rfl rfl []
  obtain ⟨hpop, hempty, hback, hadd⟩ := hslots
  have hok := popAvail_ready4_twoHeads
  refine ⟨by decide, ?_, ?_, hback, ?_⟩
  · -- the pop of `popAvail_ready4_twoHeads`, read through the first conjunct
    refine ⟨_, _, _, Prod.ext hok.1 rfl, Nat.one_pos, ?_⟩
    exact hpop oneBufferSys twoHeadsMem 0 _ _ _ (Prod.ext hok.1 rfl) Nat.one_pos
  · refine ⟨_, _, _, rfl, ?_⟩
    exact hempty oneBufferSys { twoHeadsMem with availIdx := 0 } 0 _ _ _ rfl
      (fun el hel => by cases hel; rfl)
  · refine ⟨_, _, rfl, ?_⟩
    exact hadd twoHeadsMem 0 1 _ _ rfl

/-- Pop, `push_back`, pop on a ready ring of four: both pops return a
non-empty element, and the second, the pop numbered 1, takes head 0 from slot 0
again, while slot `1 mod 4` offers head 1. -/
theorem splitVring_pushBack_repops :
    ((SplitVring.new { QueueConfig.new 4 with ready := true }).ringRun
        [.popAvail oneBufferSys twoHeadsMem 0, .pushBack, .popAvail oneBufferSys twoHeadsMem 0]).2 =
      [.popped (.ok ⟨0, 1, [⟨0x1000, 1⟩], []⟩), .pushedBack,
        .popped (.ok ⟨0, 1, [⟨0x1000, 1⟩], []⟩)] ∧
    (twoHeadsMem.availRing (1 % 4)).toNat = 1 := by
  -- the pop from the reset ring reads slot 0 and moves `next_avail` to 1
  have hpop := popAvail_ready4_twoHeads
  -- `push_back` returns to the reset ring, so the second pop repeats the first
  have hback : SplitVring.pushBack ⟨none, { QueueConfig.new 4 with ready := true, nextAvail := 1 }⟩ =
      SplitVring.new { QueueConfig.new 4 with ready := true } := rfl
  refine ⟨?_, rfl⟩
  simp only [ringRun, call, hpop.1, hpop.2, hback]

end SplitVring

end StratoVirt.Virtio
