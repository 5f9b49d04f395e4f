import StratoVirt.Virtio.Desc
import StratoVirt.Lib.ModWindow

/-!
# The split virtqueue: configuration, rings, and the `VringOps` the device uses

`virtio/src/queue/split.rs`. A `SplitVring` is a `QueueConfig` (sizes, the
free-running `Wrapping<u16>` indices `next_avail`, `next_used`,
`last_signal_used`, and the `signal_used_valid` flag) plus the region cache
the descriptor walk threads.

The avail and used rings live in guest memory. `VringMem` holds their fields
as the device reads and writes them — flags, `idx`, the entries, and the two
event-index words (`used_event` after the avail ring, `avail_event` after the
used ring). `is_valid` only accepts rings that do not overlap, so the fields
are independent cells here; descriptors are read through `SysMem` as in
`Desc.lean`.

`Wrapping<u16>` values are `UInt16`, so the wrap-around the event-index test
depends on is the arithmetic itself. A Rust panic (`%` by a zero queue size)
is the `rustPanic` outcome.
-/

namespace StratoVirt.Virtio

open StratoVirt.Lib StratoVirt.AddressSpace

/-- `VIRTIO_F_RING_EVENT_IDX`, the feature bit of event-index suppression. -/
def VIRTIO_F_RING_EVENT_IDX : Nat := 29
/-- `VRING_AVAIL_F_NO_INTERRUPT`: the driver asks for no interrupts. -/
def VRING_AVAIL_F_NO_INTERRUPT : UInt16 := 1

/-- `virtio_has_feature`. -/
def virtioHasFeature (features fbit : Nat) : Bool := features &&& (1 <<< fbit) != 0

/-- The fields of `QueueConfig` the modelled operations read or write. -/
structure QueueConfig where
  descTableHost : Nat
  maxSize : UInt16
  size : UInt16
  ready : Bool
  nextAvail : UInt16
  nextUsed : UInt16
  lastSignalUsed : UInt16
  signalUsedValid : Bool
  deriving Repr, DecidableEq

/-- `QueueConfig::new`. -/
def QueueConfig.new (maxSize : UInt16) : QueueConfig :=
  { descTableHost := 0, maxSize := maxSize, size := maxSize, ready := false, nextAvail := 0,
    nextUsed := 0, lastSignalUsed := 0, signalUsedValid := false }

/-- `QueueConfig::reset`. -/
def QueueConfig.reset (c : QueueConfig) : QueueConfig := QueueConfig.new c.maxSize

/-- `UsedElem`: the id and written length of a used chain. -/
structure UsedElem where
  id : Nat
  len : Nat
  deriving Repr, DecidableEq

/-- The avail and used rings in guest memory. -/
structure VringMem where
  availFlags : UInt16
  availIdx : UInt16
  availRing : Nat → UInt16
  usedEvent : UInt16
  usedFlags : UInt16
  usedIdx : UInt16
  usedRing : Nat → UsedElem
  availEvent : UInt16

/-- `SplitVring`. -/
structure SplitVring where
  cache : Option RegionCache
  queueConfig : QueueConfig
  deriving Repr

namespace SplitVring

/-- `SplitVring::new`. -/
def new (c : QueueConfig) : SplitVring := ⟨none, c⟩

/-- `actual_size`. -/
def actualSize (v : SplitVring) : UInt16 := min v.queueConfig.size v.queueConfig.maxSize

/-- `is_enabled`. -/
def isEnabled (v : SplitVring) : Bool := v.queueConfig.ready

/-- `is_valid`, given what `is_invalid_memory` answers for the rings: the
queue is ready and its size a nonzero power of two within `max_size`. -/
def isValid (v : SplitVring) (invalidMemory : Bool) : Bool :=
  if !v.queueConfig.ready then false
  else if v.queueConfig.size > v.queueConfig.maxSize ∨ v.queueConfig.size = 0 ∨
      v.queueConfig.size &&& (v.queueConfig.size - 1) ≠ 0 then false
  else !invalidMemory

/-- `get_queue_config`: a copy of the configuration whose `last_signal_used`
is marked invalid; the device builds a fresh `SplitVring` from it. -/
def getQueueConfig (v : SplitVring) : QueueConfig :=
  { v.queueConfig with signalUsedValid := false }

/-- `add_used`: publish `(index, len)` in the used ring, advance `next_used`,
write it to the used `idx`, and drop `last_signal_used` once `next_used` has
come round onto it. -/
def addUsed (v : SplitVring) (mem : VringMem) (index : UInt16) (len : Nat) :
    Except VirtioError (SplitVring × VringMem) :=
  if index ≥ v.queueConfig.size then
    .error (.queueIndex index.toNat v.queueConfig.size.toNat)
  else if v.actualSize = 0 then
    .error (.rustPanic "attempt to calculate the remainder with a divisor of zero")
  else
    let slot := (v.queueConfig.nextUsed % v.actualSize).toNat
    let nextUsed := v.queueConfig.nextUsed + 1
    let mem' := { mem with
      usedRing := Function.update mem.usedRing slot ⟨index.toNat, len⟩
      usedIdx := nextUsed }
    let c := { v.queueConfig with nextUsed := nextUsed }
    -- "Do we wrap around?"
    let c := if nextUsed = c.lastSignalUsed then { c with signalUsedValid := false } else c
    .ok ({ v with queueConfig := c }, mem')

/-- `used_ring_need_event`: whether the used `idx` has passed `used_event`
since the last signal; the current `idx` becomes `last_signal_used`. -/
def usedRingNeedEvent (v : SplitVring) (mem : VringMem) : Bool × SplitVring :=
  let old := v.queueConfig.lastSignalUsed
  let new := mem.usedIdx
  let usedEventIdx := mem.usedEvent
  let valid := v.queueConfig.signalUsedValid
  let v' := { v with queueConfig := { v.queueConfig with signalUsedValid := true,
                                                          lastSignalUsed := new } }
  (!valid || decide (new - usedEventIdx - 1 < new - old), v')

/-- `is_avail_ring_no_interrupt`. -/
def isAvailRingNoInterrupt (mem : VringMem) : Bool :=
  mem.availFlags &&& VRING_AVAIL_F_NO_INTERRUPT != 0

/-- `should_notify`. -/
def shouldNotify (v : SplitVring) (mem : VringMem) (features : Nat) : Bool × SplitVring :=
  if virtioHasFeature features VIRTIO_F_RING_EVENT_IDX then v.usedRingNeedEvent mem
  else (!isAvailRingNoInterrupt mem, v)

/-- `avail_ring_len`: chains the driver has made available and the device has
not popped. -/
def availRingLen (v : SplitVring) (mem : VringMem) : UInt16 :=
  mem.availIdx - v.queueConfig.nextAvail

/-- `push_back`: give the last popped chain back. -/
def pushBack (v : SplitVring) : SplitVring :=
  { v with queueConfig := { v.queueConfig with nextAvail := v.queueConfig.nextAvail - 1 } }

/-- `get_vring_element`: read the next chain head from the avail ring, check
it, move `avail_event` past it, and walk the chain. -/
def getVringElement (v : SplitVring) (sys : SysMem) (mem : VringMem) (features : Nat)
    (elem : Element) : Except VirtioError Element × SplitVring × VringMem :=
  if v.actualSize = 0 then
    (.error (.rustPanic "attempt to calculate the remainder with a divisor of zero"), v, mem)
  else
    let descIndex := mem.availRing (v.queueConfig.nextAvail % v.actualSize).toNat
    match SplitVringDesc.new sys v.queueConfig.descTableHost v.actualSize.toNat descIndex.toNat
        v.cache with
    | (.error e, cache) => (.error e, { v with cache := cache }, mem)
    | (.ok desc, cache) =>
      let mem := if virtioHasFeature features VIRTIO_F_RING_EVENT_IDX then
          { mem with availEvent := v.queueConfig.nextAvail + 1 }
        else mem
      let info : DescInfo :=
        { tableHost := v.queueConfig.descTableHost, size := v.actualSize.toNat,
          index := descIndex.toNat, desc := desc }
      match getElement sys info cache elem with
      | (.error e, cache) => (.error e, { v with cache := cache }, mem)
      | (.ok elem, cache) =>
        (.ok elem, { cache := cache, queueConfig := { v.queueConfig with
            nextAvail := v.queueConfig.nextAvail + 1 } }, mem)

/-- `pop_avail`: the next available chain, or an empty element when the queue
is disabled or nothing is available. -/
def popAvail (v : SplitVring) (sys : SysMem) (mem : VringMem) (features : Nat) :
    Except VirtioError Element × SplitVring × VringMem :=
  let element := Element.new 0
  if !v.isEnabled || v.availRingLen mem = 0 then (.ok element, v, mem)
  else v.getVringElement sys mem features element

end SplitVring

end StratoVirt.Virtio
