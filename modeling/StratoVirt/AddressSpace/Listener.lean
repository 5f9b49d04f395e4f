import StratoVirt.AddressSpace.Types
import StratoVirt.Lib.List

/-!
# KVM memory slots

`address_space/src/listener.rs`. `KvmMemoryListener` keeps a fixed table of
`MemSlot`s; a slot is in use while its size is positive. `get_free_slot` first
refuses a range that `find_intersection` says meets some slot of the table,
then fills the first slot of size zero; `delete_slot` sets the size of the
first slot with the given address and size to zero and keeps the rest of it,
"so it can be reused later". `add_region` and `delete_region` call them with
the page-aligned range of a RAM region (and `delete_slot` again when KVM
refuses the new slot), so a run of them is a run of `SlotOp`s.

What holds over any run:

* `slotRun_liveDisjoint`: the slots in use never overlap;
* `getFreeSlot_eq_ok`: a successful addition met no slot and filled a free
  one; a failed one returns no table, so the table stays as it was;
* `deleteSlot_getFreeSlot`: deleting what was just added gives back exactly
  the slots in use before.

What does not: the overlap check runs over every slot, freed ones included,
and the `find_intersection` of a freed slot's empty range `[g, g)` with
`[a, a + n)` is `Some` whenever `a < g < a + n`. `getFreeSlot_stale`: such a
range is refused although it meets no slot in use and a slot is free.
-/

namespace StratoVirt.AddressSpace

open StratoVirt.Lib

/-- `MemSlot`: one KVM memory slot. -/
structure MemSlot where
  index : Nat
  guestAddr : Nat
  size : Nat
  hostAddr : Nat
  deriving Repr, DecidableEq

/-- `MemSlot::default`. -/
def MemSlot.default : MemSlot := ⟨0, 0, 0, 0⟩

/-- The guest range of a slot, as `get_free_slot` builds it. -/
def MemSlot.range (s : MemSlot) : AddressRange := ⟨s.guestAddr, s.size⟩

/-- The ranges of two slots do not meet. -/
def MemSlot.Disjoint (s t : MemSlot) : Prop :=
  s.guestAddr + s.size ≤ t.guestAddr ∨ t.guestAddr + t.size ≤ s.guestAddr

/-- The errors of the slot table, from `AddressSpaceError`. -/
inductive SlotError where
  | kvmSlotOverlap (add exist : Nat × Nat)
  | noAvailKvmSlot (len : Nat)
  | noMatchedKvmSlot (addr size : Nat)
  deriving Repr, DecidableEq

/-- The slot table of `KvmMemoryListener`. -/
structure KvmMemoryListener where
  slots : List MemSlot
  deriving Repr, DecidableEq

namespace KvmMemoryListener

/-- `KvmMemoryListener::new`: `nr_slots` default slots. -/
def new (nrSlots : Nat) : KvmMemoryListener := ⟨List.replicate nrSlots MemSlot.default⟩

/-- Whether `find_intersection` finds a slot's range meeting `range`. -/
def meets (range : AddressRange) (s : MemSlot) : Bool := (s.range.findIntersection range).isSome

/-- `get_free_slot`: refuse a range that meets a slot, then fill the first
free slot; the result is the slot's index. -/
def getFreeSlot (l : KvmMemoryListener) (guestAddr size hostAddr : Nat) :
    Except SlotError (KvmMemoryListener × Nat) :=
  let range : AddressRange := ⟨guestAddr, size⟩
  match l.slots.find? (meets range) with
  | some s => .error (.kvmSlotOverlap (guestAddr, size) (s.guestAddr, s.size))
  | none =>
    match l.slots.findIdx? (·.size == 0) with
    | some index => .ok (⟨l.slots.set index ⟨index, guestAddr, size, hostAddr⟩⟩, index)
    | none => .error (.noAvailKvmSlot l.slots.length)

/-- `delete_slot`: free the first slot with this address and size, and return
it. -/
def deleteSlot (l : KvmMemoryListener) (addr size : Nat) :
    Except SlotError (KvmMemoryListener × MemSlot) :=
  match l.slots.findIdx? (fun s => s.guestAddr == addr && s.size == size) with
  | some i =>
    -- `findIdx?` found the index in the table, so the lookup succeeds
    match l.slots[i]? with
    | some s => .ok (⟨l.slots.set i { s with size := 0 }⟩, { s with size := 0 })
    | none => .error (.noMatchedKvmSlot addr size)
  | none => .error (.noMatchedKvmSlot addr size)

/-- The slots in use, in table order. -/
def live (l : KvmMemoryListener) : List MemSlot := l.slots.filter (fun s => 0 < s.size)

/-- An addition or a deletion of a slot, as `add_region` and `delete_region`
(and `add_region`'s roll-back) make them. -/
inductive SlotOp where
  | add (guestAddr size hostAddr : Nat)
  | delete (addr size : Nat)

/-- One operation; a failed one leaves the table. -/
def apply (l : KvmMemoryListener) : SlotOp → KvmMemoryListener
  | .add guestAddr size hostAddr =>
    match l.getFreeSlot guestAddr size hostAddr with
    | .ok (l', _) => l'
    | .error _ => l
  | .delete addr size =>
    match l.deleteSlot addr size with
    | .ok (l', _) => l'
    | .error _ => l

/-- A sequence of operations. -/
def slotRun (l : KvmMemoryListener) (ops : List SlotOp) : KvmMemoryListener := ops.foldl apply l

/-! ## What the table keeps -/

/-- The slots in use do not overlap. -/
def LiveDisjoint (l : KvmMemoryListener) : Prop :=
  ∀ (i j : Nat) (s t : MemSlot), i ≠ j → l.slots[i]? = some s → l.slots[j]? = some t →
    0 < s.size → 0 < t.size → s.Disjoint t

/-- A slot the check passes ends before the range or begins after it. -/
theorem meets_eq_false_iff {range : AddressRange} {s : MemSlot} :
    meets range s = false ↔
      s.guestAddr + s.size ≤ range.base ∨ range.base + range.size ≤ s.guestAddr := by
  unfold meets
  rw [Option.isSome_eq_false_iff, Option.isNone_iff_eq_none, AddressRange.findIntersection_eq_none_iff]
  simp only [MemSlot.range]
  omega

/-- What a successful `get_free_slot` did: no slot met the range, and a free
slot took it. -/
theorem getFreeSlot_eq_ok {l l' : KvmMemoryListener} {a n h index : Nat}
    (hok : l.getFreeSlot a n h = .ok (l', index)) :
    (∀ s ∈ l.slots, meets ⟨a, n⟩ s = false) ∧ (∃ s, l.slots[index]? = some s ∧ s.size = 0) ∧
      (∀ j < index, ∀ s, l.slots[j]? = some s → s.size ≠ 0) ∧
      l'.slots = l.slots.set index ⟨index, a, n, h⟩ := by
  dsimp only [getFreeSlot] at hok
  split at hok
  · cases hok
  rename_i hnone
  split at hok
  · rename_i i hi
    simp only [Except.ok.injEq, Prod.mk.injEq] at hok
    obtain ⟨rfl, rfl⟩ := hok
    obtain ⟨hlt, hzero, hbefore⟩ := List.findIdx?_eq_some_iff_getElem.1 hi
    refine ⟨fun s hs => by simpa using List.find?_eq_none.1 hnone s hs,
      ⟨_, List.getElem?_eq_getElem hlt, by simpa using hzero⟩, ?_, rfl⟩
    intro j hj s hs
    obtain ⟨hjl, rfl⟩ := List.getElem?_eq_some_iff.1 hs
    simpa using hbefore j hj
  · cases hok

/-- What a successful `delete_slot` did: the first slot with that address and
size is now free. -/
theorem deleteSlot_eq_ok {l l' : KvmMemoryListener} {addr size : Nat} {s' : MemSlot}
    (hok : l.deleteSlot addr size = .ok (l', s')) :
    ∃ i s, l.slots[i]? = some s ∧ s.guestAddr = addr ∧ s.size = size ∧ s' = { s with size := 0 } ∧
      l'.slots = l.slots.set i { s with size := 0 } := by
  unfold deleteSlot at hok
  split at hok
  · rename_i i hi
    split at hok
    · rename_i s hs
      simp only [Except.ok.injEq, Prod.mk.injEq] at hok
      obtain ⟨rfl, rfl⟩ := hok
      obtain ⟨hlt, hmatch, -⟩ := List.findIdx?_eq_some_iff_getElem.1 hi
      obtain ⟨hlt', hsi⟩ := List.getElem?_eq_some_iff.1 hs
      rw [hsi] at hmatch
      simp only [Bool.and_eq_true, beq_iff_eq] at hmatch
      exact ⟨i, _, hs, hmatch.1, hmatch.2, rfl, rfl⟩
    · cases hok
  · cases hok

/-- **Step.** A successful `get_free_slot` keeps the slots in use apart: the
new slot met none of them. -/
theorem LiveDisjoint.getFreeSlot {l l' : KvmMemoryListener} {a n h index : Nat}
    (hl : l.LiveDisjoint) (hok : l.getFreeSlot a n h = .ok (l', index)) : l'.LiveDisjoint := by
  obtain ⟨hmeet, -, -, hslots⟩ := getFreeSlot_eq_ok hok
  -- a slot that was there meets the new range nowhere
  have hapart : ∀ (j : Nat) (t : MemSlot), l.slots[j]? = some t →
      (⟨index, a, n, h⟩ : MemSlot).Disjoint t := by
    intro j t ht
    have := meets_eq_false_iff.1 (hmeet t (List.mem_of_getElem? ht))
    unfold MemSlot.Disjoint
    simp only at this ⊢
    omega
  intro i j s t hij hs ht hs0 ht0
  rw [hslots] at hs ht
  rcases getElem?_set_eq_some hs with ⟨rfl, rfl⟩ | ⟨-, hs⟩ <;>
    rcases getElem?_set_eq_some ht with ⟨rfl, rfl⟩ | ⟨-, ht⟩
  · exact absurd rfl hij
  · exact hapart j t ht
  · have := hapart i s hs
    unfold MemSlot.Disjoint at this ⊢
    omega
  · exact hl i j s t hij hs ht hs0 ht0

/-- **Step.** A successful `delete_slot` keeps the slots in use apart: it only
frees one. -/
theorem LiveDisjoint.deleteSlot {l l' : KvmMemoryListener} {addr size : Nat} {s' : MemSlot}
    (hl : l.LiveDisjoint) (hok : l.deleteSlot addr size = .ok (l', s')) : l'.LiveDisjoint := by
  obtain ⟨k, s0, hs0, -, -, -, hslots⟩ := deleteSlot_eq_ok hok
  intro i j s t hij hs ht hs' ht'
  rw [hslots] at hs ht
  rcases getElem?_set_eq_some hs with ⟨-, rfl⟩ | ⟨-, hs⟩
  · exact absurd hs' (Nat.lt_irrefl 0)
  rcases getElem?_set_eq_some ht with ⟨-, rfl⟩ | ⟨-, ht⟩
  · exact absurd ht' (Nat.lt_irrefl 0)
  exact hl i j s t hij hs ht hs' ht'

theorem LiveDisjoint.apply {l : KvmMemoryListener} (hl : l.LiveDisjoint) :
    ∀ op, (l.apply op).LiveDisjoint
  | .add guestAddr size hostAddr => by
    dsimp only [KvmMemoryListener.apply]
    cases hok : l.getFreeSlot guestAddr size hostAddr with
    | ok r =>
      obtain ⟨l', index⟩ := r
      exact hl.getFreeSlot hok
    | error e => exact hl
  | .delete addr size => by
    dsimp only [KvmMemoryListener.apply]
    cases hok : l.deleteSlot addr size with
    | ok r =>
      obtain ⟨l', s'⟩ := r
      exact hl.deleteSlot hok
    | error e => exact hl

theorem liveDisjoint_new (nrSlots : Nat) : (new nrSlots).LiveDisjoint := by
  intro i _ s _ _ hs _ hs0 _
  obtain ⟨-, hdef⟩ := List.mem_replicate.1 (List.mem_of_getElem? hs)
  rw [hdef] at hs0
  exact absurd hs0 (Nat.lt_irrefl 0)

/-- **Run.** Over any additions and deletions from a fresh table, the slots in
use never overlap. -/
theorem slotRun_liveDisjoint (nrSlots : Nat) (ops : List SlotOp) :
    (slotRun (new nrSlots) ops).LiveDisjoint := by
  unfold slotRun
  -- the fold keeps the invariant one operation at a time
  suffices h : ∀ (ops : List SlotOp) (l : KvmMemoryListener), l.LiveDisjoint →
      (ops.foldl apply l).LiveDisjoint from h ops _ (liveDisjoint_new nrSlots)
  intro ops
  induction ops with
  | nil => intro l hl; exact hl
  | cons op ops ih =>
    intro l hl
    exact ih _ (hl.apply op)

/-! ## Adding and deleting the same range -/

/-- A slot of positive size meets its own range. -/
theorem meets_self {a n : Nat} (hn : 0 < n) (s : MemSlot) (ha : s.guestAddr = a)
    (hs : s.size = n) : meets ⟨a, n⟩ s = true := by
  cases hm : meets ⟨a, n⟩ s with
  | true => rfl
  | false =>
    have := meets_eq_false_iff.1 hm
    simp only at this
    omega

/-- **Add, then delete.** Deleting the range just added frees the slot that
took it, and leaves exactly the slots in use before the addition. -/
theorem deleteSlot_getFreeSlot {l l' : KvmMemoryListener} {a n h index : Nat} (hn : 0 < n)
    (hok : l.getFreeSlot a n h = .ok (l', index)) :
    ∃ l'', l'.deleteSlot a n = .ok (l'', ⟨index, a, 0, h⟩) ∧ l''.live = l.live := by
  obtain ⟨hmeet, ⟨s0, hs0, hz⟩, -, hslots⟩ := getFreeSlot_eq_ok hok
  have hlt : index < l.slots.length := (List.getElem?_eq_some_iff.1 hs0).1
  -- the new slot is the first with this address and size: an earlier one would meet it
  have hfind : l'.slots.findIdx? (fun s => s.guestAddr == a && s.size == n) = some index := by
    rw [List.findIdx?_eq_some_iff_getElem]
    refine ⟨by rw [hslots, List.length_set]; exact hlt, ?_, ?_⟩
    · simp [hslots]
    · intro j hj
      have hj' : j < l.slots.length := by omega
      have hj'' : j < l'.slots.length := by rw [hslots, List.length_set]; exact hj'
      have hget : l'.slots[j] = l.slots[j] := by
        simp only [hslots]
        exact List.getElem_set_ne (by omega) _
      rw [hget]
      intro hmatch
      simp only [Bool.and_eq_true, beq_iff_eq] at hmatch
      have := hmeet _ (List.getElem_mem hj')
      rw [meets_self hn _ hmatch.1 hmatch.2] at this
      cases this
  have hget : l'.slots[index]? = some ⟨index, a, n, h⟩ := by
    rw [hslots]
    exact List.getElem?_set_self hlt
  refine ⟨⟨l.slots.set index ⟨index, a, 0, h⟩⟩, ?_, ?_⟩
  · simp only [deleteSlot, hfind, hget]
    rw [hslots, List.set_set]
  · -- the slot was free before and is free again
    exact filter_set_of_false hs0 (by simp [hz]) (by simp)

/-! ## Freed slots still block -/

/-- **A freed slot blocks a range over its old address.** A slot freed by
`delete_slot` keeps its guest address `g`; the empty range `[g, g)` meets every
`[a, a + n)` with `a < g < a + n`, so `get_free_slot` refuses such a range even
when no slot is in use. -/
theorem getFreeSlot_stale {l : KvmMemoryListener} {s : MemSlot} (hs : s ∈ l.slots)
    (hfree : s.size = 0) {a n : Nat} (h1 : a < s.guestAddr) (h2 : s.guestAddr < a + n)
    (hostAddr : Nat) : ∃ e, l.getFreeSlot a n hostAddr = .error (.kvmSlotOverlap (a, n) e) := by
  have hmeet : meets ⟨a, n⟩ s = true := by
    cases hm : meets ⟨a, n⟩ s with
    | true => rfl
    | false =>
      have := meets_eq_false_iff.1 hm
      simp only at this
      omega
  dsimp only [getFreeSlot]
  cases hfind : l.slots.find? (meets ⟨a, n⟩) with
  | none => exact absurd hmeet (by simpa using List.find?_eq_none.1 hfind s hs)
  | some t => exact ⟨(t.guestAddr, t.size), rfl⟩

theorem kvmSlot_deleted_blocks_add :
    (new 2).getFreeSlot 0x1000 0x1000 0x7f0000001000 =
        .ok (⟨[⟨0, 0x1000, 0x1000, 0x7f0000001000⟩, .default]⟩, 0) ∧
      (⟨[⟨0, 0x1000, 0x1000, 0x7f0000001000⟩, .default]⟩ : KvmMemoryListener).deleteSlot
        0x1000 0x1000 =
        .ok (⟨[⟨0, 0x1000, 0, 0x7f0000001000⟩, .default]⟩, ⟨0, 0x1000, 0, 0x7f0000001000⟩) ∧
      (⟨[⟨0, 0x1000, 0, 0x7f0000001000⟩, .default]⟩ : KvmMemoryListener).live = [] ∧
      (⟨[⟨0, 0x1000, 0, 0x7f0000001000⟩, .default]⟩ : KvmMemoryListener).getFreeSlot
        0 0x2000 0x7f0000010000 = .error (.kvmSlotOverlap (0, 0x2000) (0x1000, 0)) := by
  decide

end KvmMemoryListener

end StratoVirt.AddressSpace
