import Mathlib

/-!
# Guest RAM as devices see it through `AddressSpace::read` and `write`

A device that does DMA calls `AddressSpace::read(dst, addr, count)` and
`AddressSpace::write(src, addr, count)`. Both walk the flat view piece by
piece (`FlatView::read`/`write`): each mapped piece is copied before the next
address is looked up, and the first unmapped address ends the walk with
`RegionNotFound`. A failed access has therefore still copied the bytes
before the hole. A zero-length access succeeds only at a mapped address.

Here guest memory is one RAM region `[0, size)`; an access is the bytes it
copies and whether it succeeded. `read_write_self` and `read_write_of_disjoint`
are what the device proofs use: a successful write reads back, and a write
leaves the bytes outside its range alone.
-/

namespace StratoVirt.AddressSpace

/-- Guest memory: RAM at `[0, size)`. -/
structure GuestRam where
  size : Nat
  bytes : Nat → UInt8

namespace GuestRam

/-- `AddressSpace::read`: the bytes copied before the first unmapped address,
and whether all `len` were. -/
def read (m : GuestRam) (addr len : Nat) : List UInt8 × Bool :=
  ((List.range (min len (m.size - addr))).map (fun i => m.bytes (addr + i)),
    decide (addr < m.size ∧ addr + len ≤ m.size))

/-- `AddressSpace::write` of the first `len` bytes of `src`: memory with the
mapped part written, and whether all `len` bytes were. -/
def write (m : GuestRam) (addr : Nat) (src : List UInt8) (len : Nat) : GuestRam × Bool :=
  let n := min len (m.size - addr)
  ({ m with bytes := fun a => if addr ≤ a ∧ a < addr + n then src[a - addr]?.getD 0 else m.bytes a },
    decide (addr < m.size ∧ addr + len ≤ m.size))

@[simp] theorem write_size (m : GuestRam) (addr : Nat) (src : List UInt8) (len : Nat) :
    (m.write addr src len).1.size = m.size := rfl

theorem read_ok_iff (m : GuestRam) (addr len : Nat) :
    (m.read addr len).2 = true ↔ addr < m.size ∧ addr + len ≤ m.size := by
  simp [read]

theorem write_ok_iff (m : GuestRam) (addr : Nat) (src : List UInt8) (len : Nat) :
    (m.write addr src len).2 = true ↔ addr < m.size ∧ addr + len ≤ m.size := by
  simp [write]

/-- A successful read copies exactly `len` bytes. -/
theorem read_length_of_ok {m : GuestRam} {addr len : Nat} (h : (m.read addr len).2 = true) :
    (m.read addr len).1.length = len := by
  rw [read_ok_iff] at h
  simp only [read, List.length_map, List.length_range]
  omega

/-- A byte outside the written range is unchanged. -/
theorem bytes_write_of_not_mem {m : GuestRam} {addr a len : Nat} (src : List UInt8)
    (h : a < addr ∨ addr + len ≤ a) : (m.write addr src len).1.bytes a = m.bytes a := by
  simp only [write]
  rw [if_neg (by omega)]

/-- **Read back.** After a successful write of `len` bytes of a source of
that length, reading the range gives the source. -/
theorem read_write_self {m : GuestRam} {addr len : Nat} {src : List UInt8}
    (hlen : src.length = len) (h : (m.write addr src len).2 = true) :
    ((m.write addr src len).1.read addr len).1 = src := by
  rw [write_ok_iff] at h
  apply List.ext_getElem
  · simp only [read, write_size, List.length_map, List.length_range]
    omega
  · intro i _ h2
    have hi : i < len := hlen ▸ h2
    simp only [read, write, List.getElem_map, List.getElem_range]
    rw [if_pos (by omega)]
    simp only [Nat.add_sub_cancel_left, List.getElem?_eq_getElem h2, Option.getD_some]

/-- **Frame.** A write leaves the reads of a disjoint range unchanged. -/
theorem read_write_of_disjoint {m : GuestRam} {addr len b n : Nat} (src : List UInt8)
    (h : b + n ≤ addr ∨ addr + len ≤ b) :
    (m.write addr src len).1.read b n = m.read b n := by
  simp only [read, write_size]
  congr 1
  apply List.map_congr_left
  intro i hi
  simp only [List.mem_range] at hi
  exact bytes_write_of_not_mem src (by omega)

end GuestRam

end StratoVirt.AddressSpace
