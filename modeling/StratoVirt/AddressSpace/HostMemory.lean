import Mathlib
import StratoVirt.AddressSpace.Access
import StratoVirt.AddressSpace.Ram

/-!
# Guest memory through the flat view is flat memory

`address_space/src/region.rs` and `address_space.rs`. `Region::read` of a RAM
or RAM-device region copies bytes of its host mapping into `dst`, and
`FlatView::read` hands each piece of an access to the owner of the range at the
piece's start (`Access.lean`). A device sees none of this: to it guest memory
is one flat map from guest addresses to bytes, where the byte at `a` is the one
the host mapping of the range holding `a` has at `a`'s offset in its owner
(`guestByte`). A read returns the bytes from `addr` up to `count` or up to
the first address nothing maps (`prefixBytes`), and a write puts bytes of the
source there (`flatWrite`).

Results, for a view with the representation invariant and positive sizes,
whose ranges lie inside their owners and whose owners are RAM mapped inside
the host's address space (`RamBacked`):

* `readBytes_eq_flatRead`: `FlatView::read` leaves in `dst` exactly the bytes
  of flat memory from `addr`, and succeeds exactly when all `count` are mapped
  (for `count = 0`, when `addr` is); otherwise it fails with the first
  unmapped address in its error, after the bytes before it;
* `writeData_eq_flatWrite`: when no two guest addresses share a host byte
  (`NoAlias`), `FlatView::write` changes flat memory exactly there, to the
  bytes it takes from the front of `src`, and fails as the read does;
* `readBytes_single_ram` and `writeData_single_ram`: on a view of one RAM
  region at guest address 0 these are `GuestRam.read` and `GuestRam.write`,
  the memory model the device proofs are stated over.

Mirroring notes:
- `Region::read` changes no memory, and `dst` is a buffer that takes every
  write; so what `FlatView::read` leaves in `dst` is the bytes of its calls to
  owners in order. A failed call writes none: each of its errors comes before
  its `write_all`. `FlatView::write` changes memory and consumes `src`, so its
  loop is modelled again with both (`flatViewWriteStep`).
- `src` is a byte slice: `read_exact` of more bytes than it has fails before
  copying any. `MigrationManager::mark_dirty_log` is left out.
- Host memory is a function from host addresses to bytes; the slice at
  `host_addr + offset` is the `count` bytes from there.
- The device side of I/O and ROM-device regions (`read_ops`, `write_ops` and
  `max_access_size`) is the parameter `ops : DeviceOps`: the bytes a read op
  gives, or `none` when it returns `false`. `rw_multi_ops!` is modelled; an
  access size of 0, on which it divides by zero, is not.
- `mem_mapping.unwrap()` on a region without a mapping panics; here it is an
  error with the panic's text.
-/

namespace StratoVirt.AddressSpace

open StratoVirt.Lib

/-- The text of `AddressSpaceError::InvalidOffset`. -/
def invalidOffsetText : String :=
  "Invalid offset: offset 0x\x7b0:X\x7d, data length 0x\x7b1:X\x7d, region size 0x\x7b2:X\x7d"

/-- The text of `AddressSpaceError::IoAccess`. -/
def ioAccessText : String :=
  "Failed to access IO-type region, region base 0x\x7b0:X\x7d, offset 0x\x7b1:X\x7d, size 0x\x7b2:X\x7d"

/-- The text of `AddressSpaceError::RegionNotFound`, the error of a read or
write that meets an unmapped address. -/
def regionNotFoundText : String := "Failed to find matched region, addr 0x{0:X}"

/-- The panic of `Option::unwrap` on `None`. -/
def unwrapNoneText : String := "called Option::unwrap() on a None value"

/-- The `count` bytes of host memory from host address `start`. -/
def hostBytes (host : Nat → UInt8) (start count : Nat) : List UInt8 :=
  (List.range count).map fun i => host (start + i)

/-- The device side of the regions: what `read_ops` gives for `len` bytes at
`offset` (`none` when it returns `false`), whether `write_ops` takes `data`,
and `max_access_size`. -/
structure DeviceOps where
  read : Region → Nat → Nat → Nat → Option (List UInt8)
  write : Region → Nat → Nat → List UInt8 → Bool
  maxAccessSize : Region → Option Nat

/-- `rw_multi_ops!`: the device op on each whole chunk of `accessSize` bytes
of the `count`, then on the rest; the first that fails ends it with
`IoAccess` of its chunk. `op pos len` is the op on the `len` bytes at `pos`. -/
def rwMultiOps {β : Type} (op : Nat → Nat → Option β) (base offset count accessSize : Nat) :
    Except AddressSpaceError (List β) :=
  let whole := (List.range (count / accessSize)).map fun k => (k * accessSize, accessSize)
  let pos := count / accessSize * accessSize
  let rest := if count % accessSize > 0 then [(pos, count - pos)] else []
  (whole ++ rest).mapM fun (pos, len) =>
    match op pos len with
    | some b => .ok b
    | none => .error (.msg ioAccessText [base, offset + pos, len])

/-- `Region::read`: the bytes it writes to `dst`. RAM and RAM-device regions,
and ROM devices in ROMD mode, copy `count` bytes of their host mapping from
`offset`, after `check_valid_offset`; a ROM device otherwise gives what one
`read_ops` call gives, and an I/O region what `read_ops` gives in one call or,
above `max_access_size`, by `rw_multi_ops!`. -/
def Region.read (hostMapping : Region → Option Nat) (host : Nat → UInt8) (ops : DeviceOps)
    (r : Region) (base offset count : Nat) : Except AddressSpaceError (List UInt8) :=
  let mapped : Except AddressSpaceError (List UInt8) :=
    match hostMapping r with
    | none => .error (.msg unwrapNoneText [])
    | some hostAddr => .ok (hostBytes host (wrapAdd hostAddr offset) count)
  let single : Except AddressSpaceError (List UInt8) :=
    match ops.read r base offset count with
    | none => .error (.msg ioAccessText [base, offset, count])
    | some bytes => .ok bytes
  match r.regionType with
  | .ram | .ramDevice =>
    match r.checkValidOffset offset count with
    | .error e => .error (.context invalidOffsetText [offset, count, r.size] e)
    | .ok () => mapped
  | .romDevice =>
    match r.checkValidOffset offset count with
    | .error e => .error (.context invalidOffsetText [offset, count, r.size] e)
    | .ok () => if r.romDevRomd then mapped else single
  | .io =>
    match ops.maxAccessSize r with
    | some accessSize =>
      if count > accessSize then
        (rwMultiOps (fun pos len => ops.read r base (offset + pos) len) base offset count
          accessSize).map List.flatten
      else single
    | none => single
  | t => .error (.regionType t)

/-- `Region::read` as the loop of `FlatView::read` sees it: whether it failed. -/
def Region.readAccess (hostMapping : Region → Option Nat) (host : Nat → UInt8)
    (ops : DeviceOps) (r : Region)
    (base offset count : Nat) : Except AddressSpaceError Unit :=
  (Region.read hostMapping host ops r base offset count).map fun _ => ()

/-- What the calls `calls` of the loop write to `dst`, in turn. -/
def dstBytes (hostMapping : Region → Option Nat) (host : Nat → UInt8)
    (ops : DeviceOps) (calls : List Dispatch) :
    List UInt8 :=
  calls.flatMap fun d =>
    (Region.read hostMapping host ops d.range.owner d.regionBase d.regionOffset d.count).toOption.getD []

/-- `FlatView::read` with what it leaves in `dst`: the loop of `Access.lean`
calling `Region::read` on each piece, and the bytes of those calls. -/
def FlatView.readBytes (view : List FlatRange) (hostMapping : Region → Option Nat)
    (host : Nat → UInt8) (ops : DeviceOps)
    (addr count fuel : Nat) : Option (Except AddressSpaceError Unit × List UInt8) :=
  (FlatView.read view (Region.readAccess hostMapping host ops) addr count fuel).map
    fun (res, calls) => (res, dstBytes hostMapping host ops calls)

/-- The context `Region::write` puts on a failed `check_valid_offset`. -/
def writeInvalidOffsetText : String :=
  "Invalid offset: offset 0x{:X}, data length 0x{:X}, region size 0x{:X}"

/-- The error of `read_exact` on a source that runs out. -/
def readExactEofText : String := "failed to fill whole buffer"

/-- `usize::MAX` on a 64-bit host. -/
def USIZE_MAX : Nat := 2 ^ 64 - 1

/-- Host memory after the bytes `data` are copied to host address `start`. -/
def hostWrite (host : Nat → UInt8) (start : Nat) (data : List UInt8) : Nat → UInt8 :=
  fun a => if start ≤ a ∧ a < start + data.length then data.getD (a - start) 0 else host a

/-- `Region::write` of the `count` bytes at the front of `src`: host memory
after it and what is left of `src`. After `check_valid_offset`, RAM and
RAM-device regions take the bytes into their host mapping; ROM devices and I/O
regions hand them to `write_ops`, in one call or, above `max_access_size`, by
`rw_multi_ops!`. A source with fewer than `count` bytes fails `read_exact`. -/
def Region.write (hostMapping : Region → Option Nat) (ops : DeviceOps) (r : Region)
    (host : Nat → UInt8) (src : List UInt8) (base offset count : Nat) :
    Except AddressSpaceError ((Nat → UInt8) × List UInt8) :=
  let slice := src.take count
  let single : Except AddressSpaceError Unit :=
    if ops.write r base offset slice then .ok () else .error (.msg ioAccessText [base, offset, count])
  let device : Except AddressSpaceError Unit :=
    match ops.maxAccessSize r with
    | some accessSize =>
      if count > accessSize then
        (rwMultiOps (fun pos len =>
            if ops.write r base (offset + pos) ((slice.drop pos).take len) then some () else none)
          base offset count accessSize).map fun _ => ()
      else single
    | none => single
  match r.checkValidOffset offset count with
  | .error e => .error (.context writeInvalidOffsetText [offset, count, r.size] e)
  | .ok () =>
    match r.regionType with
    | .ram | .ramDevice =>
      match hostMapping r with
      | none => .error (.msg unwrapNoneText [])
      | some hostAddr =>
        if count ≤ src.length then .ok (hostWrite host (wrapAdd hostAddr offset) slice, src.drop count)
        else .error (.context "Failed to write buffer to Ram" [] (.msg readExactEofText []))
    | .romDevice | .io =>
      if count ≥ USIZE_MAX then .error (.overflow count)
      else if count ≤ src.length then device.map fun () => (host, src.drop count)
      else .error (.context "Failed to write buffer to slice, which will be provided for device" []
        (.msg readExactEofText []))
    | t => .error (.regionType t)

/-- The variables of `FlatView::write`'s loop, with host memory and what is
left of `src`. -/
structure WriteState where
  start : Nat
  len : Nat
  l : Nat
  host : Nat → UInt8
  src : List UInt8

/-- One pass of `FlatView::write`'s loop: the pass of `flatViewAccessStep`, its
call to the owner a `Region::write` that moves host memory and `src`. -/
def flatViewWriteStep (view : List FlatRange) (hostMapping : Region → Option Nat) (ops : DeviceOps)
    (s : WriteState) : Step WriteState AddressSpaceError :=
  match findFlatrange view s.start with
  | none => .fail (.msg regionNotFoundText [s.start]) s
  | some fr =>
    let d := dispatchAt fr s.start s.l
    match Region.write hostMapping ops fr.owner s.host s.src d.regionBase d.regionOffset d.count with
    | .error e => .fail e { s with l := d.count }
    | .ok (host, src) =>
      let len := s.len - d.count
      if len = 0 then .exit { s with len := len, l := d.count, host := host, src := src }
      else .next ⟨wrapAdd s.start d.count, len, len, host, src⟩

/-- `FlatView::write` of `count` bytes of `src` to `addr`, for at most `fuel`
passes: how it ended, host memory after it, and what is left of `src`. -/
def FlatView.writeData (view : List FlatRange) (hostMapping : Region → Option Nat) (ops : DeviceOps)
    (host : Nat → UInt8) (src : List UInt8) (addr count fuel : Nat) :
    Option (Except AddressSpaceError Unit × (Nat → UInt8) × List UInt8) :=
  (Loop.runFor (flatViewWriteStep view hostMapping ops) fuel ⟨addr, count, count, host, src⟩).map fun
    | .exit s => (.ok (), s.host, s.src)
    | .fail e s => (.error e, s.host, s.src)

/-! ## Flat memory -/

/-- The host address guest address `a` stands for: in the mapping of the owner
of the range holding `a`, at `a`'s offset in that owner; `none` where no range
holds `a`. -/
def hostAddrOf (view : List FlatRange) (hostMapping : Region → Option Nat) (a : Nat) : Option Nat :=
  (scanFlatrange view a).bind fun fr =>
    (hostMapping fr.owner).map fun h => h + (fr.offsetInRegion + (a - fr.addrRange.base))

/-- Flat guest memory: the byte at each guest address is the host's at the
address it stands for. -/
def guestByte (view : List FlatRange) (hostMapping : Region → Option Nat) (host : Nat → UInt8)
    (a : Nat) : Option UInt8 :=
  (hostAddrOf view hostMapping a).map host

/-- No two guest addresses stand for one host address: no range aliases
another's memory. -/
def NoAlias (view : List FlatRange) (hostMapping : Region → Option Nat) : Prop :=
  ∀ a b x, hostAddrOf view hostMapping a = some x → hostAddrOf view hostMapping b = some x → a = b

/-- Flat memory `m` after the first `n` bytes of `src` are written from
`addr`. -/
def flatWrite (m : Nat → Option UInt8) (addr : Nat) (src : List UInt8) (n a : Nat) : Option UInt8 :=
  if addr ≤ a ∧ a < addr + n then src[a - addr]? else m a

/-- A read of flat memory `m`: the bytes from `addr`, up to `n` of them or up
to the first address `m` does not map. -/
def prefixBytes (m : Nat → Option UInt8) (addr : Nat) : Nat → List UInt8
  | 0 => []
  | n + 1 =>
    match m addr with
    | none => []
    | some b => b :: prefixBytes m (addr + 1) n

/-- A read of `count` bytes from `addr` finds every one mapped; one of no
bytes still needs `addr` mapped, since the access looks it up. -/
def ReadOk (m : Nat → Option UInt8) (addr count : Nat) : Prop :=
  ∀ i, i < max count 1 → (m (addr + i)).isSome

instance (m : Nat → Option UInt8) (addr count : Nat) : Decidable (ReadOk m addr count) :=
  inferInstanceAs (Decidable (∀ i, i < max count 1 → (m (addr + i)).isSome))

section Prefix

variable {m : Nat → Option UInt8}

theorem prefixBytes_of_none {addr : Nat} (h : m addr = none) (n : Nat) : prefixBytes m addr n = [] := by
  cases n with
  | zero => rfl
  | succ n => rw [prefixBytes, h]

/-- Over mapped bytes the read goes on: `n` bytes more are those from `addr + k`. -/
theorem prefixBytes_add :
    ∀ (k : Nat) {addr : Nat}, (∀ i, i < k → (m (addr + i)).isSome) →
      ∀ n, prefixBytes m addr (k + n) = prefixBytes m addr k ++ prefixBytes m (addr + k) n
  | 0, addr, _, n => by simp [prefixBytes]
  | k + 1, addr, hk, n => by
    obtain ⟨b, hb⟩ := Option.isSome_iff_exists.1 (hk 0 (by omega))
    rw [Nat.add_zero] at hb
    have hrest : ∀ i, i < k → (m (addr + 1 + i)).isSome := fun i hi => by
      rw [Nat.add_assoc, Nat.add_comm 1 i]
      exact hk (i + 1) (by omega)
    rw [Nat.add_right_comm, prefixBytes, prefixBytes, hb, prefixBytes_add k hrest n,
      Nat.add_assoc, Nat.add_comm 1 k]
    rfl

/-- Where `m` maps every byte, the read is those bytes. -/
theorem prefixBytes_of_mapped {addr n : Nat} {f : Nat → UInt8} (h : ∀ i, i < n → m (addr + i) = some (f i)) :
    prefixBytes m addr n = (List.range n).map f := by
  induction n generalizing addr f with
  | zero => rfl
  | succ n ih =>
    have h0 := h 0 (by omega)
    rw [Nat.add_zero] at h0
    rw [prefixBytes, h0, List.range_succ_eq_map, List.map_cons, List.map_map]
    dsimp only
    congr 1
    refine ih fun i hi => ?_
    rw [Nat.add_assoc, Nat.add_comm 1 i]
    exact h (i + 1) (by omega)

theorem length_prefixBytes_of_mapped {addr n : Nat} (h : ∀ i, i < n → (m (addr + i)).isSome) :
    (prefixBytes m addr n).length = n := by
  induction n generalizing addr with
  | zero => rfl
  | succ n ih =>
    obtain ⟨b, hb⟩ := Option.isSome_iff_exists.1 (h 0 (by omega))
    rw [Nat.add_zero] at hb
    rw [prefixBytes, hb, List.length_cons, ih fun i hi => ?_]
    rw [Nat.add_assoc, Nat.add_comm 1 i]
    exact h (i + 1) (by omega)

/-- Memory mapped exactly below `size`: the read is the bytes from `addr` to
`size` or to `count` of them. -/
theorem prefixBytes_window {size : Nat} {f : Nat → UInt8}
    (hm : ∀ a, m a = if a < size then some (f a) else none) (addr count : Nat) :
    prefixBytes m addr count = (List.range (min count (size - addr))).map fun i => f (addr + i) := by
  have hmap : ∀ i, i < min count (size - addr) → m (addr + i) = some (f (addr + i)) := fun i hi => by
    rw [hm, if_pos (by omega)]
  by_cases hn : min count (size - addr) = count
  · -- all `count` bytes are below `size`
    conv_lhs => rw [← hn]
    exact prefixBytes_of_mapped hmap
  · -- the read stops at `size`
    have hnone : m (addr + min count (size - addr)) = none := by
      rw [hm, if_neg (by omega)]
    rw [show count = min count (size - addr) + (count - min count (size - addr)) by omega,
      prefixBytes_add _ (fun i hi => by rw [hmap i hi]; rfl), prefixBytes_of_mapped hmap,
      prefixBytes_of_none hnone, List.append_nil, ← show count = min count (size - addr) +
        (count - min count (size - addr)) by omega]

theorem readOk_window {size : Nat} {f : Nat → UInt8}
    (hm : ∀ a, m a = if a < size then some (f a) else none) (addr count : Nat) :
    ReadOk m addr count ↔ addr < size ∧ addr + count ≤ size := by
  have hsome : ∀ a, (m a).isSome ↔ a < size := fun a => by
    rw [hm]
    split <;> simp_all
  unfold ReadOk
  simp only [hsome]
  constructor
  · intro h
    have hfirst := h 0 (by omega)
    have hlast := h (max count 1 - 1) (by omega)
    omega
  · intro h i hi
    omega

end Prefix

/-! ## Reading through the view -/

/-- Every range's owner is RAM or a RAM device, mapped at a host address from
which the whole owner lies below `2^64`. -/
def RamBacked (view : List FlatRange) (hostMapping : Region → Option Nat) : Prop :=
  ∀ fr ∈ view, (fr.owner.regionType = .ram ∨ fr.owner.regionType = .ramDevice) ∧
    ∃ h, hostMapping fr.owner = some h ∧ h + fr.owner.size ≤ U64_MOD

/-- What holds at the top of every pass of `FlatView::read(addr, count)`, with
`count - len` bytes done: `l` is what is left, `start` is the next address,
the bytes done are mapped, and `dst` holds them. A pass with nothing left is
the first of a read of no bytes. -/
structure ReadInv (view : List FlatRange) (hostMapping : Region → Option Nat) (host : Nat → UInt8)
    (ops : DeviceOps) (addr count : Nat)
    (s : AccessState) : Prop where
  l_eq : s.l = s.len
  le : s.len ≤ count
  pos : 0 < s.len ∨ count = 0
  start_eq : s.start = addr + (count - s.len)
  mapped : ∀ i, i < count - s.len → (guestByte view hostMapping host (addr + i)).isSome
  bytes : dstBytes hostMapping host ops s.calls =
    prefixBytes (guestByte view hostMapping host) addr (count - s.len)

section Read

variable {view : List FlatRange} {hostMapping : Region → Option Nat} {host : Nat → UInt8}
  {ops : DeviceOps}

theorem dstBytes_append_singleton (calls : List Dispatch) (d : Dispatch) :
    dstBytes hostMapping host ops (calls ++ [d]) = dstBytes hostMapping host ops calls ++
      (Region.read hostMapping host ops d.range.owner d.regionBase d.regionOffset d.count).toOption.getD [] := by
  simp only [dstBytes, List.flatMap_append, List.flatMap_singleton]

section Inv

variable (hinv : FlatViewInv view) (hpos : Positive view)
include hinv hpos

/-- An address of a range stands for its offset in the range's owner's
mapping. -/
theorem hostAddrOf_of_mem {fr : FlatRange} {a h : Nat} (hmem : fr ∈ view) (hin : fr.contains a)
    (hh : hostMapping fr.owner = some h) :
    hostAddrOf view hostMapping a = some (h + (fr.offsetInRegion + (a - fr.addrRange.base))) := by
  unfold hostAddrOf
  rw [← findFlatrange_eq_scan hinv hpos, (findFlatrange_eq_some_iff hinv hpos a fr).2 ⟨hmem, hin⟩,
    Option.bind_some, hh, Option.map_some]

theorem hostAddrOf_of_find_none {a : Nat} (h : findFlatrange view a = none) :
    hostAddrOf view hostMapping a = none := by
  unfold hostAddrOf
  rw [← findFlatrange_eq_scan hinv hpos, h]
  rfl

/-- The byte at an address of a range is the one of the range's owner's
mapping. -/
theorem guestByte_of_mem {fr : FlatRange} {a h : Nat} (hmem : fr ∈ view) (hin : fr.contains a)
    (hh : hostMapping fr.owner = some h) :
    guestByte view hostMapping host a = some (host (h + (fr.offsetInRegion + (a - fr.addrRange.base)))) := by
  rw [guestByte, hostAddrOf_of_mem hinv hpos hmem hin hh, Option.map_some]

theorem guestByte_of_find_none {a : Nat} (h : findFlatrange view a = none) :
    guestByte view hostMapping host a = none := by
  rw [guestByte, hostAddrOf_of_find_none hinv hpos h, Option.map_none]

end Inv

/-- **One call to a RAM owner.** At an address of a range of a RAM-backed
view, the call the loop makes is for the bytes from that address to the
range's end or to the bytes left, whichever comes first; they lie in the
owner, so `check_valid_offset` passes, and their host address does not wrap. -/
theorem dispatchAt_ram (howners : InOwners view) (hram : RamBacked view hostMapping)
    {fr : FlatRange} {start l : Nat} (hmem : fr ∈ view) (hin : fr.contains start) :
    ∃ h, hostMapping fr.owner = some h ∧
      (fr.owner.regionType = .ram ∨ fr.owner.regionType = .ramDevice) ∧
      (dispatchAt fr start l).count = min l (fr.addrRange.base + fr.addrRange.size - start) ∧
      fr.owner.checkValidOffset (dispatchAt fr start l).regionOffset (dispatchAt fr start l).count =
        .ok () ∧
      wrapAdd h (dispatchAt fr start l).regionOffset = h + (fr.offsetInRegion + (start - fr.addrRange.base)) := by
  obtain ⟨htype, h, hh, hfit⟩ := hram fr hmem
  obtain ⟨hown, hsz⟩ := howners fr hmem
  have hin' := hin
  unfold FlatRange.contains at hin'
  have hcount : (dispatchAt fr start l).count = min l (fr.addrRange.base + fr.addrRange.size - start) := by
    simp only [dispatchAt, if_pos htype]
    omega
  -- the offset in the owner does not wrap
  have hoff : (dispatchAt fr start l).regionOffset = fr.offsetInRegion + (start - fr.addrRange.base) := by
    simp only [dispatchAt]
    exact wrapAdd_of_lt (by omega)
  refine ⟨h, hh, htype, hcount, ?_, ?_⟩
  · unfold Region.checkValidOffset
    rw [hoff, hcount, (checkedAdd64_eq_some.2 ⟨by omega, rfl⟩)]
    dsimp only
    rw [if_pos (by omega)]
  · rw [hoff]
    exact wrapAdd_of_lt (by omega)

/-- The call reads, from the owner's mapping, the bytes of its guest
addresses. -/
theorem read_dispatchAt (howners : InOwners view) (hram : RamBacked view hostMapping)
    {fr : FlatRange} {start l : Nat} (hmem : fr ∈ view) (hin : fr.contains start) :
    ∃ h, hostMapping fr.owner = some h ∧
      (dispatchAt fr start l).count = min l (fr.addrRange.base + fr.addrRange.size - start) ∧
      Region.read hostMapping host ops fr.owner (dispatchAt fr start l).regionBase
          (dispatchAt fr start l).regionOffset (dispatchAt fr start l).count =
        .ok ((List.range (dispatchAt fr start l).count).map fun i =>
          host (h + (fr.offsetInRegion + (start + i - fr.addrRange.base)))) := by
  obtain ⟨h, hh, htype, hcount, hvalid, hhost⟩ := dispatchAt_ram (l := l) howners hram hmem hin
  have hin' := hin
  unfold FlatRange.contains at hin'
  refine ⟨h, hh, hcount, ?_⟩
  have hbytes : hostBytes host (wrapAdd h (dispatchAt fr start l).regionOffset) (dispatchAt fr start l).count =
      (List.range (dispatchAt fr start l).count).map fun i =>
        host (h + (fr.offsetInRegion + (start + i - fr.addrRange.base))) := by
    rw [hostBytes, hhost]
    refine List.map_congr_left fun i _ => ?_
    congr 1
    omega
  unfold Region.read
  rcases htype with ht | ht
  all_goals
    rw [ht]
    dsimp only
    rw [hvalid]
    dsimp only
    rw [hh]
    exact congrArg Except.ok hbytes

/-- The call takes its bytes from the front of `src` into the owner's mapping,
when `src` has them. -/
theorem write_dispatchAt (howners : InOwners view) (hram : RamBacked view hostMapping)
    {fr : FlatRange} {start l : Nat} (hmem : fr ∈ view) (hin : fr.contains start) {src : List UInt8}
    (hsrc : min l (fr.addrRange.base + fr.addrRange.size - start) ≤ src.length) :
    ∃ h, hostMapping fr.owner = some h ∧
      (dispatchAt fr start l).count = min l (fr.addrRange.base + fr.addrRange.size - start) ∧
      Region.write hostMapping ops fr.owner host src (dispatchAt fr start l).regionBase
          (dispatchAt fr start l).regionOffset (dispatchAt fr start l).count =
        .ok (hostWrite host (h + (fr.offsetInRegion + (start - fr.addrRange.base)))
            (src.take (dispatchAt fr start l).count),
          src.drop (dispatchAt fr start l).count) := by
  obtain ⟨h, hh, htype, hcount, hvalid, hhost⟩ := dispatchAt_ram (l := l) howners hram hmem hin
  refine ⟨h, hh, hcount, ?_⟩
  unfold Region.write
  rcases htype with ht | ht
  all_goals
    rw [hvalid]
    dsimp only
    rw [ht]
    dsimp only
    rw [hh]
    dsimp only
    rw [if_pos (by omega), hhost]

/-! ### A view of one RAM region -/

/-- One range from guest address 0, of its RAM owner's whole size. -/
def singleRamView (owner : Region) : List FlatRange :=
  [⟨⟨0, owner.size⟩, owner, 0, none⟩]

section Single

variable {owner : Region}

theorem singleRamView_inv (hsize : owner.size < U64_MOD) : FlatViewInv (singleRamView owner) :=
  ⟨List.pairwise_singleton _ _, fun x hx => by
    rw [singleRamView, List.mem_singleton] at hx
    subst hx
    simpa using hsize⟩

theorem singleRamView_positive (hpos : 0 < owner.size) : Positive (singleRamView owner) := fun x hx => by
  rw [singleRamView, List.mem_singleton] at hx
  subst hx
  exact hpos

theorem singleRamView_inOwners (hsize : owner.size < U64_MOD) : InOwners (singleRamView owner) :=
  fun x hx => by
    rw [singleRamView, List.mem_singleton] at hx
    subst hx
    exact ⟨by simp, hsize⟩

theorem singleRamView_ramBacked {h : Nat} (htype : owner.regionType = .ram) (hh : hostMapping owner = some h)
    (hfit : h + owner.size ≤ U64_MOD) : RamBacked (singleRamView owner) hostMapping := fun x hx => by
  rw [singleRamView, List.mem_singleton] at hx
  subst hx
  exact ⟨.inl htype, h, hh, hfit⟩

/-- On one RAM region from 0, guest address `a` stands for host address
`h + a`, below the region's size. -/
theorem hostAddrOf_singleRamView {h : Nat} (hh : hostMapping owner = some h) (a : Nat) :
    hostAddrOf (singleRamView owner) hostMapping a = if a < owner.size then some (h + a) else none := by
  unfold hostAddrOf scanFlatrange singleRamView
  by_cases ha : a < owner.size
  · simp [FlatRange.contains, ha, hh]
  · simp [FlatRange.contains, ha]

theorem guestByte_singleRamView {h : Nat} (hh : hostMapping owner = some h) (a : Nat) :
    guestByte (singleRamView owner) hostMapping host a =
      if a < owner.size then some (host (h + a)) else none := by
  rw [guestByte, hostAddrOf_singleRamView hh]
  split <;> rfl

theorem singleRamView_noAlias {h : Nat} (hh : hostMapping owner = some h) :
    NoAlias (singleRamView owner) hostMapping := by
  intro a b x ha hb
  rw [hostAddrOf_singleRamView hh] at ha hb
  split at ha <;> split at hb
  · rw [Option.some.injEq] at ha hb
    omega
  all_goals cases ha <;> cases hb

end Single

section Run

variable (hinv : FlatViewInv view) (hpos : Positive view) (howners : InOwners view)
  (hram : RamBacked view hostMapping)
include hinv hpos howners hram

/-- **One pass of `FlatView::read`.** From the top of a pass, going round again
keeps the invariant and lowers the bytes left; leaving the loop with success
means the read was all mapped and `dst` has its bytes; leaving it with an error
means it was not, and `dst` has the bytes before the first unmapped address,
which the error names. -/
theorem readStep_inv {addr count : Nat} {s : AccessState}
    (hs : ReadInv view hostMapping host ops addr count s) :
    (∀ t, flatViewAccessStep view (Region.readAccess hostMapping host ops) s = .next t →
        ReadInv view hostMapping host ops addr count t ∧ t.len < s.len) ∧
      (∀ t, flatViewAccessStep view (Region.readAccess hostMapping host ops) s = .exit t →
        ReadOk (guestByte view hostMapping host) addr count ∧
          dstBytes hostMapping host ops t.calls = prefixBytes (guestByte view hostMapping host) addr count) ∧
      (∀ e t, flatViewAccessStep view (Region.readAccess hostMapping host ops) s = .fail e t →
        ¬ ReadOk (guestByte view hostMapping host) addr count ∧
          e = .msg regionNotFoundText [addr + (prefixBytes (guestByte view hostMapping host) addr count).length] ∧
          dstBytes hostMapping host ops t.calls = prefixBytes (guestByte view hostMapping host) addr count) := by
  -- `k` bytes are done, `s.len` are left
  obtain ⟨hl, hle, hpos', hstart, hmapped, hbytes⟩ := hs
  have hcount : count = (count - s.len) + s.len := by omega
  have hlen_done : (prefixBytes (guestByte view hostMapping host) addr (count - s.len)).length =
      count - s.len := length_prefixBytes_of_mapped hmapped
  unfold flatViewAccessStep
  split
  · -- no range holds `start`: the read stops at the first unmapped address
    rename_i hnone
    have hgap : guestByte view hostMapping host (addr + (count - s.len)) = none := by
      rw [← hstart]
      exact guestByte_of_find_none hinv hpos hnone
    have hupto : prefixBytes (guestByte view hostMapping host) addr count =
        prefixBytes (guestByte view hostMapping host) addr (count - s.len) := by
      rw [hcount, prefixBytes_add _ hmapped, prefixBytes_of_none hgap, List.append_nil, ← hcount]
    refine ⟨fun t h => (nomatch h), fun t h => (nomatch h), fun e t h => ?_⟩
    cases h
    refine ⟨fun hok => ?_, ?_, ?_⟩
    · have hk : count - s.len < max count 1 := by omega
      have hsome := hok _ hk
      rw [hgap] at hsome
      exact absurd hsome (by simp)
    · rw [hupto, hlen_done, hstart]
      rfl
    · rw [hupto]
      exact hbytes
  · rename_i fr hfr
    obtain ⟨hmem, hin⟩ := (findFlatrange_eq_some_iff hinv hpos s.start fr).1 hfr
    obtain ⟨h, hh, hc, hread⟩ := @read_dispatchAt view hostMapping host ops howners hram fr s.start s.l
      hmem hin
    have hin' := hin
    unfold FlatRange.contains at hin'
    have hbound := hinv.bounded fr hmem
    -- the call reads the next `c` bytes of flat memory
    have hnew : (List.range (dispatchAt fr s.start s.l).count).map (fun i =>
          host (h + (fr.offsetInRegion + (s.start + i - fr.addrRange.base)))) =
        prefixBytes (guestByte view hostMapping host) (addr + (count - s.len)) (dispatchAt fr s.start s.l).count := by
      refine (prefixBytes_of_mapped fun i hi => ?_).symm
      rw [← hstart]
      exact guestByte_of_mem hinv hpos hmem ⟨by omega, by omega⟩ hh
    have hmapped' : ∀ i, i < (count - s.len) + (dispatchAt fr s.start s.l).count →
        (guestByte view hostMapping host (addr + i)).isSome := by
      intro i hi
      by_cases hik : i < count - s.len
      · exact hmapped i hik
      · rw [guestByte_of_mem hinv hpos hmem ⟨by omega, by omega⟩ hh]
        rfl
    have hbytes' : dstBytes hostMapping host ops (s.calls ++ [dispatchAt fr s.start s.l]) =
        prefixBytes (guestByte view hostMapping host) addr ((count - s.len) + (dispatchAt fr s.start s.l).count) := by
      have hrange : (dispatchAt fr s.start s.l).range = fr := rfl
      rw [dstBytes_append_singleton, hbytes, hrange, hread, prefixBytes_add _ hmapped, ← hnew]
      rfl
    have haccess : Region.readAccess hostMapping host ops fr.owner (dispatchAt fr s.start s.l).regionBase
        (dispatchAt fr s.start s.l).regionOffset (dispatchAt fr s.start s.l).count = .ok () := by
      rw [Region.readAccess, hread]
      rfl
    dsimp only
    rw [haccess]
    dsimp only
    split
    · -- nothing left: the read is done, and all of it was mapped
      rename_i hzero
      refine ⟨fun t hstep => (nomatch hstep), fun t hstep => ?_, fun e t hstep => (nomatch hstep)⟩
      cases hstep
      have hdone : (count - s.len) + (dispatchAt fr s.start s.l).count = count := by omega
      refine ⟨fun i hi => ?_, by rw [hbytes', hdone]⟩
      by_cases hc0 : count = 0
      · -- a read of no bytes looked `addr` up
        have hi0 : i = 0 := by omega
        rw [hi0, show addr + 0 = s.start by omega, guestByte_of_mem hinv hpos hmem hin hh]
        rfl
      · exact hmapped' i (by omega)
    · -- bytes are left: the next pass starts where this call ended
      rename_i hleft
      refine ⟨fun t hstep => ?_, fun t hstep => (nomatch hstep), fun e t hstep => (nomatch hstep)⟩
      cases hstep
      have hcpos : 0 < (dispatchAt fr s.start s.l).count := by rw [hc]; omega
      have hcle : (dispatchAt fr s.start s.l).count ≤ s.len := by rw [hc, hl]; omega
      have hwrap : wrapAdd s.start (dispatchAt fr s.start s.l).count = s.start + (dispatchAt fr s.start s.l).count :=
        wrapAdd_of_lt (by rw [hc]; omega)
      have hdone : count - (s.len - (dispatchAt fr s.start s.l).count) =
          (count - s.len) + (dispatchAt fr s.start s.l).count := by omega
      refine ⟨⟨rfl, ?_, ?_, ?_, ?_, ?_⟩, ?_⟩
      all_goals dsimp only
      · omega
      · omega
      · rw [hwrap]
        omega
      · rw [hdone]
        exact hmapped'
      · rw [hbytes', hdone]
      · omega

/-- **Reading through the view is reading flat memory.** With enough fuel,
`FlatView::read` of `count` bytes from `addr` ends; `dst` then holds the bytes
of flat memory from `addr` up to `count` or up to the first address no range
maps, and the read succeeds exactly when there is no such address before
`count` (for `count = 0`, when `addr` is mapped), failing otherwise with that
address in its error. -/
theorem readBytes_eq_flatRead (addr : Nat) {count fuel : Nat} (hfuel : count < fuel) :
    FlatView.readBytes view hostMapping host ops addr count fuel =
      some (if ReadOk (guestByte view hostMapping host) addr count then .ok ()
          else .error (.msg regionNotFoundText
            [addr + (prefixBytes (guestByte view hostMapping host) addr count).length]),
        prefixBytes (guestByte view hostMapping host) addr count) := by
  -- the variant is the bytes left, which every pass lowers
  have hinit : ReadInv view hostMapping host ops addr count ⟨addr, count, count, []⟩ :=
    ⟨rfl, le_refl _, by dsimp only; omega, by simp, fun i hi => by dsimp only at hi; omega,
      by simp [dstBytes, prefixBytes]⟩
  obtain ⟨r, hrun, hexit, hfail⟩ := Loop.runFor_of_variant (ReadInv view hostMapping host ops addr count)
    AccessState.len (fun _ t hs h => (readStep_inv hinv hpos howners hram hs).1 t h) fuel _ hinit hfuel
  unfold FlatView.readBytes FlatView.read flatViewAccess
  rw [hrun]
  cases r with
  | exit t =>
    obtain ⟨u, hu, hb⟩ := hexit t rfl
    obtain ⟨hok, hbytes⟩ := (readStep_inv hinv hpos howners hram hu).2.1 t hb
    rw [if_pos hok]
    exact congrArg some (Prod.ext rfl hbytes)
  | fail e t =>
    obtain ⟨u, hu, hb⟩ := hfail e t rfl
    obtain ⟨hok, he, hbytes⟩ := (readStep_inv hinv hpos howners hram hu).2.2 e t hb
    rw [if_neg hok, ← he]
    exact congrArg some (Prod.ext rfl hbytes)

end Run

/-- A page of RAM at guest address 0, mapped at host address `8192`, and a read
of 200 bytes from `4000` that runs off its end. -/
theorem readBytes_eq_flatRead_page_end :
    FlatView.readBytes (singleRamView (Region.initRamRegion 4096)) (fun _ => some 8192)
        (fun a => UInt8.ofNat a) ⟨fun _ _ _ _ => none, fun _ _ _ _ => false, fun _ => none⟩ 4000 200 201 =
      some (if ReadOk (guestByte (singleRamView (Region.initRamRegion 4096)) (fun _ => some 8192)
            (fun a => UInt8.ofNat a)) 4000 200 then .ok ()
          else .error (.msg regionNotFoundText [4000 + (prefixBytes (guestByte
            (singleRamView (Region.initRamRegion 4096)) (fun _ => some 8192) (fun a => UInt8.ofNat a))
              4000 200).length]),
        prefixBytes (guestByte (singleRamView (Region.initRamRegion 4096)) (fun _ => some 8192)
          (fun a => UInt8.ofNat a)) 4000 200) :=
  readBytes_eq_flatRead (singleRamView_inv (by decide)) (singleRamView_positive (by decide))
    (singleRamView_inOwners (by decide)) (singleRamView_ramBacked rfl rfl (by decide)) 4000 (by decide)

/-- **The device proofs' memory is the flat view's.** On a view of one RAM
region from guest address 0, mapped at host address `h`, `FlatView::read`
leaves in `dst` what `GuestRam.read` returns of the memory whose byte at `a` is
the host's at `h + a`, and succeeds exactly when `GuestRam.read` reports all
bytes read. -/
theorem readBytes_single_ram (owner : Region) {h : Nat} (htype : owner.regionType = .ram)
    (hpos : 0 < owner.size) (hsize : owner.size < U64_MOD) (hh : hostMapping owner = some h)
    (hfit : h + owner.size ≤ U64_MOD) (addr : Nat) {count fuel : Nat} (hfuel : count < fuel) :
    ∃ res, FlatView.readBytes (singleRamView owner) hostMapping host ops addr count fuel =
        some (res, (GuestRam.read ⟨owner.size, fun a => host (h + a)⟩ addr count).1) ∧
      (res = .ok () ↔ (GuestRam.read ⟨owner.size, fun a => host (h + a)⟩ addr count).2 = true) := by
  have hinv := singleRamView_inv hsize
  have hposv := singleRamView_positive hpos
  have howners := singleRamView_inOwners hsize
  have hram := singleRamView_ramBacked htype hh hfit
  have hm : ∀ a, guestByte (singleRamView owner) hostMapping host a =
      if a < owner.size then some (host (h + a)) else none := guestByte_singleRamView hh
  rw [readBytes_eq_flatRead hinv hposv howners hram addr hfuel, prefixBytes_window hm addr count]
  refine ⟨_, rfl, ?_⟩
  rw [GuestRam.read_ok_iff]
  dsimp only
  rw [← readOk_window hm addr count]
  split
  · rename_i hok
    exact iff_of_true rfl hok
  · rename_i hok
    exact iff_of_false (by simp) hok

/-- The page of RAM again, as `GuestRam`. -/
theorem readBytes_single_ram_page :
    ∃ res, FlatView.readBytes (singleRamView (Region.initRamRegion 4096)) (fun _ => some 8192)
        (fun a => UInt8.ofNat a) ⟨fun _ _ _ _ => none, fun _ _ _ _ => false, fun _ => none⟩ 4000 200 201 =
        some (res, (GuestRam.read ⟨(Region.initRamRegion 4096).size,
          fun a => UInt8.ofNat (8192 + a)⟩ 4000 200).1) ∧
      (res = .ok () ↔ (GuestRam.read ⟨(Region.initRamRegion 4096).size,
        fun a => UInt8.ofNat (8192 + a)⟩ 4000 200).2 = true) :=
  readBytes_single_ram (Region.initRamRegion 4096) rfl (by decide) (by decide) rfl (by decide) 4000
    (by decide)

end Read

/-! ## Writing through the view -/

section FlatWrite

variable {m : Nat → Option UInt8} {addr : Nat} {src : List UInt8}

theorem flatWrite_of_window {k c a : Nat} (ha : addr + k ≤ a ∧ a < addr + k + c) :
    flatWrite m addr src (k + c) a = src[a - addr]? := by
  unfold flatWrite
  rw [if_pos (by omega)]

theorem flatWrite_of_not_window {k c a : Nat} (ha : ¬ (addr + k ≤ a ∧ a < addr + k + c)) :
    flatWrite m addr src (k + c) a = flatWrite m addr src k a := by
  unfold flatWrite
  by_cases hk : addr ≤ a ∧ a < addr + k
  · rw [if_pos (by omega), if_pos hk]
  · rw [if_neg (by omega), if_neg hk]

end FlatWrite

/-- What holds at the top of every pass of `FlatView::write(src, addr,
count)` from host memory `host0`, with `count - len` bytes done: the loop's
variables as for a read, `src` has lost the bytes done, and flat memory is the
old one with those bytes written. -/
structure WriteInv (view : List FlatRange) (hostMapping : Region → Option Nat) (host0 : Nat → UInt8)
    (src0 : List UInt8) (addr count : Nat) (s : WriteState) : Prop where
  l_eq : s.l = s.len
  le : s.len ≤ count
  pos : 0 < s.len ∨ count = 0
  start_eq : s.start = addr + (count - s.len)
  mapped : ∀ i, i < count - s.len → (guestByte view hostMapping host0 (addr + i)).isSome
  src_eq : s.src = src0.drop (count - s.len)
  mem : ∀ a, guestByte view hostMapping s.host a =
    flatWrite (guestByte view hostMapping host0) addr src0 (count - s.len) a

section Write

variable {view : List FlatRange} {hostMapping : Region → Option Nat} {ops : DeviceOps}

/-- **Writing host memory, seen from the guest.** Bytes written to the host
mapping of guest addresses `[start, start + n)` of one range change flat memory
there and, with no aliases, nowhere else. -/
theorem guestByte_hostWrite (hinv : FlatViewInv view) (hpos : Positive view)
    (hnoalias : NoAlias view hostMapping) {host : Nat → UInt8} {fr : FlatRange} {start h : Nat}
    (hmem : fr ∈ view) (hin : fr.contains start) (hh : hostMapping fr.owner = some h)
    {data : List UInt8} (hlen : start + data.length ≤ fr.addrRange.base + fr.addrRange.size) (a : Nat) :
    guestByte view hostMapping (hostWrite host (h + (fr.offsetInRegion + (start - fr.addrRange.base))) data) a =
      if start ≤ a ∧ a < start + data.length then data[a - start]? else guestByte view hostMapping host a := by
  have hin' := hin
  unfold FlatRange.contains at hin'
  obtain ⟨W, hW⟩ : ∃ W, W = h + (fr.offsetInRegion + (start - fr.addrRange.base)) := ⟨_, rfl⟩
  rw [← hW]
  -- the guest bytes the data covers stand for the host bytes it is written to
  have hwin : ∀ b, start ≤ b → b < start + data.length → hostAddrOf view hostMapping b = some (W + (b - start)) := by
    intro b hb1 hb2
    rw [hostAddrOf_of_mem hinv hpos hmem ⟨by omega, by omega⟩ hh, hW]
    congr 1
    omega
  split
  · rename_i ha
    rw [guestByte, hwin a ha.1 ha.2, Option.map_some, hostWrite, if_pos (by omega),
      show W + (a - start) - W = a - start by omega, List.getD_eq_getElem?_getD,
      List.getElem?_eq_getElem (by omega), Option.getD_some]
  · rename_i ha
    unfold guestByte
    cases hx : hostAddrOf view hostMapping a with
    | none => rfl
    | some x =>
      rw [Option.map_some, Option.map_some, hostWrite, if_neg]
      -- a host byte of the window stands only for the guest byte written there
      rintro ⟨hx1, hx2⟩
      have hb := hwin (start + (x - W)) (by omega) (by omega)
      rw [show W + (start + (x - W) - start) = x by omega] at hb
      have heq := hnoalias a _ x hx hb
      omega

section Run

variable (hinv : FlatViewInv view) (hpos : Positive view) (howners : InOwners view)
  (hram : RamBacked view hostMapping) (hnoalias : NoAlias view hostMapping)
include hinv hpos howners hram hnoalias

/-- **One pass of `FlatView::write`.** From the top of a pass, going round
again keeps the invariant and lowers the bytes left; leaving the loop with
success means the write was all mapped, and flat memory has all `count` bytes
of `src`; leaving it with an error means it was not, and flat memory has the
bytes before the first unmapped address, which the error names. -/
theorem writeStep_inv {host0 : Nat → UInt8} {src0 : List UInt8} {addr count : Nat} {s : WriteState}
    (hsrc : count ≤ src0.length) (hs : WriteInv view hostMapping host0 src0 addr count s) :
    (∀ t, flatViewWriteStep view hostMapping ops s = .next t →
        WriteInv view hostMapping host0 src0 addr count t ∧ t.len < s.len) ∧
      (∀ t, flatViewWriteStep view hostMapping ops s = .exit t →
        ReadOk (guestByte view hostMapping host0) addr count ∧ t.src = src0.drop count ∧
          ∀ a, guestByte view hostMapping t.host a = flatWrite (guestByte view hostMapping host0) addr src0 count a) ∧
      (∀ e t, flatViewWriteStep view hostMapping ops s = .fail e t →
        ¬ ReadOk (guestByte view hostMapping host0) addr count ∧
          e = .msg regionNotFoundText [addr + (prefixBytes (guestByte view hostMapping host0) addr count).length] ∧
          t.src = src0.drop (prefixBytes (guestByte view hostMapping host0) addr count).length ∧
          ∀ a, guestByte view hostMapping t.host a = flatWrite (guestByte view hostMapping host0) addr src0
            (prefixBytes (guestByte view hostMapping host0) addr count).length a) := by
  obtain ⟨hl, hle, hpos', hstart, hmapped, hsrc_eq, hmemory⟩ := hs
  have hcount : count = (count - s.len) + s.len := by omega
  have hlen_done : (prefixBytes (guestByte view hostMapping host0) addr (count - s.len)).length =
      count - s.len := length_prefixBytes_of_mapped hmapped
  unfold flatViewWriteStep
  split
  · -- no range holds `start`: the write stops at the first unmapped address
    rename_i hnone
    have hgap : guestByte view hostMapping host0 (addr + (count - s.len)) = none := by
      rw [← hstart]
      exact guestByte_of_find_none hinv hpos hnone
    have hupto : (prefixBytes (guestByte view hostMapping host0) addr count).length = count - s.len := by
      rw [hcount, prefixBytes_add _ hmapped, prefixBytes_of_none hgap, List.append_nil, ← hcount, hlen_done]
    refine ⟨fun t hstep => (nomatch hstep), fun t hstep => (nomatch hstep), fun e t hstep => ?_⟩
    cases hstep
    refine ⟨fun hok => ?_, ?_, ?_, ?_⟩
    · have hk : count - s.len < max count 1 := by omega
      have hsome := hok _ hk
      rw [hgap] at hsome
      exact absurd hsome (by simp)
    · rw [hupto, hstart]
    · rw [hupto]
      exact hsrc_eq
    · rw [hupto]
      exact hmemory
  · rename_i fr hfr
    obtain ⟨hmem, hin⟩ := (findFlatrange_eq_some_iff hinv hpos s.start fr).1 hfr
    have hin' := hin
    unfold FlatRange.contains at hin'
    have hbound := hinv.bounded fr hmem
    have hsrc_len : s.src.length = src0.length - (count - s.len) := by rw [hsrc_eq, List.length_drop]
    obtain ⟨h, hh, hc, hwrite⟩ := @write_dispatchAt view hostMapping s.host ops howners hram fr s.start s.l
      hmem hin s.src (by rw [hsrc_len, hl]; omega)
    have hcle : (dispatchAt fr s.start s.l).count ≤ s.len := by rw [hc, hl]; omega
    have htake : (s.src.take (dispatchAt fr s.start s.l).count).length = (dispatchAt fr s.start s.l).count := by
      rw [List.length_take, hsrc_len]
      omega
    -- flat memory after the call: the call's bytes written over the bytes done
    have hmemory' : ∀ a, guestByte view hostMapping (hostWrite s.host
          (h + (fr.offsetInRegion + (s.start - fr.addrRange.base))) (s.src.take (dispatchAt fr s.start s.l).count)) a =
        flatWrite (guestByte view hostMapping host0) addr src0 ((count - s.len) + (dispatchAt fr s.start s.l).count) a := by
      intro a
      rw [guestByte_hostWrite hinv hpos hnoalias hmem hin hh (by rw [htake, hc]; omega), htake]
      split
      · rename_i ha
        rw [flatWrite_of_window (by omega), List.getElem?_take_of_lt (by omega), hsrc_eq,
          List.getElem?_drop]
        congr 1
        omega
      · rename_i ha
        rw [flatWrite_of_not_window (by omega)]
        exact hmemory a
    have hmapped' : ∀ i, i < (count - s.len) + (dispatchAt fr s.start s.l).count →
        (guestByte view hostMapping host0 (addr + i)).isSome := by
      intro i hi
      by_cases hik : i < count - s.len
      · exact hmapped i hik
      · rw [guestByte_of_mem hinv hpos hmem ⟨by omega, by omega⟩ hh]
        rfl
    have hsrc' : s.src.drop (dispatchAt fr s.start s.l).count =
        src0.drop ((count - s.len) + (dispatchAt fr s.start s.l).count) := by
      rw [hsrc_eq, List.drop_drop]
    dsimp only
    rw [hwrite]
    dsimp only
    split
    · -- nothing left: the write is done, and all of it was mapped
      rename_i hzero
      refine ⟨fun t hstep => (nomatch hstep), fun t hstep => ?_, fun e t hstep => (nomatch hstep)⟩
      cases hstep
      have hdone : (count - s.len) + (dispatchAt fr s.start s.l).count = count := by omega
      refine ⟨fun i hi => ?_, by dsimp only; rw [hsrc', hdone], fun a => by dsimp only; rw [hmemory', hdone]⟩
      by_cases hc0 : count = 0
      · -- a write of no bytes looked `addr` up
        have hi0 : i = 0 := by omega
        rw [hi0, show addr + 0 = s.start by omega, guestByte_of_mem hinv hpos hmem hin hh]
        rfl
      · exact hmapped' i (by omega)
    · -- bytes are left: the next pass starts where this call ended
      rename_i hleft
      refine ⟨fun t hstep => ?_, fun t hstep => (nomatch hstep), fun e t hstep => (nomatch hstep)⟩
      cases hstep
      have hcpos : 0 < (dispatchAt fr s.start s.l).count := by rw [hc]; omega
      have hwrap : wrapAdd s.start (dispatchAt fr s.start s.l).count = s.start + (dispatchAt fr s.start s.l).count :=
        wrapAdd_of_lt (by rw [hc]; omega)
      have hdone : count - (s.len - (dispatchAt fr s.start s.l).count) =
          (count - s.len) + (dispatchAt fr s.start s.l).count := by omega
      refine ⟨⟨rfl, ?_, ?_, ?_, ?_, ?_, ?_⟩, ?_⟩
      all_goals dsimp only
      · omega
      · omega
      · rw [hwrap]
        omega
      · rw [hdone]
        exact hmapped'
      · rw [hdone]
        exact hsrc'
      · rw [hdone]
        exact hmemory'
      · omega

/-- **Writing through the view is writing flat memory.** With enough fuel and
`count` bytes in `src`, `FlatView::write` of `count` bytes to `addr` ends; flat
memory then has the bytes of `src` from `addr` up to `count` or up to the first
address no range maps, and is unchanged elsewhere; `src` has lost those bytes;
and the write succeeds exactly when no address before `count` is unmapped (for
`count = 0`, when `addr` is mapped), failing otherwise with that address in its
error. -/
theorem writeData_eq_flatWrite (host : Nat → UInt8) {src : List UInt8} (addr : Nat) {count fuel : Nat}
    (hsrc : count ≤ src.length) (hfuel : count < fuel) :
    ∃ host', FlatView.writeData view hostMapping ops host src addr count fuel =
        some (if ReadOk (guestByte view hostMapping host) addr count then .ok ()
            else .error (.msg regionNotFoundText
              [addr + (prefixBytes (guestByte view hostMapping host) addr count).length]),
          host', src.drop (prefixBytes (guestByte view hostMapping host) addr count).length) ∧
      ∀ a, guestByte view hostMapping host' a = flatWrite (guestByte view hostMapping host) addr src
        (prefixBytes (guestByte view hostMapping host) addr count).length a := by
  have hinit : WriteInv view hostMapping host src addr count ⟨addr, count, count, host, src⟩ :=
    ⟨rfl, le_refl _, by dsimp only; omega, by simp, fun i hi => by dsimp only at hi; omega,
      by simp, fun a => by simp [flatWrite]⟩
  obtain ⟨r, hrun, hexit, hfail⟩ := Loop.runFor_of_variant (WriteInv view hostMapping host src addr count)
    WriteState.len (fun _ t hs h => (writeStep_inv hinv hpos howners hram hnoalias hsrc hs).1 t h) fuel _ hinit hfuel
  unfold FlatView.writeData
  rw [hrun]
  cases r with
  | exit t =>
    obtain ⟨u, hu, hb⟩ := hexit t rfl
    obtain ⟨hok, hsrc', hmem⟩ := (writeStep_inv hinv hpos howners hram hnoalias hsrc hu).2.1 t hb
    -- all `count` bytes were mapped
    have hn : (prefixBytes (guestByte view hostMapping host) addr count).length = count :=
      length_prefixBytes_of_mapped fun i hi => hok i (by omega)
    refine ⟨t.host, ?_, ?_⟩
    · rw [if_pos hok, hn, ← hsrc']
      rfl
    · rw [hn]
      exact hmem
  | fail e t =>
    obtain ⟨u, hu, hb⟩ := hfail e t rfl
    obtain ⟨hok, he, hsrc', hmem⟩ := (writeStep_inv hinv hpos howners hram hnoalias hsrc hu).2.2 e t hb
    refine ⟨t.host, ?_, hmem⟩
    rw [if_neg hok, ← he, ← hsrc']
    rfl

end Run

/-- A write of 200 bytes from `4000` to the page of RAM, which runs off its
end. -/
theorem writeData_eq_flatWrite_page_end :
    ∃ host', FlatView.writeData (singleRamView (Region.initRamRegion 4096)) (fun _ => some 8192)
        ⟨fun _ _ _ _ => none, fun _ _ _ _ => false, fun _ => none⟩ (fun _ => 0) (List.replicate 200 7)
        4000 200 201 =
        some (if ReadOk (guestByte (singleRamView (Region.initRamRegion 4096)) (fun _ => some 8192)
              (fun _ => 0)) 4000 200 then .ok ()
            else .error (.msg regionNotFoundText [4000 + (prefixBytes (guestByte
              (singleRamView (Region.initRamRegion 4096)) (fun _ => some 8192) (fun _ => 0)) 4000 200).length]),
          host', (List.replicate 200 7).drop (prefixBytes (guestByte (singleRamView (Region.initRamRegion 4096))
            (fun _ => some 8192) (fun _ => 0)) 4000 200).length) ∧
      ∀ a, guestByte (singleRamView (Region.initRamRegion 4096)) (fun _ => some 8192) host' a =
        flatWrite (guestByte (singleRamView (Region.initRamRegion 4096)) (fun _ => some 8192) (fun _ => 0))
          4000 (List.replicate 200 7) (prefixBytes (guestByte (singleRamView (Region.initRamRegion 4096))
            (fun _ => some 8192) (fun _ => 0)) 4000 200).length a :=
  writeData_eq_flatWrite (singleRamView_inv (by decide)) (singleRamView_positive (by decide))
    (singleRamView_inOwners (by decide)) (singleRamView_ramBacked rfl rfl (by decide))
    (singleRamView_noAlias rfl) (fun _ => 0) 4000 List.length_replicate.ge (by decide)

/-- **The device proofs' writes are the flat view's.** On a view of one RAM
region from guest address 0, mapped at host address `h`, `FlatView::write`
does to the mapping what `GuestRam.write` does to the memory whose byte at `a`
is the host's at `h + a`, takes from `src` the bytes `GuestRam.write` writes,
and succeeds exactly when `GuestRam.write` reports all bytes written. -/
theorem writeData_single_ram (owner : Region) {h : Nat} (htype : owner.regionType = .ram)
    (hpos : 0 < owner.size) (hsize : owner.size < U64_MOD) (hh : hostMapping owner = some h)
    (hfit : h + owner.size ≤ U64_MOD) (host : Nat → UInt8) {src : List UInt8} (addr : Nat)
    {count fuel : Nat} (hsrc : count ≤ src.length) (hfuel : count < fuel) :
    ∃ res host', FlatView.writeData (singleRamView owner) hostMapping ops host src addr count fuel =
        some (res, host', src.drop (min count (owner.size - addr))) ∧
      (res = .ok () ↔ (GuestRam.write ⟨owner.size, fun a => host (h + a)⟩ addr src count).2 = true) ∧
      ∀ a, a < owner.size →
        host' (h + a) = (GuestRam.write ⟨owner.size, fun a => host (h + a)⟩ addr src count).1.bytes a := by
  have hm : ∀ a, guestByte (singleRamView owner) hostMapping host a =
      if a < owner.size then some (host (h + a)) else none := guestByte_singleRamView hh
  -- the bytes written are those below the region's end
  have hn : (prefixBytes (guestByte (singleRamView owner) hostMapping host) addr count).length =
      min count (owner.size - addr) := by
    rw [prefixBytes_window hm, List.length_map, List.length_range]
  obtain ⟨host', hrun, hmem⟩ := @writeData_eq_flatWrite (singleRamView owner) hostMapping ops
    (singleRamView_inv hsize) (singleRamView_positive hpos) (singleRamView_inOwners hsize)
    (singleRamView_ramBacked htype hh hfit) (singleRamView_noAlias hh) host src addr count fuel hsrc hfuel
  rw [hn] at hrun hmem
  refine ⟨_, host', hrun, ?_, fun a ha => ?_⟩
  · rw [GuestRam.write_ok_iff, ← readOk_window hm addr count]
    split
    · rename_i hok
      exact iff_of_true rfl hok
    · rename_i hok
      exact iff_of_false (by simp) hok
  · have hbyte := hmem a
    rw [guestByte_singleRamView hh, if_pos ha, flatWrite, hm, if_pos ha] at hbyte
    simp only [GuestRam.write]
    split
    · rename_i hw
      rw [if_pos hw, List.getElem?_eq_getElem (by omega), Option.some.injEq] at hbyte
      rw [hbyte, List.getElem?_eq_getElem (by omega), Option.getD_some]
    · rename_i hw
      rw [if_neg hw, Option.some.injEq] at hbyte
      exact hbyte

/-- The page of RAM again, written as `GuestRam`. -/
theorem writeData_single_ram_page :
    ∃ res host', FlatView.writeData (singleRamView (Region.initRamRegion 4096)) (fun _ => some 8192)
        ⟨fun _ _ _ _ => none, fun _ _ _ _ => false, fun _ => none⟩ (fun _ => 0) (List.replicate 200 7)
        4000 200 201 =
        some (res, host', (List.replicate 200 7).drop (min 200 ((Region.initRamRegion 4096).size - 4000))) ∧
      (res = .ok () ↔ (GuestRam.write ⟨(Region.initRamRegion 4096).size, fun _ => 0⟩ 4000
        (List.replicate 200 7) 200).2 = true) ∧
      ∀ a, a < (Region.initRamRegion 4096).size →
        host' (8192 + a) = (GuestRam.write ⟨(Region.initRamRegion 4096).size, fun _ => 0⟩ 4000
          (List.replicate 200 7) 200).1.bytes a :=
  writeData_single_ram (Region.initRamRegion 4096) rfl (by decide) (by decide) rfl (by decide) (fun _ => 0)
    4000 List.length_replicate.ge (by decide)

end Write

end StratoVirt.AddressSpace
