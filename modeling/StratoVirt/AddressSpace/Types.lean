import Mathlib

/-!
# Guest addresses, address ranges and region caches

`address_space/src/address.rs` and `address_space.rs` describe guest memory
with `u64` addresses. `GuestAddress::unchecked_add`/`unchecked_sub` are plain
`+`/`-` on `u64`; the release profile does not check overflow, so they wrap,
and that is how they are modelled (`wrapAdd`, `wrapSub`). `AddressRange` is a
base and a size; `find_intersection` computes in `u128`, where nothing wraps,
and only narrows the size back to `u64` at the end.

`RegionType` and `RegionCache` are shared by the flat-view renderer and by the
virtqueue code, which keeps one `RegionCache` to skip repeated flat-view
lookups for descriptors in the same RAM region.
-/

namespace StratoVirt.AddressSpace

/-- `2^64`, the modulus of `u64` arithmetic. -/
def U64_MOD : Nat := 2 ^ 64

/-- `GuestAddress::unchecked_add` in the release build: wrapping `u64` addition. -/
def wrapAdd (a b : Nat) : Nat := (a + b) % U64_MOD

/-- `GuestAddress::unchecked_sub` in the release build: wrapping `u64` subtraction. -/
def wrapSub (a b : Nat) : Nat := (a + U64_MOD - b % U64_MOD) % U64_MOD

/-- Below the modulus, wrapping addition is addition. -/
theorem wrapAdd_of_lt {a b : Nat} (h : a + b < U64_MOD) : wrapAdd a b = a + b :=
  Nat.mod_eq_of_lt h

/-- Wrapping subtraction of a smaller value is subtraction. -/
theorem wrapSub_of_le {a b : Nat} (ha : a < U64_MOD) (hb : b ≤ a) : wrapSub a b = a - b := by
  unfold wrapSub
  rw [Nat.mod_eq_of_lt (by omega : b < U64_MOD),
    show a + U64_MOD - b = (a - b) + U64_MOD by omega, Nat.add_mod_right,
    Nat.mod_eq_of_lt (by omega)]

/-- `u64::checked_add`: `none` when the sum does not fit in 64 bits. -/
def checkedAdd64 (a b : Nat) : Option Nat :=
  if a + b < U64_MOD then some (a + b) else none

theorem checkedAdd64_eq_some {a b c : Nat} :
    checkedAdd64 a b = some c ↔ a + b < U64_MOD ∧ c = a + b := by
  unfold checkedAdd64
  split
  · simp_all [eq_comm]
  · simp only [reduceCtorEq, false_iff, not_and]
    omega

/-- The type of a memory region (`RegionType`). -/
inductive RegionType where
  | ram
  | io
  | container
  | alias
  | romDevice
  | ramDevice
  deriving Repr, DecidableEq

/-- `RegionCache`: the host mapping of one flat range, `[start, end)` in guest
addresses, starting at host address `hostBase`. -/
structure RegionCache where
  regType : RegionType
  hostBase : Nat
  start : Nat
  stop : Nat
  deriving Repr, DecidableEq

/-- `AddressRange`: `size` bytes from `base`. -/
structure AddressRange where
  base : Nat
  size : Nat
  deriving Repr, DecidableEq

namespace AddressRange

/-- `AddressRange::end_addr` — `base.unchecked_add(size)`. -/
def endAddr (r : AddressRange) : Nat := wrapAdd r.base r.size

/-- `AddressRange::find_intersection`: the overlap of two ranges, computed in
`u128` and narrowed back to `u64`; `none` when they do not overlap. -/
def findIntersection (r other : AddressRange) : Option AddressRange :=
  let begin := r.base
  let rEnd := r.size + begin
  let otherBegin := other.base
  let otherEnd := other.size + otherBegin
  if rEnd ≤ otherBegin ∨ otherEnd ≤ begin then none
  else
    let start := max r.base other.base
    some ⟨start, (min rEnd otherEnd - start) % U64_MOD⟩

/-- A range that does not reach `2^64` ends where the sum says. -/
theorem endAddr_eq {r : AddressRange} (h : r.base + r.size < U64_MOD) :
    r.endAddr = r.base + r.size :=
  wrapAdd_of_lt h

/-- What `find_intersection` returns when it finds one. -/
theorem findIntersection_eq_some {r other i : AddressRange}
    (h : r.findIntersection other = some i) :
    other.base < r.size + r.base ∧ r.base < other.size + other.base ∧
      i = ⟨max r.base other.base,
        (min (r.size + r.base) (other.size + other.base) - max r.base other.base) % U64_MOD⟩ := by
  dsimp only [findIntersection] at h
  split at h
  · cases h
  · rename_i hne
    cases h
    exact ⟨by omega, by omega, rfl⟩

/-- `find_intersection` finds nothing exactly when one range ends before the
other begins. -/
theorem findIntersection_eq_none_iff {r other : AddressRange} :
    r.findIntersection other = none ↔
      r.size + r.base ≤ other.base ∨ other.size + other.base ≤ r.base := by
  dsimp only [findIntersection]
  split
  · rename_i h
    exact ⟨fun _ => h, fun _ => rfl⟩
  · rename_i h
    exact ⟨(fun h' => nomatch h'), fun h' => absurd h' h⟩

/-- The intersection lies inside `other`, when `other` does not reach `2^64`. -/
theorem findIntersection_within {r other i : AddressRange}
    (h : r.findIntersection other = some i) (ho : other.base + other.size < U64_MOD) :
    other.base ≤ i.base ∧ i.base + i.size ≤ other.base + other.size := by
  obtain ⟨h1, h2, rfl⟩ := findIntersection_eq_some h
  rw [Nat.mod_eq_of_lt (by omega)]
  constructor <;> simp only <;> omega

/-- The intersection lies inside `r` too, wherever `r` ends: `find_intersection`
adds in `u128`. -/
theorem findIntersection_within_self {r other i : AddressRange}
    (h : r.findIntersection other = some i) (ho : other.base + other.size < U64_MOD) :
    r.base ≤ i.base ∧ i.base + i.size ≤ r.base + r.size := by
  obtain ⟨h1, h2, rfl⟩ := findIntersection_eq_some h
  rw [Nat.mod_eq_of_lt (by omega)]
  constructor <;> simp only <;> omega

/-- Two ranges of positive size meet in a range of positive size. -/
theorem findIntersection_pos {r other i : AddressRange}
    (h : r.findIntersection other = some i) (ho : other.base + other.size < U64_MOD)
    (hr : 0 < r.size) (hother : 0 < other.size) : 0 < i.size := by
  obtain ⟨h1, h2, rfl⟩ := findIntersection_eq_some h
  rw [Nat.mod_eq_of_lt (by omega)]
  simp only
  omega

end AddressRange

end StratoVirt.AddressSpace
