import Mathlib
import StratoVirt.AddressSpace.Topology
import StratoVirt.Lib.BinarySearch
import StratoVirt.Lib.Loop
import StratoVirt.Util.Iov

/-!
# Reaching guest memory through the flat view

`src/address_space/src/address_space.rs` looks guest addresses up in the
flat view and splits an access at range boundaries:

* `FlatView::find_flatrange` binary-searches the ranges by base; an `Err(x)`
  takes the range before the insertion point when it still covers the address;
* `FlatView::read` and `FlatView::write` loop, each pass handing the owner of
  the range at `start` one piece, cut at the range's end for RAM and RAM-device
  owners;
* `AddressSpace::get_address_map` loops over `addr_cache_init`, which gives the
  host address of `start` and how many bytes stay in its range and its owner.

Results, for a view with the representation invariant (`FlatViewInv`) and
positive sizes:

* `findFlatrange_eq_scan`: the search is the linear scan for the first range
  holding the address, and `findFlatrange_eq_some_iff`: it finds exactly the
  range of the view that holds it;
* `flatViewAccess_spec`: `read` and `write` end within `count + 1` passes, and
  every piece they hand to a RAM or RAM-device owner stays inside its range;
* `getAddressMap_spec`: when every range lies inside its owner (`InOwners`),
  `get_address_map` ends within `count + 1` passes, and the iovecs it returns
  are positive, sum to `count` and map the guest bytes one after another.
  `addr_cache_init` cuts each iovec at the bytes left in the owner, so it is
  `InOwners` that makes every pass map at least one byte;
* `generateFlatview_inOwners`: every view `generate_flatview` renders has
  `InOwners`, so `generatedView_access_spec` holds on every rendered view
  without empty ranges.

Mirroring notes:
- The owner's `Region::read` and `Region::write` are the parameter `access`;
  the loop's part is which calls it makes, recorded as a list of `Dispatch`.
- `mem_mapping.host_address()` is the parameter `hostMapping`.
- `u64` arithmetic is the release build's: `+` and `unchecked_add` are
  `wrapAdd`, `owner.size() - region_offset` is `wrapSub`; the subtractions
  from a range's own base and size never underflow on a range that was found.
-/

namespace StratoVirt.AddressSpace

open StratoVirt.Lib
open StratoVirt.Util (Iovec)

instance (fr : FlatRange) (addr : Nat) : Decidable (fr.contains addr) :=
  inferInstanceAs (Decidable (_ ≤ _ ∧ _ < _))

/-! ## Finding the range of an address -/

/-- `FlatView::find_flatrange`. -/
def findFlatrange (view : List FlatRange) (addr : Nat) : Option FlatRange :=
  match binarySearchByKey view addr fun x => x.addrRange.base with
  | .ok x => view[x]?
  | .error x =>
    if 0 < x then view[x - 1]?.filter fun fr => addr < fr.addrRange.endAddr else none

/-- What the search stands for: the first range of the view that holds `addr`. -/
def scanFlatrange (view : List FlatRange) (addr : Nat) : Option FlatRange :=
  view.find? fun fr => fr.contains addr

section Find

variable {view : List FlatRange} {addr : Nat}

theorem scanFlatrange_of_getElem {i : Nat} (hi : i < view.length) (hin : view[i].contains addr)
    (hbefore : ∀ j (hj : j < i), ¬ view[j].contains addr) :
    scanFlatrange view addr = some view[i] := by
  unfold scanFlatrange
  rw [List.find?_eq_some_iff_getElem]
  refine ⟨decide_eq_true hin, i, hi, rfl, fun j hj => ?_⟩
  simpa using hbefore j hj

theorem scanFlatrange_of_forall (hnone : ∀ j (hj : j < view.length), ¬ view[j].contains addr) :
    scanFlatrange view addr = none := by
  unfold scanFlatrange
  rw [List.find?_eq_none]
  intro fr hfr
  obtain ⟨j, hj, rfl⟩ := List.getElem_of_mem hfr
  simpa using hnone j hj

/-- A range before one that starts at or below `addr` ends at or below it. -/
theorem not_contains_of_before (hinv : FlatViewInv view) {i j : Nat} (hi : i < view.length)
    (hj : j < i) (hbase : view[i].addrRange.base ≤ addr) : ¬ view[j].contains addr := by
  have hb : FlatRange.Before view[j] view[i] :=
    List.pairwise_iff_getElem.1 hinv.sorted j i (by omega) hi hj
  unfold FlatRange.Before at hb
  unfold FlatRange.contains
  omega

/-- Two ranges of a sorted view that hold the same address are the same. -/
theorem eq_of_contains (hs : view.Pairwise FlatRange.Before) {a b : FlatRange} (ha : a ∈ view)
    (hb : b ∈ view) (hca : a.contains addr) (hcb : b.contains addr) : a = b := by
  induction view with
  | nil => cases ha
  | cons c rest ih =>
    rw [List.pairwise_cons] at hs
    -- a range at the head ends before every later one starts
    have hfirst : ∀ x ∈ rest, x.contains addr → ¬ c.contains addr := by
      intro x hx hcx hcc
      have := hs.1 x hx
      unfold FlatRange.Before at this
      unfold FlatRange.contains at hcx hcc
      omega
    rcases List.mem_cons.1 ha with rfl | ha'
    · rcases List.mem_cons.1 hb with rfl | hb'
      · rfl
      · exact absurd hca (hfirst b hb' hcb)
    · rcases List.mem_cons.1 hb with rfl | hb'
      · exact absurd hcb (hfirst a ha' hca)
      · exact ih hs.2 ha' hb'

/-- **The search is the scan.** On a sorted view of non-empty ranges,
`find_flatrange` returns what a linear scan for the first range holding
`addr` returns. -/
theorem findFlatrange_eq_scan (hinv : FlatViewInv view) (hpos : Positive view) (addr : Nat) :
    findFlatrange view addr = scanFlatrange view addr := by
  have hs : SortedBy (fun x => compare x.addrRange.base addr) view :=
    sortedBy_compare addr (strictBases_of_inv hinv hpos)
  unfold findFlatrange binarySearchByKey
  split
  · -- `Ok(x)`: the range at `x` starts at `addr`
    rename_i x hx
    obtain ⟨hi, heq⟩ := binarySearchBy_eq_ok hx
    have hbase : view[x].addrRange.base = addr := compare_eq_iff_eq.1 heq
    have hsize := hpos _ (List.getElem_mem hi)
    rw [List.getElem?_eq_getElem hi, scanFlatrange_of_getElem hi ⟨hbase.le, by omega⟩
      fun j hj => not_contains_of_before hinv hi hj hbase.le]
  · -- `Err(x)`: every range before `x` starts below `addr`, every other one above
    rename_i x hx
    obtain ⟨hle, hbelow, habove⟩ := binarySearchBy_eq_error hs hx
    have hafter : ∀ j (hj : j < view.length), x ≤ j → ¬ view[j].contains addr := by
      intro j hj hxj hin
      have := compare_gt_iff_gt.1 (habove j hj hxj)
      exact absurd hin.1 (by omega)
    split
    · rename_i hx0
      have hi : x - 1 < view.length := by omega
      have hstart : view[x - 1].addrRange.base < addr := compare_lt_iff_lt.1 (hbelow _ hi (by omega))
      have hend := AddressRange.endAddr_eq (hinv.bounded _ (List.getElem_mem hi))
      rw [List.getElem?_eq_getElem hi, Option.filter_some, hend]
      split
      · -- the range before the insertion point still holds `addr`
        rename_i hin
        exact (scanFlatrange_of_getElem hi ⟨hstart.le, by simpa using hin⟩
          fun j hj => not_contains_of_before hinv hi hj hstart.le).symm
      · rename_i hout
        refine (scanFlatrange_of_forall fun j hj => ?_).symm
        rcases Nat.lt_trichotomy j (x - 1) with hlt | rfl | hgt
        · exact not_contains_of_before hinv hi hlt hstart.le
        · intro hin
          exact hout (by simpa using hin.2)
        · exact hafter j hj (by omega)
    · -- `Err(0)`: every range starts above `addr`
      rename_i hx0
      exact (scanFlatrange_of_forall fun j hj => hafter j hj (by omega)).symm

/-- **`find_flatrange` finds the range of `addr`**: the range it returns is in
the view and holds `addr`, and it returns the one range of the view that does;
so it returns `None` exactly when no range holds `addr`. -/
theorem findFlatrange_eq_some_iff (hinv : FlatViewInv view) (hpos : Positive view) (addr : Nat)
    (fr : FlatRange) : findFlatrange view addr = some fr ↔ fr ∈ view ∧ fr.contains addr := by
  rw [findFlatrange_eq_scan hinv hpos, scanFlatrange]
  constructor
  · intro h
    exact ⟨List.mem_of_find?_eq_some h, by simpa using List.find?_some h⟩
  · rintro ⟨hmem, hin⟩
    obtain ⟨fr', hfound⟩ : ∃ fr', view.find? (fun fr => fr.contains addr) = some fr' :=
      Option.isSome_iff_exists.1 (List.find?_isSome.2 ⟨fr, hmem, decide_eq_true hin⟩)
    have hin' : fr'.contains addr := by simpa using List.find?_some hfound
    rw [hfound, eq_of_contains hinv.sorted (List.mem_of_find?_eq_some hfound) hmem hin' hin]

end Find

/-! ## `FlatView::read` and `FlatView::write` -/

/-- One call the loop makes to an owner: the range it found, the guest address
of the pass, and the arguments `region_base`, `region_offset` and `l` it passes. -/
structure Dispatch where
  range : FlatRange
  start : Nat
  regionBase : Nat
  regionOffset : Nat
  count : Nat

/-- The call of the pass at `start` to the owner of `fr`, with `l` bytes left:
`l` is cut at the range's end for RAM and RAM-device owners. -/
def dispatchAt (fr : FlatRange) (start l : Nat) : Dispatch :=
  let frOffset := start - fr.addrRange.base
  let regionOffset := wrapAdd fr.offsetInRegion frOffset
  let regionBase := wrapSub fr.addrRange.base fr.offsetInRegion
  let frRemain := fr.addrRange.size - frOffset
  let l := if fr.owner.regionType = .ram ∨ fr.owner.regionType = .ramDevice then min l frRemain else l
  ⟨fr, start, regionBase, regionOffset, l⟩

/-- The loop's variables `start`, `len` and `l`, and the calls made so far. -/
structure AccessState where
  start : Nat
  len : Nat
  l : Nat
  calls : List Dispatch

/-- One pass of the loop of `read` and `write`; `access` is the owner's
`Region::read` or `Region::write`. -/
def flatViewAccessStep (view : List FlatRange)
    (access : Region → Nat → Nat → Nat → Except AddressSpaceError Unit) (s : AccessState) :
    Step AccessState AddressSpaceError :=
  match findFlatrange view s.start with
  | none => .fail (.msg "Failed to find matched region, addr 0x\x7b0:X\x7d" [s.start]) s
  | some fr =>
    let d := dispatchAt fr s.start s.l
    let calls := s.calls ++ [d]
    match access fr.owner d.regionBase d.regionOffset d.count with
    | .error e => .fail e { s with l := d.count, calls := calls }
    | .ok () =>
      let len := s.len - d.count
      if len = 0 then .exit { s with len := len, l := d.count, calls := calls }
      else .next ⟨wrapAdd s.start d.count, len, len, calls⟩

/-- The loop of `read` and `write` for at most `fuel` passes, from
`len = l = count`: how it ended, and the calls it made to owners. -/
def flatViewAccess (view : List FlatRange)
    (access : Region → Nat → Nat → Nat → Except AddressSpaceError Unit) (addr count fuel : Nat) :
    Option (Except AddressSpaceError Unit × List Dispatch) :=
  (Loop.runFor (flatViewAccessStep view access) fuel ⟨addr, count, count, []⟩).map fun
    | .exit s => (.ok (), s.calls)
    | .fail e s => (.error e, s.calls)

/-- `FlatView::read`, with `ownerRead` the owners' `Region::read` into `dst`. -/
def FlatView.read (view : List FlatRange)
    (ownerRead : Region → Nat → Nat → Nat → Except AddressSpaceError Unit) (addr count fuel : Nat) :
    Option (Except AddressSpaceError Unit × List Dispatch) :=
  flatViewAccess view ownerRead addr count fuel

/-- `FlatView::write`, with `ownerWrite` the owners' `Region::write` from `src`. -/
def FlatView.write (view : List FlatRange)
    (ownerWrite : Region → Nat → Nat → Nat → Except AddressSpaceError Unit) (addr count fuel : Nat) :
    Option (Except AddressSpaceError Unit × List Dispatch) :=
  flatViewAccess view ownerWrite addr count fuel

/-- A call made right: its range is in the view and holds its start, it moves
at least one byte, and for a RAM or RAM-device owner it stays inside the range. -/
def DispatchOk (view : List FlatRange) (d : Dispatch) : Prop :=
  d.range ∈ view ∧ d.range.contains d.start ∧ 0 < d.count ∧
    (d.range.owner.regionType = .ram ∨ d.range.owner.regionType = .ramDevice →
      d.start + d.count ≤ d.range.addrRange.base + d.range.addrRange.size)

/-- What holds at the top of every pass: bytes are left, `l` is all of them,
and every call so far was made right. -/
structure AccessInv (view : List FlatRange) (s : AccessState) : Prop where
  pos : 0 < s.len
  l_eq : s.l = s.len
  calls : ∀ d ∈ s.calls, DispatchOk view d

section Access

variable {view : List FlatRange} {access : Region → Nat → Nat → Nat → Except AddressSpaceError Unit}

/-- The call at an address of the range, with bytes left, is made right, and
moves no more than is left. -/
theorem dispatchAt_ok {fr : FlatRange} {start l : Nat} (hmem : fr ∈ view) (hin : fr.contains start)
    (hl : 0 < l) : DispatchOk view (dispatchAt fr start l) ∧ (dispatchAt fr start l).count ≤ l := by
  have hin' := hin
  unfold FlatRange.contains at hin'
  by_cases hram : fr.owner.regionType = .ram ∨ fr.owner.regionType = .ramDevice
  · -- cut at the range's end, which lies beyond `start`
    dsimp only [dispatchAt, DispatchOk]
    rw [if_pos hram]
    exact ⟨⟨hmem, hin, by omega, fun _ => by omega⟩, by omega⟩
  · dsimp only [dispatchAt, DispatchOk]
    rw [if_neg hram]
    exact ⟨⟨hmem, hin, hl, fun h => absurd h hram⟩, le_refl _⟩

/-- **One pass.** From the top of a pass, going round again keeps the invariant
and moves at least one byte, and every way out has made only right calls. -/
theorem flatViewAccessStep_inv (hinv : FlatViewInv view) (hpos : Positive view) {s : AccessState}
    (hs : AccessInv view s) :
    (∀ t, flatViewAccessStep view access s = .next t → AccessInv view t ∧ t.len < s.len) ∧
      (∀ t, flatViewAccessStep view access s = .exit t → ∀ d ∈ t.calls, DispatchOk view d) ∧
      (∀ e t, flatViewAccessStep view access s = .fail e t → ∀ d ∈ t.calls, DispatchOk view d) := by
  unfold flatViewAccessStep
  split
  · -- no range holds `start`: the loop fails where it is
    refine ⟨fun t h => (nomatch h), fun t h => (nomatch h), fun e t h => ?_⟩
    cases h
    exact hs.calls
  · rename_i fr hfr
    obtain ⟨hmem, hin⟩ := (findFlatrange_eq_some_iff hinv hpos s.start fr).1 hfr
    obtain ⟨hd, hle⟩ := dispatchAt_ok hmem hin (hs.l_eq ▸ hs.pos)
    have hcalls : ∀ d ∈ s.calls ++ [dispatchAt fr s.start s.l], DispatchOk view d := by
      intro d hmem'
      rcases List.mem_append.1 hmem' with h | h
      · exact hs.calls d h
      · rw [List.mem_singleton.1 h]
        exact hd
    dsimp only
    split
    · refine ⟨fun t h => (nomatch h), fun t h => (nomatch h), fun e t h => ?_⟩
      cases h
      exact hcalls
    · split
      · refine ⟨fun t h => (nomatch h), fun t h => ?_, fun e t h => (nomatch h)⟩
        cases h
        exact hcalls
      · rename_i hleft
        refine ⟨fun t h => ?_, fun t h => (nomatch h), fun e t h => (nomatch h)⟩
        cases h
        have hcount : 0 < (dispatchAt fr s.start s.l).count := hd.2.2.1
        exact ⟨⟨Nat.pos_of_ne_zero hleft, rfl, hcalls⟩, Nat.sub_lt hs.pos hcount⟩

/-- **`read` and `write` end, and hand owners only right calls.** On a sorted
view of non-empty ranges, an access of `count > 0` bytes ends (with success or
an error) within `count + 1` passes, and every call it made to an owner is at an
address of the range it found, and inside that range for RAM and RAM-device
owners. -/
theorem flatViewAccess_spec (hinv : FlatViewInv view) (hpos : Positive view)
    (access : Region → Nat → Nat → Nat → Except AddressSpaceError Unit) (addr : Nat)
    {count fuel : Nat} (hcount : 0 < count) (hfuel : count < fuel) :
    ∃ res calls, flatViewAccess view access addr count fuel = some (res, calls) ∧
      ∀ d ∈ calls, DispatchOk view d := by
  -- the variant is the bytes left, which every pass lowers
  obtain ⟨r, hrun, hexit, hfail⟩ := Loop.runFor_of_variant (AccessInv view) AccessState.len
    (fun _ t hs h => (flatViewAccessStep_inv hinv hpos hs).1 t h) fuel ⟨addr, count, count, []⟩
    ⟨hcount, rfl, fun d hd => nomatch hd⟩ hfuel
  unfold flatViewAccess
  rw [hrun]
  cases r with
  | exit t =>
    obtain ⟨u, hu, hb⟩ := hexit t rfl
    exact ⟨.ok (), t.calls, rfl, (flatViewAccessStep_inv hinv hpos hu).2.1 t hb⟩
  | fail e t =>
    obtain ⟨u, hu, hb⟩ := hfail e t rfl
    exact ⟨.error e, t.calls, rfl, (flatViewAccessStep_inv hinv hpos hu).2.2 e t hb⟩

end Access

/-! ## `get_address_map` -/

/-- `Region::get_host_address`: the host address of the mapping of a RAM,
RAM-device or ROM-device region; `hostMapping` is `mem_mapping.host_address()`,
`none` for a region without a mapping. -/
def Region.getHostAddress (hostMapping : Region → Option Nat) (r : Region) : Option Nat :=
  if r.regionType ≠ .ram ∧ r.regionType ≠ .ramDevice ∧ r.regionType ≠ .romDevice then none
  else hostMapping r

/-- `AddressSpace::addr_cache_init`: the host address of `addr`, and how many
bytes from it stay both in its range and in the range's owner. -/
def addrCacheInit (view : List FlatRange) (hostMapping : Region → Option Nat) (addr : Nat) :
    Option (Nat × Nat) :=
  match findFlatrange view addr with
  | some fr =>
    let frOffset := addr - fr.addrRange.base
    let regionOffset := wrapAdd fr.offsetInRegion frOffset
    let regionRemain := wrapSub fr.owner.size regionOffset
    let frRemain := fr.addrRange.size - frOffset
    (fr.owner.getHostAddress hostMapping).map fun host =>
      (wrapAdd host regionOffset, min frRemain regionRemain)
  | none => none

/-- The variables of `get_address_map`'s loop. -/
structure MapState where
  start : Nat
  len : Nat
  hvaIovec : List Iovec

/-- One pass of `get_address_map(addr, count)`. -/
def addressMapStep (view : List FlatRange) (hostMapping : Region → Option Nat) (addr count : Nat)
    (s : MapState) : Step MapState AddressSpaceError :=
  match addrCacheInit view hostMapping s.start with
  | none => .fail (.msg "Map iov base \x7b:x?\x7d, iov len \x7b:?\x7d failed" [addr, count]) s
  | some (hva, frLen) =>
    let ioVec : Iovec := ⟨hva, min s.len frLen⟩
    let len := s.len - ioVec.iovLen
    let s' : MapState := ⟨wrapAdd s.start ioVec.iovLen, len, s.hvaIovec ++ [ioVec]⟩
    if len = 0 then .exit s' else .next s'

/-- `AddressSpace::get_address_map`, for at most `fuel` passes. -/
def getAddressMap (view : List FlatRange) (hostMapping : Region → Option Nat)
    (addr count fuel : Nat) : Option (Except AddressSpaceError (List Iovec)) :=
  (Loop.runFor (addressMapStep view hostMapping addr count) fuel ⟨addr, count, []⟩).map fun
    | .exit s => .ok s.hvaIovec
    | .fail e _ => .error e

/-- Every range lies inside its owner, and owners fit in `u64`. -/
def InOwners (view : List FlatRange) : Prop :=
  ∀ fr ∈ view, fr.offsetInRegion + fr.addrRange.size ≤ fr.owner.size ∧ fr.owner.size < U64_MOD

/-- `iov` maps `iov.iovLen > 0` guest bytes from `g`: they lie in one range of
the view, whose owner has a host mapping, and `iov` starts at the host address
of `g` in that mapping. -/
def MapsAt (view : List FlatRange) (hostMapping : Region → Option Nat) (g : Nat) (iov : Iovec) :
    Prop :=
  0 < iov.iovLen ∧ ∃ fr ∈ view, ∃ host, fr.contains g ∧
    g + iov.iovLen ≤ fr.addrRange.base + fr.addrRange.size ∧
    fr.owner.getHostAddress hostMapping = some host ∧
    iov.iovBase = wrapAdd host (fr.offsetInRegion + (g - fr.addrRange.base))

/-- The iovecs map the guest bytes from `g` on, each one those right after the
bytes of the one before. -/
def MapsFrom (view : List FlatRange) (hostMapping : Region → Option Nat) : Nat → List Iovec → Prop
  | _, [] => True
  | g, iov :: rest => MapsAt view hostMapping g iov ∧ MapsFrom view hostMapping (g + iov.iovLen) rest

/-- What holds at the top of every pass of `get_address_map(addr, count)`:
bytes are left, the iovecs so far and the bytes left make `count`, `start` is
where the iovecs end, and they map the bytes from `addr` on. -/
structure MapInv (view : List FlatRange) (hostMapping : Region → Option Nat) (addr count : Nat)
    (s : MapState) : Prop where
  pos : 0 < s.len
  total : (s.hvaIovec.map Iovec.iovLen).sum + s.len = count
  start_eq : s.start = addr + (s.hvaIovec.map Iovec.iovLen).sum
  maps : MapsFrom view hostMapping addr s.hvaIovec

section AddressMap

variable {view : List FlatRange} {hostMapping : Region → Option Nat}

theorem mapsFrom_append_singleton {iov : Iovec} :
    ∀ {g : Nat} {l : List Iovec}, MapsFrom view hostMapping g (l ++ [iov]) ↔
      MapsFrom view hostMapping g l ∧ MapsAt view hostMapping (g + (l.map Iovec.iovLen).sum) iov
  | g, [] => by simp [MapsFrom]
  | g, x :: rest => by
    simp only [List.cons_append, MapsFrom, List.map_cons, List.sum_cons,
      mapsFrom_append_singleton, Nat.add_assoc, and_assoc]

section InOwners

variable (hinv : FlatViewInv view) (hpos : Positive view) (howners : InOwners view)
include hinv hpos howners

/-- **What `addr_cache_init` finds**, when every range lies inside its owner:
the range of `g`, the host address of `g` in its owner's mapping, and all the
bytes from `g` to the range's end (the owner has at least as many left). -/
theorem addrCacheInit_eq_some {g hva frLen : Nat}
    (h : addrCacheInit view hostMapping g = some (hva, frLen)) :
    ∃ fr ∈ view, ∃ host, fr.contains g ∧ fr.owner.getHostAddress hostMapping = some host ∧
      hva = wrapAdd host (fr.offsetInRegion + (g - fr.addrRange.base)) ∧
      frLen = fr.addrRange.base + fr.addrRange.size - g := by
  unfold addrCacheInit at h
  split at h
  · rename_i fr hfr
    obtain ⟨hmem, hin⟩ := (findFlatrange_eq_some_iff hinv hpos g fr).1 hfr
    obtain ⟨hown, hsz⟩ := howners fr hmem
    obtain ⟨host, hhost, heq⟩ := Option.map_eq_some_iff.1 h
    have hin' := hin
    unfold FlatRange.contains at hin'
    -- the offset in the owner neither wraps nor passes the owner's end
    have hoff : wrapAdd fr.offsetInRegion (g - fr.addrRange.base) =
        fr.offsetInRegion + (g - fr.addrRange.base) := wrapAdd_of_lt (by omega)
    have hremain : wrapSub fr.owner.size (fr.offsetInRegion + (g - fr.addrRange.base)) =
        fr.owner.size - (fr.offsetInRegion + (g - fr.addrRange.base)) := wrapSub_of_le hsz (by omega)
    rw [hoff, hremain, Prod.mk.injEq] at heq
    refine ⟨fr, hmem, host, hin, hhost, heq.1.symm, ?_⟩
    rw [← heq.2]
    omega
  · cases h

/-- **One pass of `get_address_map`.** From the top of a pass, going round
again keeps the invariant and lowers the bytes left, and leaving the loop
leaves iovecs that make `count` and map the bytes from `addr` on. -/
theorem addressMapStep_inv {addr count : Nat} {s : MapState}
    (hs : MapInv view hostMapping addr count s) :
    (∀ t, addressMapStep view hostMapping addr count s = .next t →
        MapInv view hostMapping addr count t ∧ t.len < s.len) ∧
      (∀ t, addressMapStep view hostMapping addr count s = .exit t →
        (t.hvaIovec.map Iovec.iovLen).sum = count ∧ MapsFrom view hostMapping addr t.hvaIovec) := by
  unfold addressMapStep
  split
  · exact ⟨fun t h => (nomatch h), fun t h => (nomatch h)⟩
  · rename_i hva frLen hcache
    obtain ⟨fr, hmem, host, hin, hhost, hhva, hfrLen⟩ :=
      addrCacheInit_eq_some hinv hpos howners hcache
    have hbound := hinv.bounded fr hmem
    have hin' := hin
    unfold FlatRange.contains at hin'
    have hpiece : 0 < min s.len frLen := by
      have := hs.pos
      omega
    -- the new iovec maps the bytes at `start`, which is where the others end
    have hat : MapsAt view hostMapping (addr + (s.hvaIovec.map Iovec.iovLen).sum)
        ⟨hva, min s.len frLen⟩ := by
      rw [← hs.start_eq]
      exact ⟨hpiece, fr, hmem, host, hin, by simp only; omega, hhost, hhva⟩
    have hmaps := mapsFrom_append_singleton.2 ⟨hs.maps, hat⟩
    have hsum : ((s.hvaIovec ++ [(⟨hva, min s.len frLen⟩ : Iovec)]).map Iovec.iovLen).sum =
        (s.hvaIovec.map Iovec.iovLen).sum + min s.len frLen := by
      simp
    have hstart : wrapAdd s.start (min s.len frLen) = s.start + min s.len frLen :=
      wrapAdd_of_lt (by omega)
    have htotal := hs.total
    have hstart_eq := hs.start_eq
    dsimp only
    split
    · -- no bytes left: the loop ends
      refine ⟨fun t h => (nomatch h), fun t h => ?_⟩
      cases h
      exact ⟨by rw [hsum]; omega, hmaps⟩
    · rename_i hleft
      refine ⟨fun t h => ?_, fun t h => (nomatch h)⟩
      cases h
      refine ⟨⟨Nat.pos_of_ne_zero hleft, ?_, ?_, hmaps⟩, Nat.sub_lt hs.pos hpiece⟩
      · dsimp only
        rw [hsum]
        omega
      · dsimp only
        rw [hstart, hsum]
        omega

/-- **`get_address_map` ends, and maps the guest bytes exactly.** On a sorted
view of non-empty ranges that each lie inside their owner, a map of `count > 0`
bytes ends within `count + 1` passes; when it succeeds, its iovecs are
positive, sum to `count`, and map the guest bytes from `addr` on, each right
after those of the one before. -/
theorem getAddressMap_spec (hostMapping : Region → Option Nat) (addr : Nat) {count fuel : Nat}
    (hcount : 0 < count) (hfuel : count < fuel) :
    ∃ r, getAddressMap view hostMapping addr count fuel = some r ∧
      ∀ iovs, r = .ok iovs →
        (iovs.map Iovec.iovLen).sum = count ∧ MapsFrom view hostMapping addr iovs := by
  obtain ⟨r, hrun, hexit, -⟩ := Loop.runFor_of_variant (MapInv view hostMapping addr count)
    MapState.len (fun _ t hs h => (addressMapStep_inv hinv hpos howners hs).1 t h) fuel
    ⟨addr, count, []⟩ ⟨hcount, by simp, by simp, trivial⟩ hfuel
  unfold getAddressMap
  rw [hrun]
  cases r with
  | exit t =>
    obtain ⟨u, hu, hb⟩ := hexit t rfl
    refine ⟨.ok t.hvaIovec, rfl, fun iovs h => ?_⟩
    cases h
    exact (addressMapStep_inv hinv hpos howners hu).2 t hb
  | fail e t => exact ⟨.error e, rfl, fun iovs h => nomatch h⟩

end InOwners

end AddressMap

/-- **The flat view's lookups and accesses.** For a sorted view of non-empty
ranges: `find_flatrange` is the linear scan and finds exactly the range that
holds the address; when every range lies inside its owner, `get_address_map`
of `count > 0` bytes ends, and what it returns is positive iovecs that sum to
`count` and map the guest bytes one after another; and `read` and `write` of
`count > 0` bytes end, with every call to a RAM or RAM-device owner inside the
range it was made for. -/
theorem flatView_map_in_owners (view : List FlatRange) (hinv : FlatViewInv view)
    (hpos : Positive view) :
    (∀ addr, findFlatrange view addr = scanFlatrange view addr ∧
      ∀ fr, findFlatrange view addr = some fr ↔ fr ∈ view ∧ fr.contains addr) ∧
    (InOwners view → ∀ hostMapping addr count fuel, 0 < count → count < fuel →
      ∃ r, getAddressMap view hostMapping addr count fuel = some r ∧
        ∀ iovs, r = .ok iovs →
          (iovs.map Iovec.iovLen).sum = count ∧ MapsFrom view hostMapping addr iovs) ∧
    (∀ ownerRead ownerWrite addr count fuel, 0 < count → count < fuel →
      (∃ res calls, FlatView.read view ownerRead addr count fuel = some (res, calls) ∧
        ∀ d ∈ calls, DispatchOk view d) ∧
      (∃ res calls, FlatView.write view ownerWrite addr count fuel = some (res, calls) ∧
        ∀ d ∈ calls, DispatchOk view d)) := by
  refine ⟨fun addr => ⟨findFlatrange_eq_scan hinv hpos addr, findFlatrange_eq_some_iff hinv hpos addr⟩,
    ?_, ?_⟩
  · intro howners hostMapping addr count fuel hcount hfuel
    exact getAddressMap_spec hinv hpos howners hostMapping addr hcount hfuel
  · intro ownerRead ownerWrite addr count fuel hcount hfuel
    exact ⟨flatViewAccess_spec hinv hpos ownerRead addr hcount hfuel,
      flatViewAccess_spec hinv hpos ownerWrite addr hcount hfuel⟩

/-- **Every range of a rendered view lies inside its owner**: `generate_flatview`
cuts each range from a region of the tree, and every region is `u64`-sized. -/
theorem generateFlatview_inOwners (root : Region) (hsize : ∀ x ∈ root.regions, x.size < U64_MOD)
    {view : List FlatRange} (h : root.generateFlatview 0 ⟨0, root.size⟩ = .ok view) :
    InOwners view := by
  intro fr hfr
  obtain ⟨hown, hle⟩ := generateFlatview_pieces root hsize h fr hfr
  exact ⟨hle, hsize _ hown⟩

/-- **The lookups and accesses of a rendered flat view.** For every region
tree whose regions fit in `u64`, and the view `generate_flatview(0, [0, size))`
renders from it, when that view has no empty range: `find_flatrange` is the
linear scan and finds exactly the range that holds the address;
`get_address_map` of `count > 0` bytes ends, and what it returns is positive
iovecs that sum to `count` and map the guest bytes one after another; and
`read` and `write` of `count > 0` bytes end, with every call to a RAM or
RAM-device owner inside the range it was made for. -/
theorem generatedView_access_spec (root : Region) (hsize : ∀ x ∈ root.regions, x.size < U64_MOD)
    {view : List FlatRange} (hview : root.generateFlatview 0 ⟨0, root.size⟩ = .ok view)
    (hpos : Positive view) :
    (∀ addr, findFlatrange view addr = scanFlatrange view addr ∧
      ∀ fr, findFlatrange view addr = some fr ↔ fr ∈ view ∧ fr.contains addr) ∧
    (∀ hostMapping addr count fuel, 0 < count → count < fuel →
      ∃ r, getAddressMap view hostMapping addr count fuel = some r ∧
        ∀ iovs, r = .ok iovs →
          (iovs.map Iovec.iovLen).sum = count ∧ MapsFrom view hostMapping addr iovs) ∧
    (∀ ownerRead ownerWrite addr count fuel, 0 < count → count < fuel →
      (∃ res calls, FlatView.read view ownerRead addr count fuel = some (res, calls) ∧
        ∀ d ∈ calls, DispatchOk view d) ∧
      (∃ res calls, FlatView.write view ownerWrite addr count fuel = some (res, calls) ∧
        ∀ d ∈ calls, DispatchOk view d)) := by
  -- only a container renders, and its view has the representation invariant
  have hc : root.regionType = .container := by
    unfold Region.generateFlatview at hview
    split at hview
    · assumption
    · cases hview
  obtain ⟨fv, hfv, hinv, -⟩ := generateFlatview_inv root hc (hsize root (Region.mem_regions_self root))
  rw [hview, Except.ok.injEq] at hfv
  subst hfv
  obtain ⟨hfind, hmap, haccess⟩ := flatView_map_in_owners view hinv hpos
  exact ⟨hfind, hmap (generateFlatview_inOwners root hsize hview), haccess⟩

/-- A container of two pages holding one page of RAM at its start. -/
theorem generatedView_access_spec_ram_page :
    ∃ view, ({ Region.initContainerRegion 0x2000 with subregions := [Region.initRamRegion 0x1000] }
        : Region).generateFlatview 0 ⟨0, 0x2000⟩ = .ok view ∧ Positive view ∧
      (∀ addr, findFlatrange view addr = scanFlatrange view addr ∧
        ∀ fr, findFlatrange view addr = some fr ↔ fr ∈ view ∧ fr.contains addr) ∧
      (∀ hostMapping addr count fuel, 0 < count → count < fuel →
        ∃ r, getAddressMap view hostMapping addr count fuel = some r ∧
          ∀ iovs, r = .ok iovs →
            (iovs.map Iovec.iovLen).sum = count ∧ MapsFrom view hostMapping addr iovs) ∧
      (∀ ownerRead ownerWrite addr count fuel, 0 < count → count < fuel →
        (∃ res calls, FlatView.read view ownerRead addr count fuel = some (res, calls) ∧
          ∀ d ∈ calls, DispatchOk view d) ∧
        (∃ res calls, FlatView.write view ownerWrite addr count fuel = some (res, calls) ∧
          ∀ d ∈ calls, DispatchOk view d)) := by
  have hsize : ∀ x ∈ ({ Region.initContainerRegion 0x2000 with
      subregions := [Region.initRamRegion 0x1000] } : Region).regions, x.size < U64_MOD := by
    decide
  obtain ⟨view, hview, -, hpos⟩ := generateFlatview_inv
    ({ Region.initContainerRegion 0x2000 with subregions := [Region.initRamRegion 0x1000] } : Region)
    rfl (by decide)
  have hpos' : Positive view := hpos (by decide)
  exact ⟨view, hview, hpos', generatedView_access_spec _ hsize hview hpos'⟩

end StratoVirt.AddressSpace
