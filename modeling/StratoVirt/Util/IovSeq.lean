import StratoVirt.Lib.List
import StratoVirt.Util.Aio
import StratoVirt.Virtio.Desc

/-!
# Iovec lists as byte sequences: splitting and discarding

`util/src/aio/mod.rs` and `virtio/src/lib.rs`. The block and net devices cut
the iovecs of a request into header, data and status with four loops:
`iovecs_split` and `iov_discard_front_direct` on host iovecs, and virtio's
`iov_discard_front` and `iov_discard_back` on guest `ElemIovec`s. Each loop
subtracts lengths and patches the one element the cut falls in.

An iovec list stands for the addresses its ranges cover, one range after the
other (`iovAddrs`, `elemAddrs`). In those terms:

* `iovecsSplit_addrs`: `iovecs_split(iovecs, size)` cuts the sequence after
  its first `size` addresses;
* `iovDiscardFrontDirect_addrs`: `iov_discard_front_direct` returns the
  sequence without its first `size` addresses when it has more, and `None`
  otherwise; `iovDiscardFront_eq` shows virtio's `iov_discard_front` is the
  same loop on `ElemIovec`s;
* `iovDiscardBack_addrs`: `iov_discard_back` returns the sequence without its
  last `size` addresses when it has more, and `None` otherwise.

Exact hits on a range's end and empty ranges need no special case: a range
the cut ends at goes whole to the front part, and the next one starts the
rest.
-/

namespace StratoVirt.Util

open StratoVirt.Lib

/-! ## The sequence an iovec list covers -/

/-- The addresses of an iovec list, range after range. -/
def iovAddrs (iovec : List Iovec) : List Nat := iovec.flatMap fun iov => List.range' iov.iovBase iov.iovLen

@[simp] theorem iovAddrs_nil : iovAddrs [] = [] := rfl

@[simp] theorem iovAddrs_cons (iov : Iovec) (rest : List Iovec) :
    iovAddrs (iov :: rest) = List.range' iov.iovBase iov.iovLen ++ iovAddrs rest :=
  List.flatMap_cons

@[simp] theorem iovAddrs_append (a b : List Iovec) : iovAddrs (a ++ b) = iovAddrs a ++ iovAddrs b :=
  List.flatMap_append

@[simp] theorem length_iovAddrs (iovec : List Iovec) : (iovAddrs iovec).length = iovTotal iovec := by
  induction iovec with
  | nil => rfl
  | cons iov rest ih => rw [iovAddrs_cons, List.length_append, List.length_range', ih, iovTotal_cons]

/-! ## `iovecs_split` -/

/-- The loop state of `iovecs_split`: `begin`, `end` and the bytes `begin`
still takes. -/
structure SplitState where
  begin : List Iovec
  endv : List Iovec
  size : Nat

/-- One pass of the loop of `iovecs_split`. -/
def iovecsSplitStep (st : SplitState) (iov : Iovec) : SplitState :=
  if st.size = 0 then ⟨st.begin, st.endv ++ [iov], st.size⟩
  else if iov.iovLen > st.size then
    ⟨st.begin ++ [⟨iov.iovBase, st.size⟩], st.endv ++ [⟨iov.iovBase + st.size, iov.iovLen - st.size⟩], 0⟩
  else ⟨st.begin ++ [iov], st.endv, st.size - iov.iovLen⟩

/-- `iovecs_split(iovecs, size)`. -/
def iovecsSplit (iovecs : List Iovec) (size : Nat) : List Iovec × List Iovec :=
  let st := iovecs.foldl iovecsSplitStep ⟨[], [], size⟩
  (st.begin, st.endv)

/-- Once `begin` is full, every iovec goes to `end` whole. -/
theorem foldl_iovecsSplitStep_full :
    ∀ (l begin endv : List Iovec), l.foldl iovecsSplitStep ⟨begin, endv, 0⟩ = ⟨begin, endv ++ l, 0⟩
  | [], _, _ => by rw [List.foldl_nil, List.append_nil]
  | iov :: l, begin, endv => by
    rw [List.foldl_cons, iovecsSplitStep, if_pos rfl, foldl_iovecsSplitStep_full l, List.append_assoc,
      List.singleton_append]

/-- **Run.** While `begin` still takes bytes and `end` is empty, the loop puts
the next `size` addresses in `begin` and the rest in `end`. -/
theorem foldl_iovecsSplitStep :
    ∀ (l begin : List Iovec) (size : Nat), 0 < size →
      iovAddrs (l.foldl iovecsSplitStep ⟨begin, [], size⟩).begin = iovAddrs begin ++ (iovAddrs l).take size ∧
        iovAddrs (l.foldl iovecsSplitStep ⟨begin, [], size⟩).endv = (iovAddrs l).drop size
  | [], begin, size, _ => by simp
  | iov :: l, begin, size, hsize => by
    rw [List.foldl_cons, iovecsSplitStep, if_neg (show ¬size = 0 by omega)]
    dsimp only
    by_cases hcut : iov.iovLen > size
    · -- the cut falls inside this iovec: its two parts, then everything to `end`
      rw [if_pos hcut, foldl_iovecsSplitStep_full]
      have hsplit := range'_split (a := iov.iovBase) (le_of_lt hcut)
      have hlen : (List.range' iov.iovBase size).length = size := List.length_range'
      simp only [iovAddrs_append, iovAddrs_cons, iovAddrs_nil, List.append_nil, List.nil_append, hsplit,
        List.append_assoc]
      exact ⟨by rw [List.take_left' hlen], by rw [List.drop_left' hlen]⟩
    · -- the whole iovec goes to `begin`
      rw [if_neg hcut]
      have hlen : (List.range' iov.iovBase iov.iovLen).length ≤ size := by
        rw [List.length_range']
        omega
      have htake : (iovAddrs (iov :: l)).take size =
          List.range' iov.iovBase iov.iovLen ++ (iovAddrs l).take (size - iov.iovLen) := by
        rw [iovAddrs_cons, List.take_append, List.take_of_length_le hlen, List.length_range']
      have hdrop : (iovAddrs (iov :: l)).drop size = (iovAddrs l).drop (size - iov.iovLen) := by
        rw [iovAddrs_cons, List.drop_append, List.drop_of_length_le hlen, List.nil_append, List.length_range']
      rw [htake, hdrop]
      by_cases hrest : size - iov.iovLen = 0
      · -- exactly full: the rest goes to `end` whole
        rw [hrest, foldl_iovecsSplitStep_full]
        simp
      · obtain ⟨hb, he⟩ := foldl_iovecsSplitStep l (begin ++ [iov]) (size - iov.iovLen) (by omega)
        rw [hb, he]
        simp

/-- **`iovecs_split`** cuts the sequence after its first `size` addresses. -/
theorem iovecsSplit_addrs (iovecs : List Iovec) (size : Nat) :
    iovAddrs (iovecsSplit iovecs size).1 = (iovAddrs iovecs).take size ∧
      iovAddrs (iovecsSplit iovecs size).2 = (iovAddrs iovecs).drop size := by
  unfold iovecsSplit
  by_cases hsize : size = 0
  · subst hsize
    rw [foldl_iovecsSplitStep_full]
    simp
  · obtain ⟨hb, he⟩ := foldl_iovecsSplitStep iovecs [] size (by omega)
    rw [hb, he, iovAddrs_nil, List.nil_append]
    exact ⟨rfl, rfl⟩

/-! ## `iov_discard_front_direct` -/

/-- **`iov_discard_front_direct`** drops the first `size` addresses when there
are more, and answers `None` otherwise. -/
theorem iovDiscardFrontDirect_addrs :
    ∀ (iovec : List Iovec) (size : Nat),
      (size < iovTotal iovec → ∃ rest, iovDiscardFrontDirect iovec size = some rest ∧
        iovAddrs rest = (iovAddrs iovec).drop size) ∧
      (iovTotal iovec ≤ size → iovDiscardFrontDirect iovec size = none)
  | [], size => ⟨fun h => absurd h (Nat.not_lt_zero _), fun _ => rfl⟩
  | iov :: rest, size => by
    rw [iovTotal_cons]
    by_cases hcut : iov.iovLen > size
    · -- the cut falls inside this iovec: its tail and the rest remain
      refine ⟨fun _ => ⟨_, by rw [iovDiscardFrontDirect, if_pos hcut], ?_⟩, fun h => absurd h (by omega)⟩
      rw [iovAddrs_cons, iovAddrs_cons, List.drop_append_of_le_length (by rw [List.length_range']; omega),
        List.drop_range', Nat.mul_one]
    · -- the whole iovec is dropped
      obtain ⟨hsome, hnone⟩ := iovDiscardFrontDirect_addrs rest (size - iov.iovLen)
      have hdrop : (iovAddrs (iov :: rest)).drop size = (iovAddrs rest).drop (size - iov.iovLen) := by
        rw [iovAddrs_cons, List.drop_append, List.drop_of_length_le (by rw [List.length_range']; omega),
          List.nil_append, List.length_range']
      rw [iovDiscardFrontDirect, if_neg hcut, hdrop]
      exact ⟨fun h => hsome (by omega), fun h => hnone (by omega)⟩

end StratoVirt.Util

namespace StratoVirt.Virtio

open StratoVirt.Lib StratoVirt.Util

/-! ## Virtio's `iov_discard_front` and `iov_discard_back` -/

/-- The guest addresses of an `ElemIovec` list, range after range. -/
def elemAddrs (iovec : List ElemIovec) : List Nat := iovec.flatMap fun iov => List.range' iov.addr iov.len

/-- The bytes an `ElemIovec` list holds. -/
def elemTotal (iovec : List ElemIovec) : Nat := (iovec.map ElemIovec.len).sum

/-- `iov_discard_front`. -/
def iovDiscardFront : List ElemIovec → Nat → Option (List ElemIovec)
  | [], _ => none
  | iov :: rest, size =>
    if iov.len > size then some (⟨iov.addr + size, iov.len - size⟩ :: rest)
    else iovDiscardFront rest (size - iov.len)

/-- The walk of `iov_discard_back` from the last element: on the reversed list,
the first element holding more than the bytes left to drop is shortened, and
it and the elements after it (those before it in the list) are kept. -/
def iovDiscardBackRev : List ElemIovec → Nat → Option (List ElemIovec)
  | [], _ => none
  | iov :: rest, size =>
    if iov.len > size then some (⟨iov.addr, iov.len - size⟩ :: rest)
    else iovDiscardBackRev rest (size - iov.len)

/-- `iov_discard_back`: `iovec[..(len - index)]` for the element at `index`
from the back where the walk stops, that element shortened. -/
def iovDiscardBack (iovec : List ElemIovec) (size : Nat) : Option (List ElemIovec) :=
  (iovDiscardBackRev iovec.reverse size).map List.reverse

/-- An `ElemIovec` as a host iovec of the same range. -/
def ElemIovec.toIovec (iov : ElemIovec) : Iovec := ⟨iov.addr, iov.len⟩

/-- A host iovec as an `ElemIovec` of the same range. -/
def ElemIovec.ofIovec (iov : Iovec) : ElemIovec := ⟨iov.iovBase, iov.iovLen⟩

@[simp] theorem ElemIovec.toIovec_iovBase (iov : ElemIovec) : iov.toIovec.iovBase = iov.addr := rfl

@[simp] theorem ElemIovec.toIovec_iovLen (iov : ElemIovec) : iov.toIovec.iovLen = iov.len := rfl

theorem ElemIovec.ofIovec_comp_toIovec : ElemIovec.ofIovec ∘ ElemIovec.toIovec = id := rfl

theorem ElemIovec.toIovec_comp_ofIovec : ElemIovec.toIovec ∘ ElemIovec.ofIovec = id := rfl

theorem elemAddrs_eq (iovec : List ElemIovec) : elemAddrs iovec = iovAddrs (iovec.map ElemIovec.toIovec) := by
  induction iovec with
  | nil => rfl
  | cons iov rest ih =>
    rw [elemAddrs, List.flatMap_cons, ← elemAddrs, ih, List.map_cons, iovAddrs_cons]
    rfl

theorem elemTotal_eq (iovec : List ElemIovec) : elemTotal iovec = iovTotal (iovec.map ElemIovec.toIovec) := by
  rw [elemTotal, iovTotal, List.map_map]
  rfl

@[simp] theorem length_elemAddrs (iovec : List ElemIovec) : (elemAddrs iovec).length = elemTotal iovec := by
  rw [elemAddrs_eq, length_iovAddrs, elemTotal_eq]

/-- Virtio's `iov_discard_front` is `iov_discard_front_direct` on the same ranges. -/
theorem iovDiscardFront_eq :
    ∀ (iovec : List ElemIovec) (size : Nat),
      iovDiscardFront iovec size =
        (iovDiscardFrontDirect (iovec.map ElemIovec.toIovec) size).map (List.map ElemIovec.ofIovec)
  | [], _ => rfl
  | iov :: rest, size => by
    rw [List.map_cons, iovDiscardFront, iovDiscardFrontDirect, ElemIovec.toIovec_iovLen, ElemIovec.toIovec_iovBase]
    by_cases hcut : iov.len > size
    · rw [if_pos hcut, if_pos hcut, Option.map_some, List.map_cons, List.map_map, ElemIovec.ofIovec_comp_toIovec,
        List.map_id]
      rfl
    · rw [if_neg hcut, if_neg hcut]
      exact iovDiscardFront_eq rest (size - iov.len)

/-- **`iov_discard_front`** drops the first `size` addresses when there are
more, and answers `None` otherwise. -/
theorem iovDiscardFront_addrs (iovec : List ElemIovec) (size : Nat) :
    (size < elemTotal iovec → ∃ rest, iovDiscardFront iovec size = some rest ∧
      elemAddrs rest = (elemAddrs iovec).drop size) ∧
    (elemTotal iovec ≤ size → iovDiscardFront iovec size = none) := by
  obtain ⟨hsome, hnone⟩ := iovDiscardFrontDirect_addrs (iovec.map ElemIovec.toIovec) size
  rw [elemTotal_eq, iovDiscardFront_eq, elemAddrs_eq]
  refine ⟨fun h => ?_, fun h => by rw [hnone h, Option.map_none]⟩
  obtain ⟨rest, hrest, haddrs⟩ := hsome h
  refine ⟨_, by rw [hrest, Option.map_some], ?_⟩
  rw [elemAddrs_eq, List.map_map, ElemIovec.toIovec_comp_ofIovec, List.map_id, haddrs]

/-- The walk from the back, on the reversed list: what is kept is the sequence
without its last `size` addresses. -/
theorem iovDiscardBackRev_addrs :
    ∀ (rev : List ElemIovec) (size : Nat),
      (size < elemTotal rev → ∃ kept, iovDiscardBackRev rev size = some kept ∧
        elemAddrs kept.reverse = (elemAddrs rev.reverse).take (elemTotal rev - size)) ∧
      (elemTotal rev ≤ size → iovDiscardBackRev rev size = none)
  | [], size => ⟨fun h => absurd h (Nat.not_lt_zero _), fun _ => rfl⟩
  | iov :: rest, size => by
    have htotal : elemTotal (iov :: rest) = iov.len + elemTotal rest := by simp [elemTotal]
    have hrest_len : (elemAddrs rest.reverse).length = elemTotal rest := by
      rw [elemAddrs_eq, length_iovAddrs, ← elemTotal_eq, elemTotal, elemTotal, List.map_reverse, List.sum_reverse]
    -- the last element's range comes last in the sequence
    have hseq : ∀ last : ElemIovec, elemAddrs (last :: rest).reverse =
        elemAddrs rest.reverse ++ List.range' last.addr last.len := by
      intro last
      rw [List.reverse_cons, elemAddrs, List.flatMap_append, List.flatMap_singleton, ← elemAddrs]
    rw [htotal]
    by_cases hcut : iov.len > size
    · -- the cut falls inside this element: its front part and everything before it remain
      refine ⟨fun _ => ⟨_, by rw [iovDiscardBackRev, if_pos hcut], ?_⟩, fun h => absurd h (by omega)⟩
      have hlen : (elemAddrs rest.reverse ++ List.range' iov.addr (iov.len - size)).length =
          iov.len + elemTotal rest - size := by
        rw [List.length_append, List.length_range', hrest_len]
        omega
      rw [hseq, hseq, range'_split (a := iov.addr) (n := iov.len) (k := iov.len - size) (by omega),
        ← List.append_assoc, List.take_left' hlen]
    · -- the whole element is dropped
      obtain ⟨hsome, hnone⟩ := iovDiscardBackRev_addrs rest (size - iov.len)
      have htake : (elemAddrs (iov :: rest).reverse).take (iov.len + elemTotal rest - size) =
          (elemAddrs rest.reverse).take (elemTotal rest - (size - iov.len)) := by
        rw [hseq, List.take_append_of_le_length (by rw [hrest_len]; omega)]
        congr 1
        omega
      rw [iovDiscardBackRev, if_neg hcut, htake]
      exact ⟨fun h => hsome (by omega), fun h => hnone (by omega)⟩

/-- **`iov_discard_back`** drops the last `size` addresses when there are
more, and answers `None` otherwise. -/
theorem iovDiscardBack_addrs (iovec : List ElemIovec) (size : Nat) :
    (size < elemTotal iovec → ∃ kept, iovDiscardBack iovec size = some kept ∧
      elemAddrs kept = (elemAddrs iovec).take (elemTotal iovec - size)) ∧
    (elemTotal iovec ≤ size → iovDiscardBack iovec size = none) := by
  have htotal : elemTotal iovec.reverse = elemTotal iovec := by
    rw [elemTotal, elemTotal, List.map_reverse, List.sum_reverse]
  obtain ⟨hsome, hnone⟩ := iovDiscardBackRev_addrs iovec.reverse size
  rw [htotal, List.reverse_reverse] at hsome
  rw [htotal] at hnone
  refine ⟨fun h => ?_, fun h => by rw [iovDiscardBack, hnone h, Option.map_none]⟩
  obtain ⟨kept, hkept, haddrs⟩ := hsome h
  exact ⟨kept.reverse, by rw [iovDiscardBack, hkept, Option.map_some], haddrs⟩

/-- An optional result given case by case (a result with a property when `P`,
`None` otherwise) is `Some` exactly when `P`, and has the property when it is. -/
theorem isSome_iff_of_cases {α : Type} {o : Option α} {P : Prop} {Q : α → Prop}
    (hsome : P → ∃ r, o = some r ∧ Q r) (hnone : ¬P → o = none) :
    (o.isSome ↔ P) ∧ ∀ r, o = some r → Q r := by
  by_cases hP : P
  · obtain ⟨r, hr, hq⟩ := hsome hP
    subst hr
    exact ⟨iff_of_true rfl hP, fun r' h => by cases h; exact hq⟩
  · rw [hnone hP]
    exact ⟨iff_of_false Bool.false_ne_true hP, fun r h => by cases h⟩

theorem iovec_lists_as_byte_sequences :
    (∀ (iovecs : List Iovec) (size : Nat),
      iovAddrs (iovecsSplit iovecs size).1 ++ iovAddrs (iovecsSplit iovecs size).2 = iovAddrs iovecs ∧
        (iovAddrs (iovecsSplit iovecs size).1).length = min size (iovAddrs iovecs).length) ∧
    (∀ (iovec : List Iovec) (size : Nat),
      ((iovDiscardFrontDirect iovec size).isSome ↔ size < (iovAddrs iovec).length) ∧
        ∀ rest, iovDiscardFrontDirect iovec size = some rest → iovAddrs rest = (iovAddrs iovec).drop size) ∧
    (∀ (iovec : List ElemIovec) (size : Nat),
      ((iovDiscardFront iovec size).isSome ↔ size < (elemAddrs iovec).length) ∧
        ∀ rest, iovDiscardFront iovec size = some rest → elemAddrs rest = (elemAddrs iovec).drop size) ∧
    (∀ (iovec : List ElemIovec) (size : Nat),
      ((iovDiscardBack iovec size).isSome ↔ size < (elemAddrs iovec).length) ∧
        ∀ kept, iovDiscardBack iovec size = some kept →
          elemAddrs kept = (elemAddrs iovec).take ((elemAddrs iovec).length - size)) := by
  refine ⟨fun iovecs size => ?_, fun iovec size => ?_, fun iovec size => ?_, fun iovec size => ?_⟩
  · obtain ⟨hbegin, hend⟩ := iovecsSplit_addrs iovecs size
    rw [hbegin, hend, List.take_append_drop, List.length_take]
    exact ⟨rfl, rfl⟩
  · obtain ⟨hsome, hnone⟩ := iovDiscardFrontDirect_addrs iovec size
    rw [length_iovAddrs]
    exact isSome_iff_of_cases hsome fun h => hnone (Nat.not_lt.1 h)
  · obtain ⟨hsome, hnone⟩ := iovDiscardFront_addrs iovec size
    rw [length_elemAddrs]
    exact isSome_iff_of_cases hsome fun h => hnone (Nat.not_lt.1 h)
  · obtain ⟨hsome, hnone⟩ := iovDiscardBack_addrs iovec size
    rw [length_elemAddrs]
    exact isSome_iff_of_cases hsome fun h => hnone (Nat.not_lt.1 h)

end StratoVirt.Virtio
