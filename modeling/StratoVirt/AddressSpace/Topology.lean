import StratoVirt.AddressSpace.FlatView
import StratoVirt.Lib.Loop

/-!
# Telling the listeners what changed: `update_topology_pass`

`address_space/src/address_space.rs`. When the region tree changes,
`update_topology` renders a new flat view and walks the old and the new view
side by side twice: the first pass (`is_add = false`) sends `DeleteRegion` for
old ranges, the second (`is_add = true`) `AddRegion` for new ones. The walk is
a merge on the ranges' bases with two indices; here it recurses on what is left
of each view, so `olds` is `old_ranges[old_idx..]`.

`FlatRange ==` compares the address range, the owner's type, the ROM-device
mode, the offset and the owner itself, which is a comparison of shared handles.
The value model of `Region` has no handles, so the pass takes the equality as a
parameter, and the results hold for every equality that is an equivalence and
compares address ranges (`RangeEq`), as the source's does.

* `updateTopologyPass_eq`: on views whose bases strictly increase, the delete
  pass sends `DeleteRegion` for exactly the old ranges equal to no new range,
  each once and in order, and the add pass `AddRegion` for exactly the new
  ranges equal to no old one;
* `updateTopologyPass_exact`: this for every pair of flat views satisfying the
  representation invariant with positive sizes, and a listener that starts
  with the old ranges ends with the new ones;
* `updateTopologyPass_equal_base`: with a zero-size range at the base of
  another (which `generate_flatview` can produce), the delete pass deletes a
  range the new view keeps, and the add pass adds it again.
-/

namespace StratoVirt.AddressSpace

open StratoVirt.Lib

/-- `ListenerReqType`: what `call_listeners` asks of every listener. -/
inductive ListenerReqType where
  | addRegion
  | deleteRegion
  | addIoeventfd
  | deleteIoeventfd
  deriving Repr, DecidableEq

/-- `update_topology_pass(old_view, new_view, is_add)`: the listener requests
it makes, in order; `eq` is `FlatRange ==`. An old range before the new one,
or at its base and different, is deleted; equal ranges are passed together;
otherwise the new range comes first and is added. -/
def updateTopologyPass (eq : FlatRange → FlatRange → Bool) (isAdd : Bool) :
    List FlatRange → List FlatRange → List (ListenerReqType × FlatRange)
  | oldR :: olds, newR :: news =>
    if oldR.addrRange.base < newR.addrRange.base ∨
        (oldR.addrRange.base = newR.addrRange.base ∧ eq oldR newR = false) then
      (if isAdd then [] else [(.deleteRegion, oldR)]) ++ updateTopologyPass eq isAdd olds (newR :: news)
    else if eq oldR newR then updateTopologyPass eq isAdd olds news
    else
      -- the new range is before the old one
      (if isAdd then [(.addRegion, newR)] else []) ++ updateTopologyPass eq isAdd (oldR :: olds) news
  | oldR :: olds, [] =>
    (if isAdd then [] else [(.deleteRegion, oldR)]) ++ updateTopologyPass eq isAdd olds []
  | [], newR :: news =>
    (if isAdd then [(.addRegion, newR)] else []) ++ updateTopologyPass eq isAdd [] news
  | [], [] => []
termination_by olds news => olds.length + news.length

/-- What `FlatRange ==` is: an equivalence that compares address ranges. -/
structure RangeEq (eq : FlatRange → FlatRange → Bool) : Prop where
  refl : ∀ a, eq a a = true
  symm : ∀ a b, eq a b = true → eq b a = true
  trans : ∀ a b c, eq a b = true → eq b c = true → eq a c = true
  addrRange : ∀ a b, eq a b = true → a.addrRange = b.addrRange

/-- The bases of a view strictly increase. -/
def StrictBases (fv : List FlatRange) : Prop :=
  fv.Pairwise fun a b => a.addrRange.base < b.addrRange.base

/-- The old ranges the delete pass should delete: those equal to no new one. -/
def deletedRanges (eq : FlatRange → FlatRange → Bool) (old new : List FlatRange) : List FlatRange :=
  old.filter fun o => !new.any (eq o)

/-- The new ranges the add pass should add: those equal to no old one. -/
def addedRanges (eq : FlatRange → FlatRange → Bool) (old new : List FlatRange) : List FlatRange :=
  new.filter fun n => !old.any fun o => eq o n

section Pass

variable {eq : FlatRange → FlatRange → Bool}

/-- Ranges at different bases are not equal. -/
theorem RangeEq.eq_false_of_base_ne (heq : RangeEq eq) {a b : FlatRange}
    (h : a.addrRange.base ≠ b.addrRange.base) : eq a b = false := by
  cases hab : eq a b with
  | false => rfl
  | true => exact absurd (congrArg AddressRange.base (heq.addrRange a b hab)) h

/-- A new range that no remaining old range equals does not change which old
ranges are deleted. -/
theorem deletedRanges_cons_new {olds news : List FlatRange} {newR : FlatRange}
    (h : ∀ o ∈ olds, eq o newR = false) :
    deletedRanges eq olds (newR :: news) = deletedRanges eq olds news := by
  apply List.filter_congr
  intro o ho
  rw [List.any_cons, h o ho, Bool.false_or]

/-- An old range that no remaining new range equals does not change which new
ranges are added. -/
theorem addedRanges_cons_old {olds news : List FlatRange} {oldR : FlatRange}
    (h : ∀ n ∈ news, eq oldR n = false) :
    addedRanges eq (oldR :: olds) news = addedRanges eq olds news := by
  apply List.filter_congr
  intro n hn
  rw [List.any_cons, h n hn, Bool.false_or]

/-- An old range equal to no new one is deleted, ahead of the rest. -/
theorem deletedRanges_cons_old {olds news : List FlatRange} {oldR : FlatRange}
    (h : ∀ n ∈ news, eq oldR n = false) :
    deletedRanges eq (oldR :: olds) news = oldR :: deletedRanges eq olds news := by
  have hany : news.any (eq oldR) = false := by
    rw [List.any_eq_false]
    intro n hn
    rw [h n hn]
    decide
  rw [deletedRanges, List.filter_cons, hany]
  rfl

/-- A new range equal to no old one is added, ahead of the rest. -/
theorem addedRanges_cons_new {olds news : List FlatRange} {newR : FlatRange}
    (h : ∀ o ∈ olds, eq o newR = false) :
    addedRanges eq olds (newR :: news) = newR :: addedRanges eq olds news := by
  have hany : (olds.any fun o => eq o newR) = false := by
    rw [List.any_eq_false]
    intro o ho
    rw [h o ho]
    decide
  rw [addedRanges, List.filter_cons, hany]
  rfl

/-- An old range equal to the new range at hand is not deleted. -/
theorem deletedRanges_cons_of_eq {olds news : List FlatRange} {oldR newR : FlatRange}
    (h : eq oldR newR = true) :
    deletedRanges eq (oldR :: olds) (newR :: news) = deletedRanges eq olds (newR :: news) := by
  rw [deletedRanges, List.filter_cons, List.any_cons, h, Bool.true_or]
  rfl

/-- A new range equal to the old range at hand is not added. -/
theorem addedRanges_cons_of_eq {olds news : List FlatRange} {oldR newR : FlatRange}
    (h : eq oldR newR = true) :
    addedRanges eq (oldR :: olds) (newR :: news) = addedRanges eq (oldR :: olds) news := by
  rw [addedRanges, List.filter_cons, List.any_cons, h, Bool.true_or]
  rfl

/-- **The passes.** On views whose bases strictly increase, the delete pass
deletes exactly the old ranges equal to no new one and the add pass adds
exactly the new ranges equal to no old one, each once and in view order. -/
theorem updateTopologyPass_eq (heq : RangeEq eq) (isAdd : Bool) :
    ∀ (old new : List FlatRange), StrictBases old → StrictBases new →
      updateTopologyPass eq isAdd old new =
        if isAdd then (addedRanges eq old new).map (ListenerReqType.addRegion, ·)
        else (deletedRanges eq old new).map (ListenerReqType.deleteRegion, ·)
  | oldR :: olds, newR :: news, hold, hnew => by
    rw [StrictBases, List.pairwise_cons] at hold hnew
    have ihOld := updateTopologyPass_eq heq isAdd olds (newR :: news) hold.2 (List.pairwise_cons.2 hnew)
    have ihNew := updateTopologyPass_eq heq isAdd (oldR :: olds) news (List.pairwise_cons.2 hold) hnew.2
    have ihBoth := updateTopologyPass_eq heq isAdd olds news hold.2 hnew.2
    rw [updateTopologyPass]
    by_cases hdel : oldR.addrRange.base < newR.addrRange.base ∨
        (oldR.addrRange.base = newR.addrRange.base ∧ eq oldR newR = false)
    · -- the old range comes first, or sits at the new one's base and differs: it is equal to no new range
      have hgone : ∀ n ∈ newR :: news, eq oldR n = false := by
        intro n hn
        rcases List.mem_cons.1 hn with rfl | hn
        · rcases hdel with hlt | ⟨-, hne⟩
          · exact heq.eq_false_of_base_ne (Nat.ne_of_lt hlt)
          · exact hne
        · have := hnew.1 n hn
          exact heq.eq_false_of_base_ne (by omega)
      rw [if_pos hdel, ihOld]
      cases isAdd
      · simp only [Bool.false_eq_true, if_false, deletedRanges_cons_old hgone, List.map_cons,
          List.singleton_append]
      · simp only [if_true, addedRanges_cons_old hgone, List.nil_append]
    · rw [if_neg hdel]
      by_cases heqR : eq oldR newR = true
      · -- equal ranges: neither is sent, and neither equals a later range of the other view
        have hbase := congrArg AddressRange.base (heq.addrRange oldR newR heqR)
        have holds : ∀ o ∈ olds, eq o newR = false := fun o ho => by
          have := hold.1 o ho
          exact heq.eq_false_of_base_ne (by omega)
        have hnews : ∀ n ∈ news, eq oldR n = false := fun n hn => by
          have := hnew.1 n hn
          exact heq.eq_false_of_base_ne (by omega)
        rw [if_pos heqR, ihBoth]
        cases isAdd
        · simp only [Bool.false_eq_true, if_false, deletedRanges_cons_of_eq heqR, deletedRanges_cons_new holds]
        · simp only [if_true, addedRanges_cons_of_eq heqR, addedRanges_cons_old hnews]
      · -- the new range comes first: it is equal to no old range
        have hlt : newR.addrRange.base < oldR.addrRange.base := by
          rcases Nat.lt_or_ge oldR.addrRange.base newR.addrRange.base with h | h
          · exact absurd (Or.inl h) hdel
          · by_contra hge
            exact hdel (Or.inr ⟨by omega, Bool.eq_false_iff.2 heqR⟩)
        have hnone : ∀ o ∈ oldR :: olds, eq o newR = false := by
          intro o ho
          rcases List.mem_cons.1 ho with rfl | ho
          · exact Bool.eq_false_iff.2 heqR
          · have := hold.1 o ho
            exact heq.eq_false_of_base_ne (by omega)
        rw [if_neg heqR, ihNew]
        cases isAdd
        · simp only [Bool.false_eq_true, if_false, deletedRanges_cons_new hnone, List.nil_append]
        · simp only [if_true, addedRanges_cons_new hnone, List.map_cons, List.singleton_append]
  | oldR :: olds, [], hold, _ => by
    rw [StrictBases, List.pairwise_cons] at hold
    rw [updateTopologyPass, updateTopologyPass_eq heq isAdd olds [] hold.2 List.Pairwise.nil]
    have hgone : ∀ n ∈ ([] : List FlatRange), eq oldR n = false := fun _ hn => by cases hn
    cases isAdd
    · simp only [Bool.false_eq_true, if_false, deletedRanges_cons_old hgone, List.map_cons,
        List.singleton_append]
    · simp [addedRanges]
  | [], newR :: news, _, hnew => by
    rw [StrictBases, List.pairwise_cons] at hnew
    rw [updateTopologyPass, updateTopologyPass_eq heq isAdd [] news List.Pairwise.nil hnew.2]
    have hnone : ∀ o ∈ ([] : List FlatRange), eq o newR = false := fun _ ho => by cases ho
    cases isAdd
    · simp [deletedRanges]
    · simp only [if_true, addedRanges_cons_new hnone, List.map_cons, List.singleton_append]
  | [], [], _, _ => by
    rw [updateTopologyPass]
    cases isAdd <;> simp [deletedRanges, addedRanges]
termination_by old new => old.length + new.length

/-- A view of positive sizes under the representation invariant has strictly
increasing bases. -/
theorem strictBases_of_inv {fv : List FlatRange} (hinv : FlatViewInv fv) (hpos : Positive fv) :
    StrictBases fv :=
  hinv.sorted.imp_of_mem fun ha _ hab => by
    have := hpos _ ha
    unfold FlatRange.Before at hab
    omega

/-! ## What a listener ends with -/

/-- A listener that keeps the ranges it was told about: `AddRegion` adds one,
`DeleteRegion` drops every range equal to the one named. -/
def listenerApply (eq : FlatRange → FlatRange → Bool) (st : List FlatRange) :
    ListenerReqType × FlatRange → List FlatRange
  | (.addRegion, r) => st ++ [r]
  | (.deleteRegion, r) => st.filter fun x => !eq x r
  | _ => st

/-- Deleting ranges one after the other drops every range equal to one of them. -/
theorem foldl_listenerApply_delete (ds st : List FlatRange) :
    (ds.map (ListenerReqType.deleteRegion, ·)).foldl (listenerApply eq) st =
      st.filter fun x => !ds.any (eq x) := by
  induction ds generalizing st with
  | nil => exact (List.filter_eq_self.2 fun _ _ => rfl).symm
  | cons d ds ih =>
    rw [List.map_cons, List.foldl_cons, listenerApply, ih, List.filter_filter]
    apply List.filter_congr
    intro x _
    rw [List.any_cons, Bool.not_or, Bool.and_comm]

/-- Adding ranges one after the other appends them. -/
theorem foldl_listenerApply_add (as st : List FlatRange) :
    (as.map (ListenerReqType.addRegion, ·)).foldl (listenerApply eq) st = st ++ as := by
  induction as generalizing st with
  | nil => simp
  | cons a as ih => rw [List.map_cons, List.foldl_cons, listenerApply, ih, List.append_assoc, List.singleton_append]

/-- After the delete pass's requests, a listener that had the old ranges keeps
exactly those equal to a new range. -/
theorem filter_deletedRanges (heq : RangeEq eq) (old new : List FlatRange) :
    (old.filter fun x => !(deletedRanges eq old new).any (eq x)) = old.filter fun x => new.any (eq x) := by
  apply List.filter_congr
  intro x hx
  cases hnew : new.any (eq x) with
  | true =>
    -- a deleted range equal to `x` would be equal to the new range `x` is equal to
    obtain ⟨n, hn, hxn⟩ := List.any_eq_true.1 hnew
    rw [Bool.not_eq_true', List.any_eq_false]
    intro d hd hxd
    rw [deletedRanges, List.mem_filter, Bool.not_eq_true', List.any_eq_false] at hd
    exact hd.2 n hn (heq.trans d x n (heq.symm x d hxd) hxn)
  | false =>
    -- `x` itself is deleted
    have hxd : x ∈ deletedRanges eq old new := by
      rw [deletedRanges, List.mem_filter, hnew]
      exact ⟨hx, rfl⟩
    rw [Bool.not_eq_false', List.any_eq_true]
    exact ⟨x, hxd, heq.refl x⟩

/-- **The listener.** A listener that starts with the old ranges and receives
the delete pass's requests and then the add pass's holds, up to `==`, exactly
the new ranges. -/
theorem listener_ends_new (heq : RangeEq eq) (old new : List FlatRange) (y : FlatRange) :
    (((deletedRanges eq old new).map (ListenerReqType.deleteRegion, ·) ++
        (addedRanges eq old new).map (ListenerReqType.addRegion, ·)).foldl (listenerApply eq) old).any (eq y) =
      new.any (eq y) := by
  rw [List.foldl_append, foldl_listenerApply_delete, foldl_listenerApply_add, filter_deletedRanges heq]
  apply Bool.eq_iff_iff.2
  rw [List.any_append, Bool.or_eq_true, List.any_eq_true, List.any_eq_true, List.any_eq_true]
  constructor
  · rintro (⟨x, hx, hyx⟩ | ⟨x, hx, hyx⟩)
    · -- a kept old range is equal to a new one
      obtain ⟨hxo, hxn⟩ := List.mem_filter.1 hx
      obtain ⟨n, hn, hxn'⟩ := List.any_eq_true.1 hxn
      exact ⟨n, hn, heq.trans y x n hyx hxn'⟩
    · exact ⟨x, (List.mem_filter.1 hx).1, hyx⟩
  · rintro ⟨n, hn, hyn⟩
    cases hold : old.any fun o => eq o n with
    | true =>
      -- an old range equal to `n` was kept
      obtain ⟨o, ho, hon⟩ := List.any_eq_true.1 hold
      refine Or.inl ⟨o, List.mem_filter.2 ⟨ho, List.any_eq_true.2 ⟨n, hn, hon⟩⟩, ?_⟩
      exact heq.trans y n o hyn (heq.symm o n hon)
    | false =>
      -- otherwise `n` was added
      refine Or.inr ⟨n, ?_, hyn⟩
      rw [addedRanges, List.mem_filter, hold]
      exact ⟨hn, rfl⟩

/-- **`update_topology`'s two passes.** For an old and a new flat view that
both satisfy the representation invariant with positive sizes, the first pass
sends `DeleteRegion` for exactly the old ranges equal to no new one, the second
`AddRegion` for exactly the new ranges equal to no old one, each once and in
order, and a listener that held the old ranges then holds the new ones. -/
theorem updateTopologyPass_exact (heq : RangeEq eq) {old new : List FlatRange}
    (hold : FlatViewInv old) (hposOld : Positive old) (hnew : FlatViewInv new) (hposNew : Positive new) :
    updateTopologyPass eq false old new = (deletedRanges eq old new).map (ListenerReqType.deleteRegion, ·) ∧
      updateTopologyPass eq true old new = (addedRanges eq old new).map (ListenerReqType.addRegion, ·) ∧
      ∀ y, ((updateTopologyPass eq false old new ++ updateTopologyPass eq true old new).foldl
        (listenerApply eq) old).any (eq y) = new.any (eq y) := by
  have hsOld := strictBases_of_inv hold hposOld
  have hsNew := strictBases_of_inv hnew hposNew
  have hdel : updateTopologyPass eq false old new =
      (deletedRanges eq old new).map (ListenerReqType.deleteRegion, ·) := by
    rw [updateTopologyPass_eq heq false old new hsOld hsNew, if_neg Bool.false_ne_true]
  have hadd : updateTopologyPass eq true old new =
      (addedRanges eq old new).map (ListenerReqType.addRegion, ·) := by
    rw [updateTopologyPass_eq heq true old new hsOld hsNew, if_pos rfl]
  refine ⟨hdel, hadd, fun y => ?_⟩
  rw [hdel, hadd]
  exact listener_ends_new heq old new y

end Pass

/-! ## A computable `FlatRange ==` -/

/-- `FlatRange ==` with the owner compared by its type, the part of the owner
comparison the value model can make. -/
def FlatRange.valueEq (a b : FlatRange) : Bool :=
  a.addrRange == b.addrRange && a.owner.regionType == b.owner.regionType &&
    a.romDevRomd.getD false == b.romDevRomd.getD false && a.offsetInRegion == b.offsetInRegion

theorem rangeEq_valueEq : RangeEq FlatRange.valueEq := by
  refine ⟨fun a => by simp [FlatRange.valueEq], fun a b h => ?_, fun a b c hab hbc => ?_, fun a b h => ?_⟩
  · simp only [FlatRange.valueEq, Bool.and_eq_true, beq_iff_eq] at h ⊢
    exact ⟨⟨⟨h.1.1.1.symm, h.1.1.2.symm⟩, h.1.2.symm⟩, h.2.symm⟩
  · simp only [FlatRange.valueEq, Bool.and_eq_true, beq_iff_eq] at hab hbc ⊢
    exact ⟨⟨⟨hab.1.1.1.trans hbc.1.1.1, hab.1.1.2.trans hbc.1.1.2⟩, hab.1.2.trans hbc.1.2⟩, hab.2.trans hbc.2⟩
  · simp only [FlatRange.valueEq, Bool.and_eq_true, beq_iff_eq] at h
    exact h.1.1.1

/-- A RAM range at `[0, 0x1000)` giving way to an I/O range at
`[0x1000, 0x2000)`: the delete pass deletes the RAM range. -/
theorem updateTopologyPass_exact_swap :
    updateTopologyPass FlatRange.valueEq false [⟨⟨0, 0x1000⟩, Region.initRamRegion 0x1000, 0, none⟩]
        [⟨⟨0x1000, 0x1000⟩, Region.initIoRegion 0x1000, 0, none⟩] =
      (deletedRanges FlatRange.valueEq [⟨⟨0, 0x1000⟩, Region.initRamRegion 0x1000, 0, none⟩]
        [⟨⟨0x1000, 0x1000⟩, Region.initIoRegion 0x1000, 0, none⟩]).map (ListenerReqType.deleteRegion, ·) :=
  (updateTopologyPass_exact rangeEq_valueEq
    ⟨List.pairwise_singleton _ _, fun x hx => by rw [List.mem_singleton.1 hx]; decide⟩
    (fun x hx => by rw [List.mem_singleton.1 hx]; decide)
    ⟨List.pairwise_singleton _ _, fun x hx => by rw [List.mem_singleton.1 hx]; decide⟩
    (fun x hx => by rw [List.mem_singleton.1 hx]; decide)).1

/-! ## Ranges of size zero -/

/-- A new view that puts a range `z` at the base of a range `x` both views
hold, with `z` different from `x` (as a zero-size range is): the delete pass
deletes `x`, and the add pass adds `z` and `x` again. -/
theorem updateTopologyPass_equal_base {eq : FlatRange → FlatRange → Bool} {x z : FlatRange}
    (hne : eq x z = false) (hbase : z.addrRange.base = x.addrRange.base) :
    updateTopologyPass eq false [x] [z, x] = [(.deleteRegion, x)] ∧
      updateTopologyPass eq true [x] [z, x] = [(.addRegion, z), (.addRegion, x)] := by
  have hfirst : x.addrRange.base < z.addrRange.base ∨ (x.addrRange.base = z.addrRange.base ∧ eq x z = false) :=
    Or.inr ⟨hbase.symm, hne⟩
  constructor
  · rw [updateTopologyPass, if_pos hfirst]
    simp [updateTopologyPass]
  · rw [updateTopologyPass, if_pos hfirst]
    simp [updateTopologyPass]

/-- The flat views of a container of `0x3000` bytes holding an I/O leaf of
`0x1000` bytes at `0x2000` (priority 2) and one at `0x1000` (priority 0),
before and after an empty I/O leaf is added at `0x1000` (priority 1). -/
def zeroSizeLeafViews : Except AddressSpaceError (List FlatRange × List FlatRange) := do
  let old ← (Region.initContainerRegion 0x3000).addSubregionNotUpdate
    ((Region.initIoRegion 0x1000).setPriority 2) 0x2000
  let old ← old.addSubregionNotUpdate (Region.initIoRegion 0x1000) 0x1000
  let new ← old.addSubregionNotUpdate ((Region.initIoRegion 0).setPriority 1) 0x1000
  let oldView ← old.generateFlatview 0 ⟨0, old.size⟩
  let newView ← new.generateFlatview 0 ⟨0, new.size⟩
  pure (oldView, newView)

/-- `generate_flatview` renders the empty leaf of `zeroSizeLeafViews` as a
zero-size range at the base of the `0x1000` range, which both views hold. The
delete pass deletes that range although the new view keeps it, and the add
pass adds it back after the empty range. -/
theorem updateTopologyPass_zero_size_readded :
    zeroSizeLeafViews.map (fun v => (v.1.map FlatRange.addrRange, v.2.map FlatRange.addrRange)) =
        .ok ([⟨0x1000, 0x1000⟩, ⟨0x2000, 0x1000⟩],
          [⟨0x1000, 0⟩, ⟨0x1000, 0x1000⟩, ⟨0x2000, 0x1000⟩]) ∧
      zeroSizeLeafViews.map (fun v =>
          (updateTopologyPass FlatRange.valueEq false v.1 v.2).map (fun q => (q.1, q.2.addrRange))) =
        .ok [(.deleteRegion, ⟨0x1000, 0x1000⟩)] ∧
      zeroSizeLeafViews.map (fun v =>
          (updateTopologyPass FlatRange.valueEq false v.1 v.2).all
            (fun q => v.2.any (FlatRange.valueEq q.2))) = .ok true ∧
      zeroSizeLeafViews.map (fun v =>
          (updateTopologyPass FlatRange.valueEq true v.1 v.2).map (fun q => (q.1, q.2.addrRange))) =
        .ok [(.addRegion, ⟨0x1000, 0⟩), (.addRegion, ⟨0x1000, 0x1000⟩)] := by
  refine ⟨by decide +kernel, by decide +kernel, by decide +kernel, by decide +kernel⟩

/-! ## Ioeventfds: `update_ioeventfds_pass`

`update_ioeventfds` collects the ioeventfds of the new flat view in view order
and walks them beside the registered ones. The loop compares the two current
entries with `RegionIoEventFd ==`; otherwise it deletes the old entry unless it
lies after the new one, and adds the new entry unless it lies after the old
one, both in the same pass. Entries at one address are neither after the
other, so the loop can add an entry still registered; and two different empty
entries at one address are each after the other, so the loop stops moving. -/

/-- `RegionIoEventFd`: `fd` is the eventfd's raw descriptor, which `==`
compares. -/
structure RegionIoEventFd where
  fd : Nat
  addrRange : AddressRange
  dataMatch : Bool
  data : Nat
  deriving Repr, DecidableEq

/-- `RegionIoEventFd::after`: this entry starts where the other ends or
later. The end is a `u64` sum, which wraps in the release build. -/
def RegionIoEventFd.after (self other : RegionIoEventFd) : Bool :=
  decide (self.addrRange.base ≥ wrapAdd other.addrRange.base other.addrRange.size)

/-- The test of both `if`s of the loop: `x` is there, and `y` is not or `x` is
not after it. -/
def sendFirst : Option RegionIoEventFd → Option RegionIoEventFd → Bool
  | some _, none => true
  | some x, some y => !x.after y
  | none, _ => false

/-- The loop's state: what is left of the old and the new entries (the source's
`old_idx` and `new_idx`), and the requests made so far. -/
structure IoeventfdPass where
  olds : List RegionIoEventFd
  news : List RegionIoEventFd
  reqs : List (ListenerReqType × RegionIoEventFd)

/-- One pass of the loop of `update_ioeventfds_pass`. -/
def ioeventfdsStep (s : IoeventfdPass) : Step IoeventfdPass Empty :=
  match s.olds, s.news with
  | [], [] => .exit s
  | olds, news =>
    if olds.head? = news.head? then .next ⟨olds.tail, news.tail, s.reqs⟩
    else
      -- delete the old entry unless it is after the new one; add the new one unless it is after the old
      let del := sendFirst olds.head? news.head?
      let add := sendFirst news.head? olds.head?
      .next ⟨if del then olds.tail else olds, if add then news.tail else news,
        s.reqs ++ (if del then olds.head?.toList.map (.deleteIoeventfd, ·) else []) ++
          (if add then news.head?.toList.map (.addIoeventfd, ·) else [])⟩

/-- `update_ioeventfds_pass(new_evtfds)` with `old` registered: the requests it
makes, when the loop ends within `fuel` passes. -/
def updateIoeventfdsPass (old new : List RegionIoEventFd) (fuel : Nat) :
    Option (List (ListenerReqType × RegionIoEventFd)) :=
  match Loop.runFor ioeventfdsStep fuel ⟨old, new, []⟩ with
  | some (.exit s) => some s.reqs
  | _ => none

/-- The registered ioeventfds as a set: an add registers an entry not yet
there, a delete drops it. -/
def ioeventfdSetApply (set : List RegionIoEventFd) : ListenerReqType × RegionIoEventFd → List RegionIoEventFd
  | (.addIoeventfd, fd) => if fd ∈ set then set else set ++ [fd]
  | (.deleteIoeventfd, fd) => set.filter (· ≠ fd)
  | _ => set

/-- Two different empty entries at one address, each at the head of its list:
neither is sent and the loop goes round from the same state, so
`update_ioeventfds_pass` never returns. -/
theorem updateIoeventfdsPass_spins {a b : RegionIoEventFd} (hne : a ≠ b) (ha : a.addrRange.size = 0)
    (hb : b.addrRange.size = 0) (hbase : a.addrRange.base = b.addrRange.base)
    (olds news : List RegionIoEventFd) (fuel : Nat) :
    updateIoeventfdsPass (a :: olds) (b :: news) fuel = none := by
  have hstuck : ioeventfdsStep ⟨a :: olds, b :: news, []⟩ = .next ⟨a :: olds, b :: news, []⟩ := by
    have hab : a.after b = true := by simp [RegionIoEventFd.after, hb, hbase, wrapAdd, Nat.mod_le]
    have hba : b.after a = true := by simp [RegionIoEventFd.after, ha, hbase, wrapAdd, Nat.mod_le]
    simp [ioeventfdsStep, hne, sendFirst, hab, hba]
  rw [updateIoeventfdsPass, Loop.runFor_of_stuck hstuck fuel]

/-- Three data-matched entries at one address (a virtio-mmio device's queue
notifiers), of which the new list drops the middle one: the pass deletes the
middle entry and adds the last, which is still registered, then deletes the
last. The last entry is kept in the new list, yet the registered set ends
without it. -/
theorem updateIoeventfdsPass_readds_registered :
    updateIoeventfdsPass [⟨10, ⟨0x50, 4⟩, true, 0⟩, ⟨11, ⟨0x50, 4⟩, true, 1⟩, ⟨12, ⟨0x50, 4⟩, true, 2⟩]
        [⟨10, ⟨0x50, 4⟩, true, 0⟩, ⟨12, ⟨0x50, 4⟩, true, 2⟩] 4 =
      some [(.deleteIoeventfd, ⟨11, ⟨0x50, 4⟩, true, 1⟩), (.addIoeventfd, ⟨12, ⟨0x50, 4⟩, true, 2⟩),
        (.deleteIoeventfd, ⟨12, ⟨0x50, 4⟩, true, 2⟩)] ∧
    ⟨12, ⟨0x50, 4⟩, true, 2⟩ ∈ [(ListenerReqType.deleteIoeventfd, (⟨11, ⟨0x50, 4⟩, true, 1⟩ : RegionIoEventFd))].foldl
        ioeventfdSetApply [⟨10, ⟨0x50, 4⟩, true, 0⟩, ⟨11, ⟨0x50, 4⟩, true, 1⟩, ⟨12, ⟨0x50, 4⟩, true, 2⟩] ∧
    ⟨12, ⟨0x50, 4⟩, true, 2⟩ ∉ [(ListenerReqType.deleteIoeventfd, (⟨11, ⟨0x50, 4⟩, true, 1⟩ : RegionIoEventFd)),
        (.addIoeventfd, ⟨12, ⟨0x50, 4⟩, true, 2⟩), (.deleteIoeventfd, ⟨12, ⟨0x50, 4⟩, true, 2⟩)].foldl
        ioeventfdSetApply [⟨10, ⟨0x50, 4⟩, true, 0⟩, ⟨11, ⟨0x50, 4⟩, true, 1⟩, ⟨12, ⟨0x50, 4⟩, true, 2⟩] := by
  decide

end StratoVirt.AddressSpace
