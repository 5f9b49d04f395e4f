import StratoVirt.AddressSpace.Region

/-!
# The rendered flat view is sorted and disjoint; zero-size regions break the rest

`generate_flatview` is meant to produce ranges that are strictly sorted by
base, pairwise disjoint and of positive size: `find_flatrange` binary-searches
the view, and the read and write loops step through it range by range.

The index loop of `render_terminate_region` is first shown equal to a walk over
the list (`renderTerminateRegion_eq`, from the conserved-quantity rule of
`Lib.Loop`): it keeps the ranges before `index` and rewrites the rest. The walk
keeps `FlatViewInv` — each range ends before the next one starts and below
`2^64` — and it adds only pieces of the range it was asked to fill
(`terminateWalk_mem`). A mutual induction over the region tree then gives

> `generateFlatview_inv`: for every region tree, the flat view of the root is
> rendered without error and satisfies `FlatViewInv`; if no region of the tree
> has size zero, every range of it has positive size.

and from it `generateFlatview_wellFormed`: strictly sorted, pairwise disjoint,
positive. The size condition is needed: a leaf of size zero strictly inside its
container gets a zero-size intersection, and the gap branch of the loop
inserts a piece of size `min(remain, …) = 0` before the next range, where the
insertion after the loop checks `remain > 0`
(`generateFlatview_zero_size_leaves`).
-/

namespace StratoVirt.AddressSpace

open StratoVirt.Lib

/-! ## The loop as a walk over the vector -/

/-- The piece of `owner` that fills the gap from `start` up to `fr`, if `fr`
starts after `start`. -/
def gapBefore (owner : Region) (start remain offsetInRegion : Nat) (fr : FlatRange) :
    List FlatRange :=
  if start < fr.addrRange.base then
    [⟨⟨start, min remain (wrapSub fr.addrRange.base start)⟩, owner, offsetInRegion,
      owner.getRomDeviceRomd⟩]
  else []

/-- What the loop of `render_terminate_region` and the insertion after it do
to the ranges from `index` on: ranges ending before `start` are kept, each
range met gets the gap before it filled and is jumped over, and what remains at
the end is appended. -/
def terminateWalk (owner : Region) (start remain offsetInRegion : Nat) :
    List FlatRange → List FlatRange
  | [] =>
    if 0 < remain then [⟨⟨start, remain⟩, owner, offsetInRegion, owner.getRomDeviceRomd⟩] else []
  | fr :: rest =>
    if start ≥ fr.addrRange.endAddr then
      fr :: terminateWalk owner start remain offsetInRegion rest
    else
      let step := min (wrapSub fr.addrRange.endAddr start) remain
      if remain - step = 0 then gapBefore owner start remain offsetInRegion fr ++ fr :: rest
      else
        gapBefore owner start remain offsetInRegion fr ++ fr ::
          terminateWalk owner (wrapAdd start step) (remain - step) (wrapAdd offsetInRegion step) rest

theorem terminateWalk_skip {owner : Region} {start remain off : Nat} {fr : FlatRange}
    (rest : List FlatRange) (h : fr.addrRange.endAddr ≤ start) :
    terminateWalk owner start remain off (fr :: rest) =
      fr :: terminateWalk owner start remain off rest := by
  rw [terminateWalk, if_pos h]

theorem terminateWalk_break {owner : Region} {start remain off : Nat} {fr : FlatRange}
    (rest : List FlatRange) (h : start < fr.addrRange.endAddr)
    (hz : remain - min (wrapSub fr.addrRange.endAddr start) remain = 0) :
    terminateWalk owner start remain off (fr :: rest) =
      gapBefore owner start remain off fr ++ fr :: rest := by
  rw [terminateWalk, if_neg (Nat.not_le.mpr h)]
  exact if_pos hz

theorem terminateWalk_cover {owner : Region} {start remain off : Nat} {fr : FlatRange}
    (rest : List FlatRange) (h : start < fr.addrRange.endAddr)
    (hz : remain - min (wrapSub fr.addrRange.endAddr start) remain ≠ 0) :
    terminateWalk owner start remain off (fr :: rest) =
      gapBefore owner start remain off fr ++ fr ::
        terminateWalk owner (wrapAdd start (min (wrapSub fr.addrRange.endAddr start) remain))
          (remain - min (wrapSub fr.addrRange.endAddr start) remain)
          (wrapAdd off (min (wrapSub fr.addrRange.endAddr start) remain)) rest := by
  rw [terminateWalk, if_neg (Nat.not_le.mpr h)]
  exact if_neg hz

theorem insertIdx_eq_take_drop {α : Type} (l : List α) (x : α) {i : Nat} (h : i ≤ l.length) :
    l.insertIdx i x = l.take i ++ x :: l.drop i := by
  induction l generalizing i with
  | nil =>
    simp only [List.length_nil, Nat.le_zero] at h
    subst h
    rfl
  | cons y l ih =>
    cases i with
    | zero => rfl
    | succ i =>
      simp only [List.length_cons, Nat.add_le_add_iff_right] at h
      simp only [List.insertIdx_succ_cons, ih h, List.take_succ_cons, List.drop_succ_cons,
        List.cons_append]

theorem take_drop_middle {α : Type} {n : Nat} (A B D : List α) (x : α) (hA : A.length = n) :
    (A ++ B ++ x :: D).take (n + B.length + 1) = A ++ B ++ [x] ∧
      (A ++ B ++ x :: D).drop (n + B.length + 1) = D := by
  subst hA
  constructor
  · rw [List.append_assoc, List.take_append, List.take_of_length_le (by omega),
      show A.length + B.length + 1 - A.length = B.length + 1 by omega, List.take_append,
      List.take_of_length_le (by omega), show B.length + 1 - B.length = 1 by omega]
    simp
  · rw [List.append_assoc, List.drop_append, List.drop_of_length_le (by omega),
      show A.length + B.length + 1 - A.length = B.length + 1 by omega, List.drop_append,
      List.drop_of_length_le (by omega), show B.length + 1 - B.length = 1 by omega]
    simp

namespace TerminateState

/-- Covering `fr` only moves the cursors; the cut of the vector is the gap. -/
theorem cover_cursors (s : TerminateState) (owner : Region) (fr : FlatRange) :
    (s.cover owner fr).start = wrapAdd s.start (min (wrapSub fr.addrRange.endAddr s.start) s.remain) ∧
      (s.cover owner fr).remain = s.remain - min (wrapSub fr.addrRange.endAddr s.start) s.remain ∧
      (s.cover owner fr).offsetInRegion =
        wrapAdd s.offsetInRegion (min (wrapSub fr.addrRange.endAddr s.start) s.remain) := by
  by_cases hg : s.start < fr.addrRange.base
  · rw [cover_of_lt hg]
    simp only [advance_start, advance_remain, advance_offsetInRegion, insertGap_start,
      insertGap_remain, insertGap_offsetInRegion, and_self]
  · rw [cover_of_not_lt hg]
    simp only [advance_start, advance_remain, advance_offsetInRegion, and_self]

/-- Covering the range at `index` puts the gap in front of it. -/
theorem cover_flatView {s : TerminateState} (owner : Region) (h : s.index < s.flatView.length) :
    (s.cover owner s.flatView[s.index]).flatView = s.flatView.take s.index ++
        gapBefore owner s.start s.remain s.offsetInRegion s.flatView[s.index] ++
        s.flatView.drop s.index ∧
      (s.cover owner s.flatView[s.index]).index =
        s.index + (gapBefore owner s.start s.remain s.offsetInRegion s.flatView[s.index]).length := by
  unfold gapBefore
  by_cases hg : s.start < s.flatView[s.index].addrRange.base
  · rw [cover_of_lt hg, if_pos hg, advance_flatView, advance_index, insertGap_flatView,
      insertGap_index, insertIdx_eq_take_drop _ _ (Nat.le_of_lt h), List.append_assoc,
      List.singleton_append, List.length_singleton]
    exact ⟨rfl, rfl⟩
  · rw [cover_of_not_lt hg, if_neg hg, advance_flatView, advance_index, List.append_nil,
      List.take_append_drop, List.length_nil, Nat.add_zero]
    exact ⟨rfl, rfl⟩

end TerminateState

/-- Everything one pass of the loop body can do: skip
the range at `index`, cover it and leave or go on, or leave at the end. -/
theorem terminateStep_cases (owner : Region) (s : TerminateState) :
    (∃ h : s.index < s.flatView.length, s.flatView[s.index].addrRange.endAddr ≤ s.start ∧
      terminateStep owner s = .next { s with index := s.index + 1 }) ∨
    (∃ h : s.index < s.flatView.length, s.start < s.flatView[s.index].addrRange.endAddr ∧
      (s.cover owner s.flatView[s.index]).remain = 0 ∧
      terminateStep owner s = .exit (s.cover owner s.flatView[s.index])) ∨
    (∃ h : s.index < s.flatView.length, s.start < s.flatView[s.index].addrRange.endAddr ∧
      (s.cover owner s.flatView[s.index]).remain ≠ 0 ∧
      terminateStep owner s = .next { s.cover owner s.flatView[s.index] with
        index := (s.cover owner s.flatView[s.index]).index + 1 }) ∨
    (s.flatView.length ≤ s.index ∧ terminateStep owner s = .exit s) := by
  by_cases h : s.index < s.flatView.length
  · by_cases hskip : s.flatView[s.index].addrRange.endAddr ≤ s.start
    · exact Or.inl ⟨h, hskip, by simp [terminateStep, h, hskip]⟩
    · by_cases hz : (s.cover owner s.flatView[s.index]).remain = 0
      · exact Or.inr (Or.inl ⟨h, by omega, hz, by simp [terminateStep, h, hskip, hz]⟩)
      · exact Or.inr (Or.inr (Or.inl ⟨h, by omega, hz, by simp [terminateStep, h, hskip, hz]⟩))
  · exact Or.inr (Or.inr (Or.inr ⟨by omega, by simp [terminateStep, h]⟩))

/-- What the rest of the loop and the insertion after it will produce from
state `s`: the ranges before `index`, then the walk over the others. -/
def terminateRest (owner : Region) (s : TerminateState) : List FlatRange :=
  s.flatView.take s.index ++
    terminateWalk owner s.start s.remain s.offsetInRegion (s.flatView.drop s.index)

/-- What `render_terminate_region` makes of the state the loop leaves in. -/
def terminateFinish (owner : Region) (s : TerminateState) : List FlatRange :=
  if 0 < s.remain then
    s.flatView.insertIdx s.index ⟨⟨s.start, s.remain⟩, owner, s.offsetInRegion, owner.getRomDeviceRomd⟩
  else s.flatView

/-- A pass that goes round again keeps `index` in the vector and leaves
`terminateRest` as it was. -/
theorem terminateStep_next_rest {owner : Region} {s s' : TerminateState}
    (h : terminateStep owner s = .next s') :
    s'.index ≤ s'.flatView.length ∧ terminateRest owner s' = terminateRest owner s := by
  rcases terminateStep_cases owner s with ⟨hlt, hskip, hs⟩ | ⟨_, _, _, hs⟩ | ⟨hlt, hend, hz, hs⟩ |
    ⟨_, hs⟩
  · -- the range at `index` ends before `start`: the walk keeps it
    rw [hs] at h
    cases h
    refine ⟨hlt, ?_⟩
    unfold terminateRest
    simp only
    rw [List.drop_eq_getElem_cons hlt, terminateWalk_skip _ hskip, List.take_add_one,
      List.getElem?_eq_getElem hlt, Option.toList_some, List.append_assoc, List.singleton_append]
  · rw [hs] at h
    cases h
  · -- the range at `index` is covered and something remains
    rw [hs] at h
    cases h
    obtain ⟨hfv, hix⟩ := TerminateState.cover_flatView owner hlt
    obtain ⟨hst, hrm, hoff⟩ := TerminateState.cover_cursors s owner s.flatView[s.index]
    rw [List.drop_eq_getElem_cons hlt] at hfv
    obtain ⟨ht, hd⟩ := take_drop_middle (s.flatView.take s.index)
      (gapBefore owner s.start s.remain s.offsetInRegion s.flatView[s.index])
      (s.flatView.drop (s.index + 1)) s.flatView[s.index]
      (List.length_take_of_le (Nat.le_of_lt hlt))
    refine ⟨?_, ?_⟩
    · simp only [hfv, hix, List.length_append, List.length_cons,
        List.length_take_of_le (Nat.le_of_lt hlt)]
      omega
    · unfold terminateRest
      simp only [hfv, hix, ht, hd, hst, hrm, hoff]
      rw [List.drop_eq_getElem_cons hlt, terminateWalk_cover _ hend (by rw [← hrm]; exact hz)]
      simp
  · rw [hs] at h
    cases h

/-- A pass that leaves the loop leaves what `terminateRest` promised. -/
theorem terminateStep_exit_rest {owner : Region} {s t : TerminateState}
    (hidx : s.index ≤ s.flatView.length) (h : terminateStep owner s = .exit t) :
    terminateFinish owner t = terminateRest owner s := by
  rcases terminateStep_cases owner s with ⟨_, _, hs⟩ | ⟨hlt, hend, hz, hs⟩ | ⟨_, _, _, hs⟩ |
    ⟨hge, hs⟩
  · rw [hs] at h
    cases h
  · -- the range at `index` is covered and nothing remains: `break`
    rw [hs] at h
    cases h
    obtain ⟨hfv, -⟩ := TerminateState.cover_flatView owner hlt
    obtain ⟨-, hrm, -⟩ := TerminateState.cover_cursors s owner s.flatView[s.index]
    unfold terminateFinish terminateRest
    rw [if_neg (by omega), hfv, List.drop_eq_getElem_cons hlt,
      terminateWalk_break _ hend (by rw [← hrm]; exact hz)]
    simp
  · rw [hs] at h
    cases h
  · -- `index` reached the end: the piece that remains goes last
    rw [hs] at h
    cases h
    have heq : s.index = s.flatView.length := by omega
    unfold terminateFinish terminateRest
    rw [heq, List.take_length, List.drop_length, terminateWalk, List.insertIdx_length_self]
    split <;> simp

/-- **The loop is the walk.** When the leaf meets `addrRange`,
`render_terminate_region` returns the walk over the whole vector, from the
start of the intersection, for its size. -/
theorem renderTerminateRegion_eq (r : Region) (base : Nat) (addrRange : AddressRange)
    (flatView : List FlatRange) {i : AddressRange}
    (hi : AddressRange.findIntersection ⟨wrapAdd base r.offset, r.size⟩ addrRange = some i) :
    r.renderTerminateRegion base addrRange flatView =
      .ok (terminateWalk r i.base i.size (wrapSub i.base (wrapAdd base r.offset)) flatView) := by
  obtain ⟨t, hrun, hG⟩ := Loop.run_exit_of_conserved (L := terminateLoop r)
    (fun s => s.index ≤ s.flatView.length) (terminateRest r) (terminateFinish r)
    (fun _ _ _ hb => terminateStep_next_rest hb)
    (fun _ _ hP hb => terminateStep_exit_rest hP hb)
    (fun _ e _ _ _ => nomatch e)
    ⟨flatView, 0, i.base, i.size, wrapSub i.base (wrapAdd base r.offset)⟩ (Nat.zero_le _)
  unfold Region.renderTerminateRegion
  simp only [hi, hrun]
  rw [show terminateRest r ⟨flatView, 0, i.base, i.size, wrapSub i.base (wrapAdd base r.offset)⟩ =
      terminateWalk r i.base i.size (wrapSub i.base (wrapAdd base r.offset)) flatView by
    simp [terminateRest]] at hG
  rw [← hG]
  rfl

/-! ## What the walk adds, and the view invariant -/

/-- `a` ends no later than `b` starts. -/
def FlatRange.Before (a b : FlatRange) : Prop :=
  a.addrRange.base + a.addrRange.size ≤ b.addrRange.base

/-- The representation invariant of a flat view that holds for every tree:
each range ends before every later one starts, and below `2^64`. -/
structure FlatViewInv (fv : List FlatRange) : Prop where
  sorted : fv.Pairwise FlatRange.Before
  bounded : ∀ x ∈ fv, x.addrRange.base + x.addrRange.size < U64_MOD

/-- Every range has positive size. -/
def Positive (fv : List FlatRange) : Prop := ∀ x ∈ fv, 0 < x.addrRange.size

theorem flatViewInv_nil : FlatViewInv [] := ⟨List.Pairwise.nil, fun _ h => nomatch h⟩

section Walk

variable {owner : Region}

theorem mem_gapBefore {start remain off : Nat} {fr y : FlatRange}
    (hfr : fr.addrRange.base < U64_MOD) (hy : y ∈ gapBefore owner start remain off fr) :
    start < fr.addrRange.base ∧ y.addrRange.base = start ∧
      y.addrRange.size = min remain (fr.addrRange.base - start) := by
  unfold gapBefore at hy
  split at hy
  · rename_i hlt
    simp only [List.mem_singleton] at hy
    subst hy
    exact ⟨hlt, rfl, by rw [wrapSub_of_le hfr (Nat.le_of_lt hlt)]⟩
  · cases hy

theorem pairwise_gapBefore {R : FlatRange → FlatRange → Prop} (start remain off : Nat)
    (fr : FlatRange) : (gapBefore owner start remain off fr).Pairwise R := by
  unfold gapBefore
  split
  · exact List.pairwise_singleton R _
  · exact List.Pairwise.nil

/-- Covering a range that does not reach `2^64` jumps to its end, or uses up
what remains. -/
theorem walk_step_eq {start : Nat} (remain : Nat) {fr : FlatRange}
    (hfr : fr.addrRange.base + fr.addrRange.size < U64_MOD)
    (hlt : ¬ start ≥ fr.addrRange.endAddr) :
    min (wrapSub fr.addrRange.endAddr start) remain =
      min (fr.addrRange.base + fr.addrRange.size - start) remain := by
  rw [AddressRange.endAddr_eq hfr] at hlt ⊢
  rw [wrapSub_of_le hfr (by omega)]

/-- **The walk adds only pieces of what it fills**: everything in its output
was in the vector, or lies in `[start, start + remain)`. -/
theorem terminateWalk_mem :
    ∀ (rest : List FlatRange) (start remain off : Nat),
      (∀ x ∈ rest, x.addrRange.base + x.addrRange.size < U64_MOD) →
      start + remain < U64_MOD →
      ∀ y ∈ terminateWalk owner start remain off rest, y ∈ rest ∨
        (start ≤ y.addrRange.base ∧ y.addrRange.base + y.addrRange.size ≤ start + remain) := by
  intro rest
  induction rest with
  | nil =>
    intro start remain off _ _ y hy
    unfold terminateWalk at hy
    split at hy
    · simp only [List.mem_singleton] at hy
      subst hy
      exact Or.inr ⟨Nat.le_refl _, Nat.le_refl _⟩
    · cases hy
  | cons fr rest ih =>
    intro start remain off hb hs y hy
    have hfr := hb fr List.mem_cons_self
    have hrest : ∀ x ∈ rest, x.addrRange.base + x.addrRange.size < U64_MOD :=
      fun x hx => hb x (List.mem_cons_of_mem fr hx)
    unfold terminateWalk at hy
    split at hy
    · -- skipped: `fr` itself, or the walk over the rest
      rcases List.mem_cons.mp hy with rfl | hy
      · exact Or.inl List.mem_cons_self
      · rcases ih start remain off hrest hs y hy with h | h
        · exact Or.inl (List.mem_cons_of_mem fr h)
        · exact Or.inr h
    · rename_i hlt
      have hstep := walk_step_eq remain hfr hlt
      rw [AddressRange.endAddr_eq hfr] at hlt
      -- covered: the gap, `fr`, and the rest or the walk over it after `fr`
      have hgap : ∀ y ∈ gapBefore owner start remain off fr, start ≤ y.addrRange.base ∧
          y.addrRange.base + y.addrRange.size ≤ start + remain := by
        intro y hy
        obtain ⟨-, hyb, hys⟩ := mem_gapBefore (by omega) hy
        omega
      dsimp only at hy
      split at hy
      · rcases List.mem_append.mp hy with hy | hy
        · exact Or.inr (hgap y hy)
        · exact Or.inl hy
      · rcases List.mem_append.mp hy with hy | hy
        · exact Or.inr (hgap y hy)
        · rcases List.mem_cons.mp hy with rfl | hy
          · exact Or.inl List.mem_cons_self
          · rw [hstep] at hy
            have hlt' : start + (fr.addrRange.base + fr.addrRange.size - start) < U64_MOD := by
              omega
            rw [wrapAdd_of_lt (by omega)] at hy
            rcases ih _ _ _ hrest (by omega) y hy with h | h
            · exact Or.inl (List.mem_cons_of_mem fr h)
            · exact Or.inr (by omega)

/-- A gap piece before `fr` ends before anything that starts where `fr` does
or later. -/
theorem before_of_mem_gapBefore {start remain off : Nat} {fr a b : FlatRange}
    (hfr : fr.addrRange.base < U64_MOD) (ha : a ∈ gapBefore owner start remain off fr)
    (hb : fr.addrRange.base ≤ b.addrRange.base) : FlatRange.Before a b := by
  obtain ⟨hlt, hab, has⟩ := mem_gapBefore hfr ha
  unfold FlatRange.Before
  omega

/-- Whatever follows `fr` in a sorted view starts after `fr` does. -/
theorem base_le_of_mem_cons {fr b : FlatRange} {l : List FlatRange}
    (hl : ∀ y ∈ l, FlatRange.Before fr y) (hb : b ∈ fr :: l) :
    fr.addrRange.base ≤ b.addrRange.base := by
  rcases List.mem_cons.mp hb with rfl | hb
  · exact Nat.le_refl _
  · have := hl b hb
    unfold FlatRange.Before at this
    omega

/-- **The walk keeps the view invariant**, whatever it fills. -/
theorem terminateWalk_inv :
    ∀ (rest : List FlatRange) (start remain off : Nat), FlatViewInv rest →
      start + remain < U64_MOD → FlatViewInv (terminateWalk owner start remain off rest) := by
  intro rest
  induction rest with
  | nil =>
    intro start remain off _ hs
    unfold terminateWalk
    split
    · exact ⟨List.pairwise_singleton _ _, fun y hy => by
        simp only [List.mem_singleton] at hy
        subst hy
        exact hs⟩
    · exact flatViewInv_nil
  | cons fr rest ih =>
    intro start remain off hinv hs
    obtain ⟨hfr_rest, hsorted⟩ := List.pairwise_cons.mp hinv.sorted
    have hfr := hinv.bounded fr List.mem_cons_self
    have hrest : FlatViewInv rest :=
      ⟨hsorted, fun x hx => hinv.bounded x (List.mem_cons_of_mem fr hx)⟩
    refine ⟨?_, fun y hy => ?_⟩
    swap
    · rcases terminateWalk_mem (fr :: rest) start remain off hinv.bounded hs y hy with h | h
      · exact hinv.bounded y h
      · omega
    unfold terminateWalk
    split
    · -- skipped: every later piece starts at or after `start`, past the end of `fr`
      rename_i hge
      rw [AddressRange.endAddr_eq hfr] at hge
      refine List.pairwise_cons.mpr ⟨fun y hy => ?_, (ih start remain off hrest hs).sorted⟩
      rcases terminateWalk_mem rest start remain off hrest.bounded hs y hy with h | h
      · exact hfr_rest y h
      · unfold FlatRange.Before
        omega
    · rename_i hlt
      have hstep := walk_step_eq remain hfr hlt
      rw [AddressRange.endAddr_eq hfr] at hlt
      dsimp only
      rw [hstep]
      split
      · -- nothing remains after `fr`: the gap, then the view from `fr` on
        rw [List.pairwise_append]
        exact ⟨pairwise_gapBefore _ _ _ _, hinv.sorted, fun a ha b hb =>
          before_of_mem_gapBefore (by omega) ha (base_le_of_mem_cons hfr_rest hb)⟩
      · -- the walk goes on from the end of `fr`
        have hmin : min (fr.addrRange.base + fr.addrRange.size - start) remain =
            fr.addrRange.base + fr.addrRange.size - start := by omega
        rw [hmin, wrapAdd_of_lt (by omega),
          show start + (fr.addrRange.base + fr.addrRange.size - start) =
            fr.addrRange.base + fr.addrRange.size by omega]
        have hs' : fr.addrRange.base + fr.addrRange.size +
            (remain - (fr.addrRange.base + fr.addrRange.size - start)) < U64_MOD := by omega
        have hafter : ∀ y ∈ terminateWalk owner (fr.addrRange.base + fr.addrRange.size)
            (remain - (fr.addrRange.base + fr.addrRange.size - start))
            (wrapAdd off (fr.addrRange.base + fr.addrRange.size - start)) rest,
            FlatRange.Before fr y := by
          intro y hy
          rcases terminateWalk_mem rest _ _ _ hrest.bounded hs' y hy with h | h
          · exact hfr_rest y h
          · unfold FlatRange.Before
            omega
        rw [List.pairwise_append]
        exact ⟨pairwise_gapBefore _ _ _ _,
          List.pairwise_cons.mpr ⟨hafter, (ih _ _ _ hrest hs').sorted⟩, fun a ha b hb =>
            before_of_mem_gapBefore (by omega) ha (base_le_of_mem_cons hafter hb)⟩

/-- **Filling something keeps the pieces positive**: if the view has no empty
range and something remains to fill, the walk adds no empty piece. -/
theorem terminateWalk_pos :
    ∀ (rest : List FlatRange) (start remain off : Nat),
      (∀ x ∈ rest, x.addrRange.base + x.addrRange.size < U64_MOD) → Positive rest →
      start + remain < U64_MOD → 0 < remain →
      Positive (terminateWalk owner start remain off rest) := by
  intro rest
  induction rest with
  | nil =>
    intro start remain off _ _ _ hr y hy
    unfold terminateWalk at hy
    rw [if_pos hr, List.mem_singleton] at hy
    subst hy
    exact hr
  | cons fr rest ih =>
    intro start remain off hb hpos hs hr y hy
    have hfr := hb fr List.mem_cons_self
    have hrest : ∀ x ∈ rest, x.addrRange.base + x.addrRange.size < U64_MOD :=
      fun x hx => hb x (List.mem_cons_of_mem fr hx)
    have hposr : Positive rest := fun x hx => hpos x (List.mem_cons_of_mem fr hx)
    unfold terminateWalk at hy
    split at hy
    · rcases List.mem_cons.mp hy with rfl | hy
      · exact hpos y List.mem_cons_self
      · exact ih start remain off hrest hposr hs hr y hy
    · rename_i hlt
      have hstep := walk_step_eq remain hfr hlt
      dsimp only at hy
      -- a gap piece is as long as the gap or what remains, both positive
      have hgap : ∀ y ∈ gapBefore owner start remain off fr, 0 < y.addrRange.size := by
        intro y hy
        obtain ⟨hlt', -, hys⟩ := mem_gapBefore (by omega) hy
        omega
      split at hy
      · rcases List.mem_append.mp hy with hy | hy
        · exact hgap y hy
        · exact hpos y hy
      · rename_i hrem
        rcases List.mem_append.mp hy with hy | hy
        · exact hgap y hy
        · rcases List.mem_cons.mp hy with rfl | hy
          · exact hpos y List.mem_cons_self
          · rw [hstep] at hy hrem
            rw [AddressRange.endAddr_eq hfr] at hlt
            rw [wrapAdd_of_lt (by omega)] at hy
            exact ih _ _ _ hrest hposr (by omega) (by omega) y hy

/-- A gap piece is a piece of `owner`, at the offset the walk has reached. -/
theorem owner_of_mem_gapBefore {start remain off : Nat} {fr y : FlatRange}
    (hy : y ∈ gapBefore owner start remain off fr) :
    y.owner = owner ∧ y.offsetInRegion = off := by
  unfold gapBefore at hy
  split at hy
  · rw [List.mem_singleton] at hy
    subst hy
    exact ⟨rfl, rfl⟩
  · cases hy

/-- **The walk cuts its pieces from the owner**: every piece it adds belongs
to `owner` and ends within the first `off + remain` bytes of it. The offset
and the guest address move together, so `off + remain` stays where it was. -/
theorem terminateWalk_piece :
    ∀ (rest : List FlatRange) (start remain off : Nat),
      (∀ x ∈ rest, x.addrRange.base + x.addrRange.size < U64_MOD) →
      start + remain < U64_MOD → off + remain < U64_MOD →
      ∀ y ∈ terminateWalk owner start remain off rest, y ∈ rest ∨
        (y.owner = owner ∧ y.offsetInRegion + y.addrRange.size ≤ off + remain) := by
  intro rest
  induction rest with
  | nil =>
    intro start remain off _ _ _ y hy
    unfold terminateWalk at hy
    split at hy
    · rw [List.mem_singleton] at hy
      subst hy
      exact Or.inr ⟨rfl, Nat.le_refl _⟩
    · cases hy
  | cons fr rest ih =>
    intro start remain off hb hs ho y hy
    have hfr := hb fr List.mem_cons_self
    have hrest : ∀ x ∈ rest, x.addrRange.base + x.addrRange.size < U64_MOD :=
      fun x hx => hb x (List.mem_cons_of_mem fr hx)
    unfold terminateWalk at hy
    split at hy
    · -- skipped: `fr` itself, or the walk over the rest
      rcases List.mem_cons.mp hy with rfl | hy
      · exact Or.inl List.mem_cons_self
      · rcases ih start remain off hrest hs ho y hy with h | h
        · exact Or.inl (List.mem_cons_of_mem fr h)
        · exact Or.inr h
    · rename_i hlt
      have hstep := walk_step_eq remain hfr hlt
      rw [AddressRange.endAddr_eq hfr] at hlt
      -- the gap piece starts at the offset reached, and is no longer than what remains
      have hgap : ∀ y ∈ gapBefore owner start remain off fr,
          y.owner = owner ∧ y.offsetInRegion + y.addrRange.size ≤ off + remain := by
        intro y hy
        obtain ⟨-, -, hys⟩ := mem_gapBefore (by omega) hy
        obtain ⟨hyo, hyoff⟩ := owner_of_mem_gapBefore hy
        exact ⟨hyo, by omega⟩
      dsimp only at hy
      split at hy
      · rcases List.mem_append.mp hy with hy | hy
        · exact Or.inr (hgap y hy)
        · exact Or.inl hy
      · rcases List.mem_append.mp hy with hy | hy
        · exact Or.inr (hgap y hy)
        · rcases List.mem_cons.mp hy with rfl | hy
          · exact Or.inl List.mem_cons_self
          · rename_i hrem
            rw [hstep] at hy hrem
            rw [wrapAdd_of_lt (by omega), wrapAdd_of_lt (by omega)] at hy
            rcases ih _ _ _ hrest (by omega) (by omega) y hy with h | h
            · exact Or.inl (List.mem_cons_of_mem fr h)
            · exact Or.inr ⟨h.1, by omega⟩

end Walk

/-! ## Rendering a tree -/

mutual

/-- Every region of a tree: the region itself, then those under its
subregions and under the region it aliases. -/
def Region.regions : Region → List Region
  | r@⟨_, _, _, _, subregions, aliasRegion, _, _⟩ =>
    r :: (subregionsRegions subregions ++ aliasRegions aliasRegion)

/-- The regions under a list of subregions. -/
def subregionsRegions : List Region → List Region
  | [] => []
  | sub :: rest => sub.regions ++ subregionsRegions rest

/-- The regions under an alias target. -/
def aliasRegions : Option Region → List Region
  | none => []
  | some target => target.regions

end

theorem Region.mem_regions_self (r : Region) : r ∈ r.regions := by
  cases r
  simp [Region.regions]

mutual

/-- **Rendering keeps the view invariant.** Rendering any tree into a view
that satisfies `FlatViewInv`, within a range below `2^64`, succeeds and keeps
it; if the range and every region of the tree have positive size, it adds no
empty range. -/
theorem renderRegionPass_inv : ∀ (r : Region) (base : Nat) (addrRange : AddressRange)
    (fv : List FlatRange), addrRange.base + addrRange.size < U64_MOD → FlatViewInv fv →
    ∃ fv', r.renderRegionPass base addrRange fv = .ok fv' ∧ FlatViewInv fv' ∧
      (0 < addrRange.size → (∀ x ∈ r.regions, 0 < x.size) → Positive fv → Positive fv')
  | ⟨regionType, priority, size, offset, subregions, aliasRegion, aliasOffset, romd⟩, base,
      addrRange, fv, har, hinv => by
    simp only [Region.renderRegionPass]
    cases hi : AddressRange.findIntersection ⟨wrapAdd base offset, size⟩ addrRange with
    | none => exact ⟨fv, rfl, hinv, fun _ _ h => h⟩
    | some i =>
      obtain ⟨hib, hie⟩ := AddressRange.findIntersection_within hi har
      have hlt : i.base + i.size < U64_MOD := by omega
      -- with no empty region, the region meets the range in a non-empty part
      have hipos : 0 < addrRange.size →
          (∀ x ∈ Region.regions ⟨regionType, priority, size, offset, subregions, aliasRegion,
            aliasOffset, romd⟩, 0 < x.size) → 0 < i.size :=
        fun hs hr => AddressRange.findIntersection_pos hi har (hr _ (Region.mem_regions_self _)) hs
      have hsub : ∀ x ∈ subregionsRegions subregions, x ∈ Region.regions
          ⟨regionType, priority, size, offset, subregions, aliasRegion, aliasOffset, romd⟩ :=
        fun x hx => by simp [Region.regions, hx]
      have halias : ∀ x ∈ aliasRegions aliasRegion, x ∈ Region.regions
          ⟨regionType, priority, size, offset, subregions, aliasRegion, aliasOffset, romd⟩ :=
        fun x hx => by simp [Region.regions, hx]
      match regionType with
      | .container =>
        obtain ⟨fv', h, hinv', hpos⟩ :=
          renderSubregions_inv subregions (wrapAdd base offset) i base addrRange fv hlt hinv
        exact ⟨fv', h, hinv', fun hs hr hp =>
          hpos (hipos hs hr) (fun x hx => hr x (hsub x hx)) hp⟩
      | .alias =>
        obtain ⟨fv', h, hinv', hpos⟩ :=
          renderAlias_inv aliasRegion aliasOffset (wrapAdd base offset) i fv hlt hinv
        exact ⟨fv', h, hinv', fun hs hr hp =>
          hpos (hipos hs hr) (fun x hx => hr x (halias x hx)) hp⟩
      | .ram | .io | .romDevice | .ramDevice =>
        -- a leaf: the loop is the walk from the start of the intersection
        rw [renderTerminateRegion_eq _ base addrRange fv hi]
        exact ⟨_, rfl, terminateWalk_inv fv i.base i.size _ hinv hlt, fun hs hr hp =>
          terminateWalk_pos fv i.base i.size _ hinv.bounded hp hlt (hipos hs hr)⟩

/-- The container branch keeps the invariant, subregion by subregion. -/
theorem renderSubregions_inv : ∀ (subregions : List Region) (regionBase : Nat)
    (intersect : AddressRange) (base : Nat) (addrRange : AddressRange) (fv : List FlatRange),
    intersect.base + intersect.size < U64_MOD → FlatViewInv fv →
    ∃ fv', Region.renderSubregions subregions regionBase intersect base addrRange fv = .ok fv' ∧
      FlatViewInv fv' ∧
      (0 < intersect.size → (∀ x ∈ subregionsRegions subregions, 0 < x.size) → Positive fv →
        Positive fv')
  | [], _, _, _, _, fv, _, hinv => ⟨fv, rfl, hinv, fun _ _ h => h⟩
  | sub :: rest, regionBase, intersect, base, addrRange, fv, hi, hinv => by
    obtain ⟨fv1, h1, hinv1, hpos1⟩ := renderRegionPass_inv sub regionBase intersect fv hi hinv
    obtain ⟨fv2, h2, hinv2, hpos2⟩ :=
      renderSubregions_inv rest regionBase intersect base addrRange fv1 hi hinv1
    refine ⟨fv2, ?_, hinv2, fun hs hr hp => ?_⟩
    · simp only [Region.renderSubregions, h1, h2]
    · have hr1 : ∀ x ∈ sub.regions, 0 < x.size := fun x hx =>
        hr x (by simp [subregionsRegions, hx])
      have hr2 : ∀ x ∈ subregionsRegions rest, 0 < x.size := fun x hx =>
        hr x (by simp [subregionsRegions, hx])
      exact hpos2 hs hr2 (hpos1 hs hr1 hp)

/-- The alias branch keeps the invariant. -/
theorem renderAlias_inv : ∀ (aliasRegion : Option Region) (aliasOffset regionBase : Nat)
    (intersect : AddressRange) (fv : List FlatRange),
    intersect.base + intersect.size < U64_MOD → FlatViewInv fv →
    ∃ fv', Region.renderAlias aliasRegion aliasOffset regionBase intersect fv = .ok fv' ∧
      FlatViewInv fv' ∧
      (0 < intersect.size → (∀ x ∈ aliasRegions aliasRegion, 0 < x.size) → Positive fv →
        Positive fv')
  | none, _, _, _, fv, _, hinv => ⟨fv, rfl, hinv, fun _ _ h => h⟩
  | some target, aliasOffset, regionBase, intersect, fv, hi, hinv => by
    obtain ⟨fv', h, hinv', hpos⟩ := renderRegionPass_inv target
      (wrapSub (wrapSub regionBase aliasOffset) target.offset) intersect fv hi hinv
    refine ⟨fv', by simp only [Region.renderAlias, h], hinv', fun hs hr hp => ?_⟩
    exact hpos hs (fun x hx => hr x (by simpa [aliasRegions] using hx)) hp

end

mutual

/-- **Rendering cuts every new range from a region of the tree**, inside that
region, when every region of the tree fits in `u64`. -/
theorem renderRegionPass_pieces : ∀ (r : Region) (base : Nat) (addrRange : AddressRange)
    (fv fv' : List FlatRange), addrRange.base + addrRange.size < U64_MOD → FlatViewInv fv →
    (∀ x ∈ r.regions, x.size < U64_MOD) → r.renderRegionPass base addrRange fv = .ok fv' →
    ∀ y ∈ fv', y ∈ fv ∨
      (y.owner ∈ r.regions ∧ y.offsetInRegion + y.addrRange.size ≤ y.owner.size)
  | ⟨regionType, priority, size, offset, subregions, aliasRegion, aliasOffset, romd⟩, base,
      addrRange, fv, fv', har, hinv, hsize, h => by
    simp only [Region.renderRegionPass] at h
    cases hi : AddressRange.findIntersection ⟨wrapAdd base offset, size⟩ addrRange with
    | none =>
      rw [hi] at h
      cases h
      exact fun y hy => Or.inl hy
    | some i =>
      rw [hi] at h
      obtain ⟨hib, hie⟩ := AddressRange.findIntersection_within hi har
      have hlt : i.base + i.size < U64_MOD := by omega
      have hsub : ∀ x ∈ subregionsRegions subregions, x ∈ Region.regions
          ⟨regionType, priority, size, offset, subregions, aliasRegion, aliasOffset, romd⟩ :=
        fun x hx => by simp [Region.regions, hx]
      have halias : ∀ x ∈ aliasRegions aliasRegion, x ∈ Region.regions
          ⟨regionType, priority, size, offset, subregions, aliasRegion, aliasOffset, romd⟩ :=
        fun x hx => by simp [Region.regions, hx]
      match regionType with
      | .container =>
        intro y hy
        rcases renderSubregions_pieces subregions (wrapAdd base offset) i base addrRange fv fv'
            hlt hinv (fun x hx => hsize x (hsub x hx)) h y hy with hy | ⟨hown, hle⟩
        · exact Or.inl hy
        · exact Or.inr ⟨hsub _ hown, hle⟩
      | .alias =>
        intro y hy
        rcases renderAlias_pieces aliasRegion aliasOffset (wrapAdd base offset) i fv fv'
            hlt hinv (fun x hx => hsize x (halias x hx)) h y hy with hy | ⟨hown, hle⟩
        · exact Or.inl hy
        · exact Or.inr ⟨halias _ hown, hle⟩
      | .ram | .io | .romDevice | .ramDevice =>
        -- a leaf: its pieces start `i.base - regionBase` bytes into it and
        -- end no later than the intersection, which lies inside the leaf
        rw [renderTerminateRegion_eq _ base addrRange fv hi] at h
        cases h
        have hself : size < U64_MOD := hsize _ (Region.mem_regions_self _)
        have hwithin : wrapAdd base offset ≤ i.base ∧ i.base + i.size ≤ wrapAdd base offset + size :=
          AddressRange.findIntersection_within_self hi har
        have hoff : wrapSub i.base (wrapAdd base offset) = i.base - wrapAdd base offset :=
          wrapSub_of_le (by omega) hwithin.1
        intro y hy
        dsimp only at hy
        rw [hoff] at hy
        rcases terminateWalk_piece fv i.base i.size _ hinv.bounded hlt (by omega) y hy with
          hy | ⟨hown, hle⟩
        · exact Or.inl hy
        · refine Or.inr ⟨hown ▸ Region.mem_regions_self _, ?_⟩
          rw [hown]
          show y.offsetInRegion + y.addrRange.size ≤ size
          omega

/-- The container branch cuts its new ranges from the subregions' trees. -/
theorem renderSubregions_pieces : ∀ (subregions : List Region) (regionBase : Nat)
    (intersect : AddressRange) (base : Nat) (addrRange : AddressRange) (fv fv' : List FlatRange),
    intersect.base + intersect.size < U64_MOD → FlatViewInv fv →
    (∀ x ∈ subregionsRegions subregions, x.size < U64_MOD) →
    Region.renderSubregions subregions regionBase intersect base addrRange fv = .ok fv' →
    ∀ y ∈ fv', y ∈ fv ∨
      (y.owner ∈ subregionsRegions subregions ∧ y.offsetInRegion + y.addrRange.size ≤ y.owner.size)
  | [], _, _, _, _, fv, fv', _, _, _, h => by
    cases h
    exact fun y hy => Or.inl hy
  | sub :: rest, regionBase, intersect, base, addrRange, fv, fv', hi, hinv, hsize, h => by
    have hsub : ∀ x ∈ sub.regions, x ∈ subregionsRegions (sub :: rest) := fun x hx => by
      simp [subregionsRegions, hx]
    have hrest : ∀ x ∈ subregionsRegions rest, x ∈ subregionsRegions (sub :: rest) :=
      fun x hx => by simp [subregionsRegions, hx]
    -- the view after the first subregion still has the invariant
    obtain ⟨fv1, h1, hinv1, -⟩ := renderRegionPass_inv sub regionBase intersect fv hi hinv
    simp only [Region.renderSubregions, h1] at h
    intro y hy
    rcases renderSubregions_pieces rest regionBase intersect base addrRange fv1 fv' hi hinv1
        (fun x hx => hsize x (hrest x hx)) h y hy with hy | ⟨hown, hle⟩
    · rcases renderRegionPass_pieces sub regionBase intersect fv fv1 hi hinv
          (fun x hx => hsize x (hsub x hx)) h1 y hy with hy | ⟨hown, hle⟩
      · exact Or.inl hy
      · exact Or.inr ⟨hsub _ hown, hle⟩
    · exact Or.inr ⟨hrest _ hown, hle⟩

/-- The alias branch cuts its new ranges from the aliased tree. -/
theorem renderAlias_pieces : ∀ (aliasRegion : Option Region) (aliasOffset regionBase : Nat)
    (intersect : AddressRange) (fv fv' : List FlatRange),
    intersect.base + intersect.size < U64_MOD → FlatViewInv fv →
    (∀ x ∈ aliasRegions aliasRegion, x.size < U64_MOD) →
    Region.renderAlias aliasRegion aliasOffset regionBase intersect fv = .ok fv' →
    ∀ y ∈ fv', y ∈ fv ∨
      (y.owner ∈ aliasRegions aliasRegion ∧ y.offsetInRegion + y.addrRange.size ≤ y.owner.size)
  | none, _, _, _, fv, fv', _, _, _, h => by
    cases h
    exact fun y hy => Or.inl hy
  | some target, aliasOffset, regionBase, intersect, fv, fv', hi, hinv, hsize, h => by
    have htarget : ∀ x ∈ target.regions, x ∈ aliasRegions (some target) := fun x hx => by
      simpa [aliasRegions] using hx
    obtain ⟨fv1, h1, -, -⟩ := renderRegionPass_inv target
      (wrapSub (wrapSub regionBase aliasOffset) target.offset) intersect fv hi hinv
    simp only [Region.renderAlias, h1] at h
    cases h
    intro y hy
    rcases renderRegionPass_pieces target _ intersect fv _ hi hinv
        (fun x hx => hsize x (htarget x hx)) h1 y hy with hy | ⟨hown, hle⟩
    · exact Or.inl hy
    · exact Or.inr ⟨htarget _ hown, hle⟩

end

/-- **The flat view of any tree is sorted and non-overlapping.** For every
container of size below `2^64`, `generate_flatview(0, [0, size))` succeeds,
each range ends before the next one starts, and, if no region of the tree
has size zero, no range is empty. -/
theorem generateFlatview_inv (root : Region) (hc : root.regionType = .container)
    (hsize : root.size < U64_MOD) :
    ∃ fv, root.generateFlatview 0 ⟨0, root.size⟩ = .ok fv ∧ FlatViewInv fv ∧
      ((∀ x ∈ root.regions, 0 < x.size) → Positive fv) := by
  obtain ⟨fv, h, hinv, hpos⟩ :=
    renderRegionPass_inv root 0 ⟨0, root.size⟩ [] (by simpa using hsize) flatViewInv_nil
  refine ⟨fv, ?_, hinv, fun hr => hpos (hr root (Region.mem_regions_self root)) hr
    (fun _ h => nomatch h)⟩
  unfold Region.generateFlatview
  simp only [hc, h]

/-- **Every range of the flat view is a piece of a region of the tree**,
inside that region, when every region fits in `u64`. -/
theorem generateFlatview_pieces (root : Region) (hsize : ∀ x ∈ root.regions, x.size < U64_MOD)
    {fv : List FlatRange} (h : root.generateFlatview 0 ⟨0, root.size⟩ = .ok fv) :
    ∀ y ∈ fv, y.owner ∈ root.regions ∧ y.offsetInRegion + y.addrRange.size ≤ y.owner.size := by
  have hroot := hsize root (Region.mem_regions_self root)
  unfold Region.generateFlatview at h
  split at h
  · split at h
    · rename_i hpass
      cases h
      intro y hy
      rcases renderRegionPass_pieces root 0 ⟨0, root.size⟩ [] _ (by simpa using hroot)
          flatViewInv_nil hsize hpass y hy with hy | hpiece
      · cases hy
      · exact hpiece
    · cases h
  · cases h

/-- `addr` lies in the range. -/
def FlatRange.contains (fr : FlatRange) (addr : Nat) : Prop :=
  fr.addrRange.base ≤ addr ∧ addr < fr.addrRange.base + fr.addrRange.size

/-- **Without empty regions the flat view is well formed**: strictly sorted by
base, pairwise disjoint, and of positive size. -/
theorem generateFlatview_wellFormed (root : Region) (hc : root.regionType = .container)
    (hsize : root.size < U64_MOD) (hpos : ∀ x ∈ root.regions, 0 < x.size) :
    ∃ fv, root.generateFlatview 0 ⟨0, root.size⟩ = .ok fv ∧
      fv.Pairwise (fun a b => a.addrRange.base < b.addrRange.base ∧
        ∀ addr, ¬ (a.contains addr ∧ b.contains addr)) ∧
      Positive fv := by
  obtain ⟨fv, h, hinv, hp⟩ := generateFlatview_inv root hc hsize
  have hfv := hp hpos
  refine ⟨fv, h, hinv.sorted.imp_of_mem fun {a b} ha _ hab => ⟨?_, ?_⟩, hfv⟩
  · -- `a` is not empty and ends before `b` starts
    have := hfv a ha
    unfold FlatRange.Before at hab
    omega
  · rintro addr ⟨⟨_, ha2⟩, ⟨hb1, _⟩⟩
    unfold FlatRange.Before at hab
    omega

/-- Three I/O leaves in a container of `0x3000` bytes: one of `0x1000` bytes at
`0x2000`, and two of size zero at `0x1000` with lower priorities. The offset
checks accept all three; the flat view has two empty ranges at the same base. -/
theorem generateFlatview_zero_size_leaves :
    (do
      let root ← (Region.initContainerRegion 0x3000).addSubregionNotUpdate
        ((Region.initIoRegion 0x1000).setPriority 2) 0x2000
      let root ← root.addSubregionNotUpdate ((Region.initIoRegion 0).setPriority 1) 0x1000
      let root ← root.addSubregionNotUpdate (Region.initIoRegion 0) 0x1000
      let fv ← root.generateFlatview 0 ⟨0, root.size⟩
      pure (fv.map FlatRange.addrRange) : Except AddressSpaceError (List AddressRange)) =
      .ok [⟨0x1000, 0⟩, ⟨0x1000, 0⟩, ⟨0x2000, 0x1000⟩] := by
  decide +kernel

end StratoVirt.AddressSpace
