import StratoVirt.Virtio.Desc

/-!
# What an accepted descriptor chain looks like

`Desc.lean` embedded `get_element`; this file proves what an `Ok` from it
guarantees about the chain it walked, for every guest memory:

> `getElement_spec`: the walk terminates; the element counts exactly its
> buffers; in chain order every device-readable buffer precedes every
> device-writable one; at most one indirect descriptor was followed and it had
> no `NEXT` flag; the number of buffers is bounded by the queue size, or, past
> an indirect descriptor, by the buffers taken before it plus that table's
> length; and the buffers total at most 4 GiB.

The chain is `getElementChain` — the descriptor each pass of the loop looked
at, in order. `WalkInv` relates the loop state to the chain seen so far; it
holds initially, `next` passes keep it (`walkInv_enter`, `walkInv_take`), and
the last pass, which takes one more descriptor, keeps it too, so the history
rule `Loop.run_exit_of_inv` carries it to the end.
-/

namespace StratoVirt.Virtio

open StratoVirt.Lib StratoVirt.AddressSpace

/-- The descriptors of a chain whose buffers were taken (not indirect ones). -/
def takenDescs (ch : List SplitVringDesc) : List SplitVringDesc :=
  ch.filter (fun d => !d.isIndirectDesc)

/-- The indirect descriptors a chain followed. -/
def followedDescs (ch : List SplitVringDesc) : List SplitVringDesc :=
  ch.filter (·.isIndirectDesc)

@[simp] theorem takenDescs_append (a b : List SplitVringDesc) :
    takenDescs (a ++ b) = takenDescs a ++ takenDescs b := List.filter_append ..

@[simp] theorem followedDescs_append (a b : List SplitVringDesc) :
    followedDescs (a ++ b) = followedDescs a ++ followedDescs b := List.filter_append ..

theorem takenDescs_singleton {d : SplitVringDesc} (h : d.isIndirectDesc = false) :
    takenDescs [d] = [d] := by
  simp [takenDescs, h]

theorem takenDescs_singleton_indirect {d : SplitVringDesc} (h : d.isIndirectDesc = true) :
    takenDescs [d] = [] := by
  simp [takenDescs, h]

theorem followedDescs_singleton {d : SplitVringDesc} (h : d.isIndirectDesc = false) :
    followedDescs [d] = [] := by
  simp [followedDescs, h]

theorem takenDescs_of_direct {ch : List SplitVringDesc}
    (h : ∀ d ∈ ch, d.isIndirectDesc = false) : takenDescs ch = ch := by
  simp only [takenDescs, List.filter_eq_self]
  intro d hd
  simp [h d hd]

theorem followedDescs_of_direct {ch : List SplitVringDesc}
    (h : ∀ d ∈ ch, d.isIndirectDesc = false) : followedDescs ch = [] := by
  simp only [followedDescs, List.filter_eq_nil_iff]
  intro d hd
  simp [h d hd]

/-- A chain with exactly one indirect descriptor has followed exactly that one. -/
theorem followedDescs_split {A B : List SplitVringDesc} {d : SplitVringDesc}
    (hA : ∀ x ∈ A, x.isIndirectDesc = false) (hB : ∀ x ∈ B, x.isIndirectDesc = false)
    (hd : d.isIndirectDesc = true) : followedDescs (A ++ d :: B) = [d] := by
  rw [followedDescs_append, followedDescs_of_direct hA, List.nil_append]
  simp only [followedDescs, List.filter_cons, hd, if_true]
  rw [show List.filter (·.isIndirectDesc) B = followedDescs B from rfl,
    followedDescs_of_direct hB]

/-- The walk's invariant, for a walk that started from a fresh element with
`desc_size = size` and has looked at the chain `ch` so far. -/
structure WalkInv (size : Nat) (ch : List SplitVringDesc) (st : GetElementState) : Prop where
  descNum_eq : st.elem.descNum = st.elem.outIovec.length + st.elem.inIovec.length
  order : ∃ rs ws, takenDescs ch = rs ++ ws ∧ (∀ d ∈ rs, d.writeOnly = false) ∧
    (∀ d ∈ ws, d.writeOnly = true) ∧ st.elem.outIovec = rs.map (·.toIovec) ∧
    st.elem.inIovec = ws.map (·.toIovec) ∧ st.writeElemCount = ws.length
  totalLen : st.descTotalLen = ((takenDescs ch).map (·.len)).sum
  direct : st.indirect = false → (∀ d ∈ ch, d.isIndirectDesc = false) ∧ st.descSize = size
  indirect : st.indirect = true → ∃ A d B, ch = A ++ d :: B ∧
    (∀ x ∈ A, x.isIndirectDesc = false) ∧ (∀ x ∈ B, x.isIndirectDesc = false) ∧
    d.isIndirectDesc = true ∧ d.hasNext = false ∧ st.descSize = A.length + d.len / DESCRIPTOR_LEN
  le : st.elem.descNum ≤ st.descSize

/-- The invariant does not look at the current descriptor, the table it is
read from, or the region cache. -/
theorem walkInv_with_desc {size : Nat} {ch : List SplitVringDesc} {st : GetElementState}
    (desc : SplitVringDesc) (cache : Option RegionCache) (h : WalkInv size ch st) :
    WalkInv size ch { st with desc := desc, cache := cache } :=
  ⟨h.descNum_eq, h.order, h.totalLen, h.direct, h.indirect, h.le⟩

/-- At the start nothing has been looked at. -/
theorem walkInv_init (info : DescInfo) (cache : Option RegionCache) (index : Nat) :
    WalkInv info.size [] (GetElementState.init info cache (Element.new index)) := by
  refine ⟨rfl, ⟨[], [], rfl, by simp, by simp, rfl, rfl, rfl⟩, rfl, ?_, ?_, ?_⟩
  · intro _
    exact ⟨by simp, rfl⟩
  · intro h
    cases h
  · exact Nat.zero_le _

/-- The number of buffers taken is the length of the taken part of the chain. -/
theorem WalkInv.descNum_eq_taken {size : Nat} {ch : List SplitVringDesc} {st : GetElementState}
    (h : WalkInv size ch st) : st.elem.descNum = (takenDescs ch).length := by
  obtain ⟨rs, ws, hch, -, -, hout, hin, -⟩ := h.order
  rw [h.descNum_eq, hout, hin, hch, List.length_append, List.length_map, List.length_map]

/-- Taking a descriptor in the right order below the size bound keeps the
invariant, with that descriptor appended to the chain. -/
theorem walkInv_take {size : Nat} {ch : List SplitVringDesc} {st : GetElementState}
    (h : WalkInv size ch st) (hind : st.desc.isIndirectDesc = false)
    (hord : st.desc.writeOnly = false → st.writeElemCount = 0)
    (hlt : st.elem.descNum < st.descSize) :
    WalkInv size (ch ++ [st.desc]) st.take := by
  obtain ⟨rs, ws, hch, hrs, hws, hout, hin, hcnt⟩ := h.order
  have htaken : takenDescs (ch ++ [st.desc]) = takenDescs ch ++ [st.desc] := by
    rw [takenDescs_append, takenDescs_singleton hind]
  refine ⟨?_, ?_, ?_, ?_, ?_, ?_⟩
  · unfold GetElementState.take
    split <;> simp [h.descNum_eq] <;> omega
  · rw [htaken, hch]
    cases hw : st.desc.writeOnly with
    | true =>
      -- a writable buffer joins `in_iovec`, after every readable one
      refine ⟨rs, ws ++ [st.desc], by simp, hrs, ?_, ?_, ?_, ?_⟩
      · intro d hd
        rcases List.mem_append.mp hd with hd | hd
        · exact hws d hd
        · simp only [List.mem_singleton] at hd
          rw [hd, hw]
      · simp [GetElementState.take, hw, hout]
      · simp [GetElementState.take, hw, hin]
      · simp [GetElementState.take, hw, hcnt]
    | false =>
      -- a readable buffer is only taken while no writable one has been
      have hws0 : ws = [] := by
        have := hord hw
        rw [hcnt] at this
        exact List.eq_nil_of_length_eq_zero this
      subst hws0
      refine ⟨rs ++ [st.desc], [], by simp, ?_, by simp, ?_, ?_, ?_⟩
      · intro d hd
        rcases List.mem_append.mp hd with hd | hd
        · exact hrs d hd
        · simp only [List.mem_singleton] at hd
          rw [hd, hw]
      · simp [GetElementState.take, hw, hout]
      · simp [GetElementState.take, hw, hin]
      · simp [GetElementState.take, hw, hcnt]
  · rw [take_descTotalLen, h.totalLen, htaken]
    simp
  · intro hi
    rw [take_indirect] at hi
    obtain ⟨hdir, hsize⟩ := h.direct hi
    refine ⟨?_, by rw [take_descSize, hsize]⟩
    intro d hd
    rcases List.mem_append.mp hd with hd | hd
    · exact hdir d hd
    · simp only [List.mem_singleton] at hd
      rw [hd, hind]
  · intro hi
    rw [take_indirect] at hi
    obtain ⟨A, d, B, hch', hA, hB, hd, hdn, hsize⟩ := h.indirect hi
    refine ⟨A, d, B ++ [st.desc], by simp [hch'], hA, ?_, hd, hdn, by rw [take_descSize, hsize]⟩
    intro x hx
    rcases List.mem_append.mp hx with hx | hx
    · exact hB x hx
    · simp only [List.mem_singleton] at hx
      rw [hx, hind]
  · rw [take_descNum, take_descSize]
    omega

/-- Entering the indirect table keeps the invariant: the chain so far was
direct, and the re-based size is the buffers taken so far plus the table's
length. -/
theorem walkInv_enter {size : Nat} {ch : List SplitVringDesc} {st : GetElementState}
    (h : WalkInv size ch st) (hind : st.desc.isIndirectDesc = true)
    (hvalid : st.desc.isValidIndirectDesc = true) (hfirst : st.indirect = false)
    (tableHost : Nat) (desc : SplitVringDesc) (cache : Option RegionCache) :
    WalkInv size (ch ++ [st.desc]) (st.enter tableHost desc cache) := by
  obtain ⟨hdir, -⟩ := h.direct hfirst
  have htaken : takenDescs (ch ++ [st.desc]) = takenDescs ch := by
    rw [takenDescs_append, takenDescs_singleton_indirect hind, List.append_nil]
  -- a valid indirect descriptor has no `NEXT` flag and at most `u16::MAX` entries
  have hnext : st.desc.hasNext = false := by
    unfold SplitVringDesc.isValidIndirectDesc at hvalid
    split at hvalid
    · cases hvalid
    · split at hvalid
      · cases hvalid
      · simpa using ‹¬st.desc.hasNext = true›
  have hnum : st.desc.getDescNum = st.desc.len / DESCRIPTOR_LEN := by
    unfold SplitVringDesc.isValidIndirectDesc at hvalid
    split at hvalid
    · cases hvalid
    · rename_i hok
      have hle : st.desc.len / DESCRIPTOR_LEN ≤ U16_MAX := by
        simp only [not_or, not_lt] at hok
        exact hok.2.2
      unfold SplitVringDesc.getDescNum
      exact Nat.mod_eq_of_lt (by simp only [U16_MAX] at hle; omega)
  refine ⟨h.descNum_eq, ?_, ?_, ?_, ?_, ?_⟩
  · rw [htaken]
    exact h.order
  · rw [htaken]
    exact h.totalLen
  · intro hi
    cases hi
  · intro _
    refine ⟨ch, st.desc, [], rfl, hdir, by simp, hind, hnext, ?_⟩
    rw [enter_descSize, hnum, h.descNum_eq_taken, takenDescs_of_direct hdir]
  · rw [enter_descSize]
    exact Nat.le_add_right _ _

/-- Every pass that goes round again keeps the invariant. -/
theorem walkInv_next {mem : SysMem} {size : Nat} {ch : List SplitVringDesc}
    {st st' : GetElementState} (h : WalkInv size ch st) (hstep : getElementStep mem st = .next st') :
    WalkInv size (ch ++ [st.desc]) st' := by
  obtain ⟨hlt, ⟨hind, hvalid, hfirst, -, tableHost, desc, cache, rfl⟩ |
      ⟨hind, hord, -, desc, cache, rfl⟩⟩ := getElementStep_next hstep
  · exact walkInv_enter h hind hvalid hfirst tableHost desc cache
  · exact walkInv_with_desc desc cache (walkInv_take h hind hord hlt)

/-- A head descriptor that is neither indirect nor chained is the whole
element: `get_element` returns its one buffer. -/
theorem getElement_of_last {mem : SysMem} {info : DescInfo} {cache : Option RegionCache}
    {elem : Element} (hnum : elem.descNum < info.size) (hind : info.desc.isIndirectDesc = false)
    (hnext : info.desc.hasNext = false) (hlen : info.desc.len ≤ DESC_CHAIN_MAX_TOTAL_LEN) :
    getElement mem info cache elem = (.ok (GetElementState.init info cache elem).take.elem, cache) := by
  have hstep : getElementStep mem (GetElementState.init info cache elem) =
      .exit (GetElementState.init info cache elem).take := by
    have hge : ¬ (GetElementState.init info cache elem).elem.descNum ≥
        (GetElementState.init info cache elem).descSize := Nat.not_le.2 hnum
    unfold getElementStep
    rw [if_neg hge]
    simp [GetElementState.init, hind, hnext]
  unfold getElement
  rw [Loop.run_of_exit hstep]
  -- one buffer of at most 4 GiB passes the total-length check
  have htotal : ¬ (GetElementState.init info cache elem).take.descTotalLen >
      DESC_CHAIN_MAX_TOTAL_LEN := by
    unfold GetElementState.take
    split <;> simpa [GetElementState.init, SplitVringDesc.toIovec] using hlen
  simp only [if_neg htotal]
  unfold GetElementState.take
  split <;> rfl

/-- **`get_element` accepts only well-formed chains.** For every guest memory
and every chain head (`info.size` is the queue's `actual_size`, as
`get_vring_element` passes it), the loop terminates, and when `get_element`
returns `Ok` on a fresh element, the chain it walked satisfies all of the
following: the element counts exactly its buffers; the taken descriptors are
readable ones then writable ones, in chain order, forming `out_iovec` and
`in_iovec`; at most one indirect descriptor was followed and it had no `NEXT`
flag; without one the buffers number at most `info.size`, with one at most
those taken before it plus its `len / 16`; and the lengths total at most
`2^32`. -/
theorem getElement_spec (mem : SysMem) (info : DescInfo) (cache : Option RegionCache)
    (index : Nat) :
    (∀ st, Acc (fun st' st => getElementStep mem st = .next st') st) ∧
    ∀ elem cache', getElement mem info cache (Element.new index) = (.ok elem, cache') →
      let chain := getElementChain mem info cache (Element.new index)
      elem.descNum = elem.outIovec.length + elem.inIovec.length ∧
      (∃ rs ws, takenDescs chain = rs ++ ws ∧ (∀ d ∈ rs, d.writeOnly = false) ∧
        (∀ d ∈ ws, d.writeOnly = true) ∧ elem.outIovec = rs.map (·.toIovec) ∧
        elem.inIovec = ws.map (·.toIovec)) ∧
      (followedDescs chain).length ≤ 1 ∧ (∀ d ∈ followedDescs chain, d.hasNext = false) ∧
      (followedDescs chain = [] → elem.descNum ≤ info.size) ∧
      (∀ d, followedDescs chain = [d] → ∃ A B, chain = A ++ d :: B ∧
        (∀ x ∈ A, x.isIndirectDesc = false) ∧ elem.descNum ≤ A.length + d.len / DESCRIPTOR_LEN) ∧
      ((elem.outIovec ++ elem.inIovec).map (·.len)).sum ≤ 2 ^ 32 := by
  refine ⟨(getElementLoop mem).acc, ?_⟩
  intro elem cache' hget
  -- an `Ok` means the loop left normally and the total passed the 4 GiB check
  unfold getElement at hget
  split at hget
  · cases hget
  · rename_i t hrun
    split at hget
    · cases hget
    · rename_i htotal
      simp only [Prod.mk.injEq, Except.ok.injEq] at hget
      obtain ⟨rfl, -⟩ := hget
      obtain ⟨pre, u, hinv, hbody, hvis⟩ :=
        (getElementLoop mem).run_exit_of_inv (fun pre st => WalkInv info.size (pre.map (·.desc)) st)
          (fun pre s s' hP hs => by simpa using walkInv_next hP hs)
          _ [] t (walkInv_init info cache index) hrun
      obtain ⟨hlt, hind, hord, -, rfl⟩ := getElementStep_exit hbody
      have hfin : WalkInv info.size (pre.map (·.desc) ++ [u.desc]) u.take :=
        walkInv_take (by simpa using hinv) hind hord hlt
      have hchain : getElementChain mem info cache (Element.new index) =
          pre.map (·.desc) ++ [u.desc] := by
        simp [getElementChain, hvis]
      rw [hchain]
      generalize pre.map (·.desc) ++ [u.desc] = ch at hfin
      obtain ⟨rs, ws, hch, hrs, hws, hout, hin, -⟩ := hfin.order
      refine ⟨hfin.descNum_eq, ⟨rs, ws, hch, hrs, hws, hout, hin⟩, ?_, ?_, ?_, ?_, ?_⟩
      · cases hi : u.take.indirect with
        | false => simp [followedDescs_of_direct (hfin.direct hi).1]
        | true =>
          obtain ⟨A, d, B, rfl, hA, hB, hd, -, -⟩ := hfin.indirect hi
          simp [followedDescs_split hA hB hd]
      · cases hi : u.take.indirect with
        | false => simp [followedDescs_of_direct (hfin.direct hi).1]
        | true =>
          obtain ⟨A, d, B, rfl, hA, hB, hd, hdn, -⟩ := hfin.indirect hi
          intro x hx
          rw [followedDescs_split hA hB hd, List.mem_singleton] at hx
          rw [hx]
          exact hdn
      · intro hnone
        cases hi : u.take.indirect with
        | false => rw [← (hfin.direct hi).2]; exact hfin.le
        | true =>
          obtain ⟨A, d, B, rfl, hA, hB, hd, -, -⟩ := hfin.indirect hi
          rw [followedDescs_split hA hB hd] at hnone
          cases hnone
      · intro d hd
        cases hi : u.take.indirect with
        | false =>
          rw [followedDescs_of_direct (hfin.direct hi).1] at hd
          cases hd
        | true =>
          obtain ⟨A, d', B, rfl, hA, hB, hd', -, hsize⟩ := hfin.indirect hi
          rw [followedDescs_split hA hB hd', List.singleton_inj] at hd
          subst hd
          exact ⟨A, B, rfl, hA, by rw [← hsize]; exact hfin.le⟩
      · have hsum : ((u.take.elem.outIovec ++ u.take.elem.inIovec).map (·.len)).sum =
            u.take.descTotalLen := by
          rw [hfin.totalLen, hch, hout, hin]
          simp [SplitVringDesc.toIovec, Function.comp_def]
        rw [hsum]
        simp only [DESC_CHAIN_MAX_TOTAL_LEN] at htotal
        omega

/-- Guest memory that no walk reads: a head with neither `NEXT` nor
`INDIRECT` is the whole chain. -/
def headOnlySys : SysMem := ⟨fun _ => none, fun _ _ => false, fun _ => none, fun _ => none⟩

/-- A chain of one device-writable byte at `0x2000`, head 0 of a queue of
four: its one buffer is the element's `in_iovec`, and the taken descriptors
split into no readable and one writable descriptor. -/
theorem getElement_spec_one_writable :
    getElement headOnlySys ⟨0, 4, 0, ⟨0x2000, 1, VIRTQ_DESC_F_WRITE, 0⟩⟩ none (Element.new 0) =
        (.ok ⟨0, 1, [], [⟨0x2000, 1⟩]⟩, none) ∧
      ∃ rs ws, takenDescs (getElementChain headOnlySys ⟨0, 4, 0, ⟨0x2000, 1, VIRTQ_DESC_F_WRITE, 0⟩⟩
          none (Element.new 0)) = rs ++ ws ∧
        (∀ d ∈ ws, d.writeOnly = true) ∧ rs.map (·.toIovec) = [] ∧
        ws.map (·.toIovec) = [⟨0x2000, 1⟩] := by
  have hget : getElement headOnlySys ⟨0, 4, 0, ⟨0x2000, 1, VIRTQ_DESC_F_WRITE, 0⟩⟩ none
      (Element.new 0) = (.ok ⟨0, 1, [], [⟨0x2000, 1⟩]⟩, none) :=
    @getElement_of_last headOnlySys ⟨0, 4, 0, ⟨0x2000, 1, VIRTQ_DESC_F_WRITE, 0⟩⟩ none
      (Element.new 0) (by decide) (by decide) (by decide) (by decide)
  obtain ⟨-, ⟨rs, ws, htaken, -, hws, hout, hin⟩, -⟩ :=
    (getElement_spec headOnlySys _ none 0).2 _ _ hget
  exact ⟨hget, rs, ws, htaken, hws, hout.symm, hin.symm⟩

/-- An `Ok` from `get_element` is the chain headed at `info.index`, and holds
at least the buffer of the descriptor it ended on. -/
theorem getElement_ok_index {mem : SysMem} {info : DescInfo} {cache cache' : Option RegionCache}
    {elem elem' : Element} (h : getElement mem info cache elem = (.ok elem', cache')) :
    elem'.index = info.index ∧ 0 < elem'.descNum := by
  unfold getElement at h
  split at h
  · cases h
  rename_i t hrun
  split at h
  · cases h
  simp only [Prod.mk.injEq, Except.ok.injEq] at h
  obtain ⟨rfl, -⟩ := h
  -- both ways round the loop keep the element's index
  have hstep : ∀ (pre : List GetElementState) (s s' : GetElementState),
      s.elem.index = info.index → getElementStep mem s = .next s' → s'.elem.index = info.index := by
    intro _ s s' hs hnext
    obtain ⟨-, ⟨-, -, -, -, _, _, _, rfl⟩ | ⟨-, -, -, _, _, rfl⟩⟩ := getElementStep_next hnext
    · exact hs
    · simpa using hs
  obtain ⟨-, u, hidx, hbody, -⟩ :=
    (getElementLoop mem).run_exit_of_inv (fun _ st => st.elem.index = info.index) hstep
      _ [] t rfl hrun
  obtain ⟨-, -, -, -, rfl⟩ := getElementStep_exit hbody
  exact ⟨by simpa using hidx, by simp⟩

end StratoVirt.Virtio
