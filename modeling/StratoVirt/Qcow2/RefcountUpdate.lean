import Mathlib
import StratoVirt.Qcow2.Refcount

/-!
# Refcount updates and their revert: `RefCount::update_refcount`

`block_backend/src/qcow2/refcount.rs`. `update_refcount(offset, clusters,
added)` first cuts the clusters into runs, one per refcount block
(`rc_vec`), failing on a bad table index or block address; then
`set_refcount_blocks` calls `set_refcount` on each run and stops at the first
that fails. When a run fails, `update_refcount` reverts the runs before it by
applying `-added`, and fails. With `flush` set, a call that succeeds then
flushes the refcount block cache to the image.

Results:

* `setRefcountBlocks_spec` and `setRefcountBlocks_revert`: the runs that
  succeed are updated and nothing else moves; the revert of those runs
  succeeds and gives every block its entries back;
* `updateRefcount_error_refcounts`: without `flush`, on a host whose writes
  never fail, when `update_refcount` fails, every cluster's refcount is what
  it was before the call. A write that fails breaks this: the dirty block it
  evicts is dropped from the cache, and the revert reloads the stale copy
  (`updateRefcount_error_refcounts_failedWrite`);
* `updateRefcount_ok_refcounts`: without `flush`, when it succeeds, exactly
  the clusters of the range have new refcounts, each changed by `added`;
* `updateRefcount_flush_image`: from a cache whose dirty queue holds every
  change, `update_refcount` with `flush` that succeeds leaves in the image
  file the refcounts of `updateRefcount_ok_refcounts`;
* `updateRefcount_discardGrows`: over any call, failed or not, the discard
  list forgets no byte and keeps its tasks apart; what the runs queued, those
  reverted after included, stays queued
  (`updateRefcount_discardGrows_reverted`: a cluster whose reference is given
  back keeps its discard).
-/

namespace StratoVirt.Qcow2

open StratoVirt.Lib StratoVirt.Util StratoVirt.AddressSpace

/-! ## The runs of `update_refcount` -/

/-- Run `r = (rt_idx, rb_idx, num)` of blocks of `B` entries covers cluster `c`:
`c` is in block `rt_idx`, at an entry of the run's window. -/
def RunCovers (B : Nat) (r : Nat × Nat × Nat) (c : Nat) : Prop :=
  c / B = r.1 ∧ r.2.1 ≤ c % B ∧ c % B < r.2.1 + r.2.2

namespace RefCount

/-- A cluster of the block that holds `x`, at or after `x` and before the
block's end, is in that block. -/
theorem div_eq_of_block {B x c : Nat} (hB : 0 < B) (hlo : x ≤ c) (hhi : c < x + (B - x % B)) :
    c / B = x / B := by
  have hx := Nat.div_add_mod x B
  have hm := Nat.mod_lt x hB
  refine Nat.div_eq_of_lt_le ?_ ?_
  · rw [Nat.mul_comm]
    omega
  · rw [Nat.add_mul, Nat.one_mul, Nat.mul_comm]
    omega

/-- The cluster just past the end of the block that holds `x` is in the next
block. -/
theorem div_next_block {B : Nat} (hB : 0 < B) (x : Nat) : (x + (B - x % B)) / B = x / B + 1 := by
  have hx := Nat.div_add_mod x B
  have hm := Nat.mod_lt x hB
  refine Nat.div_eq_of_lt_le ?_ ?_
  · rw [Nat.add_mul, Nat.one_mul, Nat.mul_comm]
    omega
  · rw [Nat.add_mul, Nat.add_mul, Nat.one_mul, Nat.mul_comm]
    omega

/-- **The runs of `update_refcount`.** From cluster `firstCluster + i` on,
`rc_vec` lists blocks in increasing order, each named by the table, and its
runs cover exactly the clusters `[firstCluster + i, firstCluster + clusters)`. -/
theorem rcVecFrom_runs (st : RefCount) (firstCluster clusters i : Nat) {runs : List (Nat × Nat × Nat)}
    (h : st.rcVecFrom firstCluster clusters i = .ok runs) :
    runs.Pairwise (fun a b => a.1 < b.1) ∧
      (∀ r ∈ runs, (firstCluster + i) / st.refcountBlkSize ≤ r.1 ∧ ∃ a, st.blockAddr r.1 = some a) ∧
      ∀ c, (firstCluster + i ≤ c ∧ c < firstCluster + clusters) ↔
        ∃ r ∈ runs, RunCovers st.refcountBlkSize r c := by
  have hB := st.refcountBlkSize_pos
  rw [rcVecFrom] at h
  split at h
  · rename_i hi
    dsimp only at h
    split at h
    · cases h
    · rename_i hrt
      split at h
      · cases h
      · rename_i hgood
        -- the head run's block is named by the table
        have haddr : ∃ a, st.blockAddr ((firstCluster + i) >>> st.refcountBlkBits) = some a :=
          ⟨_, blockAddr_eq_some.2 ⟨List.getElem?_eq_getElem _, by omega, by omega⟩⟩
        cases hrest : st.rcVecFrom firstCluster clusters
          (i + min (st.refcountBlkSize - st.clusterInRcBlock (i + firstCluster)) (clusters - i)) with
        | error e => rw [hrest] at h; cases h
        | ok rest =>
          rw [hrest] at h
          cases h
          obtain ⟨hpw, hbound, hcov⟩ := rcVecFrom_runs st firstCluster clusters _ hrest
          rw [st.shiftRight_blkBits] at haddr
          rw [st.shiftRight_blkBits, st.clusterInRcBlock_eq, Nat.add_comm i firstCluster] at *
          -- the head run: from `x = firstCluster + i` to the block's end or the last cluster
          have hx := Nat.div_add_mod (firstCluster + i) st.refcountBlkSize
          have hm := Nat.mod_lt (firstCluster + i) hB
          have hnext : ∀ r ∈ rest, (firstCluster + i) / st.refcountBlkSize < r.1 := by
            intro r hr
            by_cases hlast : i + min (st.refcountBlkSize - (firstCluster + i) % st.refcountBlkSize)
                (clusters - i) < clusters
            · -- the run reached the block's end: the rest starts at the next block
              have hnum : min (st.refcountBlkSize - (firstCluster + i) % st.refcountBlkSize)
                  (clusters - i) = st.refcountBlkSize - (firstCluster + i) % st.refcountBlkSize := by
                omega
              have hdiv : (firstCluster + (i + (st.refcountBlkSize -
                  (firstCluster + i) % st.refcountBlkSize))) / st.refcountBlkSize =
                  (firstCluster + i) / st.refcountBlkSize + 1 := by
                rw [← Nat.add_assoc]
                exact div_next_block hB _
              have := (hbound r hr).1
              rw [hnum, hdiv] at this
              omega
            · -- the run reached the last cluster: nothing is left
              rw [rcVecFrom, if_neg hlast] at hrest
              cases hrest
              cases hr
          refine ⟨List.pairwise_cons.2 ⟨hnext, hpw⟩, fun r hr => ?_, fun c => ?_⟩
          · rcases List.mem_cons.1 hr with rfl | hr
            · exact ⟨le_refl _, haddr⟩
            · exact ⟨(hnext r hr).le, (hbound r hr).2⟩
          · rw [List.exists_mem_cons_iff, ← hcov c]
            unfold RunCovers
            dsimp only
            constructor
            · rintro ⟨hlo, hhi⟩
              by_cases hhead : c < firstCluster + i +
                  min (st.refcountBlkSize - (firstCluster + i) % st.refcountBlkSize) (clusters - i)
              · -- `c` is in the head run's block
                have hc := div_eq_of_block hB hlo (by omega)
                have hcm := Nat.div_add_mod c st.refcountBlkSize
                rw [hc] at hcm
                exact .inl ⟨hc, by omega, by omega⟩
              · exact .inr ⟨by omega, hhi⟩
            · rintro (⟨hc, hlo, hhi⟩ | ⟨hlo, hhi⟩)
              · have hcm := Nat.div_add_mod c st.refcountBlkSize
                rw [hc] at hcm
                omega
              · exact ⟨by omega, hhi⟩
  · -- no cluster is left
    cases h
    refine ⟨List.Pairwise.nil, fun r hr => (nomatch hr), fun c => ?_⟩
    simp only [List.not_mem_nil, false_and, exists_false, iff_false, not_and]
    omega
termination_by clusters - i
decreasing_by
  have := st.clusterInRcBlock_lt (i + firstCluster)
  omega

end RefCount

/-! ## The runs together, and their revert -/

section Blocks

variable {io : BlockIo}

open RefCount

/-- A block unlike each of the runs' is none of theirs. -/
theorem not_mem_map_fst {k : Nat} {runs : List (Nat × Nat × Nat)} (h : ∀ r ∈ runs, k ≠ r.1) :
    k ∉ runs.map Prod.fst := fun hmem => by
  obtain ⟨r, hr, hr1⟩ := List.mem_map.1 hmem
  exact h r hr hr1.symm

/-- **`set_refcount_blocks`**, on a host whose writes succeed. Over runs on
distinct blocks of the table, it stops at the first run that fails, and keeps
the layout and the invariant. When every run succeeds, or the host's writes
never fail, the `k` runs before the failing one are done: each of their blocks
is updated as `WindowUpdate` says from the block before the call, and every
other block reads as before. -/
theorem setRefcountBlocks_spec (hio : io.Writes) (added : Int) (discardType : Qcow2DiscardType) :
    ∀ (runs : List (Nat × Nat × Nat)) (i : Nat) (st : RefCount), st.Inv →
      runs.Pairwise (fun a b => a.1 ≠ b.1) → (∀ r ∈ runs, ∃ a, st.blockAddr r.1 = some a) →
      ∃ k ≤ runs.length, (setRefcountBlocks io added discardType i runs st).1 = i + k ∧
        SameLayout st (setRefcountBlocks io added discardType i runs st).2 ∧
        (setRefcountBlocks io added discardType i runs st).2.Inv ∧
        ((k = runs.length ∨ io.Reliable) →
          (∀ r ∈ runs.take k, ∃ orig new, st.blockData r.1 = some orig ∧
            WindowUpdate (addSign added) (addedValueOf added) (u16Entry orig) r.2.1 r.2.2 (u16Entry new) ∧
            (setRefcountBlocks io added discardType i runs st).2.blockData r.1 = some new) ∧
          ∀ rt, rt ∉ (runs.take k).map Prod.fst →
            (setRefcountBlocks io added discardType i runs st).2.blockData rt = st.blockData rt) ∧
        (st.DirtyQueued → k = runs.length → (setRefcountBlocks io added discardType i runs st).2.DirtyQueued)
  | [], i, st, hinv, _, _ =>
    ⟨0, le_refl _, rfl, SameLayout.refl st, hinv, (fun _ => ⟨fun r hr => (nomatch hr), fun _ _ => rfl⟩),
      fun hq _ => hq⟩
  | (rtIdx, rbIdx, num) :: rest, i, st, hinv, hpw, haddr => by
    rw [List.pairwise_cons] at hpw
    -- the head's block is none of the rest's
    have hhead : rtIdx ∉ rest.map Prod.fst := not_mem_map_fst hpw.1
    obtain ⟨a, ha⟩ := haddr _ List.mem_cons_self
    obtain ⟨hl, hinv1, hok, herr, hq1⟩ := setRefcount_spec hinv ha rbIdx num added discardType hio
    rcases hsr : st.setRefcount io rtIdx rbIdx num added discardType with ⟨e | _, st1⟩ <;>
      rw [hsr] at hl hinv1 hok herr hq1 <;> dsimp only at hl hinv1 hok herr hq1
    · -- the first run fails: the loop stops there
      have hr : setRefcountBlocks io added discardType i ((rtIdx, rbIdx, num) :: rest) st = (i, st1) := by
        rw [setRefcountBlocks, hsr]
      rw [hr]
      refine ⟨0, Nat.zero_le _, rfl, hl, hinv1, fun hrel => ⟨fun r hr => (nomatch hr), fun rt _ => ?_⟩,
        fun _ h => absurd h (by simp)⟩
      exact (herr e rfl (hrel.resolve_left (by simp))).1 rt
    · obtain ⟨orig, new, horig, hw, hnew, hother⟩ := hok rfl
      have hr : setRefcountBlocks io added discardType i ((rtIdx, rbIdx, num) :: rest) st =
          setRefcountBlocks io added discardType (i + 1) rest st1 := by
        rw [setRefcountBlocks, hsr]
      rw [hr]
      have haddr1 : ∀ r ∈ rest, ∃ a, st1.blockAddr r.1 = some a := fun r hr' => by
        rw [hl.blockAddr_eq]
        exact haddr r (List.mem_cons_of_mem _ hr')
      obtain ⟨k, hk, hidx, hl', hinv', hview, hq'⟩ :=
        setRefcountBlocks_spec hio added discardType rest (i + 1) st1 hinv1 hpw.2 haddr1
      refine ⟨k + 1, by simp only [List.length_cons]; omega, by rw [hidx]; omega, hl.trans hl', hinv',
        fun hrel => ?_, fun hq hk' => hq' (hq1 hq rfl) (by simpa using hk')⟩
      obtain ⟨hdone, hframe⟩ := hview (hrel.imp (fun h => by simpa using h) id)
      refine ⟨fun r hr => ?_, fun rt hrt => ?_⟩
      · -- the done runs: the head, and those of the rest
        rw [List.take_succ_cons, List.mem_cons] at hr
        rcases hr with rfl | hr
        · refine ⟨orig, new, horig, hw, ?_⟩
          rw [hframe rtIdx fun h => hhead (List.map_subset _ (List.take_subset _ _) h)]
          exact hnew
        · obtain ⟨o, n, ho, hwn, hn⟩ := hdone r hr
          have hne : r.1 ≠ rtIdx := fun h => hpw.1 r (List.mem_of_mem_take hr) h.symm
          exact ⟨o, n, by rw [← ho, hother r.1 hne], hwn, hn⟩
      · rw [List.take_succ_cons, List.map_cons, List.mem_cons, not_or] at hrt
        rw [hframe rt hrt.2, hother rt hrt.1]

/-- **The revert**, on a host whose writes never fail. Runs on distinct
blocks, each of which the run can update into the entries `orig` of its
block, all succeed, and leave those blocks with those entries and every other
block as it was. -/
theorem setRefcountBlocks_revert (hio : io.Reliable) (added : Int) (discardType : Qcow2DiscardType)
    (orig : Nat → Nat → Option UInt16) :
    ∀ (runs : List (Nat × Nat × Nat)) (i : Nat) (st : RefCount), st.Inv →
      runs.Pairwise (fun a b => a.1 ≠ b.1) → (∀ r ∈ runs, ∃ a, st.blockAddr r.1 = some a) →
      (∀ r ∈ runs, ∃ d, st.blockData r.1 = some d ∧
        WindowUpdate (addSign added) (addedValueOf added) (u16Entry d) r.2.1 r.2.2 (orig r.1)) →
      (setRefcountBlocks io added discardType i runs st).1 = i + runs.length ∧
        SameLayout st (setRefcountBlocks io added discardType i runs st).2 ∧
        (∀ r ∈ runs, ∃ d, (setRefcountBlocks io added discardType i runs st).2.blockData r.1 = some d ∧
          u16Entry d = orig r.1) ∧
        ∀ rt, rt ∉ runs.map Prod.fst →
          (setRefcountBlocks io added discardType i runs st).2.blockData rt = st.blockData rt
  | [], i, st, _, _, _, _ => ⟨rfl, SameLayout.refl st, fun r hr => (nomatch hr), fun _ _ => rfl⟩
  | (rtIdx, rbIdx, num) :: rest, i, st, hinv, hpw, haddr, hrun => by
    rw [List.pairwise_cons] at hpw
    have hhead : rtIdx ∉ rest.map Prod.fst := not_mem_map_fst hpw.1
    obtain ⟨a, ha⟩ := haddr _ List.mem_cons_self
    obtain ⟨d, hd, hw⟩ := hrun _ List.mem_cons_self
    obtain ⟨hl, hinv1, hok, herr, -⟩ := setRefcount_spec hinv ha rbIdx num added discardType hio.writes
    rcases hsr : st.setRefcount io rtIdx rbIdx num added discardType with ⟨e | _, st1⟩ <;>
      rw [hsr] at hl hinv1 hok herr <;> dsimp only at hl hinv1 hok herr
    · -- a block that the run can update is not a failure
      exact absurd ⟨orig rtIdx, hw⟩ ((herr e rfl hio).2 d hd)
    · obtain ⟨o, new, ho, hw', hnew, hother⟩ := hok rfl
      rw [hd, Option.some.injEq] at ho
      subst ho
      have hnew' : u16Entry new = orig rtIdx := WindowUpdate.unique hw' hw
      have hr : setRefcountBlocks io added discardType i ((rtIdx, rbIdx, num) :: rest) st =
          setRefcountBlocks io added discardType (i + 1) rest st1 := by
        rw [setRefcountBlocks, hsr]
      rw [hr]
      -- the rest's blocks read as they did
      have haddr1 : ∀ r ∈ rest, ∃ a, st1.blockAddr r.1 = some a := fun r hr' => by
        rw [hl.blockAddr_eq]
        exact haddr r (List.mem_cons_of_mem _ hr')
      have hrun1 : ∀ r ∈ rest, ∃ d, st1.blockData r.1 = some d ∧
          WindowUpdate (addSign added) (addedValueOf added) (u16Entry d) r.2.1 r.2.2 (orig r.1) :=
        fun r hr' => by
          rw [hother r.1 fun h => hpw.1 r hr' h.symm]
          exact hrun r (List.mem_cons_of_mem _ hr')
      obtain ⟨hidx, hl', hdone, hframe⟩ :=
        setRefcountBlocks_revert hio added discardType orig rest (i + 1) st1 hinv1 hpw.2 haddr1 hrun1
      refine ⟨by rw [hidx, List.length_cons]; omega, hl.trans hl', fun r hr => ?_, fun rt hrt => ?_⟩
      · rcases List.mem_cons.1 hr with rfl | hr
        · exact ⟨new, by rw [hframe _ hhead]; exact hnew, hnew'⟩
        · exact hdone r hr
      · rw [List.map_cons, List.mem_cons, not_or] at hrt
        rw [hframe rt hrt.2, hother rt hrt.1]

end Blocks

/-! ## `update_refcount` -/

namespace RefCount

variable {io : BlockIo}

/-- An aligned offset is a whole number of clusters. -/
theorem divRoundUp_of_aligned {st : RefCount} {offset : Nat} (h : st.offsetIntoCluster offset = 0) :
    divRoundUp offset st.clusterSize = some (offset / st.clusterSize) := by
  have hcs : st.clusterSize ≠ 0 := by
    rw [st.cluster_size_eq]
    exact (Nat.two_pow_pos _).ne'
  rw [offsetIntoCluster_eq] at h
  unfold divRoundUp
  rw [if_neg hcs, if_pos h]

/-- What `update_refcount` without `flush` can do: fail before any run and keep
the state, finish every run of the aligned offset's `rc_vec`, or stop at a run
and revert the runs before it. -/
theorem updateRefcount_cases {st st' : RefCount} {offset clusters : Nat} {added : Int}
    {discardType : Qcow2DiscardType} {r : Except String Unit}
    (h : st.updateRefcount io offset clusters added false discardType = (r, st')) :
    (st' = st ∧ ∃ e, r = .error e) ∨
      ∃ rcVec, st.offsetIntoCluster offset = 0 ∧
        st.rcVecFrom (offset / st.clusterSize) clusters 0 = .ok rcVec ∧
        ((setRefcountBlocks io added discardType 0 rcVec st).1 = rcVec.length ∧ r = .ok () ∧
            st' = (setRefcountBlocks io added discardType 0 rcVec st).2 ∨
          (setRefcountBlocks io added discardType 0 rcVec st).1 ≠ rcVec.length ∧ (∃ e, r = .error e) ∧
            st' = (setRefcountBlocks io (-added) discardType 0
              (rcVec.take (setRefcountBlocks io added discardType 0 rcVec st).1)
              (setRefcountBlocks io added discardType 0 rcVec st).2).2) := by
  unfold updateRefcount at h
  split at h
  · -- misaligned offset
    simp only [Prod.mk.injEq] at h
    obtain ⟨rfl, rfl⟩ := h
    exact Or.inl ⟨rfl, _, rfl⟩
  · rename_i halign
    rw [Decidable.not_not] at halign
    rw [divRoundUp_of_aligned halign] at h
    dsimp only at h
    split at h
    · -- a bad table index or block address
      simp only [Prod.mk.injEq] at h
      obtain ⟨rfl, rfl⟩ := h
      exact Or.inl ⟨rfl, _, rfl⟩
    · rename_i rcVec hrc
      refine Or.inr ⟨rcVec, halign, hrc, ?_⟩
      rcases hsb : setRefcountBlocks io added discardType 0 rcVec st with ⟨idx, st1⟩
      rw [hsb] at h
      dsimp only at h ⊢
      by_cases hidx : idx = rcVec.length
      · rw [if_neg (Decidable.not_not.2 hidx)] at h
        simp only [Prod.mk.injEq, Bool.false_eq_true, ite_false] at h
        obtain ⟨rfl, rfl⟩ := h
        exact Or.inl ⟨hidx, rfl, rfl⟩
      · rw [if_pos hidx] at h
        simp only [Prod.mk.injEq] at h
        obtain ⟨rfl, rfl⟩ := h
        exact Or.inr ⟨hidx, ⟨_, rfl⟩, rfl⟩

/-- **`update_refcount` fails without touching a refcount**, on a host whose
writes never fail. Without `flush`, when `update_refcount` returns an error (a
misaligned offset, a bad table index or block address, or a run that fails
on a block that cannot be read, an overflow or an underflow), every
cluster's refcount reads as before the call: the runs done before the failing
one are all reverted. -/
theorem updateRefcount_error_refcounts (st : RefCount) (offset clusters : Nat) (added : Int)
    (discardType : Qcow2DiscardType) (hio : io.Reliable) (hinv : st.Inv) {e : String} {st' : RefCount}
    (h : st.updateRefcount io offset clusters added false discardType = (.error e, st')) (c : Nat) :
    st'.refcountOf c = st.refcountOf c := by
  rcases updateRefcount_cases h with ⟨rfl, -⟩ | ⟨rcVec, -, hrc, hdone | ⟨-, -, rfl⟩⟩
  · rfl
  · exact absurd hdone.2.1 (by simp)
  · obtain ⟨hpw, hbound, -⟩ := st.rcVecFrom_runs _ clusters 0 hrc
    have hdistinct : rcVec.Pairwise (fun a b => a.1 ≠ b.1) := hpw.imp Nat.ne_of_lt
    have haddr : ∀ r ∈ rcVec, ∃ a, st.blockAddr r.1 = some a := fun r hr => (hbound r hr).2
    obtain ⟨k, -, hidx, hl1, hinv1, hview, -⟩ :=
      setRefcountBlocks_spec hio.writes added discardType rcVec 0 st hinv hdistinct haddr
    obtain ⟨hdone, hframe⟩ := hview (.inr hio)
    rcases hsb : setRefcountBlocks io added discardType 0 rcVec st with ⟨idx, st1⟩
    rw [hsb] at hidx hl1 hinv1 hdone hframe
    dsimp only at hidx hl1 hinv1 hdone hframe ⊢
    obtain rfl : idx = k := by omega
    -- each done block, reverted, gets back the entries it had before the call
    let orig : Nat → Nat → Option UInt16 := fun rt j => (st.blockData rt).bind fun d => u16Entry d j
    have hrun : ∀ r ∈ rcVec.take idx, ∃ d, st1.blockData r.1 = some d ∧
        WindowUpdate (addSign (-added)) (addedValueOf (-added)) (u16Entry d) r.2.1 r.2.2 (orig r.1) := by
      intro r hr
      obtain ⟨o, n, ho, hw, hn⟩ := hdone r hr
      have hro : orig r.1 = u16Entry o := funext fun j => by simp only [orig, ho, Option.bind_some]
      exact ⟨n, hn, hro ▸ hw.revert⟩
    have haddr1 : ∀ r ∈ rcVec.take idx, ∃ a, st1.blockAddr r.1 = some a := fun r hr => by
      rw [hl1.blockAddr_eq]
      exact haddr r (List.mem_of_mem_take hr)
    obtain ⟨-, hl2, hback, hframe2⟩ := setRefcountBlocks_revert hio (-added) discardType orig
      (rcVec.take idx) 0 st1 hinv1 (hdistinct.sublist (List.take_sublist _ _)) haddr1 hrun
    refine refcountOf_congr (hl1.trans hl2) (fun rt j => ?_) c
    by_cases hmem : rt ∈ (rcVec.take idx).map Prod.fst
    · obtain ⟨r, hr, rfl⟩ := List.mem_map.1 hmem
      obtain ⟨d, hd, hdo⟩ := hback r hr
      rw [hd, Option.bind_some, hdo]
    · rw [hframe2 rt hmem, hframe rt hmem]

/-- An image of three clusters of `512` bytes: refcount block 0 in the second
holds refcount `1` for cluster `255`, block 1 in the third holds zeros. -/
def sampleImage : List UInt8 := List.replicate 1023 0 ++ [1] ++ List.replicate 512 0

/-- A refcount table naming the two blocks of `sampleImage`, a cache of one
block, and discards passed through for `always`. -/
def sampleRefCount : RefCount where
  refcountTable := [512, 1024]
  syncAio := sampleImage
  refcountBlkCache := Qcow2Cache.new 1
  heap := TableHeap.empty
  discardList := []
  discardPassthrough := [.always]
  freeClusterIndex := 0
  refcountTableSize := 2
  refcountBlkBits := 8
  refcountBlkSize := 256
  clusterSize := 512
  clusterBits := 9
  table_length := rfl
  blk_size_eq := rfl
  cluster_size_eq := rfl
  cluster_bits_ge := by decide
  cluster_bits_le := by decide

/-- A host whose writes all succeed. -/
def rawIo : BlockIo := ⟨fun img offset data => .ok (rawWrite img offset data)⟩

/-- A host whose writes all fail. -/
def failingIo : BlockIo := ⟨fun _ _ _ => .error "Input/output error"⟩

theorem rawIo_reliable : rawIo.Reliable := fun _ _ _ => rfl

/-- The sample keeps the invariant: its cache is empty and its table names two
blocks. -/
theorem sampleRefCount_inv : sampleRefCount.Inv := ⟨Coherent.empty rfl, tableApart_of_nodup (by decide)⟩

/-- Taking one reference from clusters `255` and `256`: the first block's run
succeeds, loading the second block evicts and writes back the first, the
second run underflows, and the first is reverted. -/
theorem updateRefcount_error_refcounts_underflow :
    (sampleRefCount.updateRefcount rawIo (255 * 512) 2 (-1) false .never).1 =
        .error "Failed to set refcounts, recover success" ∧
      ∀ c, (sampleRefCount.updateRefcount rawIo (255 * 512) 2 (-1) false .never).2.refcountOf c =
        sampleRefCount.refcountOf c := by
  have h : (sampleRefCount.updateRefcount rawIo (255 * 512) 2 (-1) false .never).1 =
      .error "Failed to set refcounts, recover success" := by decide +kernel
  exact ⟨h, updateRefcount_error_refcounts sampleRefCount (255 * 512) 2 (-1) .never rawIo_reliable
    sampleRefCount_inv (Prod.ext h rfl)⟩

/-- **A failed write-back breaks the revert.** Adding one reference to
clusters `255` and `256` on a host whose writes fail: the first run raises
cluster `255` to `2`; loading the second block evicts the first, whose
write-back fails, so the second run fails. The revert reloads the first block
from the image, where cluster `255` still has `1`, and takes it to `0`. The
call reports that the revert succeeded, but cluster `255` lost a reference. -/
theorem updateRefcount_error_refcounts_failedWrite :
    (sampleRefCount.updateRefcount failingIo (255 * 512) 2 1 false .never).1 =
        .error "Failed to set refcounts, recover success" ∧
      sampleRefCount.refcountOf 255 = some 1 ∧
      (sampleRefCount.updateRefcount failingIo (255 * 512) 2 1 false .never).2.refcountOf 255 = some 0 := by
  refine ⟨by decide +kernel, by decide +kernel, by decide +kernel⟩


/-- What a successful `update_refcount` without `flush` leaves, on a host
whose successful writes are seen by later reads: the layout and the invariant
kept, an exact dirty queue kept exact, each cluster of the range with its
refcount changed by `added`, and every other cluster's as before. -/
theorem updateRefcount_ok_spec {st st' : RefCount} {offset clusters : Nat} {added : Int}
    {discardType : Qcow2DiscardType} (hio : io.Writes) (hinv : st.Inv)
    (h : st.updateRefcount io offset clusters added false discardType = (.ok (), st')) :
    SameLayout st st' ∧ st'.Inv ∧ (st.DirtyQueued → st'.DirtyQueued) ∧
      ∀ c, (offset / st.clusterSize ≤ c ∧ c < offset / st.clusterSize + clusters →
          ∃ v w, st.refcountOf c = some v ∧
            newRefcount (addSign added) (addedValueOf added) v = some w ∧ st'.refcountOf c = some w) ∧
        (¬ (offset / st.clusterSize ≤ c ∧ c < offset / st.clusterSize + clusters) →
          st'.refcountOf c = st.refcountOf c) := by
  rcases updateRefcount_cases h with ⟨-, e, he⟩ | ⟨rcVec, -, hrc, ⟨hlen, -, rfl⟩ | ⟨-, ⟨e, he⟩, -⟩⟩
  · cases he
  · obtain ⟨hpw, hbound, hcover⟩ := st.rcVecFrom_runs _ clusters 0 hrc
    have hdistinct : rcVec.Pairwise (fun a b => a.1 ≠ b.1) := hpw.imp Nat.ne_of_lt
    have haddr : ∀ r ∈ rcVec, ∃ a, st.blockAddr r.1 = some a := fun r hr => (hbound r hr).2
    obtain ⟨k, -, hidx, hl1, hinv1, hview, hq1⟩ :=
      setRefcountBlocks_spec hio added discardType rcVec 0 st hinv hdistinct haddr
    rcases hsb : setRefcountBlocks io added discardType 0 rcVec st with ⟨idx, st1⟩
    rw [hsb] at hlen hidx hl1 hinv1 hview hq1
    dsimp only at hlen hidx hl1 hinv1 hview hq1 ⊢
    -- every run was done
    obtain rfl : k = rcVec.length := by omega
    obtain ⟨hdone, hframe⟩ := hview (.inl rfl)
    rw [List.take_length] at hdone hframe
    rw [Nat.add_zero] at hcover
    refine ⟨hl1, hinv1, fun hq => hq1 hq rfl, fun c => ?_⟩
    rw [refcountOf_eq, refcountOf_eq, hl1.blkSize]
    constructor
    · -- a cluster of the range: the run that covers it updated its entry
      intro hc
      obtain ⟨r, hr, hr1, hlo, hhi⟩ := (hcover c).1 hc
      obtain ⟨orig, new, horig, hw, hnew⟩ := hdone r hr
      obtain ⟨v, w, hv, hw', hvw⟩ := hw.window _ hlo hhi
      refine ⟨v, w, ?_, hvw, ?_⟩
      · rw [hr1, horig]
        exact hv
      · rw [hr1, hnew]
        exact hw'
    · -- another cluster: its block is no run's, or its entry is outside the run's window
      intro hc
      by_cases hmem : c / st.refcountBlkSize ∈ rcVec.map Prod.fst
      · obtain ⟨r, hr, hr1⟩ := List.mem_map.1 hmem
        obtain ⟨orig, new, horig, hw, hnew⟩ := hdone r hr
        have hout : ¬ (r.2.1 ≤ c % st.refcountBlkSize ∧ c % st.refcountBlkSize < r.2.1 + r.2.2) :=
          fun hin => hc ((hcover c).2 ⟨r, hr, hr1.symm, hin⟩)
        rw [← hr1, horig, hnew]
        exact hw.outside _ hout
      · rw [hframe _ hmem]
  · cases he

/-- **`update_refcount` changes exactly its clusters' refcounts**, on a host
whose successful writes are seen by later reads. Without `flush`, when
`update_refcount` succeeds, each cluster of `[offset / cluster_size,
+ clusters)` had a refcount that `added` changes without overflow or
underflow, and now has the new one; every other cluster's refcount is as
before. -/
theorem updateRefcount_ok_refcounts (st : RefCount) (offset clusters : Nat) (added : Int)
    (discardType : Qcow2DiscardType) (hio : io.Writes) (hinv : st.Inv) {st' : RefCount}
    (h : st.updateRefcount io offset clusters added false discardType = (.ok (), st')) (c : Nat) :
    (offset / st.clusterSize ≤ c ∧ c < offset / st.clusterSize + clusters →
      ∃ v w, st.refcountOf c = some v ∧
        newRefcount (addSign added) (addedValueOf added) v = some w ∧ st'.refcountOf c = some w) ∧
    (¬ (offset / st.clusterSize ≤ c ∧ c < offset / st.clusterSize + clusters) →
      st'.refcountOf c = st.refcountOf c) :=
  (updateRefcount_ok_spec hio hinv h).2.2.2 c

/-- Adding one reference to clusters `255` and `256` of the sample, where
loading the second block evicts and writes back the first, seen at cluster
`255`. -/
theorem updateRefcount_ok_refcounts_increment :
    (sampleRefCount.updateRefcount rawIo (255 * 512) 2 1 false .never).1 = .ok () ∧
      ((255 * 512) / sampleRefCount.clusterSize ≤ 255 ∧ 255 < (255 * 512) / sampleRefCount.clusterSize + 2 →
        ∃ v w, sampleRefCount.refcountOf 255 = some v ∧
          newRefcount (addSign 1) (addedValueOf 1) v = some w ∧
          (sampleRefCount.updateRefcount rawIo (255 * 512) 2 1 false .never).2.refcountOf 255 = some w) ∧
      (¬ ((255 * 512) / sampleRefCount.clusterSize ≤ 255 ∧ 255 < (255 * 512) / sampleRefCount.clusterSize + 2) →
        (sampleRefCount.updateRefcount rawIo (255 * 512) 2 1 false .never).2.refcountOf 255 =
          sampleRefCount.refcountOf 255) := by
  have h : (sampleRefCount.updateRefcount rawIo (255 * 512) 2 1 false .never).1 = .ok () := by decide +kernel
  exact ⟨h, updateRefcount_ok_refcounts sampleRefCount (255 * 512) 2 1 .never rawIo_reliable.writes
    sampleRefCount_inv (Prod.ext h rfl) 255⟩


/-- `update_refcount` with `flush` that succeeds is the call without it,
which succeeds, then a `flush` that succeeds. -/
theorem updateRefcount_flush_ok {st st' : RefCount} {offset clusters : Nat} {added : Int}
    {discardType : Qcow2DiscardType}
    (h : st.updateRefcount io offset clusters added true discardType = (.ok (), st')) :
    ∃ st1, st.updateRefcount io offset clusters added false discardType = (.ok (), st1) ∧
      st1.flush io = (.ok (), st') := by
  unfold updateRefcount at h ⊢
  split at h
  · cases h
  rename_i halign
  rw [if_neg halign]
  rcases hfc : divRoundUp offset st.clusterSize with _ | fc <;> rw [hfc] at h <;> dsimp only at h ⊢
  · cases h
  rcases hrc : st.rcVecFrom fc clusters 0 with e | rcVec <;> rw [hrc] at h <;> dsimp only at h ⊢
  · cases h
  rcases hsb : setRefcountBlocks io added discardType 0 rcVec st with ⟨idx, st1⟩
  rw [hsb] at h
  dsimp only at h ⊢
  by_cases hidx : idx = rcVec.length
  · rw [if_neg (Decidable.not_not.2 hidx), if_pos rfl] at h
    rw [if_neg (Decidable.not_not.2 hidx), if_neg Bool.false_ne_true]
    exact ⟨st1, rfl, h⟩
  · rw [if_pos hidx] at h
    cases h

/-- **`update_refcount` with `flush` puts the refcounts in the image**, on a
host whose successful writes are seen by later reads, from a coherent state
whose dirty queue is exact. When it succeeds, the image file itself holds,
for each cluster of `[offset / cluster_size, + clusters)`, its refcount
changed by `added`, and for every other cluster the refcount it had. -/
theorem updateRefcount_flush_image (st : RefCount) (offset clusters : Nat) (added : Int)
    (discardType : Qcow2DiscardType) (hio : io.Writes) (hinv : st.Inv) (hq : st.DirtyQueued) {st' : RefCount}
    (h : st.updateRefcount io offset clusters added true discardType = (.ok (), st')) (c : Nat) :
    (offset / st.clusterSize ≤ c ∧ c < offset / st.clusterSize + clusters →
      ∃ v w, st.refcountOf c = some v ∧
        newRefcount (addSign added) (addedValueOf added) v = some w ∧ st'.imageRefcountOf c = some w) ∧
    (¬ (offset / st.clusterSize ≤ c ∧ c < offset / st.clusterSize + clusters) →
      st'.imageRefcountOf c = st.refcountOf c) := by
  obtain ⟨st1, h1, hfl⟩ := updateRefcount_flush_ok h
  obtain ⟨-, hinv1, hq1, hrc⟩ := updateRefcount_ok_spec hio hinv h1
  obtain ⟨hl2, -, -, hbd, himg⟩ := flush_spec hinv1 (hq1 hq) hio (by rw [hfl])
  rw [hfl] at hl2 hbd himg
  dsimp only at hl2 hbd himg
  -- the image holds what the cache held before the flush
  have heq : st'.imageRefcountOf c = st1.refcountOf c := by
    unfold imageRefcountOf refcountOf clusterInRcBlock
    rw [himg, hbd, hl2.blkBits, hl2.blkSize]
  rw [heq]
  exact hrc c

/-- Adding one reference to clusters `255` and `256` of the sample with
`flush`, seen in the image at cluster `255`. -/
theorem updateRefcount_flush_image_increment :
    (sampleRefCount.updateRefcount rawIo (255 * 512) 2 1 true .never).1 = .ok () ∧
      ((255 * 512) / sampleRefCount.clusterSize ≤ 255 ∧ 255 < (255 * 512) / sampleRefCount.clusterSize + 2 →
        ∃ v w, sampleRefCount.refcountOf 255 = some v ∧
          newRefcount (addSign 1) (addedValueOf 1) v = some w ∧
          (sampleRefCount.updateRefcount rawIo (255 * 512) 2 1 true .never).2.imageRefcountOf 255 = some w) ∧
      (¬ ((255 * 512) / sampleRefCount.clusterSize ≤ 255 ∧ 255 < (255 * 512) / sampleRefCount.clusterSize + 2) →
        (sampleRefCount.updateRefcount rawIo (255 * 512) 2 1 true .never).2.imageRefcountOf 255 =
          sampleRefCount.refcountOf 255) := by
  have h : (sampleRefCount.updateRefcount rawIo (255 * 512) 2 1 true .never).1 = .ok () := by decide +kernel
  exact ⟨h, updateRefcount_flush_image sampleRefCount (255 * 512) 2 1 .never rawIo_reliable.writes
    sampleRefCount_inv ⟨(fun _ hr => nomatch hr), fun _ he => nomatch he⟩ (Prod.ext h rfl) 255⟩

end RefCount

/-! ## The discard list over whole updates -/

namespace RefCount

variable {io : BlockIo}

/-- One pass of `set_refcount`'s first loop queues at most the discard of its
cluster. -/
theorem newValue_discardGrows {st st' : RefCount} {t : CacheTable} {rtIdx rbIdx : Nat}
    {isAdd : Bool} {addedValue w : UInt16} {discardType : Qcow2DiscardType} {i : Nat}
    (h : st.newValue t rtIdx rbIdx isAdd addedValue discardType i = .ok (w, st')) :
    DiscardGrows st.discardList st'.discardList := by
  unfold newValue at h
  rcases hv : t.beRead (rbIdx + i) with e | v <;> rw [hv] at h <;> dsimp only at h
  · cases h
  rcases hw : newRefcount isAdd addedValue (UInt16.ofNat v) with _ | w' <;> rw [hw] at h <;> dsimp only at h
  · cases h
  split at h
  · -- the value reached zero: the discard of its cluster is queued if the type passes
    simp only [Except.ok.injEq, Prod.mk.injEq] at h
    obtain ⟨-, rfl⟩ := h
    split <;> split
    all_goals first
      | exact updateDiscardList_grows _ _ _
      | exact DiscardGrows.refl _
  · simp only [Except.ok.injEq, Prod.mk.injEq] at h
    obtain ⟨-, rfl⟩ := h
    exact DiscardGrows.refl _

/-- Loading a block leaves the discard list alone. -/
theorem ensureLoaded_discardList (st : RefCount) (rtIdx : Nat) :
    (st.ensureLoaded io rtIdx).2.discardList = st.discardList := by
  obtain ⟨c, h, img, hst⟩ := @ensureLoaded_frame io st rtIdx
  rw [hst]

end RefCount

theorem newValues_discardGrows (t : CacheTable) (rtIdx rbIdx : Nat) (isAdd : Bool)
    (addedValue : UInt16) (discardType : Qcow2DiscardType) :
    ∀ (is : List Nat) (st : RefCount) (acc : List UInt16),
      DiscardGrows st.discardList
        (newValues t rtIdx rbIdx isAdd addedValue discardType is st acc).2.discardList
  | [], st, _ => DiscardGrows.refl st.discardList
  | i :: is, st, acc => by
    rw [newValues]
    rcases hv : st.newValue t rtIdx rbIdx isAdd addedValue discardType i with e | ⟨w, st'⟩
    · exact DiscardGrows.refl st.discardList
    · exact (RefCount.newValue_discardGrows hv).trans
        (newValues_discardGrows t rtIdx rbIdx isAdd addedValue discardType is st' _)

namespace RefCount

variable {io : BlockIo}

/-- `set_refcount` only queues discards, also when it fails. -/
theorem setRefcount_discardGrows (st : RefCount) (rtIdx rbIdx num : Nat) (added : Int)
    (discardType : Qcow2DiscardType) :
    DiscardGrows st.discardList (st.setRefcount io rtIdx rbIdx num added discardType).2.discardList := by
  have h1 := @ensureLoaded_discardList io st rtIdx
  unfold setRefcount
  rcases hload : st.ensureLoaded io rtIdx with ⟨_ | _, st1⟩ <;> rw [hload] at h1 <;> dsimp only at h1 ⊢
  · rw [h1]
    exact DiscardGrows.refl _
  · rw [← h1]
    generalize st1.refcountBlkCache.get st1.heap rtIdx = G
    obtain ⟨hit, c2, h2⟩ := G
    cases hit with
    | none => exact DiscardGrows.refl _
    | some r =>
      dsimp only
      have h2' := newValues_discardGrows (h2.get r) rtIdx rbIdx (addSign added) (addedValueOf added)
        discardType (List.range num) { st1 with refcountBlkCache := c2, heap := h2 } []
      rcases hnv : newValues (h2.get r) rtIdx rbIdx (addSign added) (addedValueOf added) discardType
        (List.range num) { st1 with refcountBlkCache := c2, heap := h2 } [] with ⟨_ | rbVec, st'⟩ <;>
        rw [hnv] at h2' <;> dsimp only
      · exact h2'
      · -- writing the entries moves the tables and the dirty queue only
        split <;> [exact h2'; split <;> exact h2']

end RefCount

theorem setRefcountBlocks_discardGrows (io : BlockIo) (added : Int) (discardType : Qcow2DiscardType) :
    ∀ (i : Nat) (runs : List (Nat × Nat × Nat)) (st : RefCount),
      DiscardGrows st.discardList (setRefcountBlocks io added discardType i runs st).2.discardList
  | _, [], st => DiscardGrows.refl st.discardList
  | i, (rtIdx, rbIdx, num) :: rest, st => by
    have h1 := @RefCount.setRefcount_discardGrows io st rtIdx rbIdx num added discardType
    rw [setRefcountBlocks]
    rcases hsr : st.setRefcount io rtIdx rbIdx num added discardType with ⟨_ | _, st'⟩
    all_goals rw [hsr] at h1
    · exact h1
    · exact h1.trans (setRefcountBlocks_discardGrows io added discardType (i + 1) rest st')

namespace RefCount

variable {io : BlockIo}

theorem flush_discardList (st : RefCount) : (st.flush io).2.discardList = st.discardList := by
  unfold flush
  split
  rfl

/-- **The discard list over any `update_refcount`.** Whatever the call does,
also when it fails and reverts its runs, the discard list still discards
every byte it did, and when no two of its tasks met, none do after. The revert
takes back no discard: what the runs queued, those that are then reverted
included, stays queued. -/
theorem updateRefcount_discardGrows (st : RefCount) (offset clusters : Nat) (added : Int)
    (flush : Bool) (discardType : Qcow2DiscardType) :
    DiscardGrows st.discardList
        (st.updateRefcount io offset clusters added flush discardType).2.discardList ∧
      ∀ rcVec, st.offsetIntoCluster offset = 0 → st.rcVecFrom (offset / st.clusterSize) clusters 0 = .ok rcVec →
        DiscardGrows (setRefcountBlocks io added discardType 0 rcVec st).2.discardList
          (st.updateRefcount io offset clusters added flush discardType).2.discardList := by
  -- after the runs, the revert and the flush only queue more
  have hafter : ∀ (rcVec : List (Nat × Nat × Nat)) (idx : Nat) (st1 : RefCount),
      DiscardGrows st1.discardList
        (if idx ≠ rcVec.length then
          ((.error ("Failed to set refcounts, recover " ++
              (if (setRefcountBlocks io (-added) discardType 0 (rcVec.take idx) st1).1 = idx then "success"
                else "failed")), (setRefcountBlocks io (-added) discardType 0 (rcVec.take idx) st1).2) :
            Except String Unit × RefCount)
        else if flush then st1.flush io else (.ok (), st1)).2.discardList := by
    intro rcVec idx st1
    split
    · exact setRefcountBlocks_discardGrows io (-added) discardType 0 _ st1
    · split
      · rw [flush_discardList]
        exact DiscardGrows.refl _
      · exact DiscardGrows.refl _
  refine ⟨?_, fun rcVec halign hrc => ?_⟩
  · unfold updateRefcount
    split
    · exact DiscardGrows.refl _
    · split
      · exact DiscardGrows.refl _
      · split
        · exact DiscardGrows.refl _
        · rename_i rcVec _
          have h1 := setRefcountBlocks_discardGrows io added discardType 0 rcVec st
          rcases hsb : setRefcountBlocks io added discardType 0 rcVec st with ⟨idx, st1⟩
          rw [hsb] at h1
          exact h1.trans (hafter rcVec idx st1)
  · unfold updateRefcount
    rw [if_neg (by rw [halign]; exact fun h => h rfl), divRoundUp_of_aligned halign]
    dsimp only
    rw [hrc]
    dsimp only
    rcases hsb : setRefcountBlocks io added discardType 0 rcVec st with ⟨idx, st1⟩
    exact hafter rcVec idx st1

/-- The revert keeps a discard: taking one reference from clusters `255` and
`256` with discards passed through, the first run takes cluster `255` to `0`
and queues its discard, the second underflows, and the revert gives cluster
`255` its reference back; the discard of its bytes stays queued. -/
theorem updateRefcount_discardGrows_reverted :
    (sampleRefCount.updateRefcount rawIo (255 * 512) 2 (-1) false .always).1 =
        .error "Failed to set refcounts, recover success" ∧
      (sampleRefCount.updateRefcount rawIo (255 * 512) 2 (-1) false .always).2.refcountOf 255 = some 1 ∧
      DiscardCovers (sampleRefCount.updateRefcount rawIo (255 * 512) 2 (-1) false .always).2.discardList
        (255 * 512) := by
  have hruns : (setRefcountBlocks rawIo (-1) .always 0 [(0, 255, 1), (1, 0, 1)] sampleRefCount).2.discardList =
      [⟨255 * 512, 512⟩] := by decide +kernel
  have hcov : DiscardCovers
      (setRefcountBlocks rawIo (-1) .always 0 [(0, 255, 1), (1, 0, 1)] sampleRefCount).2.discardList
      (255 * 512) := by
    rw [hruns]
    exact ⟨_, List.mem_singleton_self _, by decide, by decide⟩
  refine ⟨by decide +kernel, by decide +kernel, ?_⟩
  exact ((updateRefcount_discardGrows sampleRefCount (255 * 512) 2 (-1) false .always).2
    [(0, 255, 1), (1, 0, 1)] (by decide) (by decide +kernel)).covers _ hcov

end RefCount

end StratoVirt.Qcow2
