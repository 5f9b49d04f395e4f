import Mathlib

/-!
# The discard list of the refcount code

`block_backend/src/qcow2/refcount.rs`: `DiscardTask` and
`RefCount::update_discard_list`. When a cluster's refcount drops to zero,
`set_refcount` queues the discard of its bytes; `update_discard_list` merges
the new task with every queued task it meets or touches and puts the merged
task last.

Results: merging loses no byte and gains none but the new ones
(`updateDiscardList_covers`), and keeps the tasks apart, no two meeting
(`updateDiscardList_apart`); together, the list grows (`DiscardGrows`).
-/

namespace StratoVirt.Qcow2

/-- `Qcow2DiscardType`. -/
inductive Qcow2DiscardType where
  | never
  | always
  | request
  | snapshot
  | other
  deriving DecidableEq, Repr

/-- `DiscardTask`: `nbytes` bytes of the image from `offset`. -/
structure DiscardTask where
  offset : Nat
  nbytes : Nat
  deriving DecidableEq, Repr

namespace DiscardTask

/-- `DiscardTask::is_overlap`: the two ranges meet or touch. -/
def isOverlap (self task : DiscardTask) : Bool :=
  !(self.offset > task.offset + task.nbytes || task.offset > self.offset + self.nbytes)

/-- `DiscardTask::merge_task`: the smallest range holding both. -/
def mergeTask (self task : DiscardTask) : DiscardTask :=
  let offset := min self.offset task.offset
  let endOffset := max (self.offset + self.nbytes) (task.offset + task.nbytes)
  ⟨offset, endOffset - offset⟩

/-- The task discards byte `b` of the image. -/
def Covers (t : DiscardTask) (b : Nat) : Prop := t.offset ≤ b ∧ b < t.offset + t.nbytes

end DiscardTask

/-- One pass of `update_discard_list`'s loop: the task being built absorbs a
task it meets, and keeps any other. -/
def updateDiscardStep (acc : DiscardTask × List DiscardTask) (task : DiscardTask) :
    DiscardTask × List DiscardTask :=
  if acc.1.isOverlap task then (acc.1.mergeTask task, acc.2) else (acc.1, acc.2 ++ [task])

/-- `RefCount::update_discard_list`: the new task, merged with every task it
meets, goes last; the tasks it does not meet stay in order. -/
def updateDiscardList (discardList : List DiscardTask) (offset nbytes : Nat) : List DiscardTask :=
  let (discardTask, kept) := discardList.foldl updateDiscardStep (⟨offset, nbytes⟩, [])
  kept ++ [discardTask]

/-! ### The discard list: no byte lost, no two tasks that meet -/

/-- The tasks of `l` discard byte `b`. -/
def DiscardCovers (l : List DiscardTask) (b : Nat) : Prop := ∃ t ∈ l, t.Covers b

@[simp] theorem discardCovers_nil (b : Nat) : ¬ DiscardCovers [] b := fun ⟨_, ht, _⟩ => nomatch ht

@[simp] theorem discardCovers_cons (t : DiscardTask) (l : List DiscardTask) (b : Nat) :
    DiscardCovers (t :: l) b ↔ t.Covers b ∨ DiscardCovers l b := by
  unfold DiscardCovers
  simp only [List.mem_cons, or_and_right, exists_or, exists_eq_left]

@[simp] theorem discardCovers_append (l l' : List DiscardTask) (b : Nat) :
    DiscardCovers (l ++ l') b ↔ DiscardCovers l b ∨ DiscardCovers l' b := by
  unfold DiscardCovers
  simp only [List.mem_append, or_and_right, exists_or]

/-- No two tasks of `l` meet: the list `update_discard_list` keeps. -/
def DiscardApart (l : List DiscardTask) : Prop := l.Pairwise fun a b => a.isOverlap b = false

namespace DiscardTask

theorem isOverlap_iff (a b : DiscardTask) :
    a.isOverlap b = true ↔ a.offset ≤ b.offset + b.nbytes ∧ b.offset ≤ a.offset + a.nbytes := by
  unfold isOverlap
  simp only [Bool.not_eq_true', Bool.or_eq_false_iff, decide_eq_false_iff_not, gt_iff_lt, not_lt]

theorem isOverlap_comm (a b : DiscardTask) : a.isOverlap b = b.isOverlap a := by
  unfold isOverlap
  rw [Bool.or_comm]

/-- Two tasks that meet cover, merged, exactly the bytes they cover. -/
theorem covers_mergeTask {self task : DiscardTask} (h : self.isOverlap task = true) (b : Nat) :
    (self.mergeTask task).Covers b ↔ self.Covers b ∨ task.Covers b := by
  rw [isOverlap_iff] at h
  unfold mergeTask Covers
  dsimp only
  omega

/-- A task meets the merge of two tasks that meet exactly when it meets one
of them. -/
theorem isOverlap_mergeTask {self task : DiscardTask} (h : self.isOverlap task = true)
    (t : DiscardTask) : t.isOverlap (self.mergeTask task) = (t.isOverlap self || t.isOverlap task) := by
  rw [isOverlap_iff] at h
  rw [Bool.eq_iff_iff, Bool.or_eq_true, isOverlap_iff, isOverlap_iff, isOverlap_iff]
  unfold mergeTask
  dsimp only
  omega

end DiscardTask

open DiscardTask in
/-- The loop of `update_discard_list` loses no byte and gains none: the task
being built and those kept cover what they covered and the tasks passed. -/
theorem foldl_updateDiscardStep_covers (b : Nat) :
    ∀ (l : List DiscardTask) (acc : DiscardTask × List DiscardTask),
      ((l.foldl updateDiscardStep acc).1.Covers b ∨ DiscardCovers (l.foldl updateDiscardStep acc).2 b) ↔
        (acc.1.Covers b ∨ DiscardCovers acc.2 b) ∨ DiscardCovers l b
  | [], _ => by simp
  | task :: rest, (d, kept) => by
    rw [List.foldl_cons, foldl_updateDiscardStep_covers b rest, discardCovers_cons]
    unfold updateDiscardStep
    split
    · -- the task is absorbed into the one being built
      rename_i h
      dsimp only at h ⊢
      rw [covers_mergeTask h]
      tauto
    · -- the task is kept
      dsimp only
      rw [discardCovers_append, discardCovers_cons]
      simp only [discardCovers_nil, or_false]
      tauto

/-- **`update_discard_list` loses no byte.** The new list discards exactly the
bytes the old one did and those of the new task. -/
theorem updateDiscardList_covers (discardList : List DiscardTask) (offset nbytes b : Nat) :
    DiscardCovers (updateDiscardList discardList offset nbytes) b ↔
      DiscardCovers discardList b ∨ (offset ≤ b ∧ b < offset + nbytes) := by
  have hfold := foldl_updateDiscardStep_covers b discardList (⟨offset, nbytes⟩, [])
  unfold updateDiscardList
  rcases hf : discardList.foldl updateDiscardStep (⟨offset, nbytes⟩, []) with ⟨d, kept⟩
  rw [hf] at hfold
  dsimp only at hfold ⊢
  simp only [discardCovers_nil, or_false] at hfold
  rw [discardCovers_append, discardCovers_cons]
  simp only [discardCovers_nil, or_false]
  rw [or_comm, hfold, or_comm]
  rfl

open DiscardTask in
/-- The loop of `update_discard_list` keeps the tasks apart: when the kept
tasks and those still to come are apart and none of the kept ones meets the
task being built, the list it ends with is apart. -/
theorem foldl_updateDiscardStep_apart :
    ∀ (l : List DiscardTask) (acc : DiscardTask × List DiscardTask),
      DiscardApart (acc.2 ++ l) → (∀ t ∈ acc.2, t.isOverlap acc.1 = false) →
      DiscardApart ((l.foldl updateDiscardStep acc).2 ++ [(l.foldl updateDiscardStep acc).1])
  | [], (d, kept), hapart, hkept => by
    rw [List.append_nil] at hapart
    unfold DiscardApart
    rw [List.foldl_nil, List.pairwise_append]
    exact ⟨hapart, List.pairwise_singleton _ _, fun a ha b hb => by
      rw [List.mem_singleton] at hb
      subst hb
      exact hkept a ha⟩
  | task :: rest, (d, kept), hapart, hkept => by
    rw [List.foldl_cons]
    unfold DiscardApart at hapart
    -- the kept tasks do not meet the incoming one
    have hkt : ∀ t ∈ kept, t.isOverlap task = false := fun t ht =>
      (List.pairwise_append.1 hapart).2.2 t ht task List.mem_cons_self
    unfold updateDiscardStep
    split
    · rename_i h
      refine foldl_updateDiscardStep_apart rest _ ?_ fun t ht => ?_
      · exact hapart.sublist ((List.sublist_cons_self task rest).append_left kept)
      · dsimp only at h
        rw [isOverlap_mergeTask h, hkept t ht, hkt t ht]
        rfl
    · rename_i h
      refine foldl_updateDiscardStep_apart rest _ ?_ fun t ht => ?_
      · rwa [List.append_assoc, List.singleton_append]
      · rcases List.mem_append.1 ht with ht | ht
        · exact hkept t ht
        · rw [List.mem_singleton] at ht
          subst ht
          rw [isOverlap_comm]
          simpa using h

/-- **`update_discard_list` keeps the tasks apart**: when no two tasks of the
list meet, no two of the new list do. -/
theorem updateDiscardList_apart {discardList : List DiscardTask} (h : DiscardApart discardList)
    (offset nbytes : Nat) : DiscardApart (updateDiscardList discardList offset nbytes) :=
  foldl_updateDiscardStep_apart discardList (⟨offset, nbytes⟩, []) h fun _ ht => nomatch ht

/-- The discard list `l'` still discards every byte that `l` does, and keeps
its tasks apart when `l` did. -/
structure DiscardGrows (l l' : List DiscardTask) : Prop where
  covers : ∀ b, DiscardCovers l b → DiscardCovers l' b
  apart : DiscardApart l → DiscardApart l'

theorem DiscardGrows.refl (l : List DiscardTask) : DiscardGrows l l := ⟨fun _ => id, id⟩

theorem DiscardGrows.trans {l l' l'' : List DiscardTask} (h : DiscardGrows l l')
    (h' : DiscardGrows l' l'') : DiscardGrows l l'' :=
  ⟨fun b hb => h'.covers b (h.covers b hb), fun ha => h'.apart (h.apart ha)⟩

theorem updateDiscardList_grows (discardList : List DiscardTask) (offset nbytes : Nat) :
    DiscardGrows discardList (updateDiscardList discardList offset nbytes) :=
  ⟨fun b hb => (updateDiscardList_covers discardList offset nbytes b).2 (.inl hb),
    fun ha => updateDiscardList_apart ha offset nbytes⟩

end StratoVirt.Qcow2
