import Mathlib

/-!
# `binary_search_by`: the search and its contract

`slice::binary_search_by(f)` of the Rust standard library, as the toolchain
the repository builds with (1.64) has it: a window `[left, right)` halved at
`mid = left + size / 2` until `f` answers `Equal` (`Ok(mid)`) or the window is
empty (`Err(left)`). `binary_search_by_key(b, key)` is the search with
`f x = key(x).cmp(b)`. `Result<usize, usize>` is `Except Nat Nat`.

The contract, for a list that `f` orders (`SortedBy`: `Less` before, `Greater`
after, as on a list sorted by the key):

* `binarySearchBy_eq_ok`: `Ok(i)` names an element `f` calls `Equal`
  (this needs no order);
* `binarySearchBy_eq_error`: `Err(x)` is the point where `f` turns from `Less`
  to `Greater`, every element before it `Less` and every one from it on
  `Greater`.

The loop carries `right ≤ len` so that indexing needs no default, and its
proofs go by strong induction on the window's size with the two partition
invariants as hypotheses.
-/

namespace StratoVirt.Lib

section BinarySearch

variable {α : Type}

/-- The loop of `binary_search_by` on the window `[left, right)`. -/
def binarySearchLoop (l : List α) (f : α → Ordering) (left right : Nat) (hr : right ≤ l.length) :
    Except Nat Nat :=
  if h : left < right then
    let mid := left + (right - left) / 2
    have hmid : mid < l.length := by omega
    match f l[mid] with
    | .lt => binarySearchLoop l f (mid + 1) right hr
    | .gt => binarySearchLoop l f left mid (by omega)
    | .eq => .ok mid
  else .error left
termination_by right - left

/-- `binary_search_by(f)`. -/
def binarySearchBy (l : List α) (f : α → Ordering) : Except Nat Nat :=
  binarySearchLoop l f 0 l.length (Nat.le_refl _)

/-- `binary_search_by_key(b, key)`. -/
def binarySearchByKey {β : Type} [Ord β] (l : List α) (b : β) (key : α → β) : Except Nat Nat :=
  binarySearchBy l fun x => compare (key x) b

/-- `f` orders the list: an element `Less` has only `Less` ones before it, an
element `Greater` only `Greater` ones after it. -/
def SortedBy (f : α → Ordering) (l : List α) : Prop :=
  l.Pairwise fun a b => (f b = .lt → f a = .lt) ∧ (f a = .gt → f b = .gt)

/-- A list whose keys strictly increase is ordered by comparing the keys with
any value. -/
theorem sortedBy_compare {β : Type} [LinearOrder β] {key : α → β} {l : List α} (b : β)
    (hl : l.Pairwise fun x y => key x < key y) : SortedBy (fun x => compare (key x) b) l := by
  refine hl.imp fun {x y} hxy => ⟨fun hy => ?_, fun hx => ?_⟩
  · rw [compare_lt_iff_lt] at hy ⊢
    exact lt_trans hxy hy
  · rw [compare_gt_iff_gt] at hx ⊢
    exact lt_trans hx hxy

/-- **`Ok`.** The index the loop stops at is in the list and `f` calls its
element `Equal`. -/
theorem binarySearchLoop_eq_ok {l : List α} {f : α → Ordering} {i : Nat} :
    ∀ (d left right : Nat) (hr : right ≤ l.length), right - left = d →
      binarySearchLoop l f left right hr = .ok i → ∃ hi : i < l.length, f l[i] = .eq := by
  intro d
  induction d using Nat.strong_induction_on with
  | _ d ih =>
    intro left right hr hd h
    rw [binarySearchLoop] at h
    split at h
    · rename_i hlt
      -- the middle element decides which half is searched next
      dsimp only at h
      split at h
      · exact ih _ (by omega) _ right hr rfl h
      · exact ih _ (by omega) left _ _ rfl h
      · rename_i heq
        cases h
        exact ⟨_, heq⟩
    · cases h

/-- **`Err`.** On an ordered list the loop stops where `f` turns from `Less`
to `Greater`, given that the window's outside is already split so. -/
theorem binarySearchLoop_eq_error {l : List α} {f : α → Ordering} (hs : SortedBy f l) {x : Nat} :
    ∀ (d left right : Nat) (hr : right ≤ l.length), right - left = d → left ≤ right →
      (∀ j (hj : j < l.length), j < left → f l[j] = .lt) →
      (∀ j (hj : j < l.length), right ≤ j → f l[j] = .gt) →
      binarySearchLoop l f left right hr = .error x →
      x ≤ l.length ∧ (∀ j (hj : j < l.length), j < x → f l[j] = .lt) ∧
        (∀ j (hj : j < l.length), x ≤ j → f l[j] = .gt) := by
  have hpair := List.pairwise_iff_getElem.1 hs
  intro d
  induction d using Nat.strong_induction_on with
  | _ d ih =>
    intro left right hr hd hle hlow hhigh h
    rw [binarySearchLoop] at h
    split at h
    · rename_i hlt
      dsimp only at h
      split at h
      · -- `Less` at `mid`: everything up to `mid` is `Less`
        rename_i hmid
        refine ih _ (by omega) _ right hr rfl (by omega) (fun j hj hjl => ?_) hhigh h
        by_cases hjm : j < left + (right - left) / 2
        · exact (hpair j _ hj (by omega) hjm).1 hmid
        · have hj' : j = left + (right - left) / 2 := by omega
          subst hj'
          exact hmid
      · -- `Greater` at `mid`: everything from `mid` on is `Greater`
        rename_i hmid
        refine ih _ (by omega) left _ _ rfl (by omega) hlow (fun j hj hjr => ?_) h
        by_cases hjm : left + (right - left) / 2 < j
        · exact (hpair _ j (by omega) hj hjm).2 hmid
        · have hj' : j = left + (right - left) / 2 := by omega
          subst hj'
          exact hmid
      · cases h
    · -- the window is empty: `left` is the split point
      rename_i hge
      cases h
      exact ⟨by omega, hlow, fun j hj hjx => hhigh j hj (by omega)⟩

theorem binarySearchBy_eq_ok {l : List α} {f : α → Ordering} {i : Nat} (h : binarySearchBy l f = .ok i) :
    ∃ hi : i < l.length, f l[i] = .eq :=
  binarySearchLoop_eq_ok _ 0 l.length _ rfl h

theorem binarySearchBy_eq_error {l : List α} {f : α → Ordering} (hs : SortedBy f l) {x : Nat}
    (h : binarySearchBy l f = .error x) :
    x ≤ l.length ∧ (∀ j (hj : j < l.length), j < x → f l[j] = .lt) ∧
      (∀ j (hj : j < l.length), x ≤ j → f l[j] = .gt) :=
  binarySearchLoop_eq_error hs _ 0 l.length _ rfl (Nat.zero_le _) (fun _ _ hj => absurd hj (Nat.not_lt_zero _))
    (fun _ hj hle => absurd hj (Nat.not_lt.2 hle)) h

end BinarySearch

end StratoVirt.Lib
