import Mathlib

/-!
# Tables kept as lists

Device state often keeps a table as a vector that is updated in place
(`List.modify`), appended to, and shrunk by removing one index
(`List.eraseIdx`). These are the facts the invariants over such tables use:
what an updated table can contain, that an update which keeps a quantity keeps
its sum, what removing an index takes off a sum, and what a slot overwritten
with `List.set` reads and leaves of a filter. A table of entries that loses
its first entry of one kind (`List.eraseP`) is seen through a filter: the
entries of that kind lose it, and the entries of other kinds stay. A run of
consecutive indices (`List.range'`) is cut in two where a loop moves from one
part of a table to the next.
-/

namespace StratoVirt.Lib

variable {α : Type}

/-- A member of an updated list was there, or is an updated member. -/
theorem mem_modify {l : List α} {i : Nat} {f : α → α} {a : α} (h : a ∈ l.modify i f) :
    a ∈ l ∨ ∃ b ∈ l, a = f b := by
  obtain ⟨j, hj⟩ := List.mem_iff_getElem?.1 h
  rw [List.getElem?_modify] at hj
  cases hb : l[j]? with
  | none => rw [hb] at hj; cases hj
  | some b =>
    rw [hb] at hj
    have hbmem : b ∈ l := List.mem_of_getElem? hb
    by_cases hij : i = j
    · simp only [hij, if_true, Option.map_eq_map, Option.map_some, Option.some.injEq] at hj
      exact .inr ⟨b, hbmem, hj.symm⟩
    · simp only [hij, if_false, Option.map_eq_map, Option.map_some, Option.some.injEq] at hj
      exact .inl (hj ▸ hbmem)

/-- An update that keeps `g` keeps the list of `g`s. -/
theorem map_modify_of_eq {β : Type} {g : α → β} {f : α → α} (hf : ∀ a, g (f a) = g a) :
    ∀ (l : List α) (i : Nat), (l.modify i f).map g = l.map g := by
  intro l
  induction l with
  | nil => intro i; simp
  | cons a l ih =>
    intro i
    rw [List.modify_cons]
    split
    · simp [hf]
    · simp [ih]

/-- Removing an index takes its value off a sum; an index past the end
removes nothing. -/
theorem sum_map_eraseIdx (g : α → Nat) :
    ∀ (l : List α) (i : Nat), ((l.eraseIdx i).map g).sum + (l[i]?.map g).getD 0 = (l.map g).sum := by
  intro l
  induction l with
  | nil => intro i; simp
  | cons a l ih =>
    intro i
    cases i with
    | zero => simp [Nat.add_comm]
    | succ i =>
      rw [List.eraseIdx_cons_succ, List.map_cons, List.sum_cons, List.getElem?_cons_succ,
        List.map_cons, List.sum_cons, ← ih i]
      omega

/-- Reading a list after `set`: the new value at the index written, the old one
elsewhere. -/
theorem getElem?_set_eq_some {l : List α} {k i : Nat} {x a : α} (h : (l.set k x)[i]? = some a) :
    (k = i ∧ a = x) ∨ (k ≠ i ∧ l[i]? = some a) := by
  rw [List.getElem?_set] at h
  by_cases hki : k = i
  · rw [if_pos hki] at h
    split at h
    · exact .inl ⟨hki, (Option.some.inj h).symm⟩
    · cases h
  · rw [if_neg hki] at h
    exact .inr ⟨hki, h⟩

/-- Overwriting an element a filter drops with another it drops keeps the
filter. -/
theorem filter_set_of_false {p : α → Bool} : ∀ {l : List α} {i : Nat} {a b : α},
    l[i]? = some a → p a = false → p b = false → (l.set i b).filter p = l.filter p
  | [], _, _, _, h, _, _ => by cases h
  | x :: l, 0, a, b, h, ha, hb => by
    simp only [List.getElem?_cons_zero, Option.some.injEq] at h
    subst h
    simp [ha, hb]
  | x :: l, i + 1, a, b, h, ha, hb => by
    simp only [List.getElem?_cons_succ] at h
    simp only [List.set_cons_succ, List.filter_cons, filter_set_of_false h ha hb]

/-- Removing the first element `q` accepts, seen through a filter every such
element passes: the filtered list loses it. -/
theorem filter_eraseP_of_imp {q f : α → Bool} (h : ∀ a, q a = true → f a = true) :
    ∀ l : List α, (l.eraseP q).filter f = (l.filter f).eraseP q
  | [] => rfl
  | a :: l => by
    by_cases hq : q a = true
    · rw [List.eraseP_cons_of_pos hq, List.filter_cons_of_pos (h a hq), List.eraseP_cons_of_pos hq]
    · rw [List.eraseP_cons_of_neg hq]
      by_cases hf : f a = true
      · rw [List.filter_cons_of_pos hf, List.filter_cons_of_pos hf, List.eraseP_cons_of_neg hq,
          filter_eraseP_of_imp h l]
      · rw [List.filter_cons_of_neg hf, List.filter_cons_of_neg hf, filter_eraseP_of_imp h l]

/-- Removing the first element `q` accepts, seen through a filter no such
element passes: the filtered list is unchanged. -/
theorem filter_eraseP_of_false {q f : α → Bool} (h : ∀ a, q a = true → f a = false) :
    ∀ l : List α, (l.eraseP q).filter f = l.filter f
  | [] => rfl
  | a :: l => by
    by_cases hq : q a = true
    · rw [List.eraseP_cons_of_pos hq, List.filter_cons_of_neg (by rw [h a hq]; decide)]
    · rw [List.eraseP_cons_of_neg hq, List.filter_cons, List.filter_cons, filter_eraseP_of_false h l]

/-- A run of indices cut after `k` of them. -/
theorem range'_split {a n k : Nat} (hk : k ≤ n) : List.range' a n = List.range' a k ++ List.range' (a + k) (n - k) := by
  have happ : List.range' a k ++ List.range' (a + 1 * k) (n - k) = List.range' a (k + (n - k)) :=
    List.range'_append
  rw [Nat.one_mul, Nat.add_sub_cancel' hk] at happ
  exact happ.symm

end StratoVirt.Lib
