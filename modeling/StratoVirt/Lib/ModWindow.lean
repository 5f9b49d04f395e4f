import Mathlib

/-!
# Wrapping counters and half-open windows modulo `m`

Free-running ring indices are `Wrapping<uN>` counters: they are compared by
subtracting modulo `m = 2^N`. The event-index test of split virtqueues asks
whether `event` lies in the half-open window `[lo, hi)` that the counter swept
since the last check, and it is computed as one wrapping comparison,
`(hi - event - 1) mod m < (hi - lo) mod m`. `inWindow_iff` says the comparison
and the window agree, for every modulus and every position of the window,
including windows that wrap past zero; the empty window (`hi = lo`) contains
nothing.

Counters are `Nat`s below `m`; `wrapAdd`/`wrapSub` are the wrapping operations.
-/

namespace StratoVirt.Lib

/-- Wrapping addition modulo `m`. -/
def wrapAdd (m a b : Nat) : Nat := (a + b) % m

/-- Wrapping subtraction modulo `m`. -/
def wrapSub (m a b : Nat) : Nat := (a + (m - b % m)) % m

/-- `e` lies in the half-open window of length `(hi - lo) mod m` that starts
at `lo`, going round modulo `m`. -/
def InWindow (m lo hi e : Nat) : Prop :=
  ∃ j, j < wrapSub m hi lo ∧ (lo + j) % m = e

section

variable {m : Nat}

theorem wrapAdd_lt (hm : 0 < m) (a b : Nat) : wrapAdd m a b < m := Nat.mod_lt _ hm

theorem wrapSub_lt (hm : 0 < m) (a b : Nat) : wrapSub m a b < m := Nat.mod_lt _ hm

/-- Below the modulus, wrapping subtraction is subtraction, borrowing `m` when
it would go negative. -/
theorem wrapSub_eq {a b : Nat} (ha : a < m) (hb : b < m) :
    wrapSub m a b = if b ≤ a then a - b else a + m - b := by
  unfold wrapSub
  rw [Nat.mod_eq_of_lt hb]
  split
  · rw [show a + (m - b) = (a - b) + m by omega, Nat.add_mod_right, Nat.mod_eq_of_lt (by omega)]
  · rw [Nat.mod_eq_of_lt (by omega)]
    omega

/-- A sum of two values below the modulus wraps at most once. -/
theorem add_mod_eq {a b : Nat} (ha : a < m) (hb : b < m) :
    (a + b) % m = if a + b < m then a + b else a + b - m := by
  split
  · exact Nat.mod_eq_of_lt ‹_›
  · rw [Nat.mod_eq_sub_mod (by omega), Nat.mod_eq_of_lt (by omega)]

theorem wrapAdd_eq {a b : Nat} (ha : a < m) (hb : b < m) :
    wrapAdd m a b = if a + b < m then a + b else a + b - m := add_mod_eq ha hb

/-- **The wrapping test decides the window.** For counters below `m`,
`(hi - e - 1) mod m < (hi - lo) mod m` holds exactly when `e` lies in the window
`[lo, hi)` taken modulo `m`. The witness offset is `(e - lo) mod m`. -/
theorem inWindow_iff {lo hi e : Nat} (hm1 : 1 < m) (hlo : lo < m) (hhi : hi < m) (he : e < m) :
    InWindow m lo hi e ↔ wrapSub m (wrapSub m hi e) 1 < wrapSub m hi lo := by
  have hm : 0 < m := by omega
  -- name the two wrapped differences and pin them down by cases
  obtain ⟨d, hd, hdv⟩ : ∃ d, wrapSub m hi lo = d ∧
      d = if lo ≤ hi then hi - lo else hi + m - lo := ⟨_, rfl, wrapSub_eq hhi hlo⟩
  obtain ⟨k, hk, hkv⟩ : ∃ k, wrapSub m hi e = k ∧
      k = if e ≤ hi then hi - e else hi + m - e := ⟨_, rfl, wrapSub_eq hhi he⟩
  have hkm : k < m := by rw [← hk]; exact wrapSub_lt hm hi e
  have hk1 := wrapSub_eq (m := m) hkm hm1
  unfold InWindow
  rw [hd, hk, hk1]
  constructor
  · rintro ⟨j, hj, hje⟩
    have hjm : j < m := by split_ifs at hdv <;> omega
    rw [add_mod_eq hlo hjm] at hje
    split_ifs at hdv hkv hje <;> split <;> omega
  · intro h
    refine ⟨wrapSub m e lo, ?_, ?_⟩
    · rw [wrapSub_eq he hlo]
      split_ifs at hdv hkv h <;> split <;> omega
    · rw [wrapSub_eq he hlo]
      split
      · rw [Nat.mod_eq_of_lt (by omega)]
        omega
      · rw [show lo + (e + m - lo) = e + m by omega, Nat.add_mod_right, Nat.mod_eq_of_lt he]

/-- The empty window contains nothing. -/
theorem not_inWindow_self {lo e : Nat} (hlo : lo < m) : ¬ InWindow m lo lo e := by
  rintro ⟨j, hj, -⟩
  rw [wrapSub_eq hlo hlo, if_pos (Nat.le_refl lo), Nat.sub_self] at hj
  exact Nat.not_lt_zero j hj

end

end StratoVirt.Lib
