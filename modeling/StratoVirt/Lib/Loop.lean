import Mathlib

/-!
# Loops that leave by `break`, by an early `return`, or go round again

Device code walks guest-controlled structures with `loop { … }` bodies that
either `continue`, `break` out normally, or return an error early. `Loop`
packages such a body with a natural-number measure that every `continue`
lowers, so the loop is a total function (`Loop.run`) and `Loop.acc` states
outright that no guest input can keep it going forever.

Besides the final state, the proofs need to talk about *which* states the body
ran on — what is said of a descriptor walk is about the chain in order. `visits`
lists them, and the history rule `run_exit_of_inv` carries an invariant that
may mention everything visited so far: it is the one induction every loop
proof below goes through. A loop that from an invariant can only go round or
fail with one error fails with it (`run_fail_of_inv`).

A loop that stops only from the states a run reaches is run with fuel
(`runFor`); its termination is proved with an invariant and a variant, and
an invariant from which the body always goes round shows it never stops
(`runFor_of_forever`). A
`for` loop over a list whose body may return early is `List.foldlM` in
`Except`; `foldlM_ok_of_step` carries an invariant over the elements done.
-/

namespace StratoVirt.Lib

/-- What one pass through a loop body does: go round again from `s`, leave the
loop normally with `s`, or return early with an error. -/
inductive Step (σ ε : Type) where
  | next (s : σ)
  | exit (s : σ)
  | fail (e : ε) (s : σ)
  deriving Repr

/-- How a whole run of a loop ends. -/
inductive Exit (σ ε : Type) where
  | exit (s : σ)
  | fail (e : ε) (s : σ)
  deriving Repr, DecidableEq

/-- A loop body with a measure that every `next` strictly lowers. -/
structure Loop (σ ε : Type) where
  body : σ → Step σ ε
  measure : σ → Nat
  decreasing : ∀ {s s' : σ}, body s = .next s' → measure s' < measure s

namespace Loop

variable {σ ε : Type}

/-- Run the body until it leaves the loop. -/
def run (L : Loop σ ε) (s : σ) : Exit σ ε :=
  match h : L.body s with
  | .next s' =>
    have _ : L.measure s' < L.measure s := L.decreasing h
    L.run s'
  | .exit s' => .exit s'
  | .fail e s' => .fail e s'
termination_by L.measure s

/-- The states the body runs on, in order; the last one is where it left. -/
def visits (L : Loop σ ε) (s : σ) : List σ :=
  match h : L.body s with
  | .next s' =>
    have _ : L.measure s' < L.measure s := L.decreasing h
    s :: L.visits s'
  | .exit _ => [s]
  | .fail _ _ => [s]
termination_by L.measure s

variable {L : Loop σ ε}

theorem run_of_next {s s' : σ} (h : L.body s = .next s') : L.run s = L.run s' := by
  rw [run]
  split <;> simp_all

theorem run_of_exit {s s' : σ} (h : L.body s = .exit s') : L.run s = .exit s' := by
  rw [run]
  split <;> simp_all

theorem run_of_fail {s s' : σ} {e : ε} (h : L.body s = .fail e s') :
    L.run s = .fail e s' := by
  rw [run]
  split <;> simp_all

theorem visits_of_next {s s' : σ} (h : L.body s = .next s') :
    L.visits s = s :: L.visits s' := by
  rw [visits]
  split <;> simp_all

theorem visits_of_exit {s s' : σ} (h : L.body s = .exit s') : L.visits s = [s] := by
  rw [visits]
  split <;> simp_all

theorem visits_of_fail {s s' : σ} {e : ε} (h : L.body s = .fail e s') :
    L.visits s = [s] := by
  rw [visits]
  split <;> simp_all

/-- **Termination.** From every state, the `continue` relation of the body has
no infinite descending chain: the loop stops whatever the input. -/
theorem acc (L : Loop σ ε) (s : σ) : Acc (fun s' s => L.body s = .next s') s :=
  (Subrelation.wf (fun h => L.decreasing h) (InvImage.wf L.measure Nat.lt_wfRel.wf)).apply s

/-- **History rule.** An invariant `P pre s`, where `pre` lists the states
visited before `s`, that holds initially and survives every `next` holds at the
state the body leaves from, and `visits` is exactly that history. -/
theorem run_exit_of_inv (P : List σ → σ → Prop)
    (hstep : ∀ pre s s', P pre s → L.body s = .next s' → P (pre ++ [s]) s') :
    ∀ (s : σ) (pre : List σ) (t : σ), P pre s → L.run s = .exit t →
      ∃ pre' u, P (pre ++ pre') u ∧ L.body u = .exit t ∧ L.visits s = pre' ++ [u] := by
  intro s
  induction s using (InvImage.wf L.measure Nat.lt_wfRel.wf).induction with
  | h s ih =>
    intro pre t hP hrun
    cases hb : L.body s with
    | next s' =>
      rw [run_of_next hb] at hrun
      obtain ⟨pre', u, hPu, hbu, hvis⟩ :=
        ih s' (L.decreasing hb) (pre ++ [s]) t (hstep pre s s' hP hb) hrun
      refine ⟨s :: pre', u, ?_, hbu, ?_⟩
      · simpa using hPu
      · rw [visits_of_next hb, hvis, List.cons_append]
    | exit s' =>
      rw [run_of_exit hb] at hrun
      cases hrun
      exact ⟨[], s, by simpa using hP, hb, by rw [visits_of_exit hb]; rfl⟩
    | fail e s' =>
      rw [run_of_fail hb] at hrun
      cases hrun

/-- **Conserved-quantity rule.** If the body never fails, every `next` keeps
an invariant `P` and a quantity `F`, and every `exit` from `s` to `t` has
`G t = F s`, then the loop leaves, and its final state has `G` equal to `F` of
the state it started from. `F` is what the rest of the loop will produce,
`G` what the code makes of the final state. -/
theorem run_exit_of_conserved {α : Type} (P : σ → Prop) (F : σ → α) (G : σ → α)
    (hnext : ∀ s s', P s → L.body s = .next s' → P s' ∧ F s' = F s)
    (hexit : ∀ s t, P s → L.body s = .exit t → G t = F s)
    (hfail : ∀ s e t, P s → L.body s ≠ .fail e t) :
    ∀ s, P s → ∃ t, L.run s = .exit t ∧ G t = F s := by
  intro s
  induction s using (InvImage.wf L.measure Nat.lt_wfRel.wf).induction with
  | h s ih =>
    intro hP
    cases hb : L.body s with
    | next s' =>
      obtain ⟨hP', hF⟩ := hnext s s' hP hb
      obtain ⟨t, hrun, hG⟩ := ih s' (L.decreasing hb) hP'
      exact ⟨t, by rw [run_of_next hb, hrun], by rw [hG, hF]⟩
    | exit t => exact ⟨t, run_of_exit hb, hexit s t hP hb⟩
    | fail e t => exact absurd hb (hfail s e t hP)

/-- **Failure rule.** If the body never leaves normally from states of an
invariant, every `next` keeps it, and every failure from it is with `e`, then
the loop fails with `e`. -/
theorem run_fail_of_inv (P : σ → Prop) {e : ε}
    (hnext : ∀ s s', P s → L.body s = .next s' → P s')
    (hexit : ∀ s t, P s → L.body s ≠ .exit t)
    (hfail : ∀ s e' t, P s → L.body s = .fail e' t → e' = e) :
    ∀ s, P s → ∃ t, L.run s = .fail e t := by
  intro s
  induction s using (InvImage.wf L.measure Nat.lt_wfRel.wf).induction with
  | h s ih =>
    intro hP
    cases hb : L.body s with
    | next s' =>
      obtain ⟨t, hrun⟩ := ih s' (L.decreasing hb) (hnext s s' hP hb)
      exact ⟨t, by rw [run_of_next hb, hrun]⟩
    | exit t => exact absurd hb (hexit s t hP)
    | fail e' t => exact ⟨t, by rw [run_of_fail hb, hfail s e' t hP hb]⟩

/-! ## Loops whose termination rests on an invariant

Some loops stop only on the states a run can reach: a fixpoint iteration
whose quantities grow towards a bound stops because they are bounded, which
holds of reachable states and not of every state. Such a loop runs for at most
`fuel` passes (`runFor`, `none` when the fuel runs out), and the
total-correctness rule `runFor_of_variant` shows that enough fuel gives a result,
from an invariant and a variant that every `next` lowers on the invariant. -/

/-- Run a body for at most `fuel` passes. -/
def runFor (body : σ → Step σ ε) : Nat → σ → Option (Exit σ ε)
  | 0, _ => none
  | fuel + 1, s =>
    match body s with
    | .next s' => runFor body fuel s'
    | .exit s' => some (.exit s')
    | .fail e s' => some (.fail e s')

/-- **Total correctness.** An invariant `I` that every `next` keeps while
lowering the variant `μ`: with more fuel than the variant, the loop ends, and
it ends from a state of the invariant. -/
theorem runFor_of_variant {body : σ → Step σ ε} (I : σ → Prop) (μ : σ → Nat)
    (hstep : ∀ s s', I s → body s = .next s' → I s' ∧ μ s' < μ s) :
    ∀ fuel s, I s → μ s < fuel → ∃ r, runFor body fuel s = some r ∧
      ((∀ t, r = .exit t → ∃ u, I u ∧ body u = .exit t) ∧
        (∀ e t, r = .fail e t → ∃ u, I u ∧ body u = .fail e t))
  | 0, _, _, hμ => absurd hμ (Nat.not_lt_zero _)
  | fuel + 1, s, hI, hμ => by
    cases hb : body s with
    | next s' =>
      obtain ⟨hI', hlt⟩ := hstep s s' hI hb
      obtain ⟨r, hrun, hr⟩ := runFor_of_variant I μ hstep fuel s' hI' (by omega)
      exact ⟨r, by simp only [runFor, hb, hrun], hr⟩
    | exit t =>
      refine ⟨.exit t, by simp only [runFor, hb], ?_, ?_⟩
      · intro t' ht
        cases ht
        exact ⟨s, hI, hb⟩
      · intro e t' ht
        cases ht
    | fail e t =>
      refine ⟨.fail e t, by simp only [runFor, hb], ?_, ?_⟩
      · intro t' ht
        cases ht
      · intro e' t' ht
        cases ht
        exact ⟨s, hI, hb⟩

/-- A run that ended with some fuel ends the same way with more. -/
theorem runFor_mono {body : σ → Step σ ε} :
    ∀ {fuel fuel' : Nat} {s : σ} {r : Exit σ ε}, runFor body fuel s = some r → fuel ≤ fuel' →
      runFor body fuel' s = some r
  | 0, _, _, _, h, _ => by cases h
  | fuel + 1, fuel' + 1, s, r, h, hle => by
    cases hb : body s with
    | next s' =>
      simp only [runFor, hb] at h ⊢
      exact runFor_mono h (by omega)
    | exit t => simpa only [runFor, hb] using h
    | fail e t => simpa only [runFor, hb] using h
  | _ + 1, 0, _, _, _, hle => absurd hle (by omega)

/-- A body that goes round again from a state to that same state never ends,
whatever the fuel. -/
theorem runFor_of_stuck {body : σ → Step σ ε} {s : σ} (h : body s = .next s) :
    ∀ fuel, runFor body fuel s = none
  | 0 => rfl
  | fuel + 1 => by
    rw [runFor, h]
    exact runFor_of_stuck h fuel

/-- A body that, from every state of an invariant, goes round again to a state
of the invariant never ends, whatever the fuel. -/
theorem runFor_of_forever {body : σ → Step σ ε} (I : σ → Prop)
    (hstep : ∀ s, I s → ∃ s', body s = .next s' ∧ I s') : ∀ fuel s, I s → runFor body fuel s = none
  | 0, _, _ => rfl
  | fuel + 1, s, hI => by
    obtain ⟨s', hb, hI'⟩ := hstep s hI
    rw [runFor, hb]
    exact runFor_of_forever I hstep fuel s' hI'

end Loop

/-! ## `for` loops over a list -/

section ForIn

variable {α β ε : Type}

/-- A `for` loop over `l` whose body may fail: when the body succeeds on every
element from a state the invariant holds of, the loop succeeds, and the
invariant holds of the whole list. -/
theorem foldlM_ok_of_step {f : β → α → Except ε β} (I : List α → β → Prop) (l : List α)
    (hstep : ∀ done x rest b, done ++ x :: rest = l → I done b →
      ∃ b', f b x = .ok b' ∧ I (done ++ [x]) b')
    {b : β} (hb : I [] b) : ∃ out, l.foldlM f b = .ok out ∧ I l out := by
  -- induction on what is left, with the elements done in the invariant
  suffices h : ∀ rest done b, done ++ rest = l → I done b →
      ∃ out, rest.foldlM f b = .ok out ∧ I l out from h l [] b rfl hb
  intro rest
  induction rest with
  | nil =>
    intro done b hdone hI
    rw [List.append_nil] at hdone
    subst hdone
    exact ⟨b, rfl, hI⟩
  | cons x rest ih =>
    intro done b hdone hI
    obtain ⟨b', hfb, hI'⟩ := hstep done x rest b hdone hI
    rw [List.foldlM_cons, hfb]
    exact ih (done ++ [x]) b' (by rw [List.append_assoc]; exact hdone) hI'

end ForIn

end StratoVirt.Lib
