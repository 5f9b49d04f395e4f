import Mathlib

/-!
# Rings of slots with a phase bit, and the queue they implement

A producer and a consumer share a ring of `m` slots in memory. Neither sees
the other's index: each slot carries a phase bit, the producer writes the
phase of its current lap into every slot it fills, and the consumer takes a
slot only while the slot's phase equals the phase it expects for its own lap.
Both flip their phase each time they wrap.

Counting the slots ever filled, logical slot `k` lies at `k % m` and is
written in the phase `phase c0 m k` of lap `k / m` (`c0` in the first lap).
The lemmas here are the arithmetic every such ring rests on: how the phase
moves from one logical slot to the next (`phase_succ_of_mod_ne`,
`phase_succ_of_mod_eq`), that a slot one lap later has the opposite phase
(`phase_add`), and that a window of fewer than `m` logical slots meets
every physical slot at most once (`mod_ne_of_window`).

What the ring is for is the bounded queue `fifoRun`: the producer's pushes
come out of the consumer's pops in order, each once, and a push into a full
queue is not allowed.
-/

namespace StratoVirt.Lib

/-! ## The phase of a logical slot -/

/-- The phase of logical slot `k` of a ring of `m` slots whose first lap has
phase `c0`: it flips with every lap. -/
def phase (c0 : Bool) (m k : Nat) : Bool := if k / m % 2 = 0 then c0 else !c0

section Phase

variable {c0 : Bool} {m : Nat}

/-- Slots of one lap share its phase. -/
theorem phase_of_div_eq {a b : Nat} (h : a / m = b / m) : phase c0 m a = phase c0 m b := by
  rw [phase, phase, h]

/-- The first lap is in phase `c0`. -/
theorem phase_of_lt {k : Nat} (h : k < m) : phase c0 m k = c0 := by
  rw [phase, Nat.div_eq_of_lt h]
  rfl

/-- A step that does not wrap keeps the phase. -/
theorem phase_succ_of_mod_ne {k : Nat} (h : (k + 1) % m ≠ 0) :
    phase c0 m (k + 1) = phase c0 m k := by
  apply phase_of_div_eq
  rw [Nat.succ_div]
  simp only [Nat.dvd_iff_mod_eq_zero, h, if_false, Nat.add_zero]

/-- The next lap has the opposite phase. -/
theorem lapPhase_succ (c0 : Bool) (q : Nat) :
    (if (q + 1) % 2 = 0 then c0 else !c0) = !(if q % 2 = 0 then c0 else !c0) := by
  rcases Nat.mod_two_eq_zero_or_one q with h0 | h1
  · have h : (q + 1) % 2 = 1 := by omega
    simp [h0, h]
  · have h : (q + 1) % 2 = 0 := by omega
    simp [h1, h]

/-- A step that wraps flips the phase. -/
theorem phase_succ_of_mod_eq {k : Nat} (h : (k + 1) % m = 0) :
    phase c0 m (k + 1) = !phase c0 m k := by
  have hdiv : (k + 1) / m = k / m + 1 := by
    rw [Nat.succ_div, if_pos (Nat.dvd_of_mod_eq_zero h)]
  unfold phase
  rw [hdiv, lapPhase_succ]

/-- The first slot of a lap has the phase opposite to the slot before it. -/
theorem phase_of_mod_eq_zero {k : Nat} (h : k % m = 0) (hk : 0 < k) :
    phase c0 m k = !phase c0 m (k - 1) := by
  have hsucc : phase c0 m (k - 1 + 1) = !phase c0 m (k - 1) :=
    phase_succ_of_mod_eq (by rwa [Nat.sub_add_cancel hk])
  rwa [Nat.sub_add_cancel hk] at hsucc

/-- The same slot one lap later has the opposite phase. -/
theorem phase_add (hm : 0 < m) (k : Nat) : phase c0 m (k + m) = !phase c0 m k := by
  unfold phase
  rw [Nat.add_div_right k hm, lapPhase_succ]

/-- Two logical slots of a window shorter than a lap lie in different
physical slots. -/
theorem mod_ne_of_window {C a b : Nat} (ha : C ≤ a) (hb : C ≤ b) (ha' : a < C + m)
    (hb' : b < C + m) (hne : a ≠ b) : a % m ≠ b % m := by
  intro h
  rcases Nat.lt_or_gt_of_ne hne with hab | hab
  · have hdvd : m ∣ b - a := (Nat.modEq_iff_dvd' hab.le).1 h
    have := Nat.le_of_dvd (by omega) hdvd
    omega
  · have hdvd : m ∣ a - b := (Nat.modEq_iff_dvd' hab.le).1 h.symm
    have := Nat.le_of_dvd (by omega) hdvd
    omega

end Phase

/-! ## The queue a ring implements -/

/-- What a producer and a consumer do to a queue: push an item, pop one. -/
inductive QueueOp (α : Type) where
  | push (x : α)
  | pop
  deriving Repr, DecidableEq

/-- A run of a queue of capacity `cap`: every pop gives the oldest item, or
`none` on an empty queue; `none` for the whole run once a push finds the
queue full. -/
def fifoRun {α : Type} (cap : Nat) : List α → List (QueueOp α) → Option (List (Option α))
  | _, [] => some []
  | q, .push x :: ops => if q.length < cap then fifoRun cap (q ++ [x]) ops else none
  | q, .pop :: ops => (q.head? :: ·) <$> fifoRun cap q.tail ops

/-- The item a push puts on the queue. -/
def QueueOp.item? {α : Type} : QueueOp α → Option α
  | .push x => some x
  | .pop => none

/-- The items pushed by the rest of a run are pushed by the run. -/
theorem QueueOp.mem_filterMap_item_of_cons {α : Type} {op : QueueOp α} {ops : List (QueueOp α)}
    {x : α} (hx : x ∈ ops.filterMap QueueOp.item?) : x ∈ (op :: ops).filterMap QueueOp.item? := by
  cases op with
  | push y => exact List.mem_cons_of_mem _ hx
  | pop => exact hx

/-- A run of a queue of capacity `cap` whose pops take a chunk at a time:
`chunk q` is the length of the chunk at the front of `q`, or `none` while `q`
holds no whole chunk, when a pop gives `none` and takes nothing. -/
def chunkRun {α : Type} (cap : Nat) (chunk : List α → Option Nat) :
    List α → List (QueueOp α) → Option (List (Option (List α)))
  | _, [] => some []
  | q, .push x :: ops => if q.length < cap then chunkRun cap chunk (q ++ [x]) ops else none
  | q, .pop :: ops =>
    match chunk q with
    | some n => (some (q.take n) :: ·) <$> chunkRun cap chunk (q.drop n) ops
    | none => (none :: ·) <$> chunkRun cap chunk q ops

/-- The chunks popped, one after another, are a prefix of what the queue held
followed by what was pushed: no item is lost, taken twice, reordered or made
up. -/
theorem chunkRun_flatten_prefix {α : Type} {cap : Nat} {chunk : List α → Option Nat}
    (ops : List (QueueOp α)) :
    ∀ {q : List α} {outs : List (Option (List α))}, chunkRun cap chunk q ops = some outs →
      (outs.filterMap id).flatten <+: q ++ ops.filterMap QueueOp.item? := by
  induction ops with
  | nil =>
    intro q outs h
    simp only [chunkRun, Option.some.injEq] at h
    subst h
    exact List.nil_prefix
  | cons op ops ih =>
    intro q outs h
    cases op with
    | push x =>
      simp only [chunkRun] at h
      split at h
      · simpa [QueueOp.item?] using ih h
      · cases h
    | pop =>
      simp only [chunkRun] at h
      split at h
      · -- a chunk comes off the front
        rename_i n _
        obtain ⟨outs', h', rfl⟩ := Option.map_eq_some_iff.1 h
        have hq : q ++ (QueueOp.pop :: ops).filterMap QueueOp.item? =
            q.take n ++ (q.drop n ++ ops.filterMap QueueOp.item?) := by
          rw [← List.append_assoc, List.take_append_drop]
          rfl
        rw [hq]
        simpa using (List.prefix_append_right_inj (q.take n)).2 (ih h')
      · -- no whole chunk: nothing comes off
        obtain ⟨outs', h', rfl⟩ := Option.map_eq_some_iff.1 h
        have hpre := ih h'
        exact hpre

end StratoVirt.Lib
