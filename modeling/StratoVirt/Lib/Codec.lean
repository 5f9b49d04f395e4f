import Mathlib

/-!
# Decoders that read back what an encoder wrote

A decoder reads a value off the front of a token list and hands back the rest,
or fails. An encoder and a decoder fit when the decoder reads every value back
from the encoder's output *followed by any rest*: that form is the one that
composes, since a field decoded first leaves exactly the bytes of the next
field in front.

The pieces a byte format is made of read back when their parts do: a field of
a fixed number of tokens (`takeExact_append`), a run of tokens of one kind
(`takeWhile_append_of_stop`), and `n` values of one kind in a row
(`decodeCount_flatMap`). An encoder that may fail is an `Except`; a step of
it that succeeded passes its value on (`except_ok_bind`), and a run that
succeeded succeeded at each step (`except_bind_eq_ok`).
-/

namespace StratoVirt.Lib

variable {β α : Type}

/-- An encoder that may fail goes on with the value of a step that succeeded. -/
@[simp] theorem except_ok_bind {ε γ : Type} (a : α) (f : α → Except ε γ) :
    (Except.ok a >>= f) = f a := rfl

/-- A sequence of steps that succeeded: the first step succeeded, and the rest
from its value. -/
theorem except_bind_eq_ok {ε γ : Type} {x : Except ε α} {f : α → Except ε γ} {b : γ}
    (h : (x >>= f) = .ok b) : ∃ a, x = .ok a ∧ f a = .ok b := by
  cases x with
  | error e => cases h
  | ok a => exact ⟨a, rfl, h⟩

/-- `dec` reads back every value `ok` admits from what `enc` writes, whatever
follows it. -/
def ReadsBack (ok : α → Prop) (enc : α → List β) (dec : List β → Option (α × List β)) : Prop :=
  ∀ a rest, ok a → dec (enc a ++ rest) = some (a, rest)

/-- The first `n` tokens and the rest, when there are `n` tokens. -/
def takeExact (n : Nat) (xs : List β) : Option (List β × List β) :=
  if n ≤ xs.length then some (xs.take n, xs.drop n) else none

/-- A field of `n` tokens is read back whatever follows it. -/
theorem takeExact_append {n : Nat} {xs : List β} (rest : List β) (h : xs.length = n) :
    takeExact n (xs ++ rest) = some (xs, rest) := by
  have hle : n ≤ (xs ++ rest).length := by simp [h]
  rw [takeExact, if_pos hle, ← h, List.take_left, List.drop_left]

/-- `n` values read one after another. -/
def decodeCount (dec : List β → Option (α × List β)) : Nat → List β → Option (List α × List β)
  | 0, xs => some ([], xs)
  | n + 1, xs =>
    match dec xs with
    | none => none
    | some (a, xs) =>
      match decodeCount dec n xs with
      | none => none
      | some (as, xs) => some (a :: as, xs)

/-- Values written one after another are read back one after another. -/
theorem decodeCount_flatMap {ok : α → Prop} {enc : α → List β}
    {dec : List β → Option (α × List β)} (h : ReadsBack ok enc dec) :
    ∀ (l : List α), (∀ a ∈ l, ok a) → ∀ rest,
      decodeCount dec l.length (l.flatMap enc ++ rest) = some (l, rest)
  | [], _, rest => rfl
  | a :: l, hl, rest => by
    have ha : dec (enc a ++ (l.flatMap enc ++ rest)) = some (a, l.flatMap enc ++ rest) :=
      h a _ (hl a List.mem_cons_self)
    have hrest := decodeCount_flatMap h l (fun b hb => hl b (List.mem_cons_of_mem a hb)) rest
    rw [List.flatMap_cons, List.append_assoc, List.length_cons, decodeCount, ha]
    simp only [hrest]

/-- A run of tokens that `p` accepts, stopped by one it rejects, is read off
exactly. -/
theorem takeWhile_append_of_stop {p : β → Bool} {xs : List β} {b : β} (rest : List β)
    (hxs : ∀ a ∈ xs, p a = true) (hb : p b = false) :
    (xs ++ b :: rest).takeWhile p = xs := by
  rw [List.takeWhile_append_of_pos hxs, List.takeWhile_cons_of_neg (by simp [hb]),
    List.append_nil]

end StratoVirt.Lib
