import Mathlib

/-!
# Copying out of a host iovec list

`util/src/aio/mod.rs`. `iov_to_buf_direct(iovec, offset, buf)` copies the
bytes of an iovec list, seen as one concatenated buffer, from `offset` into
`buf`, with `mem_to_buf` on raw host addresses. The first loop skips whole
iovecs that `offset` passes and copies the tail of the one it lands in; the
second copies whole iovecs from the start until `buf` is full.

The model returns the `mem_to_buf` calls it makes (`IovPiece`s) and the count
it returns. `iovToBufDirect_inside` is the bound the callers rely on: every
piece reads inside its iovec and writes inside the buffer.
-/

namespace StratoVirt.Util

/-- `Iovec`: a host buffer. -/
structure Iovec where
  iovBase : Nat
  iovLen : Nat
  deriving Repr, DecidableEq

/-- One `mem_to_buf`: `len` bytes of `iovec[index]` from `start` into the
buffer at `bufOffset`. -/
structure IovPiece where
  index : Nat
  start : Nat
  bufOffset : Nat
  len : Nat
  deriving Repr, DecidableEq

/-- The second loop of `iov_to_buf_direct`: whole iovecs, from `iovec[index]`
on, into the buffer from `start`; `endv` is the last `end`. -/
def copyWhole (bufLen : Nat) : Nat → Nat → Nat → List Iovec → List IovPiece × Nat
  | _, _, endv, [] => ([], endv)
  | index, start, _, iov :: rest =>
    let e := min (start + iov.iovLen) bufLen
    let p : IovPiece := ⟨index, 0, start, e - start⟩
    if e ≥ bufLen then ([p], e)
    else
      let r := copyWhole bufLen (index + 1) e e rest
      (p :: r.1, r.2)

/-- The first loop of `iov_to_buf_direct`: skip the iovecs that `offset`
passes, copy the tail of the one it lands in, and go on with the rest; `count`
is `iovec.len()`. -/
def copyFrom (bufLen count : Nat) : Nat → Nat → List Iovec → List IovPiece × Nat
  | _, _, [] => ([], 0)
  | index, offset, iov :: rest =>
    if iov.iovLen > offset then
      let e := min (iov.iovLen - offset) bufLen
      let p : IovPiece := ⟨index, offset, 0, e⟩
      if e ≥ bufLen ∨ index ≥ count - 1 then ([p], e)
      else
        let r := copyWhole bufLen (index + 1) e e rest
        (p :: r.1, r.2)
    else copyFrom bufLen count (index + 1) (offset - iov.iovLen) rest

/-- `iov_to_buf_direct` for a buffer of `bufLen` bytes. -/
def iovToBufDirect (iovec : List Iovec) (offset bufLen : Nat) : List IovPiece × Nat :=
  if offset = 0 then copyWhole bufLen 0 0 0 iovec
  else copyFrom bufLen iovec.length 0 offset iovec

/-- A piece reads inside iovec `index` of `iovec` and writes inside the buffer. -/
def IovPiece.Inside (iovec : List Iovec) (bufLen : Nat) (p : IovPiece) : Prop :=
  (∃ v, iovec[p.index]? = some v ∧ p.start + p.len ≤ v.iovLen) ∧ p.bufOffset + p.len ≤ bufLen

/-- The whole-iovec loop, started at `iovec[index]` with `start` within the
buffer, copies inside. -/
theorem copyWhole_inside (iovec : List Iovec) (bufLen : Nat) :
    ∀ (rest : List Iovec) (index start endv : Nat), iovec.drop index = rest → start ≤ bufLen →
      ∀ p ∈ (copyWhole bufLen index start endv rest).1, p.Inside iovec bufLen := by
  intro rest
  induction rest with
  | nil => intro _ _ _ _ _ p hp; simp [copyWhole] at hp
  | cons iov rest ih =>
    intro index start endv hdrop hstart p hp
    -- the piece of this iovec: `iovec[index] = iov`
    have hget : iovec[index]? = some iov := by
      rw [← List.head?_drop, hdrop]
      rfl
    have hdrop' : iovec.drop (index + 1) = rest := by
      rw [← List.drop_drop, hdrop]
      rfl
    have hhere : (⟨index, 0, start, min (start + iov.iovLen) bufLen - start⟩ : IovPiece).Inside
        iovec bufLen := by
      refine ⟨⟨iov, hget, ?_⟩, ?_⟩ <;> dsimp only <;> omega
    simp only [copyWhole] at hp
    split at hp
    · simp only [List.mem_singleton] at hp
      rw [hp]
      exact hhere
    · rcases List.mem_cons.mp hp with hp | hp
      · rw [hp]
        exact hhere
      · exact ih (index + 1) _ _ hdrop' (by omega) p hp

/-- The offset loop copies inside. -/
theorem copyFrom_inside (iovec : List Iovec) (bufLen : Nat) :
    ∀ (rest : List Iovec) (index offset : Nat), iovec.drop index = rest →
      ∀ p ∈ (copyFrom bufLen iovec.length index offset rest).1, p.Inside iovec bufLen := by
  intro rest
  induction rest with
  | nil => intro _ _ _ p hp; simp [copyFrom] at hp
  | cons iov rest ih =>
    intro index offset hdrop p hp
    have hget : iovec[index]? = some iov := by
      rw [← List.head?_drop, hdrop]
      rfl
    have hdrop' : iovec.drop (index + 1) = rest := by
      rw [← List.drop_drop, hdrop]
      rfl
    simp only [copyFrom] at hp
    split at hp
    · rename_i hlands
      have hhere : (⟨index, offset, 0, min (iov.iovLen - offset) bufLen⟩ : IovPiece).Inside
          iovec bufLen := by
        refine ⟨⟨iov, hget, ?_⟩, ?_⟩ <;> dsimp only <;> omega
      split at hp
      · simp only [List.mem_singleton] at hp
        rw [hp]
        exact hhere
      · rcases List.mem_cons.mp hp with hp | hp
        · rw [hp]
          exact hhere
        · exact copyWhole_inside iovec bufLen rest (index + 1) _ _ hdrop' (by omega) p hp
    · exact ih (index + 1) _ hdrop' p hp

/-- **Bounds of `iov_to_buf_direct`.** Every `mem_to_buf` it makes reads
inside one iovec of the list and writes inside the buffer. -/
theorem iovToBufDirect_inside (iovec : List Iovec) (offset bufLen : Nat) :
    ∀ p ∈ (iovToBufDirect iovec offset bufLen).1, p.Inside iovec bufLen := by
  unfold iovToBufDirect
  split
  · exact copyWhole_inside iovec bufLen iovec 0 0 0 (List.drop_zero) (Nat.zero_le _)
  · exact copyFrom_inside iovec bufLen iovec 0 offset (List.drop_zero)

end StratoVirt.Util
