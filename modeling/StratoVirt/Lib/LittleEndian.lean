import Mathlib
import StratoVirt.Lib.Slice

/-!
# Little-endian registers in a byte buffer

Configuration space is a byte array whose registers are read and written with
`LittleEndian::read_uN` / `write_uN` at an offset. `leDecode` reads a byte
string least significant byte first; `leEncode w n` writes the low `w` bytes
of `n`. A register is read from its window (`leReadAt`) and written by a copy
into it (`leWriteAt`). The facts the device proofs use: a register written
and read back at the same width is the value modulo `256^w`
(`leReadAt_leWriteAt`), and a write leaves the registers apart from it as they
were (`leReadAt_leWriteAt_of_disjoint`).

A byte string is also a little-endian bit array: bit `k` is bit `k % 8` of byte
`k / 8` (`bitAt`), which is bit `k` of its value (`testBit_leDecode`). A
register write replaces the bits of its window and keeps the others
(`bitAt_leWriteAt`); setting and clearing one bit of a 64-bit word are
`testBit_or_shiftLeft` and `testBit_and_not_shiftLeft`, and testing it is
`decide_and_shiftLeft_pos`.
-/

namespace StratoVirt.Lib

/-- The value of a little-endian byte string. -/
def leDecode : List UInt8 → Nat
  | [] => 0
  | b :: bs => b.toNat + 256 * leDecode bs

/-- The low `w` bytes of `n`, least significant first. -/
def leEncode : Nat → Nat → List UInt8
  | 0, _ => []
  | w + 1, n => UInt8.ofNat n :: leEncode w (n / 256)

/-- `LittleEndian::read_uN(&buf[offset..offset + w])`. -/
def leReadAt (buf : List UInt8) (offset w : Nat) : Nat :=
  leDecode (slice buf offset (offset + w))

/-- `LittleEndian::write_uN(&mut buf[offset..offset + w], n)`. -/
def leWriteAt (buf : List UInt8) (offset w n : Nat) : List UInt8 :=
  spliceAt buf offset (leEncode w n)

@[simp] theorem length_leEncode (w n : Nat) : (leEncode w n).length = w := by
  induction w generalizing n with
  | zero => rfl
  | succ w ih => simp [leEncode, ih]

/-- **Round trip.** Writing `w` bytes and reading them back gives the value
modulo `256^w`. -/
theorem leDecode_leEncode (w n : Nat) : leDecode (leEncode w n) = n % 256 ^ w := by
  induction w generalizing n with
  | zero => simp [leEncode, leDecode, Nat.mod_one]
  | succ w ih =>
    have hbyte : (UInt8.ofNat n).toNat = n % 256 := UInt8.toNat_ofNat'
    rw [leEncode, leDecode, ih, hbyte, Nat.pow_succ, Nat.mul_comm (256 ^ w), Nat.mod_mul]

/-- A little-endian value fits in its bytes. -/
theorem leDecode_lt (bs : List UInt8) : leDecode bs < 256 ^ bs.length := by
  induction bs with
  | nil => simp [leDecode]
  | cons b bs ih =>
    rw [leDecode, List.length_cons, Nat.pow_succ]
    have hb : b.toNat < 256 := UInt8.toNat_lt b
    calc b.toNat + 256 * leDecode bs < 256 * (leDecode bs + 1) := by omega
      _ ≤ 256 * 256 ^ bs.length := Nat.mul_le_mul_left 256 ih
      _ = 256 ^ bs.length * 256 := Nat.mul_comm _ _

/-- A register read from a buffer fits in its width. -/
theorem leReadAt_lt (buf : List UInt8) (offset w : Nat) : leReadAt buf offset w < 256 ^ w := by
  unfold leReadAt
  have hlen : (slice buf offset (offset + w)).length ≤ w := by
    rw [length_slice_eq]
    omega
  exact Nat.lt_of_lt_of_le (leDecode_lt _) (Nat.pow_le_pow_right (by decide) hlen)

/-- A register written inside the buffer keeps the buffer's length. -/
@[simp] theorem length_leWriteAt {buf : List UInt8} {offset w : Nat} (n : Nat)
    (h : offset + w ≤ buf.length) : (leWriteAt buf offset w n).length = buf.length :=
  length_spliceAt (by rw [length_leEncode]; exact h)

/-- A register reads back what was written to it. -/
theorem leReadAt_leWriteAt {buf : List UInt8} {offset w : Nat} (n : Nat)
    (h : offset + w ≤ buf.length) : leReadAt (leWriteAt buf offset w n) offset w = n % 256 ^ w := by
  have hlen : offset + (leEncode w n).length ≤ buf.length := by rw [length_leEncode]; exact h
  unfold leReadAt leWriteAt
  have hslice := slice_spliceAt hlen
  rw [length_leEncode] at hslice
  rw [hslice, leDecode_leEncode]

/-- A register apart from the one written reads as before. -/
theorem leReadAt_leWriteAt_of_disjoint {buf : List UInt8} {offset w offset' w' : Nat} (n : Nat)
    (h : offset + w ≤ buf.length) (hsep : offset' + w' ≤ offset ∨ offset + w ≤ offset') :
    leReadAt (leWriteAt buf offset w n) offset' w' = leReadAt buf offset' w' := by
  unfold leReadAt leWriteAt
  rw [slice_spliceAt_of_disjoint (by rw [length_leEncode]; exact h) (by rw [length_leEncode]; omega)]

/-- A register apart from a byte set reads as before. -/
theorem leReadAt_set_of_not_mem {buf : List UInt8} {k offset w : Nat} (v : UInt8)
    (hk : k < offset ∨ offset + w ≤ k) : leReadAt (buf.set k v) offset w = leReadAt buf offset w := by
  unfold leReadAt
  congr 1
  apply List.ext_getElem?
  intro i
  rw [getElem?_slice, getElem?_slice]
  split
  · rw [List.getElem?_set_ne (by omega)]
  · rfl

/-! ## Bits -/

/-- Bit `k` of a byte string read as a little-endian bit array: bit `k % 8` of
byte `k / 8`, and clear past the end. -/
def bitAt (bs : List UInt8) (k : Nat) : Bool :=
  (bs.getD (k / 8) 0).toNat.testBit (k % 8)

/-- The bit array of a byte string is the binary expansion of its value. -/
theorem testBit_leDecode (bs : List UInt8) (k : Nat) : (leDecode bs).testBit k = bitAt bs k := by
  induction bs generalizing k with
  | nil => simp [leDecode, bitAt]
  | cons b bs ih =>
    have hb : b.toNat < 2 ^ 8 := b.toNat_lt
    rw [leDecode, show (256 : Nat) = 2 ^ 8 from rfl, Nat.add_comm, Nat.testBit_two_pow_mul_add _ hb]
    by_cases hk : k < 8
    · -- a bit of the first byte
      rw [if_pos hk]
      simp [bitAt, Nat.div_eq_of_lt hk, Nat.mod_eq_of_lt hk]
    · rw [if_neg hk, ih]
      have h1 : k / 8 = (k - 8) / 8 + 1 := by omega
      have h2 : k % 8 = (k - 8) % 8 := by omega
      simp [bitAt, h1, h2]

/-- A zeroed buffer has every bit clear. -/
@[simp] theorem bitAt_replicate_zero (len k : Nat) : bitAt (List.replicate len 0) k = false := by
  unfold bitAt
  rw [List.getD_eq_getElem?_getD, List.getElem?_replicate]
  split <;> simp

/-- Byte `i` of an encoding is the value shifted down by `i` bytes. -/
theorem getElem?_leEncode {w i : Nat} (n : Nat) (h : i < w) :
    (leEncode w n)[i]? = some (UInt8.ofNat (n / 256 ^ i)) := by
  induction w generalizing n i with
  | zero => omega
  | succ w ih =>
    cases i with
    | zero => simp [leEncode]
    | succ i =>
      rw [leEncode, List.getElem?_cons_succ, ih _ (by omega), Nat.div_div_eq_div_mul, Nat.pow_succ,
        Nat.mul_comm 256]

theorem testBit_toNat_ofNat {x j : Nat} (hj : j < 8) : (UInt8.ofNat x).toNat.testBit j = x.testBit j := by
  rw [UInt8.toNat_ofNat', Nat.testBit_mod_two_pow]
  simp [hj]

/-- A register write sets the bits of its window to the value's and keeps
every other bit. -/
theorem bitAt_leWriteAt {buf : List UInt8} {offset w : Nat} (n : Nat) (h : offset + w ≤ buf.length)
    (k : Nat) :
    bitAt (leWriteAt buf offset w n) k =
      if 8 * offset ≤ k ∧ k < 8 * (offset + w) then n.testBit (k - 8 * offset) else bitAt buf k := by
  have hlen : offset + (leEncode w n).length ≤ buf.length := by rw [length_leEncode]; exact h
  unfold bitAt leWriteAt
  rw [List.getD_eq_getElem?_getD, List.getD_eq_getElem?_getD, getElem?_spliceAt hlen, length_leEncode]
  by_cases hk : 8 * offset ≤ k ∧ k < 8 * (offset + w)
  · -- inside the window: bit `k % 8` of byte `k / 8 - offset` of the encoding
    rw [if_pos (by omega), if_pos hk, getElem?_leEncode _ (by omega), Option.getD_some,
      testBit_toNat_ofNat (Nat.mod_lt _ (by omega)), show (256 : Nat) = 2 ^ 8 from rfl, ← Nat.pow_mul,
      Nat.testBit_div_two_pow]
    congr 1
    omega
  · rw [if_neg (by omega), if_neg hk]

/-- Bit `j` of a register is bit `j` of its window in the buffer's bit array. -/
theorem testBit_leReadAt (buf : List UInt8) (offset w j : Nat) :
    (leReadAt buf offset w).testBit j = (decide (j < 8 * w) && bitAt buf (8 * offset + j)) := by
  unfold leReadAt
  rw [testBit_leDecode]
  unfold bitAt
  rw [List.getD_eq_getElem?_getD, List.getD_eq_getElem?_getD, getElem?_slice]
  by_cases hj : j < 8 * w
  · rw [if_pos (by omega)]
    have h1 : offset + j / 8 = (8 * offset + j) / 8 := by omega
    have h2 : j % 8 = (8 * offset + j) % 8 := by omega
    rw [← h1, ← h2, decide_eq_true hj, Bool.true_and]
  · -- past the window the slice reads as zero
    rw [if_neg (by omega), Option.getD_none, decide_eq_false hj, Bool.false_and, UInt8.toNat_zero,
      Nat.zero_testBit]

/-- The word with only bit `s` set. -/
theorem toNat_one_shiftLeft {s : Nat} (hs : s < 64) : (1 <<< UInt64.ofNat s : UInt64).toNat = 2 ^ s := by
  have hlt : 2 ^ s < 2 ^ 64 := Nat.pow_lt_pow_right (by omega) hs
  rw [UInt64.toNat_shiftLeft, UInt64.toNat_ofNat', Nat.mod_eq_of_lt (by omega : s < 2 ^ 64),
    Nat.mod_eq_of_lt hs, UInt64.toNat_one, Nat.one_shiftLeft, Nat.mod_eq_of_lt hlt]

/-- Or-ing in `1 << s` sets bit `s` and no other. -/
theorem testBit_or_shiftLeft (x : UInt64) {s : Nat} (hs : s < 64) (j : Nat) :
    (x ||| 1 <<< UInt64.ofNat s).toNat.testBit j = (x.toNat.testBit j || decide (j = s)) := by
  rw [UInt64.toNat_or, Nat.testBit_or, toNat_one_shiftLeft hs, Nat.testBit_two_pow,
    decide_eq_decide.2 eq_comm]

/-- And-ing with `1 << s` tests bit `s`. -/
theorem decide_and_shiftLeft_pos (x : UInt64) {s : Nat} (hs : s < 64) :
    decide ((x &&& 1 <<< UInt64.ofNat s) > 0) = x.toNat.testBit s := by
  have hval : (x &&& 1 <<< UInt64.ofNat s).toNat = (x.toNat.testBit s).toNat * 2 ^ s := by
    rw [UInt64.toNat_and, toNat_one_shiftLeft hs, Nat.and_two_pow]
  rw [Bool.eq_iff_iff, decide_eq_true_iff, gt_iff_lt, UInt64.lt_iff_toNat_lt, hval, UInt64.toNat_zero]
  cases x.toNat.testBit s <;> simp

/-- And-ing with `!(1 << s)` clears bit `s` and no other. -/
theorem testBit_and_not_shiftLeft (x : UInt64) {s : Nat} (hs : s < 64) (j : Nat) :
    (x &&& ~~~(1 <<< UInt64.ofNat s)).toNat.testBit j = (x.toNat.testBit j && !decide (j = s)) := by
  have hbit : (1 <<< UInt64.ofNat s : UInt64).toNat.testBit j = decide (j = s) := by
    rw [toNat_one_shiftLeft hs, Nat.testBit_two_pow, decide_eq_decide.2 eq_comm]
  show (x.toBitVec &&& ~~~(1 <<< UInt64.ofNat s : UInt64).toBitVec).getLsbD j = _
  rw [BitVec.getLsbD_and, BitVec.getLsbD_not]
  by_cases hj : j < 64
  · rw [decide_eq_true hj, Bool.true_and]
    exact congrArg (x.toNat.testBit j && !·) hbit
  · -- past the word both sides are clear
    have hx : x.toNat.testBit j = false :=
      Nat.testBit_lt_two_pow (Nat.lt_of_lt_of_le x.toNat_lt (Nat.pow_le_pow_right (by omega) (by omega)))
    rw [decide_eq_false hj, Bool.false_and, Bool.and_false, hx, Bool.false_and]

end StratoVirt.Lib
