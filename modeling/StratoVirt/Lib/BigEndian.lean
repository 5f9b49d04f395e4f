import Mathlib

/-!
# Big-endian byte strings

Device descriptors and on-disk metadata are read with `BigEndian::read_uN`
and written with `BigEndian::write_uN`. `beDecode` reads a byte string as a
number, most significant byte first; `beEncode w n` writes the low `w` bytes
of `n`. The round trip `beDecode_beEncode` is the fact the proofs use: a
value written and read back at the same width is the value modulo `256^w`.
-/

namespace StratoVirt.Lib

/-- The value of a big-endian byte string. -/
def beDecode (bs : List UInt8) : Nat :=
  bs.foldl (fun acc b => acc * 256 + b.toNat) 0

/-- The low `w` bytes of `n`, most significant first. -/
def beEncode : Nat → Nat → List UInt8
  | 0, _ => []
  | w + 1, n => beEncode w (n / 256) ++ [(n % 256).toUInt8]

@[simp] theorem beDecode_nil : beDecode [] = 0 := rfl

/-- Reading one more byte shifts what was read by a byte. -/
@[simp] theorem beDecode_append_singleton (bs : List UInt8) (b : UInt8) :
    beDecode (bs ++ [b]) = beDecode bs * 256 + b.toNat := by
  simp only [beDecode, List.foldl_append, List.foldl_cons, List.foldl_nil]

@[simp] theorem beEncode_length (w n : Nat) : (beEncode w n).length = w := by
  induction w generalizing n with
  | zero => rfl
  | succ w ih => simp [beEncode, ih]

/-- A byte string of length `k` reads as a number below `256^k`. -/
theorem beDecode_lt (bs : List UInt8) : beDecode bs < 256 ^ bs.length := by
  induction bs using List.reverseRecOn with
  | nil => simp
  | append_singleton bs b ih =>
    rw [beDecode_append_singleton, List.length_append, List.length_singleton, Nat.pow_succ]
    have hb : b.toNat < 256 := UInt8.toNat_lt b
    calc beDecode bs * 256 + b.toNat < (beDecode bs + 1) * 256 := by omega
      _ ≤ 256 ^ bs.length * 256 := Nat.mul_le_mul_right 256 ih

/-- **Round trip.** Writing `w` bytes and reading them back gives the value
modulo `256^w`. -/
theorem beDecode_beEncode (w n : Nat) : beDecode (beEncode w n) = n % 256 ^ w := by
  induction w generalizing n with
  | zero => simp [beEncode, Nat.mod_one]
  | succ w ih =>
    have hbyte : ((n % 256).toUInt8).toNat = n % 256 := by simp
    rw [beEncode, beDecode_append_singleton, ih, hbyte, Nat.pow_succ, Nat.mul_comm (256 ^ w),
      Nat.mod_mul]
    omega

/-- A value that fits in `w` bytes reads back as itself. -/
theorem beDecode_beEncode_of_lt {w n : Nat} (h : n < 256 ^ w) : beDecode (beEncode w n) = n := by
  rw [beDecode_beEncode, Nat.mod_eq_of_lt h]

end StratoVirt.Lib
