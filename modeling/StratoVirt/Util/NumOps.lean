import Mathlib

/-!
# Bit fields of a word: `extract_u32`, `extract_u64`, `deposit_u32`

`util/src/num_ops.rs`. Each function refuses a field with
`length > WIDTH - start`, and builds its mask as `!0 >> (WIDTH - length)`.
The words are `UInt32` and `UInt64`. Their shifts take the amount modulo the
width and their subtraction wraps, as in a release build of the crate; a
debug build aborts on the same shifts instead.

For a field of positive length inside the word:

* `extractU32_toNat` and `extractU64_toNat`: the field is
  `⌊value / 2^start⌋ mod 2^length`;
* `getLsbD_depositU32`: deposit keeps every bit outside the field and writes
  `fieldval`'s low bits into it;
* `extractU32_depositU32`: the field then reads back as
  `fieldval mod 2^length`;
* `extractU32_eq_none`: when `start` lies in the word, a field that runs past
  it is refused.

The check admits two edges where the mask shift reaches the width. A field of
length zero masks nothing, so extract returns the whole shifted value
(`extractU32_zero_length`) and deposit at bit 0 overwrites the whole word
(`depositU32_zero_length`). A `start` past the word wraps `WIDTH - start`,
so the check lets the call through and it returns a value.
-/

namespace StratoVirt.Util

/-- `extract_u32`. -/
def extractU32 (value start length : UInt32) : Option UInt32 :=
  if length > 32 - start then none
  else some ((value >>> start) &&& (~~~(0 : UInt32) >>> (32 - length)))

/-- `extract_u64`. -/
def extractU64 (value : UInt64) (start length : UInt32) : Option UInt64 :=
  if length > 64 - start then none
  else some ((value >>> start.toUInt64) &&& (~~~(0 : UInt64) >>> (64 - length).toUInt64))

/-- `deposit_u32`. -/
def depositU32 (value start length fieldval : UInt32) : Option UInt32 :=
  if length > 32 - start then none
  else
    let mask : UInt32 := (~~~(0 : UInt32) >>> (32 - length)) <<< start
    some ((value &&& ~~~mask) ||| ((fieldval <<< start) &&& mask))

/-! ## The masks -/

/-- A word whose bits are `x`'s from `start` on, up to `length` of them, is
`⌊x / 2^start⌋ mod 2^length`. -/
theorem toNat_eq_of_getLsbD {n : Nat} {y : BitVec n} {x s l : Nat}
    (h : ∀ i, y.getLsbD i = (decide (i < l) && x.testBit (s + i))) : y.toNat = x / 2 ^ s % 2 ^ l := by
  apply Nat.eq_of_testBit_eq
  intro i
  rw [BitVec.testBit_toNat, h, Nat.testBit_mod_two_pow, Nat.testBit_div_two_pow, Nat.add_comm i s]

/-- The mask of a 32-bit field of positive length: its low `length` bits. -/
theorem getLsbD_mask32 {l : UInt32} (hl : 0 < l.toNat) (hl32 : l.toNat ≤ 32) (i : Nat) :
    (~~~(0 : UInt32) >>> (32 - l)).toBitVec.getLsbD i = decide (i < l.toNat) := by
  rw [UInt32.toBitVec_shiftRight, BitVec.ushiftRight_eq', BitVec.getLsbD_ushiftRight, UInt32.toBitVec_not,
    BitVec.getLsbD_not]
  simp [BitVec.toNat_umod]
  omega

/-- The mask of a 64-bit field of positive length. -/
theorem getLsbD_mask64 {l : UInt32} (hl : 0 < l.toNat) (hl64 : l.toNat ≤ 64) (i : Nat) :
    (~~~(0 : UInt64) >>> (64 - l).toUInt64).toBitVec.getLsbD i = decide (i < l.toNat) := by
  rw [UInt64.toBitVec_shiftRight, BitVec.ushiftRight_eq', BitVec.getLsbD_ushiftRight, UInt64.toBitVec_not,
    BitVec.getLsbD_not]
  simp [BitVec.toNat_umod]
  omega

/-! ## `extract_u32` and `extract_u64` -/

section Extract

variable {s l : UInt32}

/-- The check passes exactly for a field inside the word, when `start` is in it. -/
theorem extractU32_check (hs : s.toNat ≤ 32) : l > 32 - s ↔ 32 < s.toNat + l.toNat := by
  rw [GT.gt, UInt32.lt_iff_toNat_lt, UInt32.toNat_sub_of_le _ _ (by rw [UInt32.le_iff_toNat_le]; exact hs)]
  show 32 - s.toNat < l.toNat ↔ _
  omega

theorem extractU64_check (hs : s.toNat ≤ 64) : l > 64 - s ↔ 64 < s.toNat + l.toNat := by
  rw [GT.gt, UInt32.lt_iff_toNat_lt, UInt32.toNat_sub_of_le _ _ (by rw [UInt32.le_iff_toNat_le]; exact hs)]
  show 64 - s.toNat < l.toNat ↔ _
  omega

/-- The bits `extract_u32` returns. -/
theorem getLsbD_extractU32 (v : UInt32) (hl : 0 < l.toNat) (hsl : s.toNat + l.toNat ≤ 32) :
    ∃ w, extractU32 v s l = some w ∧
      ∀ i, w.toBitVec.getLsbD i = (decide (i < l.toNat) && v.toBitVec.getLsbD (s.toNat + i)) := by
  unfold extractU32
  rw [if_neg (fun h => absurd ((extractU32_check (by omega)).1 h) (by omega))]
  refine ⟨_, rfl, fun i => ?_⟩
  rw [UInt32.toBitVec_and, BitVec.getLsbD_and, getLsbD_mask32 hl (by omega), UInt32.toBitVec_shiftRight,
    BitVec.ushiftRight_eq', BitVec.getLsbD_ushiftRight, Bool.and_comm]
  congr 2
  simp [BitVec.toNat_umod]
  omega

/-- The bits `extract_u64` returns. -/
theorem getLsbD_extractU64 (v : UInt64) (hl : 0 < l.toNat) (hsl : s.toNat + l.toNat ≤ 64) :
    ∃ w, extractU64 v s l = some w ∧
      ∀ i, w.toBitVec.getLsbD i = (decide (i < l.toNat) && v.toBitVec.getLsbD (s.toNat + i)) := by
  unfold extractU64
  rw [if_neg (fun h => absurd ((extractU64_check (by omega)).1 h) (by omega))]
  refine ⟨_, rfl, fun i => ?_⟩
  rw [UInt64.toBitVec_and, BitVec.getLsbD_and, getLsbD_mask64 hl (by omega), UInt64.toBitVec_shiftRight,
    BitVec.ushiftRight_eq', BitVec.getLsbD_ushiftRight, Bool.and_comm]
  congr 2
  simp [BitVec.toNat_umod]
  omega

/-- **`extract_u32`** of a field of positive length inside the word. -/
theorem extractU32_toNat (v : UInt32) (hl : 0 < l.toNat) (hsl : s.toNat + l.toNat ≤ 32) :
    (extractU32 v s l).map UInt32.toNat = some (v.toNat / 2 ^ s.toNat % 2 ^ l.toNat) := by
  obtain ⟨w, hw, hbits⟩ := getLsbD_extractU32 v hl hsl
  rw [hw, Option.map_some]
  show some w.toBitVec.toNat = some (v.toBitVec.toNat / _ % _)
  rw [toNat_eq_of_getLsbD fun i => by rw [hbits, BitVec.testBit_toNat]]

/-- **`extract_u64`** of a field of positive length inside the word. -/
theorem extractU64_toNat (v : UInt64) (hl : 0 < l.toNat) (hsl : s.toNat + l.toNat ≤ 64) :
    (extractU64 v s l).map UInt64.toNat = some (v.toNat / 2 ^ s.toNat % 2 ^ l.toNat) := by
  obtain ⟨w, hw, hbits⟩ := getLsbD_extractU64 v hl hsl
  rw [hw, Option.map_some]
  show some w.toBitVec.toNat = some (v.toBitVec.toNat / _ % _)
  rw [toNat_eq_of_getLsbD fun i => by rw [hbits, BitVec.testBit_toNat]]

/-- A field that runs past the word is refused, when `start` is in it. -/
theorem extractU32_eq_none (v : UInt32) (hs : s.toNat ≤ 32) (h : 32 < s.toNat + l.toNat) :
    extractU32 v s l = none := by
  rw [extractU32, if_pos ((extractU32_check hs).2 h)]

theorem extractU64_eq_none (v : UInt64) (hs : s.toNat ≤ 64) (h : 64 < s.toNat + l.toNat) :
    extractU64 v s l = none := by
  rw [extractU64, if_pos ((extractU64_check hs).2 h)]

/-- A field of length zero: the mask shift is by the width, which leaves the
mask whole, and the shifted value comes back. -/
theorem extractU32_zero_length (v : UInt32) (hs : s.toNat < 32) : extractU32 v s 0 = some (v >>> s) := by
  rw [extractU32, if_neg (fun h => absurd ((extractU32_check (by omega)).1 h) (by simp; omega))]
  congr 1
  apply UInt32.toBitVec_inj.1
  apply BitVec.eq_of_getLsbD_eq
  intro i hi
  rw [UInt32.toBitVec_and, BitVec.getLsbD_and, UInt32.toBitVec_shiftRight (~~~0), BitVec.ushiftRight_eq',
    BitVec.getLsbD_ushiftRight, UInt32.toBitVec_not, BitVec.getLsbD_not]
  simp [hi]

end Extract

/-! ## `deposit_u32` -/

section Deposit

variable {v f : UInt32} {s l : UInt32}

/-- The bits `deposit_u32` returns: `fieldval`'s low bits inside the field,
`value`'s outside. -/
theorem getLsbD_depositU32 (hl : 0 < l.toNat) (hsl : s.toNat + l.toNat ≤ 32) :
    ∃ w, depositU32 v s l f = some w ∧
      ∀ i, w.toBitVec.getLsbD i =
        if s.toNat ≤ i ∧ i < s.toNat + l.toNat then f.toBitVec.getLsbD (i - s.toNat) else v.toBitVec.getLsbD i := by
  unfold depositU32
  rw [if_neg (fun h => absurd ((extractU32_check (by omega)).1 h) (by omega))]
  refine ⟨_, rfl, fun i => ?_⟩
  have hs : (s.toBitVec % 32).toNat = s.toNat := by
    rw [BitVec.toNat_umod]
    simp
    omega
  -- the mask is the field: its low `length` bits moved up by `start`
  have hmask : ((~~~(0 : UInt32) >>> (32 - l)) <<< s).toBitVec.getLsbD i =
      decide (s.toNat ≤ i ∧ i < s.toNat + l.toNat) := by
    rw [UInt32.toBitVec_shiftLeft, BitVec.shiftLeft_eq', BitVec.getLsbD_shiftLeft, getLsbD_mask32 hl (by omega), hs]
    by_cases hin : s.toNat ≤ i ∧ i < s.toNat + l.toNat
    · simp only [decide_eq_true hin]
      simp
      omega
    · simp only [decide_eq_false hin]
      simp
      omega
  rw [UInt32.toBitVec_or, UInt32.toBitVec_and, UInt32.toBitVec_and, UInt32.toBitVec_not, BitVec.getLsbD_or,
    BitVec.getLsbD_and, BitVec.getLsbD_and, BitVec.getLsbD_not, hmask, UInt32.toBitVec_shiftLeft,
    BitVec.shiftLeft_eq', BitVec.getLsbD_shiftLeft, hs]
  by_cases hin : s.toNat ≤ i ∧ i < s.toNat + l.toNat
  · rw [if_pos hin, decide_eq_true hin]
    simp
    omega
  · rw [if_neg hin, decide_eq_false hin]
    by_cases hi : i < 32
    · simp [hi]
    · simp [hi, BitVec.getLsbD_of_ge v.toBitVec i (by omega)]

/-- **`deposit_u32`** then `extract_u32` of the same field reads `fieldval`'s
low bits back. -/
theorem extractU32_depositU32 (hl : 0 < l.toNat) (hsl : s.toNat + l.toNat ≤ 32) :
    ∃ w, depositU32 v s l f = some w ∧
      (extractU32 w s l).map UInt32.toNat = some (f.toNat % 2 ^ l.toNat) := by
  obtain ⟨w, hw, hbits⟩ := getLsbD_depositU32 (v := v) (f := f) hl hsl
  obtain ⟨e, he, hebits⟩ := getLsbD_extractU32 w hl hsl
  refine ⟨w, hw, ?_⟩
  rw [he, Option.map_some]
  congr 1
  show e.toBitVec.toNat = f.toBitVec.toNat % _
  have h0 : f.toBitVec.toNat = f.toBitVec.toNat / 2 ^ 0 := by rw [Nat.pow_zero, Nat.div_one]
  rw [h0]
  apply toNat_eq_of_getLsbD
  intro i
  rw [hebits, hbits, Nat.zero_add, BitVec.testBit_toNat]
  by_cases hi : i < l.toNat
  · rw [if_pos ⟨by omega, by omega⟩, Nat.add_sub_cancel_left]
  · simp [hi]

/-- A field of length zero at bit 0: the mask is the whole word, and the
field value replaces it. -/
theorem depositU32_zero_length (v f : UInt32) : depositU32 v 0 0 f = some f := by
  have hmask : (~~~(0 : UInt32) >>> (32 - 0)) <<< 0 = ~~~0 := by decide
  rw [depositU32, if_neg (by decide)]
  dsimp only
  rw [hmask]
  congr 1
  apply UInt32.toBitVec_inj.1
  apply BitVec.eq_of_getLsbD_eq
  intro i hi
  rw [UInt32.toBitVec_or, UInt32.toBitVec_and, UInt32.toBitVec_and, UInt32.toBitVec_shiftLeft, UInt32.toBitVec_not,
    UInt32.toBitVec_not, BitVec.getLsbD_or, BitVec.getLsbD_and, BitVec.getLsbD_and, BitVec.shiftLeft_eq',
    BitVec.getLsbD_shiftLeft, BitVec.getLsbD_not, BitVec.getLsbD_not]
  simp [hi]

end Deposit

/-- The edges the check admits. A field of length zero extracts the whole
value and deposits the whole field value, where the field law asks for `0` and
for the old word; a `start` of 33 wraps `32 - start` and the call returns a
value where a field past the word asks for `None`. -/
theorem numOps_field_edges :
    extractU32 0xFFFFFFFF 0 0 = some 0xFFFFFFFF ∧
      depositU32 0 0 0 0xFFFFFFFF = some 0xFFFFFFFF ∧
      extractU64 0xFFFFFFFFFFFFFFFF 0 0 = some 0xFFFFFFFFFFFFFFFF ∧
      extractU32 2 33 0 = some 1 := by
  decide

end StratoVirt.Util
