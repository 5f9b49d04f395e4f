import Mathlib
import StratoVirt.Lib.List

/-!
# `Bitmap<T>`: words of bits as a set of indices

`util/src/bitmap.rs`. A bitmap of `n` words of `w` bits (`T::len()`: 8, 16,
32 or 64) holds a set of indices in `[0, n * w)`: index `i` is bit
`i % w` (`bit_pos`) of word `i / w` (`bit_index`). Words are `BitVec w`;
every shift in the source is by less than `w`, so `BitVec`'s shifts are the
source's. `rhs` shifts left and `lhs` right, as the `bitops!` macro has them.

The operations that change the bitmap take `&mut self`: `set`, `clear` and
`change` fail before they write, so they return the new bitmap or the error;
`set_range` and `clear_range` may fail after they have written words, so
they return the bitmap together with the result. `contain` indexes
`data[bit_index(num)]` after a bound check `num > vol`, so `num = vol`
reaches the index past the last word: a Rust panic, the `rustPanic` error.

Against the set `elems` the words stand for:

* `set_elems`, `clear_elems`, `change_elems`: `set`, `clear` and `change`
  add, remove and toggle an index below `vol`;
* `setRange_elems`: `set_range(s, l)` adds `[s, s + l)` when
  `s + l ≤ vol`; `clearRange_eq_compl` shows `clear_range` is `set_range` on
  the complemented words, so `clearRange_elems` removes the same range;
* `contain_of_lt`: `contain(i)` answers membership below `vol`, and
  `contain_vol` shows it panics at `vol`;
* `countFrontBits_eq_card`: `count_front_bits(o)` counts the indices below `o`;
* `findNext_of_aligned`: `find_next_zero(o)` and `find_next_bit(o)` return
  the least index from `o` on with the bit wanted, or `vol`, when the scan
  starts at a word's first bit or in a word it does not pass over. Past a
  word it passes over (`continue`), the scan of the next word still starts at
  `o % w`, so the low bits of that word are never tested.
-/

namespace StratoVirt.Util

open StratoVirt.Lib

/-- The errors of the bitmap: `UtilError::OutOfBound(index, bound)`, the
`with_context` of `count_front_bits`, and a Rust panic. -/
inductive BitmapError where
  | outOfBound (index bound : Nat)
  | context (text : String) (cause : BitmapError)
  | rustPanic (text : String)
  deriving Repr, DecidableEq

/-- The panic of `v[index]` past the end of `v`. -/
def indexPanic (index len : Nat) : String :=
  "index out of bounds: the len is " ++ toString len ++ " but the index is " ++ toString index

/-- `Bitmap<T>`, with `T` a word of `w` bits. -/
structure Bitmap (w : Nat) where
  data : List (BitVec w)
  deriving DecidableEq

namespace Bitmap

variable {w : Nat}

/-- `Bitmap::new(size)`. -/
def new (w size : Nat) : Bitmap w := ⟨List.replicate size 0⟩

/-- `size()`: the number of words. -/
def size (b : Bitmap w) : Nat := b.data.length

/-- `vol()`: the number of bits. -/
def vol (b : Bitmap w) : Nat := b.size * w

/-- `self.data[i]`, which panics past the last word. -/
def word (b : Bitmap w) (i : Nat) : Except BitmapError (BitVec w) :=
  if h : i < b.data.length then .ok b.data[i] else .error (.rustPanic (indexPanic i b.data.length))

/-! ## The operations -/

/-- The shape of `set`, `clear` and `change`: refuse a word index past the
last word, then merge `one.rhs(bit_pos(num))` into the word. -/
def updateBit (merge : BitVec w → BitVec w → BitVec w) (b : Bitmap w) (num : Nat) :
    Except BitmapError (Bitmap w) :=
  if h : num / w ≥ b.size then .error (.outOfBound (num / w) b.vol)
  else
    have : num / w < b.data.length := Nat.lt_of_not_le h
    .ok ⟨b.data.set (num / w) (merge b.data[num / w] ((1 : BitVec w) <<< (num % w)))⟩

/-- `set(num)`. -/
def set (b : Bitmap w) (num : Nat) : Except BitmapError (Bitmap w) :=
  updateBit (fun word mask => word ||| mask) b num

/-- `clear(num)`. -/
def clear (b : Bitmap w) (num : Nat) : Except BitmapError (Bitmap w) :=
  updateBit (fun word mask => word &&& ~~~mask) b num

/-- `change(num)`. -/
def change (b : Bitmap w) (num : Nat) : Except BitmapError (Bitmap w) :=
  updateBit (fun word mask => word ^^^ mask) b num

/-- `contain(num)`: the bound check is `num > vol`. -/
def contain (b : Bitmap w) (num : Nat) : Except BitmapError Bool := do
  if num > b.vol then .error (.outOfBound num (b.size * w))
  else
    let word ← b.word (num / w)
    pure ((word &&& (1 : BitVec w) <<< (num % w)) != 0)

/-- The `while length >= bits` loop of `set_range` and `clear_range`:
`apply` merges the mask into a word, and `full` is the mask of every word
after the first. It ends with the loop variables `(index, bits, mask, length)`,
or with the error of a word index past the last word after the words it has
already written. -/
def rangeLoop (apply : BitVec w → BitVec w → BitVec w) (full : BitVec w) (vol : Nat)
    (data : List (BitVec w)) (index bits : Nat) (mask : BitVec w) (length : Nat) :
    List (BitVec w) × Except BitmapError (Nat × Nat × BitVec w × Nat) :=
  if length ≥ bits then
    if h : index ≥ data.length then (data, .error (.outOfBound index vol))
    else
      have : index < data.length := Nat.lt_of_not_le h
      rangeLoop apply full vol (data.set index (apply data[index] mask)) (index + 1) w full (length - bits)
  else (data, .ok (index, bits, mask, length))
termination_by data.length - index
decreasing_by simp only [List.length_set]; omega

/-- `set_range(start, len)`. -/
def setRange (b : Bitmap w) (start len : Nat) : Bitmap w × Except BitmapError Unit :=
  if len = 0 then (b, .ok ())
  else
    match rangeLoop (fun word mask => word ||| mask) (BitVec.allOnes w) b.vol b.data (start / w)
        (w - start % w) (BitVec.allOnes w <<< (start % w)) len with
    | (data, .error e) => (⟨data⟩, .error e)
    | (data, .ok (index, _, mask, length)) =>
      if length > 0 then
        if h : index ≥ data.length then (⟨data⟩, .error (.outOfBound index b.vol))
        else
          have : index < data.length := Nat.lt_of_not_le h
          let bitsToSet := w - (start + len) % w
          let maskEnd := BitVec.allOnes w >>> (bitsToSet % w)
          (⟨data.set index (data[index] ||| (mask &&& maskEnd))⟩, .ok ())
      else (⟨data⟩, .ok ())

/-- `clear_range(start, len)`. -/
def clearRange (b : Bitmap w) (start len : Nat) : Bitmap w × Except BitmapError Unit :=
  if len = 0 then (b, .ok ())
  else
    match rangeLoop (fun word mask => word &&& mask) 0 b.vol b.data (start / w)
        (w - start % w) (~~~(BitVec.allOnes w <<< (start % w))) len with
    | (data, .error e) => (⟨data⟩, .error e)
    | (data, .ok (index, _, mask, length)) =>
      if length > 0 then
        if h : index ≥ data.length then (⟨data⟩, .error (.outOfBound index b.vol))
        else
          have : index < data.length := Nat.lt_of_not_le h
          let bitsToClear := w - (start + len) % w
          let maskEnd := ~~~(BitVec.allOnes w >>> (bitsToClear % w))
          (⟨data.set index (data[index] &&& (mask ||| maskEnd))⟩, .ok ())
      else (⟨data⟩, .ok ())

/-- One pass of the inner loop of `count_front_bits` over a whole word: one
more when `data[i] & (1 << j)` is nonzero. -/
def countWordStep (word : BitVec w) (num j : Nat) : Nat :=
  if (word &&& (1 : BitVec w) <<< j) != 0 then num + 1 else num

/-- The inner loop `for j in 0..T::len()` of `count_front_bits`. -/
def countWord (word : BitVec w) (num : Nat) : Nat := (List.range w).foldl (countWordStep word) num

/-- One pass of the loop `for j in i * T::len()..offset` of `count_front_bits`. -/
def countBitStep (b : Bitmap w) (num j : Nat) : Except BitmapError Nat := do
  let ret ← (b.contain j).mapError (.context "count front bits failed")
  pure (if ret then num + 1 else num)

/-- The outer loop of `count_front_bits(offset)` over `i in 0..bit_index(offset) + 1`:
whole words are counted by `countWord` when nonzero, and the word `offset` falls
in bit by bit through `contain`, after which the loop breaks. -/
def countFrontLoop (b : Bitmap w) (offset : Nat) : List Nat → Nat → Except BitmapError Nat
  | [], num => .ok num
  | i :: rest, num =>
    if i = offset / w then (List.range' (i * w) (offset - i * w)).foldlM b.countBitStep num
    else do
      let word ← b.word i
      countFrontLoop b offset rest (if word ≠ 0 then countWord word num else num)

/-- `count_front_bits(offset)`. -/
def countFrontBits (b : Bitmap w) (offset : Nat) : Except BitmapError Nat :=
  if offset > b.vol then .error (.outOfBound offset b.size)
  else b.countFrontLoop offset (List.range (offset / w + 1)) 0

/-- The scan `for j in offset..T::len()` of word `i` for an index whose
`contain` is `want`. -/
def scanWord (b : Bitmap w) (want : Bool) (i : Nat) : List Nat → Except BitmapError (Option Nat)
  | [] => .ok none
  | j :: rest => do
    if (← b.contain (i * w + j)) = want then .ok (some (i * w + j)) else b.scanWord want i rest

/-- The loop `for i in idx..size` of `find_next_zero` and `find_next_bit`: a
word equal to `skip` is passed over with `continue`, which leaves `offset` as
it is; a word scanned without success resets `offset` to 0. -/
def findNextLoop (b : Bitmap w) (skip : BitVec w) (want : Bool) : List Nat → Nat → Except BitmapError Nat
  | [], _ => .ok b.vol
  | i :: rest, offset => do
    let word ← b.word i
    if word = skip then findNextLoop b skip want rest offset
    else
      match ← b.scanWord want i (List.range' offset (w - offset)) with
      | some j => .ok j
      | none => findNextLoop b skip want rest 0

/-- The shape of `find_next_zero` and `find_next_bit`. -/
def findNext (skip : BitVec w) (want : Bool) (b : Bitmap w) (offset : Nat) : Except BitmapError Nat :=
  b.findNextLoop skip want (List.range' (offset / w) (b.size - offset / w)) (offset % w)

/-- `find_next_zero(offset)`: full words are passed over. -/
def findNextZero (b : Bitmap w) (offset : Nat) : Except BitmapError Nat :=
  findNext (BitVec.allOnes w) false b offset

/-- `find_next_bit(offset)`: zero words are passed over. -/
def findNextBit (b : Bitmap w) (offset : Nat) : Except BitmapError Nat :=
  findNext 0 true b offset

/-! ## The set the words stand for -/

/-- Bit `i` of the bitmap: bit `i % w` of word `i / w`, and `false` past the
last word. -/
def bit (b : Bitmap w) (i : Nat) : Bool := (b.data.getD (i / w) 0).getLsbD (i % w)

/-- The set of indices the bitmap holds. -/
def elems (b : Bitmap w) : Finset Nat := (Finset.range b.vol).filter fun i => b.bit i

/-- No bit is set from `vol` on. -/
theorem bit_of_vol_le {b : Bitmap w} {i : Nat} (h : b.vol ≤ i) : b.bit i = false := by
  unfold bit
  rcases Nat.eq_zero_or_pos w with hw | hw
  · subst hw
    exact BitVec.getLsbD_of_ge _ _ (Nat.zero_le _)
  · have hidx : b.data.length ≤ i / w := (Nat.le_div_iff_mul_le hw).2 h
    rw [List.getD_eq_default _ _ hidx]
    simp

theorem mem_elems {b : Bitmap w} {i : Nat} : i ∈ b.elems ↔ b.bit i = true := by
  rw [elems, Finset.mem_filter, Finset.mem_range]
  refine ⟨fun h => h.2, fun h => ⟨Nat.lt_of_not_le fun hle => ?_, h⟩⟩
  rw [bit_of_vol_le hle] at h
  cases h

/-- Two bitmaps stand for the same set when their bits agree. -/
theorem elems_ext {b' : Bitmap w} {S : Finset Nat} (h : ∀ j, b'.bit j = true ↔ j ∈ S) : b'.elems = S := by
  ext j
  rw [mem_elems, h]

/-- Writing word `index` changes only the bits of that word. -/
theorem bit_set_word {data : List (BitVec w)} {index : Nat} (v : BitVec w) (h : index < data.length) (j : Nat) :
    bit ⟨data.set index v⟩ j = if j / w = index then v.getLsbD (j % w) else bit ⟨data⟩ j := by
  unfold bit
  rw [List.getD_eq_getElem?_getD, List.getElem?_set, List.getD_eq_getElem?_getD]
  by_cases hj : j / w = index
  · simp [hj, h]
  · simp [hj, Ne.symm hj]

section Words

variable (hw : 0 < w)
include hw

/-- The indices of word `q` are `[q * w, q * w + w)`. -/
theorem div_eq_iff_mem_word {j q : Nat} : j / w = q ↔ q * w ≤ j ∧ j < q * w + w := by
  rw [Nat.div_eq_iff hw]
  omega

/-- Index `q * w + r` is bit `r` of word `q`. -/
theorem div_mod_word {q r : Nat} (hr : r < w) : (q * w + r) / w = q ∧ (q * w + r) % w = r := by
  refine ⟨(div_eq_iff_mem_word hw).2 ⟨Nat.le_add_right _ _, Nat.add_lt_add_left hr _⟩, ?_⟩
  rw [Nat.add_comm, Nat.add_mul_mod_self_right, Nat.mod_eq_of_lt hr]

theorem bit_word_add {b : Bitmap w} {q r : Nat} (hq : q < b.data.length) (hr : r < w) :
    b.bit (q * w + r) = b.data[q].getLsbD r := by
  obtain ⟨hdiv, hmod⟩ := div_mod_word hw (q := q) hr
  rw [bit, hdiv, hmod, List.getD_eq_getElem _ _ hq]

/-- Merging a mask of bits `[lo, hi)` into word `index` with `|` sets the
indices `[index * w + lo, index * w + hi)`. -/
theorem bit_set_or {data : List (BitVec w)} {index : Nat} (h : index < data.length) {mask : BitVec w}
    {lo hi : Nat} (hmask : ∀ r, r < w → mask.getLsbD r = decide (lo ≤ r ∧ r < hi)) (hhi : hi ≤ w) (j : Nat) :
    bit ⟨data.set index (data[index] ||| mask)⟩ j =
      (bit ⟨data⟩ j || decide (index * w + lo ≤ j ∧ j < index * w + hi)) := by
  rw [bit_set_word _ h]
  have hmod := Nat.mod_lt j hw
  by_cases hj : j / w = index
  · -- the word written: its old bit, or the mask's
    rw [if_pos hj, BitVec.getLsbD_or, hmask _ hmod]
    have hold : bit ⟨data⟩ j = data[index].getLsbD (j % w) := by
      rw [bit, hj, List.getD_eq_getElem _ _ h]
    have hjw : index * w + j % w = j := by
      rw [← hj]
      exact Nat.div_add_mod' j w
    rw [hold]
    congr 1
    exact decide_eq_decide.2 (by omega)
  · -- another word: the range misses it
    rw [if_neg hj]
    have hout : ¬(index * w + lo ≤ j ∧ j < index * w + hi) := fun hin =>
      hj ((div_eq_iff_mem_word hw).2 ⟨by omega, by omega⟩)
    rw [decide_eq_false hout, Bool.or_false]

/-- `1 << k` has bit `k` alone. -/
theorem getLsbD_one_shiftLeft {k : Nat} (hk : k < w) (r : Nat) :
    ((1 : BitVec w) <<< k).getLsbD r = decide (r = k) := by
  rw [BitVec.getLsbD_shiftLeft, BitVec.ofNat_eq_ofNat, BitVec.getLsbD_one]
  by_cases hrk : r = k
  · simp [hrk, hk, hw]
  · have hne : ¬r - k = 0 ∨ r < k := by omega
    rcases hne with hne | hlt
    · simp [hne, hrk]
    · simp [hlt, hrk]

/-- The test `word & (1 << k) != 0` of `contain` and `count_front_bits` reads bit `k`. -/
theorem and_one_shiftLeft_ne_zero (x : BitVec w) {k : Nat} (hk : k < w) :
    ((x &&& (1 : BitVec w) <<< k) != 0) = x.getLsbD k := by
  by_cases hx : x.getLsbD k = true
  · -- the bit survives the mask, so the word is not zero
    have hbit : (x &&& (1 : BitVec w) <<< k).getLsbD k = true := by
      rw [BitVec.getLsbD_and, hx, getLsbD_one_shiftLeft hw hk k]
      simp
    rw [hx, bne_iff_ne]
    intro h0
    rw [h0] at hbit
    simp at hbit
  · -- every bit of the masked word is zero
    have hzero : x &&& (1 : BitVec w) <<< k = 0 := by
      apply BitVec.eq_of_getLsbD_eq
      intro r hr
      rw [BitVec.getLsbD_and, getLsbD_one_shiftLeft hw hk r]
      by_cases hrk : r = k
      · subst hrk
        simp [hx]
      · simp [hrk]
    rw [hzero, Bool.eq_false_iff.2 hx]
    rfl

end Words

/-! ## `contain` -/

theorem word_of_lt {b : Bitmap w} {i : Nat} (h : i < b.data.length) : b.word i = .ok b.data[i] := by
  rw [word, dif_pos h]

/-- Below `vol`, `contain` answers membership. -/
theorem contain_of_lt {b : Bitmap w} {num : Nat} (h : num < b.vol) : b.contain num = .ok (b.bit num) := by
  have hw : 0 < w := Nat.pos_of_ne_zero fun hw => by simp [vol, hw] at h
  have hidx : num / w < b.data.length := (Nat.div_lt_iff_lt_mul hw).2 h
  have hbit : b.bit num = b.data[num / w].getLsbD (num % w) := by
    rw [bit, List.getD_eq_getElem _ _ hidx]
  rw [contain, if_neg (Nat.not_lt.2 (Nat.le_of_lt h)), word_of_lt hidx, hbit,
    ← and_one_shiftLeft_ne_zero hw _ (Nat.mod_lt _ hw)]
  rfl

/-- Past `vol`, `contain` refuses the index. -/
theorem contain_of_gt {b : Bitmap w} {num : Nat} (h : b.vol < num) :
    b.contain num = .error (.outOfBound num (b.size * w)) := by
  rw [contain, if_pos h]

/-- At `vol` itself the bound check lets the index through, and
`data[bit_index(vol)]` reads past the last word. -/
theorem contain_vol (hw : 0 < w) (b : Bitmap w) :
    b.contain b.vol = .error (.rustPanic (indexPanic b.size b.size)) := by
  have hidx : b.vol / w = b.size := Nat.mul_div_cancel _ hw
  rw [contain, if_neg (Nat.lt_irrefl _), hidx, word, dif_neg (show ¬b.size < b.data.length from Nat.lt_irrefl _)]
  rfl

/-! ## `set`, `clear` and `change` -/

section UpdateBit

variable {merge : BitVec w → BitVec w → BitVec w} {f : Bool → Bool → Bool}

/-- Below `vol`, a merge that acts bit by bit as `f`, and keeps a bit merged
with `false`, changes bit `num` to `f` of it and `true` and keeps every other. -/
theorem updateBit_ok (hmerge : ∀ x y r, r < w → (merge x y).getLsbD r = f (x.getLsbD r) (y.getLsbD r))
    (hf : ∀ x, f x false = x) {b : Bitmap w} {num : Nat} (h : num < b.vol) :
    ∃ b', updateBit merge b num = .ok b' ∧ b'.size = b.size ∧
      ∀ j, b'.bit j = if j = num then f (b.bit num) true else b.bit j := by
  have hw : 0 < w := Nat.pos_of_ne_zero fun hw => by simp [vol, hw] at h
  have hidx : num / w < b.data.length := (Nat.div_lt_iff_lt_mul hw).2 h
  refine ⟨_, by rw [updateBit, dif_neg (show ¬num / w ≥ b.size from Nat.not_le.2 hidx)], List.length_set ..,
    fun j => ?_⟩
  rw [bit_set_word _ hidx]
  have hnum : b.bit num = b.data[num / w].getLsbD (num % w) := by
    rw [bit, List.getD_eq_getElem _ _ hidx]
  by_cases hj : j / w = num / w
  · -- the word of `num`: bit `num` is merged with `true`, the others with `false`
    have hjb : b.bit j = b.data[num / w].getLsbD (j % w) := by
      rw [bit, hj, List.getD_eq_getElem _ _ hidx]
    rw [if_pos hj, hmerge _ _ _ (Nat.mod_lt _ hw), getLsbD_one_shiftLeft hw (Nat.mod_lt _ hw) _]
    by_cases hjn : j = num
    · subst hjn
      rw [if_pos rfl, hnum, decide_eq_true (rfl : j % w = j % w)]
    · have hmod : j % w ≠ num % w := fun hmod => hjn (by
        rw [← Nat.div_add_mod' j w, ← Nat.div_add_mod' num w, hj, hmod])
      rw [if_neg hjn, decide_eq_false hmod, hf, hjb]
  · have hjn : j ≠ num := fun hjn => hj (by rw [hjn])
    rw [if_neg hj, if_neg hjn]

/-- From `vol` on, the word index is past the last word. -/
theorem updateBit_error (hw : 0 < w) {b : Bitmap w} {num : Nat} (h : b.vol ≤ num) :
    updateBit merge b num = .error (.outOfBound (num / w) b.vol) := by
  rw [updateBit, dif_pos ((Nat.le_div_iff_mul_le hw).2 h)]

end UpdateBit

theorem set_elems {b : Bitmap w} {num : Nat} (h : num < b.vol) :
    ∃ b', b.set num = .ok b' ∧ b'.size = b.size ∧ b'.elems = insert num b.elems := by
  obtain ⟨b', hset, hsize, hbit⟩ := updateBit_ok (f := fun x y => x || y)
    (fun x y r _ => BitVec.getLsbD_or ..) Bool.or_false h
  refine ⟨b', hset, hsize, elems_ext fun j => ?_⟩
  rw [hbit, Finset.mem_insert, mem_elems]
  by_cases hj : j = num <;> simp [hj]

theorem clear_elems {b : Bitmap w} {num : Nat} (h : num < b.vol) :
    ∃ b', b.clear num = .ok b' ∧ b'.size = b.size ∧ b'.elems = b.elems.erase num := by
  have hmerge : ∀ (x y : BitVec w) r, r < w → (x &&& ~~~y).getLsbD r = (x.getLsbD r && !y.getLsbD r) :=
    fun x y r hr => by rw [BitVec.getLsbD_and, BitVec.getLsbD_not, decide_eq_true hr, Bool.true_and]
  obtain ⟨b', hset, hsize, hbit⟩ := updateBit_ok (f := fun x y => x && !y) hmerge (fun x => Bool.and_true x) h
  refine ⟨b', hset, hsize, elems_ext fun j => ?_⟩
  rw [hbit, Finset.mem_erase, mem_elems]
  by_cases hj : j = num <;> simp [hj]

theorem change_elems {b : Bitmap w} {num : Nat} (h : num < b.vol) :
    ∃ b', b.change num = .ok b' ∧ b'.size = b.size ∧ b'.elems = symmDiff b.elems {num} := by
  obtain ⟨b', hset, hsize, hbit⟩ := updateBit_ok (f := fun x y => x ^^ y)
    (fun x y r _ => BitVec.getLsbD_xor ..) Bool.xor_false h
  refine ⟨b', hset, hsize, elems_ext fun j => ?_⟩
  rw [hbit, Finset.mem_symmDiff, Finset.mem_singleton, mem_elems]
  by_cases hj : j = num
  · subst hj
    cases b.bit j <;> simp
  · simp [hj]

/-! ## `set_range` and `clear_range` -/

/-- **Run of the `set_range` loop.** Entered at bit
`cur = index * w + (w - bits)` of the range, with the mask of bits
`[w - bits, w)` of word `index` and `length` bits to go inside the words,
it sets every bit from `cur` to where it stops, and stops with fewer bits to
go than the word from there holds. -/
theorem rangeLoop_set (hw : 0 < w) (vol : Nat) (data : List (BitVec w)) (index bits : Nat) (mask : BitVec w)
    (length : Nat) (hbits : 0 < bits ∧ bits ≤ w) (hmask : ∀ r, r < w → mask.getLsbD r = decide (w - bits ≤ r))
    (hend : index * w + (w - bits) + length ≤ data.length * w) :
    ∃ data' index' bits' mask' length',
      rangeLoop (fun word mask => word ||| mask) (BitVec.allOnes w) vol data index bits mask length =
        (data', .ok (index', bits', mask', length')) ∧
      data'.length = data.length ∧ length' < bits' ∧ length' ≤ length ∧ (0 < bits' ∧ bits' ≤ w) ∧
      (∀ r, r < w → mask'.getLsbD r = decide (w - bits' ≤ r)) ∧
      index' * w + (w - bits') + length' = index * w + (w - bits) + length ∧
      ∀ j, bit ⟨data'⟩ j = (bit ⟨data⟩ j || decide (index * w + (w - bits) ≤ j ∧ j < index' * w + (w - bits'))) := by
  induction data, index, bits, mask, length using
    rangeLoop.induct (fun word mask => word ||| mask) (BitVec.allOnes w) with
  | case1 data index bits mask length hge hlt =>
    -- a word past the last one cannot be reached while the range lies inside the words
    have hfit : (index + 1) * w ≤ data.length * w := by rw [Nat.succ_mul]; omega
    exact absurd (Nat.le_of_mul_le_mul_right hfit hw) (Nat.not_le.2 (Nat.lt_succ_of_le hlt))
  | case2 data index bits mask length hge hlt hidx ih =>
    -- one more word: the mask goes in, and the loop goes on at the next word with the full mask
    have hnext : (index + 1) * w = index * w + w := Nat.succ_mul index w
    obtain ⟨data', index', bits', mask', length', hrun, hlen, hlt', hle', hbits', hmask', hend', hbit'⟩ :=
      ih ⟨hw, Nat.le_refl w⟩ (fun r hr => by simp [hr]) (by rw [List.length_set, hnext]; omega)
    refine ⟨data', index', bits', mask', length', ?_, ?_, hlt', by omega, hbits', hmask', ?_, fun j => ?_⟩
    · rw [rangeLoop, if_pos hge, dif_neg hlt]
      exact hrun
    · rw [hlen, List.length_set]
    · rw [hend', hnext]
      omega
    · have hword : ∀ r, r < w → mask.getLsbD r = decide (w - bits ≤ r ∧ r < w) := fun r hr => by
        rw [hmask r hr]
        simp [hr]
      rw [hbit', bit_set_or hw hidx hword (Nat.le_refl w), Bool.or_assoc, ← Bool.decide_or]
      congr 1
      exact decide_eq_decide.2 (by rw [hnext] at hend' ⊢; omega)
  | case3 data index bits mask length hlt =>
    refine ⟨data, index, bits, mask, length, by rw [rangeLoop, if_neg hlt], rfl, Nat.lt_of_not_le hlt,
      Nat.le_refl _, hbits, hmask, rfl, fun j => ?_⟩
    rw [decide_eq_false (by omega), Bool.or_false]

/-- The end mask of `set_range`, `full >> bit_pos(w - e)`, has the bits
`[0, e)` of the last word for `0 < e < w`. -/
theorem getLsbD_endMask {e : Nat} (he : 0 < e) (hew : e < w) (r : Nat) :
    (BitVec.allOnes w >>> ((w - e) % w)).getLsbD r = decide (r < e) := by
  rw [Nat.mod_eq_of_lt (by omega), BitVec.getLsbD_ushiftRight, BitVec.getLsbD_allOnes]
  exact decide_eq_decide.2 (by omega)

/-- **`set_range`** sets exactly `[s, s + l)` when the range lies below `vol`. -/
theorem setRange_bit (hw : 0 < w) {b : Bitmap w} {s l : Nat} (h : s + l ≤ b.vol) :
    ∃ b', b.setRange s l = (b', .ok ()) ∧ b'.size = b.size ∧
      ∀ j, b'.bit j = (b.bit j || decide (s ≤ j ∧ j < s + l)) := by
  by_cases hl : l = 0
  · subst hl
    refine ⟨b, by rw [setRange, if_pos rfl], rfl, fun j => ?_⟩
    rw [decide_eq_false (by omega), Bool.or_false]
  have hsplit : s / w * w + s % w = s := Nat.div_add_mod' s w
  have hmod : s % w < w := Nat.mod_lt s hw
  have hfirst : ∀ r, r < w → (BitVec.allOnes w <<< (s % w)).getLsbD r = decide (w - (w - s % w) ≤ r) :=
    fun r hr => by
      rw [BitVec.getLsbD_shiftLeft, BitVec.getLsbD_allOnes, Nat.sub_sub_self (Nat.le_of_lt hmod)]
      rw [decide_eq_true (show r < w from hr), decide_eq_true (show r - s % w < w by omega), Bool.true_and,
        Bool.and_true, ← decide_not]
      exact decide_eq_decide.2 Nat.not_lt
  obtain ⟨data', index', bits', mask', length', hrun, hlen, hlt', hle', hbits', hmask', hend', hbit'⟩ :=
    rangeLoop_set hw b.vol b.data (s / w) (w - s % w) (BitVec.allOnes w <<< (s % w)) l ⟨by omega, by omega⟩
      hfirst (by rw [vol, size] at h; omega)
  have hstart : s / w * w + (w - (w - s % w)) = s := by omega
  rw [hstart] at hend' hbit'
  by_cases hpos : length' > 0
  · -- the tail: the last word from its first bit up to `s + l`
    have hidx : index' < data'.length := by
      have hlow : index' * w < b.data.length * w := by rw [vol, size] at h; omega
      rw [hlen]
      exact Nat.lt_of_mul_lt_mul_right hlow
    have he : (s + l) % w = w - bits' + length' := by
      rw [← hend', Nat.add_assoc, Nat.add_comm, Nat.add_mul_mod_self_right, Nat.mod_eq_of_lt (by omega)]
    have htail : ∀ r, r < w → (mask' &&& BitVec.allOnes w >>> ((w - (s + l) % w) % w)).getLsbD r =
        decide (w - bits' ≤ r ∧ r < w - bits' + length') := fun r hr => by
      rw [BitVec.getLsbD_and, hmask' r hr, he, getLsbD_endMask (by omega) (by omega) r, Bool.decide_and]
    refine ⟨⟨data'.set index' (data'[index'] ||| (mask' &&& BitVec.allOnes w >>> ((w - (s + l) % w) % w)))⟩,
      ?_, ?_, fun j => ?_⟩
    · rw [setRange, if_neg hl, hrun]
      dsimp only
      rw [if_pos hpos, dif_neg (Nat.not_le.2 hidx)]
    · show (data'.set _ _).length = b.data.length
      rw [List.length_set, hlen]
    · rw [bit_set_or hw hidx htail (by omega), hbit', Bool.or_assoc, ← Bool.decide_or]
      congr 1
      exact decide_eq_decide.2 (by omega)
  · -- the loop ended on a word boundary: nothing is left
    refine ⟨_, ?_, hlen, fun j => ?_⟩
    · rw [setRange, if_neg hl, hrun]
      dsimp only
      rw [if_neg hpos]
    · have hend : index' * w + (w - bits') = s + l := by omega
      rw [hbit', hend]

theorem setRange_elems (hw : 0 < w) {b : Bitmap w} {s l : Nat} (h : s + l ≤ b.vol) :
    ∃ b', b.setRange s l = (b', .ok ()) ∧ b'.size = b.size ∧ b'.elems = b.elems ∪ Finset.Ico s (s + l) := by
  obtain ⟨b', hrun, hsize, hbit⟩ := setRange_bit hw h
  refine ⟨b', hrun, hsize, elems_ext fun j => ?_⟩
  rw [hbit, Finset.mem_union, Finset.mem_Ico, mem_elems, Bool.or_eq_true, decide_eq_true_iff]

/-- The bitmap with every word complemented. -/
def compl (b : Bitmap w) : Bitmap w := ⟨b.data.map (~~~·)⟩

@[simp] theorem compl_data (b : Bitmap w) : b.compl.data = b.data.map (~~~·) := rfl

@[simp] theorem size_compl (b : Bitmap w) : b.compl.size = b.size := List.length_map ..

@[simp] theorem vol_compl (b : Bitmap w) : b.compl.vol = b.vol := by rw [vol, vol, size_compl]

theorem compl_compl (b : Bitmap w) : b.compl.compl = b := by
  cases b
  simp [compl, Function.comp_def]

/-- Below `vol` the complement flips every bit, and past it there are none. -/
theorem bit_compl (hw : 0 < w) (b : Bitmap w) (j : Nat) : b.compl.bit j = (decide (j < b.vol) && !b.bit j) := by
  by_cases hj : j < b.vol
  · have hidx : j / w < b.data.length := (Nat.div_lt_iff_lt_mul hw).2 hj
    rw [bit, bit, compl_data, List.getD_eq_getElem _ _ (by rw [List.length_map]; exact hidx),
      List.getD_eq_getElem _ _ hidx, List.getElem_map, BitVec.getLsbD_not, decide_eq_true (Nat.mod_lt _ hw),
      decide_eq_true hj]
  · rw [bit_of_vol_le (by rw [vol_compl]; omega), decide_eq_false hj, Bool.false_and]

/-- The `clear_range` loop on complemented words is the `set_range` loop with
its words and masks complemented: `!x & !m = !(x | m)`, and the mask `0` of
the later words is `!full`. -/
theorem rangeLoop_clear_compl (vol : Nat) (data : List (BitVec w)) (index bits : Nat) (mask : BitVec w)
    (length : Nat) :
    rangeLoop (fun word mask => word &&& mask) 0 vol (data.map (~~~·)) index bits (~~~mask) length =
      ((rangeLoop (fun word mask => word ||| mask) (BitVec.allOnes w) vol data index bits mask length).1.map (~~~·),
        (rangeLoop (fun word mask => word ||| mask) (BitVec.allOnes w) vol data index bits mask length).2.map
          fun r => (r.1, r.2.1, ~~~r.2.2.1, r.2.2.2)) := by
  induction data, index, bits, mask, length using
    rangeLoop.induct (fun word mask => word ||| mask) (BitVec.allOnes w) with
  | case1 data index bits mask length hge hlt =>
    rw [rangeLoop, rangeLoop, if_pos hge, if_pos hge, dif_pos (by rw [List.length_map]; exact hlt), dif_pos hlt]
    rfl
  | case2 data index bits mask length hge hlt hidx ih =>
    -- the word written is the complement of the one the set loop writes
    have hset := List.map_set (f := fun x : BitVec w => ~~~x) (l := data) (i := index) (a := data[index] ||| mask)
    have hzero : ~~~BitVec.allOnes w = 0 := BitVec.not_allOnes
    rw [hzero] at ih
    rw [rangeLoop, rangeLoop, if_pos hge, if_pos hge, dif_neg (by rw [List.length_map]; exact hlt), dif_neg hlt]
    dsimp only
    rw [List.getElem_map, ← BitVec.not_or, ← hset]
    exact ih
  | case3 data index bits mask length hlt =>
    rw [rangeLoop, rangeLoop, if_neg hlt, if_neg hlt]
    rfl

/-- **`clear_range` is `set_range` on the complement**: the masks of
`clear_range` are the complements of those of `set_range`, and `&` with a
complemented mask is `|` under complement. -/
theorem clearRange_eq_compl (b : Bitmap w) (s l : Nat) :
    b.clearRange s l = ((b.compl.setRange s l).1.compl, (b.compl.setRange s l).2) := by
  by_cases hl : l = 0
  · rw [clearRange, setRange, if_pos hl, if_pos hl, compl_compl]
  have hdata : b.data = b.compl.data.map (~~~·) := by
    rw [compl_data, List.map_map]
    simp [Function.comp_def]
  rw [clearRange, setRange, if_neg hl, if_neg hl, ← vol_compl, hdata, rangeLoop_clear_compl]
  -- both tails act on the same loop result
  rcases rangeLoop (fun word mask => word ||| mask) (BitVec.allOnes w) b.compl.vol b.compl.data (s / w)
      (w - s % w) (BitVec.allOnes w <<< (s % w)) l with ⟨data, _ | ⟨index, bits, mask, length⟩⟩
  · rfl
  · dsimp only [Except.map]
    by_cases hpos : length > 0
    · by_cases hidx : index ≥ data.length
      · rw [if_pos hpos, if_pos hpos, dif_pos (by rw [List.length_map]; exact hidx), dif_pos hidx]
        rfl
      · have hset := List.map_set (f := fun x : BitVec w => ~~~x) (l := data) (i := index)
          (a := data[index] ||| (mask &&& BitVec.allOnes w >>> ((w - (s + l) % w) % w)))
        rw [if_pos hpos, if_pos hpos, dif_neg (by rw [List.length_map]; exact hidx), dif_neg hidx]
        simp only [compl, List.getElem_map, Prod.mk.injEq, and_true]
        rw [hset]
        simp only [BitVec.not_or, BitVec.not_and]
    · rw [if_neg hpos, if_neg hpos]
      rfl

/-- **`clear_range`** clears exactly `[s, s + l)` when the range lies below `vol`. -/
theorem clearRange_bit (hw : 0 < w) {b : Bitmap w} {s l : Nat} (h : s + l ≤ b.vol) :
    ∃ b', b.clearRange s l = (b', .ok ()) ∧ b'.size = b.size ∧
      ∀ j, b'.bit j = (b.bit j && !decide (s ≤ j ∧ j < s + l)) := by
  obtain ⟨b', hrun, hsize, hbit⟩ := setRange_bit hw (b := b.compl) (by rw [vol_compl]; exact h)
  have hvol : b'.vol = b.vol := by rw [vol, vol, hsize, size_compl]
  refine ⟨b'.compl, by rw [clearRange_eq_compl, hrun], by rw [size_compl, hsize, size_compl], fun j => ?_⟩
  rw [bit_compl hw, hbit, bit_compl hw, hvol]
  by_cases hj : j < b.vol
  · simp [hj]
  · simp [hj, bit_of_vol_le (Nat.le_of_not_lt hj)]

theorem clearRange_elems (hw : 0 < w) {b : Bitmap w} {s l : Nat} (h : s + l ≤ b.vol) :
    ∃ b', b.clearRange s l = (b', .ok ()) ∧ b'.size = b.size ∧ b'.elems = b.elems \ Finset.Ico s (s + l) := by
  obtain ⟨b', hrun, hsize, hbit⟩ := clearRange_bit hw h
  refine ⟨b', hrun, hsize, elems_ext fun j => ?_⟩
  rw [hbit, Finset.mem_sdiff, Finset.mem_Ico, mem_elems, Bool.and_eq_true, Bool.not_eq_true', decide_eq_false_iff_not]

/-! ## `count_front_bits` -/

/-- The inner loop over a word counts the set bits among the positions it visits. -/
theorem foldl_countWordStep (hw : 0 < w) (word : BitVec w) :
    ∀ (js : List Nat) (num : Nat), (∀ j ∈ js, j < w) →
      js.foldl (countWordStep word) num = num + js.countP (word.getLsbD ·)
  | [], _, _ => rfl
  | j :: js, num, hjs => by
    have hj : j < w := hjs j List.mem_cons_self
    rw [List.foldl_cons, foldl_countWordStep hw word js _ fun k hk => hjs k (List.mem_cons_of_mem _ hk),
      List.countP_cons, countWordStep, and_one_shiftLeft_ne_zero hw word hj]
    by_cases hb : word.getLsbD j = true
    · rw [if_pos hb, if_pos hb]
      omega
    · rw [if_neg hb, if_neg hb]
      rfl

/-- A word's count, skipped or not when the word is zero, is the number of
indices of that word in the set. -/
theorem countWord_eq (hw : 0 < w) {b : Bitmap w} {i : Nat} (hi : i < b.data.length) (num : Nat) :
    (if b.data[i] ≠ 0 then countWord b.data[i] num else num) = num + (List.range' (i * w) w).countP (b.bit ·) := by
  have hcount : countWord b.data[i] num = num + (List.range w).countP (b.data[i].getLsbD ·) :=
    foldl_countWordStep hw _ _ _ fun j hj => List.mem_range.1 hj
  have hbits : (List.range w).countP (b.data[i].getLsbD ·) = (List.range' (i * w) w).countP (b.bit ·) := by
    rw [List.range'_eq_map_range, List.countP_map]
    exact List.countP_congr fun r hr => by rw [Function.comp_apply, bit_word_add hw hi (List.mem_range.1 hr)]
  rw [← hbits]
  by_cases hz : b.data[i] = 0
  · -- the word is skipped: it has no set bit
    rw [if_neg (not_not.2 hz), hz, List.countP_eq_zero.2 fun r _ => by simp, Nat.add_zero]
  · rw [if_pos hz, hcount]

/-- The bit-by-bit loop over the last word counts the set bits among the
indices it visits, all below `vol`. -/
theorem foldlM_countBitStep (b : Bitmap w) :
    ∀ (js : List Nat) (num : Nat), (∀ j ∈ js, j < b.vol) →
      js.foldlM b.countBitStep num = .ok (num + js.countP (b.bit ·))
  | [], _, _ => rfl
  | j :: js, num, hjs => by
    have hstep : b.countBitStep num j = .ok (if b.bit j then num + 1 else num) := by
      rw [countBitStep, contain_of_lt (hjs j List.mem_cons_self)]
      rfl
    rw [List.foldlM_cons, hstep]
    show js.foldlM b.countBitStep _ = _
    rw [foldlM_countBitStep b js _ fun k hk => hjs k (List.mem_cons_of_mem _ hk), List.countP_cons]
    by_cases hb : b.bit j = true
    · rw [if_pos hb, if_pos hb, Nat.add_right_comm, Nat.add_assoc]
    · rw [if_neg hb, if_neg hb]
      rfl

/-- **Run of the outer loop.** From word `i`, `k` words before the word
`offset` falls in, the loop adds the set bits of `[i * w, offset)`. -/
theorem countFrontLoop_eq (hw : 0 < w) {b : Bitmap w} {offset : Nat} (ho : offset ≤ b.vol) :
    ∀ (k i num : Nat), i + k = offset / w →
      b.countFrontLoop offset (List.range' i (k + 1)) num =
        .ok (num + (List.range' (i * w) (offset - i * w)).countP (b.bit ·))
  | 0, i, num, hi => by
    -- the word `offset` falls in, bit by bit
    have hlast : ∀ j ∈ List.range' (i * w) (offset - i * w), j < b.vol := fun j hj => by
      rw [List.mem_range'_1] at hj
      omega
    rw [List.range'_succ, List.range'_zero, countFrontLoop, if_pos (by omega), foldlM_countBitStep b _ _ hlast]
  | k + 1, i, num, hi => by
    -- a whole word before it
    have hiw : (i + 1) * w ≤ offset := by
      have := Nat.div_mul_le_self offset w
      have hle : (i + 1) * w ≤ offset / w * w := Nat.mul_le_mul_right w (by omega)
      omega
    have hidx : i < b.data.length := by
      have hle : (i + 1) * w ≤ b.data.length * w := by rw [vol, size] at ho; omega
      exact Nat.lt_of_succ_le (Nat.le_of_mul_le_mul_right hle hw)
    have hsplit : List.range' (i * w) (offset - i * w) =
        List.range' (i * w) w ++ List.range' (i * w + w) (offset - (i + 1) * w) := by
      rw [range'_split (k := w) (by rw [Nat.succ_mul] at hiw; omega), Nat.succ_mul, Nat.sub_sub]
    rw [List.range'_succ, countFrontLoop, if_neg (by omega), word_of_lt hidx]
    show b.countFrontLoop offset (List.range' (i + 1) (k + 1)) _ = _
    rw [countWord_eq hw hidx, countFrontLoop_eq hw ho k (i + 1) _ (by omega), hsplit, List.countP_append,
      Nat.succ_mul, Nat.add_assoc]

/-- **`count_front_bits(o)`** counts the set bits below `o` for `o ≤ vol`. -/
theorem countFrontBits_eq (hw : 0 < w) {b : Bitmap w} {offset : Nat} (ho : offset ≤ b.vol) :
    b.countFrontBits offset = .ok ((List.range offset).countP (b.bit ·)) := by
  rw [countFrontBits, if_neg (Nat.not_lt.2 ho), List.range_eq_range',
    countFrontLoop_eq hw ho (offset / w) 0 0 (Nat.zero_add _), Nat.zero_mul, Nat.sub_zero, Nat.zero_add,
    List.range_eq_range']

theorem countFrontBits_eq_card (hw : 0 < w) {b : Bitmap w} {offset : Nat} (ho : offset ≤ b.vol) :
    b.countFrontBits offset = .ok (b.elems.filter (· < offset)).card := by
  have hfilter : b.elems.filter (· < offset) = (List.range offset).toFinset.filter (b.bit ·) := by
    ext j
    rw [Finset.mem_filter, Finset.mem_filter, mem_elems, List.mem_toFinset, List.mem_range, and_comm]
  rw [countFrontBits_eq hw ho, hfilter, List.Nodup.card_eq_countP List.nodup_range]
  simp only [Bool.decide_eq_true]

/-! ## `find_next_zero` and `find_next_bit` -/

/-- The least index from `o` on, below `vol`, whose bit is `want`, or `vol`
when there is none. -/
def nextWith (b : Bitmap w) (want : Bool) (o : Nat) : Nat :=
  ((List.range' o (b.vol - o)).find? fun i => b.bit i == want).getD b.vol

/-- `nextWith` is the least index from `o` with the bit wanted, or `vol`
with no such index below it. -/
theorem nextWith_spec (b : Bitmap w) (want : Bool) (o : Nat) :
    (nextWith b want o = b.vol ∧ ∀ i, o ≤ i → i < b.vol → b.bit i ≠ want) ∨
      (o ≤ nextWith b want o ∧ nextWith b want o < b.vol ∧ b.bit (nextWith b want o) = want ∧
        ∀ i, o ≤ i → i < nextWith b want o → b.bit i ≠ want) := by
  unfold nextWith
  cases hf : (List.range' o (b.vol - o)).find? fun i => b.bit i == want with
  | none =>
    refine .inl ⟨rfl, fun i hoi hiv => ?_⟩
    have hnot := List.find?_range'_eq_none.1 hf i hoi (by omega)
    simpa using hnot
  | some k =>
    obtain ⟨hk, hmem, hbefore⟩ := List.find?_range'_eq_some.1 hf
    rw [List.mem_range'_1] at hmem
    rw [Option.getD_some]
    refine .inr ⟨hmem.1, by omega, by simpa using hk, fun i hoi hik => ?_⟩
    simpa using hbefore i hoi hik

/-- Past `vol` nothing is found. -/
theorem nextWith_of_vol_le {b : Bitmap w} {want : Bool} {o : Nat} (h : b.vol ≤ o) : nextWith b want o = b.vol := by
  rw [nextWith, Nat.sub_eq_zero_of_le h, List.range'_zero]
  rfl

/-- The search from `o` runs through `[o, o')` first. -/
theorem nextWith_split {b : Bitmap w} {want : Bool} {o o' : Nat} (ho : o ≤ o') (ho' : o' ≤ b.vol) :
    nextWith b want o =
      (((List.range' o (o' - o)).find? fun i => b.bit i == want).or
        ((List.range' o' (b.vol - o')).find? fun i => b.bit i == want)).getD b.vol := by
  rw [nextWith, range'_split (k := o' - o) (by omega), Nat.add_sub_cancel' ho, Nat.sub_sub, Nat.add_sub_cancel' ho,
    List.find?_append]

/-- A stretch `[o, o')` without the bit wanted is passed over. -/
theorem nextWith_of_none {b : Bitmap w} {want : Bool} {o o' : Nat} (ho : o ≤ o') (ho' : o' ≤ b.vol)
    (h : (List.range' o (o' - o)).find? (fun i => b.bit i == want) = none) : nextWith b want o = nextWith b want o' := by
  rw [nextWith_split ho ho', h, Option.none_or]
  rfl

/-- An index found in a stretch `[o, o')` is the answer. -/
theorem nextWith_of_some {b : Bitmap w} {want : Bool} {o o' k : Nat} (ho : o ≤ o') (ho' : o' ≤ b.vol)
    (h : (List.range' o (o' - o)).find? (fun i => b.bit i == want) = some k) : nextWith b want o = k := by
  rw [nextWith_split ho ho', h, Option.some_or]
  rfl

/-- The search through a stretch of word `i` is the search through the
positions of that word. -/
theorem find?_range'_word (b : Bitmap w) (want : Bool) (i p n : Nat) :
    (List.range' (i * w + p) n).find? (fun j => b.bit j == want) =
      ((List.range' p n).find? fun j => b.bit (i * w + j) == want).map (i * w + ·) := by
  rw [← List.map_add_range', List.find?_map]
  rfl

/-- The bit-by-bit scan of word `i` finds the first position with the bit wanted. -/
theorem scanWord_eq {b : Bitmap w} {want : Bool} {i : Nat} :
    ∀ js : List Nat, (∀ j ∈ js, i * w + j < b.vol) →
      b.scanWord want i js = .ok ((js.find? fun j => b.bit (i * w + j) == want).map (i * w + ·))
  | [], _ => rfl
  | j :: js, hjs => by
    have hstep : b.scanWord want i (j :: js) =
        if b.bit (i * w + j) = want then .ok (some (i * w + j)) else b.scanWord want i js := by
      rw [scanWord, contain_of_lt (hjs j List.mem_cons_self)]
      rfl
    rw [hstep]
    by_cases hb : b.bit (i * w + j) = want
    · rw [if_pos hb, List.find?_cons_of_pos (by simpa using hb)]
      rfl
    · rw [if_neg hb, List.find?_cons_of_neg (by simpa using hb)]
      exact scanWord_eq js fun k hk => hjs k (List.mem_cons_of_mem _ hk)

/-- One pass of the loop over the words: a word equal to `skip` is passed
over, another is scanned from `offset`. -/
theorem findNextLoop_cons {b : Bitmap w} {skip : BitVec w} {want : Bool} {i : Nat} {rest : List Nat}
    {offset : Nat} (hi : i < b.data.length) :
    b.findNextLoop skip want (i :: rest) offset =
      if b.data[i] = skip then b.findNextLoop skip want rest offset
      else (b.scanWord want i (List.range' offset (w - offset))).bind fun r =>
        match r with
        | some j => .ok j
        | none => b.findNextLoop skip want rest 0 := by
  rw [findNextLoop, word_of_lt hi]
  rfl

section FindNext

variable {skip : BitVec w} {want : Bool} (hw : 0 < w) (hskip : ∀ r, r < w → skip.getLsbD r = !want)
include hw hskip

/-- A word equal to `skip` holds no bit `want`. -/
theorem find?_skip {b : Bitmap w} {i : Nat} (hi : i < b.data.length) (hs : b.data[i] = skip) (p : Nat) :
    (List.range' (i * w + p) (w - p)).find? (fun j => b.bit j == want) = none := by
  rw [find?_range'_word, List.find?_range'_eq_none.2, Option.map_none]
  intro r _ hr
  rw [bit_word_add hw hi (by omega), hs, hskip r (by omega)]
  cases want <;> rfl

/-- **Run of the loop from a word's first bit**: the words from `i` on are
searched in full. -/
theorem findNextLoop_aligned {b : Bitmap w} :
    ∀ (k i : Nat), i + k = b.size → b.findNextLoop skip want (List.range' i k) 0 = .ok (nextWith b want (i * w))
  | 0, i, hi => by
    rw [List.range'_zero, findNextLoop, nextWith_of_vol_le (by rw [vol, ← hi, Nat.add_zero])]
  | k + 1, i, hi => by
    have hidx : i < b.data.length := by rw [size] at hi; omega
    have hend : (i + 1) * w ≤ b.vol := by rw [vol, ← hi]; exact Nat.mul_le_mul_right w (by omega)
    have hnext := findNextLoop_aligned (b := b) k (i + 1) (by omega)
    have hword : (i + 1) * w - i * w = w := by rw [Nat.succ_mul]; omega
    have hle : i * w ≤ (i + 1) * w := by rw [Nat.succ_mul]; omega
    rw [List.range'_succ, findNextLoop_cons hidx]
    by_cases hs : b.data[i] = skip
    · -- passed over: the word holds no bit wanted
      rw [if_pos hs, hnext,
        nextWith_of_none hle hend (by rw [hword]; exact find?_skip hw hskip hidx hs 0)]
    · have hstretch : (List.range' (i * w) ((i + 1) * w - i * w)).find? (fun j => b.bit j == want) =
          ((List.range' 0 (w - 0)).find? fun j => b.bit (i * w + j) == want).map (i * w + ·) := by
        rw [hword]
        exact find?_range'_word b want i 0 w
      rw [if_neg hs, scanWord_eq _ fun j hj => by rw [List.mem_range'_1] at hj; rw [Nat.succ_mul] at hend; omega]
      cases hf : (List.range' 0 (w - 0)).find? fun j => b.bit (i * w + j) == want with
      | none =>
        -- scanned without success: the search goes on from the next word
        rw [hf, Option.map_none] at hstretch
        rw [Option.map_none]
        show b.findNextLoop skip want _ 0 = _
        rw [hnext, nextWith_of_none hle hend hstretch]
      | some j =>
        rw [hf, Option.map_some] at hstretch
        rw [Option.map_some]
        show Except.ok (i * w + j) = _
        rw [nextWith_of_some hle hend hstretch]

/-- **`find_next_zero` and `find_next_bit`** return the least index from `o`
on with the bit wanted, or `vol`, when the scan starts at a word's first bit
or in a word that is not passed over. -/
theorem findNext_of_aligned {b : Bitmap w} {o : Nat} (h : o % w = 0 ∨ b.word (o / w) ≠ .ok skip) :
    b.findNext skip want o = .ok (nextWith b want o) := by
  have ho : o / w * w + o % w = o := Nat.div_add_mod' o w
  by_cases hidx : o / w < b.data.length
  · have hk : o / w + (b.size - o / w - 1 + 1) = b.size := by rw [size]; omega
    have hend : (o / w + 1) * w ≤ b.vol := by rw [vol, size]; exact Nat.mul_le_mul_right w hidx
    rw [findNext, show b.size - o / w = b.size - o / w - 1 + 1 by rw [size]; omega]
    rcases h with h0 | hs
    · -- from a word's first bit: the aligned run
      rw [h0, findNextLoop_aligned hw hskip _ _ hk]
      rw [h0, Nat.add_zero] at ho
      rw [ho]
    · -- the first word is scanned from `o % w`, and the rest in full
      have hs' : b.data[o / w] ≠ skip := fun heq => hs (by rw [word_of_lt hidx, heq])
      have hmod := Nat.mod_lt o hw
      have hword : (o / w + 1) * w - o = w - o % w := by rw [Nat.succ_mul]; omega
      have hstretch : (List.range' o ((o / w + 1) * w - o)).find? (fun j => b.bit j == want) =
          ((List.range' (o % w) (w - o % w)).find? fun j => b.bit (o / w * w + j) == want).map (o / w * w + ·) := by
        have hword' := find?_range'_word b want (o / w) (o % w) (w - o % w)
        rw [ho] at hword'
        rw [hword]
        exact hword'
      rw [List.range'_succ, findNextLoop_cons hidx, if_neg hs',
        scanWord_eq _ fun j hj => by rw [List.mem_range'_1] at hj; rw [Nat.succ_mul] at hend; omega]
      cases hf : (List.range' (o % w) (w - o % w)).find? fun j => b.bit (o / w * w + j) == want with
      | none =>
        rw [hf, Option.map_none] at hstretch
        rw [Option.map_none]
        show b.findNextLoop skip want _ 0 = _
        rw [findNextLoop_aligned hw hskip _ _ (by omega),
          nextWith_of_none (by rw [Nat.succ_mul]; omega) hend hstretch]
      | some j =>
        rw [hf, Option.map_some] at hstretch
        rw [Option.map_some]
        show Except.ok (o / w * w + j) = _
        rw [nextWith_of_some (by rw [Nat.succ_mul]; omega) hend hstretch]
  · -- no word from `o / w` on: the loop is empty and `o` is past `vol`
    have hvol : b.vol ≤ o := by
      have hle : b.data.length * w ≤ o / w * w := Nat.mul_le_mul_right w (Nat.le_of_not_lt hidx)
      rw [vol, size]
      omega
    rw [findNext, show b.size - o / w = 0 by rw [size]; omega, List.range'_zero, findNextLoop,
      nextWith_of_vol_le hvol]

end FindNext

theorem findNextZero_of_aligned (hw : 0 < w) {b : Bitmap w} {o : Nat}
    (h : o % w = 0 ∨ b.word (o / w) ≠ .ok (BitVec.allOnes w)) :
    b.findNextZero o = .ok (nextWith b false o) :=
  findNext_of_aligned hw (fun r hr => by rw [BitVec.getLsbD_allOnes, decide_eq_true hr]; rfl) h

theorem findNextBit_of_aligned (hw : 0 < w) {b : Bitmap w} {o : Nat} (h : o % w = 0 ∨ b.word (o / w) ≠ .ok 0) :
    b.findNextBit o = .ok (nextWith b true o) :=
  findNext_of_aligned hw (fun r _ => by simp) h

theorem bitmap_vol_panic_and_skipped_low_bits :
    (Bitmap.new 8 1).vol = 8 ∧ (Bitmap.new 8 1).contain 8 = .error (.rustPanic (indexPanic 1 1)) ∧
      (⟨[0xff, 0x00]⟩ : Bitmap 8).findNextZero 3 = .ok 11 ∧ nextWith (⟨[0xff, 0x00]⟩ : Bitmap 8) false 3 = 8 ∧
      (⟨[0x00, 0x01]⟩ : Bitmap 8).findNextBit 3 = .ok 16 ∧ nextWith (⟨[0x00, 0x01]⟩ : Bitmap 8) true 3 = 8 := by
  decide

end Bitmap

end StratoVirt.Util
