import Mathlib

/-!
# Byte buffers read and written by window

Device and block code moves bytes with slice copies:
`dst[start..start + src.len()].copy_from_slice(src)` and the reads
`&buf[start..end]`. A buffer is a list; `spliceAt` is the copy of `src` into
the window at `start`, `slice` the window read. The copy keeps the length of a
buffer it fits in, and a byte of the result is the source byte inside the
window and the old byte outside it (`getElem?_spliceAt`); everything the
callers prove about bytes goes through that one lemma and the read of a
window (`getElem?_slice`).
-/

namespace StratoVirt.Lib

variable {α : Type}

/-- `buf[start..start + src.len()].copy_from_slice(src)`. -/
def spliceAt (buf : List α) (start : Nat) (src : List α) : List α :=
  buf.take start ++ src ++ buf.drop (start + src.length)

/-- `&buf[start..stop]`. -/
def slice (buf : List α) (start stop : Nat) : List α :=
  (buf.drop start).take (stop - start)

section Splice

variable {buf src : List α} {start : Nat}

/-- A copy into a window of the buffer keeps its length. -/
@[simp] theorem length_spliceAt (h : start + src.length ≤ buf.length) :
    (spliceAt buf start src).length = buf.length := by
  simp only [spliceAt, List.length_append, List.length_take, List.length_drop]
  omega

/-- A byte after a copy: the source byte inside the window, the old one
outside it. -/
theorem getElem?_spliceAt (h : start + src.length ≤ buf.length) (i : Nat) :
    (spliceAt buf start src)[i]? =
      if start ≤ i ∧ i < start + src.length then src[i - start]? else buf[i]? := by
  have htake : (buf.take start).length = start := by
    rw [List.length_take]
    omega
  unfold spliceAt
  rw [List.append_assoc]
  by_cases hlo : i < start
  · -- before the window: the kept prefix
    rw [if_neg (by omega), List.getElem?_append_left (by omega), List.getElem?_take_of_lt hlo]
  · rw [List.getElem?_append_right (by omega), htake]
    by_cases hhi : i < start + src.length
    · -- inside the window: the source
      rw [if_pos ⟨by omega, hhi⟩, List.getElem?_append_left (by omega)]
    · -- after the window: the kept suffix
      rw [if_neg (by omega), List.getElem?_append_right (by omega), List.getElem?_drop]
      congr 1
      omega

/-- A byte outside the window is unchanged. -/
theorem getElem?_spliceAt_of_not_mem (h : start + src.length ≤ buf.length) {i : Nat}
    (hi : i < start ∨ start + src.length ≤ i) : (spliceAt buf start src)[i]? = buf[i]? := by
  rw [getElem?_spliceAt h, if_neg (by omega)]

/-- Copying nothing leaves the buffer. -/
@[simp] theorem spliceAt_nil (buf : List α) (start : Nat) : spliceAt buf start [] = buf := by
  simp [spliceAt]

/-- Two copies side by side are one copy of both. -/
theorem spliceAt_append {a b : List α} (h : start + a.length + b.length ≤ buf.length) :
    spliceAt (spliceAt buf start a) (start + a.length) b = spliceAt buf start (a ++ b) := by
  have ha : start + a.length ≤ buf.length := by omega
  apply List.ext_getElem?
  intro i
  rw [getElem?_spliceAt (by rw [length_spliceAt ha]; omega), getElem?_spliceAt ha,
    getElem?_spliceAt (by simp only [List.length_append]; omega), List.length_append]
  by_cases h1 : i < start
  · rw [if_neg (by omega), if_neg (by omega), if_neg (by omega)]
  · by_cases h2 : i < start + a.length
    · -- inside the first copy
      rw [if_neg (by omega), if_pos ⟨by omega, h2⟩, if_pos ⟨by omega, by omega⟩,
        List.getElem?_append_left (by omega)]
    · by_cases h3 : i < start + a.length + b.length
      · -- inside the second copy
        rw [if_pos ⟨by omega, h3⟩, if_pos ⟨by omega, by omega⟩, List.getElem?_append_right (by omega)]
        congr 1
        omega
      · rw [if_neg (by omega), if_neg (by omega), if_neg (by omega)]

end Splice

/-- A byte of a window: the buffer's byte at the same place, while the window
lasts. -/
theorem getElem?_slice (buf : List α) (start stop i : Nat) :
    (slice buf start stop)[i]? = if i < stop - start then buf[start + i]? else none := by
  unfold slice
  split
  · rw [List.getElem?_take_of_lt (by omega), List.getElem?_drop]
  · rw [List.getElem?_eq_none]
    rw [List.length_take]
    omega

/-- A window inside the buffer has the window's length. -/
@[simp] theorem length_slice {buf : List α} {start stop : Nat} (h : stop ≤ buf.length) :
    (slice buf start stop).length = stop - start := by
  simp only [slice, List.length_take, List.length_drop]
  omega

/-- Reading the window a copy wrote gives the source back. -/
theorem slice_spliceAt {buf src : List α} {start : Nat} (h : start + src.length ≤ buf.length) :
    slice (spliceAt buf start src) start (start + src.length) = src := by
  apply List.ext_getElem?
  intro i
  rw [getElem?_slice, getElem?_spliceAt h]
  by_cases hi : i < src.length
  · rw [if_pos (by omega), if_pos (by omega), Nat.add_sub_cancel_left]
  · rw [if_neg (by omega), List.getElem?_eq_none (by omega)]

/-- A window the copy misses reads as before. -/
theorem slice_spliceAt_of_disjoint {buf src : List α} {start a b : Nat}
    (h : start + src.length ≤ buf.length) (hd : b ≤ start ∨ start + src.length ≤ a) :
    slice (spliceAt buf start src) a b = slice buf a b := by
  apply List.ext_getElem?
  intro i
  rw [getElem?_slice, getElem?_slice, getElem?_spliceAt h]
  split
  · rw [if_neg (by omega)]
  · rfl

/-- The bytes of a window, whatever the buffer's length. -/
theorem length_slice_eq (buf : List α) (start stop : Nat) :
    (slice buf start stop).length = min (stop - start) (buf.length - start) := by
  simp only [slice, List.length_take, List.length_drop]

/-- Two windows side by side are one window. -/
theorem slice_append_slice (buf : List α) {a b c : Nat} (hab : a ≤ b) (hbc : b ≤ c) :
    slice buf a b ++ slice buf b c = slice buf a c := by
  have hsplit : c - a = (b - a) + (c - b) := by omega
  have hdrop : (buf.drop a).drop (b - a) = buf.drop b := by
    rw [List.drop_drop]
    congr 1
    omega
  unfold slice
  rw [hsplit, List.take_add, hdrop]

/-- A window of a window is a window of the buffer. -/
theorem slice_slice (buf : List α) {a b x y : Nat} (hy : y ≤ b - a) :
    slice (slice buf a b) x y = slice buf (a + x) (a + y) := by
  apply List.ext_getElem?
  intro i
  rw [getElem?_slice, getElem?_slice, getElem?_slice]
  by_cases hi : i < y - x
  · rw [if_pos hi, if_pos (by omega), if_pos (by omega), Nat.add_assoc]
  · rw [if_neg hi, if_neg (by omega)]

/-- A window inside the part a copy wrote reads the source. -/
theorem slice_spliceAt_inner {buf src : List α} {start : Nat} (h : start + src.length ≤ buf.length)
    (x y : Nat) (hy : y ≤ src.length) :
    slice (spliceAt buf start src) (start + x) (start + y) = slice src x y := by
  apply List.ext_getElem?
  intro i
  rw [getElem?_slice, getElem?_slice, getElem?_spliceAt h]
  by_cases hi : i < y - x
  · rw [if_pos (by omega), if_pos hi, if_pos ⟨by omega, by omega⟩]
    congr 1
    omega
  · rw [if_neg (by omega), if_neg hi]

/-- Dropping the front of a window moves its start. -/
theorem drop_slice (buf : List α) (start stop k : Nat) :
    (slice buf start stop).drop k = slice buf (start + k) stop := by
  unfold slice
  rw [List.drop_take, List.drop_drop, Nat.sub_sub]

/-- A copy of a whole buffer's length at its start replaces it. -/
theorem spliceAt_zero_of_length {buf src : List α} (h : src.length = buf.length) :
    spliceAt buf 0 src = src := by
  simp only [spliceAt, List.take_zero, List.nil_append, Nat.zero_add, h, List.drop_length,
    List.append_nil]

/-- A copy into the part an earlier copy wrote is one copy of the patched
source. -/
theorem spliceAt_spliceAt_inner {buf src src' : List α} {start k : Nat}
    (h : start + src.length ≤ buf.length) (hk : k + src'.length ≤ src.length) :
    spliceAt (spliceAt buf start src) (start + k) src' = spliceAt buf start (spliceAt src k src') := by
  have h' : start + k + src'.length ≤ (spliceAt buf start src).length := by
    rw [length_spliceAt h]; omega
  have hlen : start + (spliceAt src k src').length ≤ buf.length := by
    rw [length_spliceAt hk]; exact h
  apply List.ext_getElem?
  intro i
  rw [getElem?_spliceAt h', getElem?_spliceAt h, getElem?_spliceAt hlen, length_spliceAt hk,
    getElem?_spliceAt hk]
  -- inside the second copy, inside only the first, or outside both
  by_cases hw : start + k ≤ i ∧ i < start + k + src'.length
  · rw [if_pos hw, if_pos ⟨by omega, by omega⟩, if_pos ⟨by omega, by omega⟩, Nat.sub_sub]
  · rw [if_neg hw]
    by_cases hin : start ≤ i ∧ i < start + src.length
    · rw [if_pos hin, if_pos hin, if_neg (by omega)]
    · rw [if_neg hin, if_neg hin]

/-! ## Buffers laid out part after part -/

/-- A copy right after the front part of a buffer replaces the start of the back part. -/
theorem spliceAt_append_length (pre rest src : List α) :
    spliceAt (pre ++ rest) pre.length src = pre ++ src ++ rest.drop src.length := by
  rw [spliceAt, List.take_left, List.drop_append, List.drop_of_length_le (by omega), List.nil_append,
    Nat.add_sub_cancel_left]

/-- A window past the front part of a buffer is a window of the back part. -/
theorem slice_append_right (pre rest : List α) {start stop : Nat} (h : pre.length ≤ start) :
    slice (pre ++ rest) start stop = slice rest (start - pre.length) (stop - pre.length) := by
  unfold slice
  rw [List.drop_append, List.drop_of_length_le h, List.nil_append]
  congr 1
  omega

/-- A window inside the front part of a buffer is a window of it. -/
theorem slice_append_left (pre rest : List α) {start stop : Nat} (h : stop ≤ pre.length) :
    slice (pre ++ rest) start stop = slice pre start stop := by
  unfold slice
  rw [List.drop_append, List.take_append_of_le_length (by rw [List.length_drop]; omega)]

/-- The window over a whole buffer. -/
@[simp] theorem slice_zero_length (buf : List α) : slice buf 0 buf.length = buf := by
  rw [slice, List.drop_zero, Nat.sub_zero, List.take_length]

/-- The window over the middle part of a buffer laid out in three parts. -/
theorem slice_append_middle (pre mid post : List α) :
    slice (pre ++ mid ++ post) pre.length (pre.length + mid.length) = mid := by
  rw [slice_append_left _ _ (List.length_append ▸ Nat.le_refl _), slice_append_right _ _ (Nat.le_refl _),
    Nat.sub_self, Nat.add_sub_cancel_left, slice_zero_length]

/-- A window from the start that covers the whole buffer. -/
@[simp] theorem slice_zero_of_length_le {buf : List α} {stop : Nat} (h : buf.length ≤ stop) :
    slice buf 0 stop = buf := by
  rw [slice, List.drop_zero, Nat.sub_zero, List.take_of_length_le h]

end StratoVirt.Lib
