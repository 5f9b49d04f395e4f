import Mathlib

/-!
# Text read and written as bytes: UTF-8 strings and decimal numbers

Rust code turns bytes into text with `str::from_utf8`, writes a number with
`to_string` and reads it back with `str::parse`. A string is its UTF-8 bytes
(`utf8Bytes`); `fromUtf8` accepts the bytes of every string and gives that
string back (`fromUtf8_utf8Bytes`). The decimal form of a number is one ASCII
byte per digit, the last digit at the end (`decimalBytes_eq`), and
`parseUnsigned bound` is `from_str_radix(_, 10)` for an unsigned type with
`bound` values. The round trip `parseUnsigned_decimalBytes` holds for every
value of the type; it goes by strong induction on the number, one digit off
the end at a time.
-/

namespace StratoVirt.Lib

/-! ## UTF-8 -/

/-- `str::as_bytes`: the UTF-8 bytes of a string. -/
def utf8Bytes (s : String) : List UInt8 := s.toUTF8.data.toList

/-- `str::from_utf8`: the string the bytes encode, when they are valid UTF-8. -/
def fromUtf8 (bs : List UInt8) : Except String String :=
  match String.fromUTF8? bs.toByteArray with
  | some s => .ok s
  | none => .error "invalid utf-8 sequence"

@[simp] theorem length_utf8Bytes (s : String) : (utf8Bytes s).length = s.utf8ByteSize := by
  rw [utf8Bytes, Array.length_toList, ByteArray.size_data, String.toUTF8_eq_toByteArray,
    String.size_toByteArray]

/-- The bytes of a string built from characters: each character's encoding in turn. -/
theorem utf8Bytes_ofList (l : List Char) : utf8Bytes (String.ofList l) = l.flatMap String.utf8EncodeChar := by
  rw [utf8Bytes, String.toUTF8_eq_toByteArray, String.toByteArray_ofList, List.utf8Encode,
    List.data_toByteArray, List.toList_toArray]

/-- **Round trip.** The bytes of a string decode to that string. -/
theorem fromUtf8_utf8Bytes (s : String) : fromUtf8 (utf8Bytes s) = .ok s := by
  have hbytes : (utf8Bytes s).toByteArray = s.toUTF8 := by
    apply ByteArray.ext
    rw [utf8Bytes, List.data_toByteArray, Array.toArray_toList]
  have hdec : String.fromUTF8? s.toUTF8 = some s := by
    unfold String.fromUTF8?
    rw [String.toUTF8_eq_toByteArray, dif_pos s.isValidUTF8]
    rfl
  rw [fromUtf8, hbytes, hdec]

/-! ## Decimal numbers -/

/-- The bytes of `n.to_string()`. -/
def decimalBytes (n : Nat) : List UInt8 := utf8Bytes (toString n)

/-- A decimal digit is the one byte `'0' + d`. -/
theorem utf8EncodeChar_digitChar : ∀ d, d < 10 → String.utf8EncodeChar (Nat.digitChar d) = [48 + d.toUInt8] := by
  decide

/-- The last digit comes off the end. -/
theorem decimalBytes_eq (n : Nat) :
    decimalBytes n = (if n < 10 then [] else decimalBytes (n / 10)) ++ [48 + (n % 10).toUInt8] := by
  have hstr : ∀ m : Nat, toString m = String.ofList (Nat.toDigits 10 m) := fun _ => rfl
  rw [decimalBytes, hstr, utf8Bytes_ofList, Nat.toDigits_eq_if (by decide)]
  split
  · rename_i hlt
    rw [List.flatMap_cons, List.flatMap_nil, List.append_nil, utf8EncodeChar_digitChar n hlt,
      Nat.mod_eq_of_lt hlt, List.nil_append]
  · rw [List.flatMap_append, List.flatMap_cons, List.flatMap_nil, List.append_nil,
      utf8EncodeChar_digitChar _ (Nat.mod_lt _ (by decide)), decimalBytes, hstr, utf8Bytes_ofList]

theorem decimalBytes_ne_nil (n : Nat) : decimalBytes n ≠ [] := by
  rw [decimalBytes_eq]
  exact List.append_ne_nil_of_right_ne_nil _ (List.cons_ne_nil _ _)

/-- A number below `10^k` has at most `k` digits. -/
theorem length_decimalBytes_le {k : Nat} (hk : 1 ≤ k) : ∀ {n : Nat}, n < 10 ^ k → (decimalBytes n).length ≤ k := by
  induction k with
  | zero => omega
  | succ k ih =>
    intro n hn
    rw [decimalBytes_eq]
    split
    · simp only [List.nil_append, List.length_singleton]
      omega
    · rename_i hge
      -- two or more digits: `n / 10` has at most `k`
      have hk' : 1 ≤ k := by
        rcases k with _ | k
        · rw [Nat.zero_add, Nat.pow_one] at hn
          omega
        · omega
      have hdiv : n / 10 < 10 ^ k := by
        rw [Nat.pow_succ] at hn
        omega
      rw [List.length_append, List.length_singleton]
      exact Nat.add_le_add_right (ih hk' hdiv) 1

/-- `'0' ≤ c ≤ '9'`. -/
def isDigitByte (c : UInt8) : Bool := 48 ≤ c && c ≤ 57

/-- One digit of `from_str_radix(src, 10)` for an unsigned type with `bound`
values: an invalid digit, or an overflow of `acc * 10 + digit`
(`checked_mul`, then `checked_add`). -/
def parseDigit (bound acc : Nat) (c : UInt8) : Except String Nat :=
  if !isDigitByte c then .error "invalid digit found in string"
  else if bound ≤ acc * 10 + (c - 48).toNat then .error "number too large to fit in target type"
  else .ok (acc * 10 + (c - 48).toNat)

/-- `str::parse` for an unsigned integer type with `bound` values: an
optional `+`, then the digits; a lone sign is an invalid digit. -/
def parseUnsigned (bound : Nat) (src : List UInt8) : Except String Nat :=
  match src with
  | [] => .error "cannot parse integer from empty string"
  | c :: rest =>
    if rest = [] ∧ (c = 43 ∨ c = 45) then .error "invalid digit found in string"
    else if c = 43 then rest.foldlM (parseDigit bound) 0
    else (c :: rest).foldlM (parseDigit bound) 0

/-- The digit bytes, read back. -/
theorem digitByte_spec : ∀ d, d < 10 → isDigitByte (48 + d.toUInt8) = true ∧ ((48 + d.toUInt8) - 48).toNat = d := by
  decide

theorem parseDigit_digit {bound acc d : Nat} (hd : d < 10) (h : acc * 10 + d < bound) :
    parseDigit bound acc (48 + d.toUInt8) = .ok (acc * 10 + d) := by
  obtain ⟨hdig, hval⟩ := digitByte_spec d hd
  rw [parseDigit, hdig, hval, if_neg (by decide), if_neg (by omega)]

/-- Every byte of a decimal form is a digit. -/
theorem isDigitByte_of_mem_decimalBytes : ∀ (n : Nat), ∀ b ∈ decimalBytes n, isDigitByte b = true := by
  intro n
  induction n using Nat.strong_induction_on with
  | _ n ih =>
    intro b hb
    rw [decimalBytes_eq, List.mem_append, List.mem_singleton] at hb
    rcases hb with hb | rfl
    · split at hb
      · cases hb
      · exact ih (n / 10) (by omega) b hb
    · exact (digitByte_spec _ (Nat.mod_lt _ (by decide))).1

/-- The digits of `n` fold back to `n`, with no overflow on the way. -/
theorem foldlM_parseDigit_decimalBytes {bound : Nat} :
    ∀ (n : Nat), n < bound → (decimalBytes n).foldlM (parseDigit bound) 0 = .ok n := by
  intro n
  induction n using Nat.strong_induction_on with
  | _ n ih =>
    intro hn
    have hd : n % 10 < 10 := Nat.mod_lt _ (by decide)
    -- the value before the last digit
    have hpre : (if n < 10 then [] else decimalBytes (n / 10)).foldlM (parseDigit bound) 0 = .ok (n / 10) := by
      split
      · rename_i hlt
        rw [Nat.div_eq_of_lt hlt]
        rfl
      · exact ih (n / 10) (by omega) (by omega)
    have hlast : parseDigit bound (n / 10) (48 + (n % 10).toUInt8) = .ok n := by
      rw [parseDigit_digit hd (by omega)]
      congr 1
      omega
    rw [decimalBytes_eq, List.foldlM_append, hpre]
    show List.foldlM (parseDigit bound) (n / 10) [48 + (n % 10).toUInt8] = _
    rw [List.foldlM_cons, hlast]
    rfl

/-- **Round trip.** `to_string` read back with `parse` gives every value of
the type. -/
theorem parseUnsigned_decimalBytes {bound n : Nat} (h : n < bound) :
    parseUnsigned bound (decimalBytes n) = .ok n := by
  obtain ⟨c, rest, hcr⟩ := List.exists_cons_of_ne_nil (decimalBytes_ne_nil n)
  have hc : isDigitByte c = true := isDigitByte_of_mem_decimalBytes n c (by rw [hcr]; exact List.mem_cons_self)
  have hsign : ¬(c = 43 ∨ c = 45) := by
    rintro (rfl | rfl) <;> exact absurd hc (by decide)
  rw [hcr, parseUnsigned, if_neg (fun h' => hsign h'.2), if_neg (fun h' => hsign (Or.inl h')), ← hcr]
  exact foldlM_parseDigit_decimalBytes n h

end StratoVirt.Lib
