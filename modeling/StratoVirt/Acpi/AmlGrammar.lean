import Mathlib
import StratoVirt.Acpi.AmlCompiler
import StratoVirt.Lib.Codec

/-!
# What an AML decoder reads back from the encoder

The PkgLength and NameString productions of the ACPI definition-block
grammar (ACPI spec 5.4, Definition Block Encoding, which `aml_compiler.rs`
follows) as a decoder, and what it reads back from the encoder of
`AmlCompiler.lean`:

* `decodePkgLength_buildPkgLength`: every PkgLength `build_pkg_length` writes
  for a length below `2^28 - 4` reads back as that length, plus its own size
  when it counts itself;
* `amlBytes_pkgLength`: the PkgLength of every scope-like term (scopes,
  devices, methods, buffers, packages, `If`/`Else`/`While`, resource
  templates) reads back as the byte length of the construct from the
  PkgLength on, and leaves exactly the body in front;
* `buildNameString_text` and `decodeNameString_namePath`: a name made of a root
  character or parent prefixes and 1 to 255 segments of 1 to 4 name
  characters encodes as its prefix and a NamePath of its segments padded with
  `_`, and reads back as exactly that;
* `buildNameString_prefix_only`: a name of prefix characters only is emitted
  as the prefix followed by the prefix again inside a padded NameSeg (or
  panics past four characters), and no decoder reading of it gives back the
  prefix followed by NullName.
-/

namespace StratoVirt.Acpi

open StratoVirt.Lib

/-! ## PkgLength -/

/-- The value of PkgLength's follow bytes, least significant first. -/
def followValue : List UInt8 → Nat
  | [] => 0
  | b :: bs => b.toNat + 256 * followValue bs

/-- PkgLength as the grammar reads it. The lead byte's bits 6-7 count the
follow bytes. With none, bits 0-5 are the length; with some, bits 4-5 are
reserved zero, bits 0-3 are the low nibble and the follow bytes the rest. -/
def decodePkgLength : List UInt8 → Option (Nat × List UInt8)
  | [] => none
  | lead :: rest =>
    let follow := lead.toNat / 64
    if follow = 0 then some (lead.toNat % 64, rest)
    else if lead.toNat / 16 % 4 ≠ 0 then none
    else
      match takeExact follow rest with
      | none => none
      | some (bs, rest) => some (lead.toNat % 16 + 16 * followValue bs, rest)

/-- The largest length, plus one, that `n` PkgLength bytes hold. -/
def pkgCapacity : Nat → Nat
  | 1 => 2 ^ 6
  | 2 => 2 ^ 12
  | 3 => 2 ^ 20
  | _ => 2 ^ 28

/-- The lead byte of a multi-byte PkgLength: the follow count `k` over the
length's low nibble. -/
theorem leadByte_toNat {k : Nat} (hk : k < 4) (n : Nat) :
    (UInt8.ofNat (k <<< 6 ||| (n &&& 0xF))).toNat = 64 * k + n % 16 := by
  have hand : n &&& 0xF = n % 16 := Nat.and_two_pow_sub_one_eq_mod n 4
  have hor : k <<< 6 ||| n % 16 = k <<< 6 + n % 16 :=
    (Nat.shiftLeft_add_eq_or_of_lt (by omega) k).symm
  rw [hand, hor, Nat.shiftLeft_eq, UInt8.toNat_ofNat']
  omega

/-- A follow byte: eight bits of the length from bit `s` on. -/
theorem followByte_toNat (n s : Nat) : (UInt8.ofNat (n >>> s)).toNat = n / 2 ^ s % 256 := by
  rw [UInt8.toNat_ofNat', Nat.shiftRight_eq_div_pow]

@[simp] theorem pkgLengthBytes_length {c : Nat} (h1 : 1 ≤ c) (h4 : c ≤ 4) (n : Nat) :
    (pkgLengthBytes c n).length = c := by
  match c, h1, h4 with
  | 1, _, _ => rfl
  | 2, _, _ => rfl
  | 3, _, _ => rfl
  | 4, _, _ => rfl

/-- A multi-byte PkgLength: a lead byte announcing `k` follow bytes reads the
low nibble from it and the rest from the follow bytes. -/
theorem decodePkgLength_lead {k : Nat} (hk1 : 1 ≤ k) (hk : k < 4) (n : Nat) {follow : List UInt8}
    (hf : follow.length = k) (rest : List UInt8) :
    decodePkgLength (UInt8.ofNat (k <<< 6 ||| (n &&& 0xF)) :: (follow ++ rest)) =
      some (n % 16 + 16 * followValue follow, rest) := by
  simp only [decodePkgLength, leadByte_toNat hk]
  -- bits 6-7 hold `k`, bits 4-5 are clear
  rw [if_neg (by omega), if_neg (by omega), show (64 * k + n % 16) / 64 = k by omega,
    takeExact_append rest hf]
  dsimp only
  congr 2
  omega

/-- **One width.** A length that fits `c` bytes reads back from them. -/
theorem decodePkgLength_pkgLengthBytes {c n : Nat} (h1 : 1 ≤ c) (h4 : c ≤ 4)
    (hn : n < pkgCapacity c) (rest : List UInt8) :
    decodePkgLength (pkgLengthBytes c n ++ rest) = some (n, rest) := by
  match c, h1, h4 with
  | 1, _, _ =>
    have hlead : (UInt8.ofNat n).toNat = n := by
      rw [UInt8.toNat_ofNat']
      simp only [pkgCapacity] at hn
      omega
    simp only [pkgLengthBytes, List.cons_append, List.nil_append, decodePkgLength, hlead]
    simp only [pkgCapacity] at hn
    rw [if_pos (by omega)]
    congr 2
    omega
  | 2, _, _ =>
    simp only [pkgCapacity] at hn
    rw [pkgLengthBytes, List.cons_append]
    refine (decodePkgLength_lead (by decide) (by decide) n (by rfl) rest).trans ?_
    simp only [followValue, followByte_toNat]
    congr 2
    omega
  | 3, _, _ =>
    simp only [pkgCapacity] at hn
    rw [pkgLengthBytes, List.cons_append]
    refine (decodePkgLength_lead (by decide) (by decide) n (by rfl) rest).trans ?_
    simp only [followValue, followByte_toNat]
    congr 2
    omega
  | 4, _, _ =>
    simp only [pkgCapacity] at hn
    have hbytes : pkgLengthBytes 4 n = [UInt8.ofNat (3 <<< 6 ||| (n &&& 0xF)),
        UInt8.ofNat (n >>> 4), UInt8.ofNat (n >>> 12), UInt8.ofNat (n >>> 20)] := rfl
    rw [hbytes, List.cons_append]
    refine (decodePkgLength_lead (by decide) (by decide) n (by rfl) rest).trans ?_
    simp only [followValue, followByte_toNat]
    congr 2
    omega

/-- The width `build_pkg_length` picks is 1 to 4 bytes, and holds the length
with room for those bytes. -/
theorem pkgBytesCount_fits {len : Nat} (h : len < 2 ^ 28 - 4) :
    1 ≤ pkgBytesCount len ∧ pkgBytesCount len ≤ 4 ∧
      len + pkgBytesCount len < pkgCapacity (pkgBytesCount len) := by
  unfold pkgBytesCount
  split
  · rename_i h1
    simp only [Nat.one_shiftLeft] at h1
    exact ⟨Nat.le_refl _, by decide, by simp only [pkgCapacity]; omega⟩
  split
  · rename_i h2
    simp only [Nat.one_shiftLeft] at h2
    exact ⟨by decide, by decide, by simp only [pkgCapacity]; omega⟩
  split
  · rename_i h3
    simp only [Nat.one_shiftLeft] at h3
    exact ⟨by decide, by decide, by simp only [pkgCapacity]; omega⟩
  · exact ⟨by decide, Nat.le_refl _, by simp only [pkgCapacity]; omega⟩

/-- **PkgLength round trip.** For every length below `2^28 - 4`,
`build_pkg_length` writes a PkgLength that reads back as the length, plus the
PkgLength's own size when it includes itself, whatever follows it. -/
theorem decodePkgLength_buildPkgLength {len : Nat} (h : len < 2 ^ 28 - 4) (includeSelf : Bool)
    (rest : List UInt8) :
    decodePkgLength (buildPkgLength len includeSelf ++ rest) =
      some (if includeSelf then len + (buildPkgLength len includeSelf).length else len, rest) := by
  obtain ⟨h1, h4, hfit⟩ := pkgBytesCount_fits h
  unfold buildPkgLength
  cases includeSelf with
  | true =>
    simp only [if_true, pkgLengthBytes_length h1 h4]
    exact decodePkgLength_pkgLengthBytes h1 h4 hfit rest
  | false =>
    simp only [Bool.false_eq_true, if_false]
    exact decodePkgLength_pkgLengthBytes h1 h4 (by omega) rest

/-- **Framing.** The PkgLength of a scope-like encoding reads back as the
byte length of everything from the PkgLength on, and leaves the body in front. -/
theorem pkgFramed_readsBack (op : List UInt8) {buf : List UInt8} (h : buf.length < 2 ^ 28 - 4)
    (rest : List UInt8) :
    decodePkgLength ((pkgFramed op buf).drop op.length ++ rest) =
      some (((pkgFramed op buf).drop op.length).length, buf ++ rest) := by
  have hdrop : (pkgFramed op buf).drop op.length = buildPkgLength buf.length true ++ buf := by
    rw [pkgFramed, List.append_assoc, List.drop_left]
  rw [hdrop, List.append_assoc, decodePkgLength_buildPkgLength h true, List.length_append,
    Nat.add_comm (buildPkgLength _ _).length]
  rfl

/-- The opcode in front of a scope-like term's PkgLength; `none` for the
terms that carry no PkgLength. -/
def AmlTerm.pkgOpcode : AmlTerm → Option (List UInt8)
  | .scope .. => some [0x10]
  | .device .. => some [0x5B, 0x82]
  | .method .. => some [0x14]
  | .buffer _ => some [0x11]
  | .package .. => some [0x12]
  | .varPackage .. => some [0x13]
  | .ifScope .. => some [0xA0]
  | .elseScope _ => some [0xA1]
  | .whileScope .. => some [0xA2]
  | .resTemplate _ => some [0x11]
  | _ => none

/-- `AmlBuffer` is framed like the scopes: its PkgLength counts the element
count's bytes and the data. -/
theorem amlBuffer_eq (data : List UInt8) :
    amlBuffer data = pkgFramed [0x11] (amlInteger data.length ++ data) := by
  simp only [amlBuffer, pkgFramed, List.length_append, List.append_assoc]

/-- What a scope-like term encodes to: its opcode, then a self-inclusive
PkgLength over a body. -/
theorem amlBytes_framed {t : AmlTerm} {op bytes : List UInt8} (hop : t.pkgOpcode = some op)
    (h : amlBytes t = .ok bytes) : ∃ body, bytes = pkgFramed op body := by
  cases t with
  | scope name children =>
    obtain ⟨n, -, h⟩ := except_bind_eq_ok h
    obtain ⟨c, -, h⟩ := except_bind_eq_ok h
    cases hop
    exact ⟨_, (Except.ok.inj h).symm⟩
  | device name children =>
    obtain ⟨n, -, h⟩ := except_bind_eq_ok h
    obtain ⟨c, -, h⟩ := except_bind_eq_ok h
    cases hop
    exact ⟨_, (Except.ok.inj h).symm⟩
  | method name argsCount serialized children =>
    simp only [amlBytes] at h
    split at h
    · cases h
    obtain ⟨n, -, h⟩ := except_bind_eq_ok h
    obtain ⟨c, -, h⟩ := except_bind_eq_ok h
    cases hop
    exact ⟨_, (Except.ok.inj h).symm⟩
  | buffer data =>
    cases hop
    exact ⟨_, (Except.ok.inj h).symm.trans (amlBuffer_eq data)⟩
  | package elemCount children =>
    obtain ⟨c, -, h⟩ := except_bind_eq_ok h
    cases hop
    exact ⟨_, (Except.ok.inj h).symm⟩
  | varPackage elemCount children =>
    obtain ⟨c, -, h⟩ := except_bind_eq_ok h
    cases hop
    exact ⟨_, (Except.ok.inj h).symm⟩
  | ifScope predicate children =>
    obtain ⟨p, -, h⟩ := except_bind_eq_ok h
    obtain ⟨c, -, h⟩ := except_bind_eq_ok h
    cases hop
    exact ⟨_, (Except.ok.inj h).symm⟩
  | elseScope children =>
    obtain ⟨c, -, h⟩ := except_bind_eq_ok h
    cases hop
    exact ⟨_, (Except.ok.inj h).symm⟩
  | whileScope predicate children =>
    obtain ⟨p, -, h⟩ := except_bind_eq_ok h
    obtain ⟨c, -, h⟩ := except_bind_eq_ok h
    cases hop
    exact ⟨_, (Except.ok.inj h).symm⟩
  | resTemplate buf =>
    cases hop
    exact ⟨_, (Except.ok.inj h).symm⟩
  | integer _ | string _ | name _ | nameDecl _ _ | ret _ | «local» _ | arg _ => cases hop

/-- **PkgLength of a term.** Every scope-like term shorter than `2^28 - 4`
bytes encodes as its opcode, then a PkgLength that reads back as the byte
length of the construct from the PkgLength on and leaves the body in front. -/
theorem amlBytes_pkgLength {t : AmlTerm} {op bytes : List UInt8} (hop : t.pkgOpcode = some op)
    (h : amlBytes t = .ok bytes) (hlen : bytes.length < 2 ^ 28 - 4) (rest : List UInt8) :
    ∃ body, bytes = pkgFramed op body ∧
      decodePkgLength (bytes.drop op.length ++ rest) =
        some ((bytes.drop op.length).length, body ++ rest) := by
  obtain ⟨body, rfl⟩ := amlBytes_framed hop h
  have hbody : body.length < 2 ^ 28 - 4 := by
    simp only [pkgFramed, List.length_append] at hlen
    omega
  exact ⟨body, rfl, pkgFramed_readsBack op hbody rest⟩

/-! ## NameString -/

/-- `LeadNameChar`: `A`-`Z` or `_`. -/
def isLeadNameChar (b : UInt8) : Bool := (0x41 ≤ b && b ≤ 0x5A) || b == 0x5F

/-- `NameChar`: a digit or a `LeadNameChar`. -/
def isNameChar (b : UInt8) : Bool := (0x30 ≤ b && b ≤ 0x39) || isLeadNameChar b

/-- `NameSeg`: four name characters, the first a lead character. -/
def decodeNameSeg : List UInt8 → Option (List UInt8 × List UInt8)
  | a :: b :: c :: d :: rest =>
    if isLeadNameChar a && isNameChar b && isNameChar c && isNameChar d then
      some ([a, b, c, d], rest)
    else none
  | _ => none

/-- The rest of a `MultiNamePath`: `SegCount` (1 to 255), then that many
segments. -/
def decodeMultiNamePath : List UInt8 → Option (List (List UInt8) × List UInt8)
  | [] => none
  | n :: rest => if n = 0 then none else decodeCount decodeNameSeg n.toNat rest

/-- `NamePath`: `NullName`, a `DualNamePath` of two segments, a `MultiNamePath`,
or one segment. -/
def decodeNamePath : List UInt8 → Option (List (List UInt8) × List UInt8)
  | [] => none
  | b :: rest =>
    if b = 0x00 then some ([], rest)
    else if b = 0x2E then decodeCount decodeNameSeg 2 rest
    else if b = 0x2F then decodeMultiNamePath rest
    else (decodeNameSeg (b :: rest)).map fun (s, rest) => ([s], rest)

/-- A NameString as read: the root character or the parent prefixes as
written, and the segments. -/
structure NameString where
  prefixPath : List UInt8
  segs : List (List UInt8)
  deriving DecidableEq, Repr

/-- `NameString := RootChar NamePath | PrefixPath NamePath`, a `PrefixPath`
being any number of `^`. -/
def decodeNameString : List UInt8 → Option (NameString × List UInt8)
  | [] => none
  | b :: rest =>
    if b = 0x5C then (decodeNamePath rest).map fun (segs, rest) => (⟨[0x5C], segs⟩, rest)
    else
      let carets := (b :: rest).takeWhile (· == 0x5E)
      (decodeNamePath ((b :: rest).drop carets.length)).map fun (segs, rest) =>
        (⟨carets, segs⟩, rest)

/-- A segment the encoder is meant for: 1 to 4 name characters, the first a
lead character. -/
def segOk : List UInt8 → Bool
  | [] => false
  | a :: t => decide (t.length < ACPI_NAME_SEG_MAX) && isLeadNameChar a && t.all isNameChar

/-- A segment padded to four bytes with `_`, as `build_name_seg` returns it. -/
def padSeg (s : List UInt8) : List UInt8 :=
  s ++ List.replicate (ACPI_NAME_SEG_MAX - s.length) 0x5F

/-- No prefix, the root character, or parent prefixes. -/
def prefixOk (p : List UInt8) : Bool := p == [0x5C] || p.all (· == 0x5E)

/-- A name the grammar can express: a prefix and 1 to 255 segments. -/
structure AmlNamePath where
  prefixPath : List UInt8
  segs : List (List UInt8)
  prefix_ok : prefixOk prefixPath = true
  segs_ne : segs ≠ []
  segs_le : segs.length ≤ 255
  segs_ok : ∀ s ∈ segs, segOk s = true

/-- The name's text: the prefix, then the segments separated by `.`. -/
def AmlNamePath.text (n : AmlNamePath) : List UInt8 := n.prefixPath ++ [0x2E].intercalate n.segs

/-- The grammar's `NamePath` of segments padded to four bytes: `NullName` for
none, one segment alone, two under `DualNamePrefix`, more under
`MultiNamePrefix` and their count. -/
def namePathBytes : List (List UInt8) → List UInt8
  | [] => [0x00]
  | [s] => padSeg s
  | [s0, s1] => 0x2E :: (padSeg s0 ++ padSeg s1)
  | segs => 0x2F :: UInt8.ofNat segs.length :: (segs.map padSeg).flatten

/-! ### Character classes -/

theorem isLeadNameChar_ne {a : UInt8} (h : isLeadNameChar a = true) :
    isPrefixChar a = false ∧ a ≠ 0x00 ∧ a ≠ 0x2E ∧ a ≠ 0x2F := by
  simp only [isLeadNameChar, Bool.or_eq_true, Bool.and_eq_true, decide_eq_true_eq,
    beq_iff_eq] at h
  simp only [isPrefixChar, Bool.or_eq_false_iff, beq_eq_false_iff_ne]
  grind

theorem isNameChar_ne {a : UInt8} (h : isNameChar a = true) : a ≠ 0x2E ∧ isPrefixChar a = false := by
  simp only [isNameChar, isLeadNameChar, Bool.or_eq_true, Bool.and_eq_true, decide_eq_true_eq,
    beq_iff_eq] at h
  simp only [isPrefixChar, Bool.or_eq_false_iff, beq_eq_false_iff_ne]
  grind

theorem isPrefixChar_ne {a : UInt8} (h : isPrefixChar a = true) :
    isLeadNameChar a = false ∧ a ≠ 0x00 ∧ a ≠ 0x2E ∧ a ≠ 0x2F := by
  simp only [isPrefixChar, Bool.or_eq_true, beq_iff_eq] at h
  rcases h with rfl | rfl <;> decide

theorem isNameChar_of_lead {a : UInt8} (h : isLeadNameChar a = true) : isNameChar a = true := by
  simp [isNameChar, h]

/-- What `segOk` says of a segment, unfolded. -/
theorem segOk_iff {s : List UInt8} :
    segOk s = true ↔ ∃ a t, s = a :: t ∧ t.length < 4 ∧ isLeadNameChar a = true ∧
      ∀ b ∈ t, isNameChar b = true := by
  cases s with
  | nil => simp [segOk]
  | cons a t =>
    simp only [segOk, ACPI_NAME_SEG_MAX, Bool.and_eq_true, List.all_eq_true, List.cons.injEq]
    constructor
    · rintro ⟨⟨hlen, ha⟩, ht⟩
      exact ⟨a, t, ⟨rfl, rfl⟩, of_decide_eq_true hlen, ha, ht⟩
    · rintro ⟨a, t, ⟨rfl, rfl⟩, hlen, ha, ht⟩
      exact ⟨⟨decide_eq_true hlen, ha⟩, ht⟩

/-- The bytes of a valid segment are name characters. -/
theorem mem_of_segOk {s : List UInt8} (hs : segOk s = true) {b : UInt8} (hb : b ∈ s) :
    isNameChar b = true := by
  obtain ⟨a, t, rfl, -, ha, ht⟩ := segOk_iff.1 hs
  rcases List.mem_cons.1 hb with rfl | hbt
  · exact isNameChar_of_lead ha
  · exact ht b hbt

/-- The bytes of a valid prefix are prefix characters. -/
theorem mem_of_prefixOk {p : List UInt8} (hp : prefixOk p = true) {b : UInt8} (hb : b ∈ p) :
    isPrefixChar b = true := by
  simp only [prefixOk, Bool.or_eq_true, beq_iff_eq, List.all_eq_true] at hp
  rcases hp with rfl | hall
  · simp only [List.mem_singleton] at hb
    simp [hb, isPrefixChar]
  · simp [isPrefixChar, hall b hb]

/-! ### The encoder on a valid name -/

theorem buildNameSeg_of_le {s : List UInt8} (h : s.length ≤ ACPI_NAME_SEG_MAX) :
    buildNameSeg s = .ok (padSeg s) := by
  rw [buildNameSeg, if_neg (Nat.not_lt.2 h)]
  rfl

theorem mapM_buildNameSeg :
    ∀ (l : List (List UInt8)), (∀ s ∈ l, s.length ≤ ACPI_NAME_SEG_MAX) →
      l.mapM buildNameSeg = .ok (l.map padSeg)
  | [], _ => rfl
  | s :: l, h => by
    rw [List.mapM_cons, buildNameSeg_of_le (h s List.mem_cons_self),
      mapM_buildNameSeg l (fun t ht => h t (List.mem_cons_of_mem s ht))]
    rfl

/-- The prefix loop pushes the leading prefix characters and stops at the
first other character, at its position. -/
theorem scanPrefix_append {a : UInt8} (ha : isPrefixChar a = false) (t : List UInt8) :
    ∀ (p : List UInt8), (∀ b ∈ p, isPrefixChar b = true) → ∀ i,
      scanPrefix (p ++ a :: t) i = (p, i + p.length)
  | [], _, i => by simp [scanPrefix, ha]
  | c :: p, hp, i => by
    have hc : isPrefixChar c = true := hp c List.mem_cons_self
    have ih := scanPrefix_append ha t p (fun b hb => hp b (List.mem_cons_of_mem c hb)) (i + 1)
    rw [List.cons_append, scanPrefix, if_pos hc, ih, List.length_cons]
    simp only [Prod.mk.injEq, true_and]
    omega

/-- A string of prefix characters only runs the loop out: `index` stays 0. -/
theorem scanPrefix_of_all : ∀ (p : List UInt8), (∀ b ∈ p, isPrefixChar b = true) → ∀ i,
    scanPrefix p i = (p, 0)
  | [], _, _ => rfl
  | c :: p, hp, i => by
    have hc : isPrefixChar c = true := hp c List.mem_cons_self
    rw [scanPrefix, if_pos hc,
      scanPrefix_of_all p (fun b hb => hp b (List.mem_cons_of_mem c hb)) (i + 1)]

/-- Splitting a valid name at `.` gives the prefix with the first segment,
then the other segments. -/
theorem splitOn_text (n : AmlNamePath) :
    n.text.splitOn 0x2E = (n.prefixPath ++ n.segs.head n.segs_ne) :: n.segs.tail := by
  obtain ⟨p, segs, hp, hne, -, hok⟩ := n
  cases segs with
  | nil => exact absurd rfl hne
  | cons s0 ss =>
    -- the prefix joins the first segment
    have hjoin : p ++ [0x2E].intercalate (s0 :: ss) = [0x2E].intercalate ((p ++ s0) :: ss) := by
      cases ss with
      | nil => simp only [List.intercalate_singleton]
      | cons s1 ss => simp only [List.intercalate_cons_cons, List.append_assoc]
    -- neither the prefix nor a segment holds a `.`
    have hnodot : ∀ l ∈ (p ++ s0) :: ss, (0x2E : UInt8) ∉ l := by
      intro l hl hdot
      rcases List.mem_cons.1 hl with rfl | hl
      · rcases List.mem_append.1 hdot with hp' | hs
        · exact (isPrefixChar_ne (mem_of_prefixOk hp hp')).2.2.1 rfl
        · exact (isNameChar_ne (mem_of_segOk (hok s0 List.mem_cons_self) hs)).1 rfl
      · exact (isNameChar_ne (mem_of_segOk (hok l (List.mem_cons_of_mem s0 hl)) hdot)).1 rfl
    show (p ++ [0x2E].intercalate (s0 :: ss)).splitOn 0x2E = _
    rw [hjoin, List.splitOn_intercalate 0x2E hnodot (List.cons_ne_nil _ _)]
    rfl

/-- **Encoding a valid name.** `build_name_string` writes the prefix, then the
NamePath of the segments padded to four bytes. -/
theorem buildNameString_text (n : AmlNamePath) :
    buildNameString n.text = .ok (n.prefixPath ++ namePathBytes n.segs) := by
  have hsplit := splitOn_text n
  obtain ⟨p, segs, hp, hne, hle, hok⟩ := n
  cases segs with
  | nil => exact absurd rfl hne
  | cons s0 ss =>
    have hs0 := hok s0 List.mem_cons_self
    obtain ⟨a, t, rfl, -, ha, -⟩ := segOk_iff.1 hs0
    -- the loop stops at the first segment's lead character
    have hscan : scanPrefix (p ++ a :: t) 0 = (p, p.length) := by
      rw [scanPrefix_append (isLeadNameChar_ne ha).1 t p (fun b hb => mem_of_prefixOk hp hb) 0,
        Nat.zero_add]
    have hseg : ∀ s ∈ (a :: t) :: ss, buildNameSeg s = .ok (padSeg s) := by
      intro s hs
      obtain ⟨a', t', rfl, hlen, -⟩ := segOk_iff.1 (hok s hs)
      exact buildNameSeg_of_le (by simp only [List.length_cons, ACPI_NAME_SEG_MAX]; omega)
    have hdrop : (p ++ a :: t).drop p.length = a :: t := List.drop_left
    simp only [buildNameString, hsplit, List.head_cons, List.tail_cons, List.length_cons]
    rw [if_neg (by simp only [List.length_cons] at hle; omega), hscan]
    simp only [hdrop]
    rw [hseg (a :: t) List.mem_cons_self]
    match ss, hseg, hle with
    | [], _, _ =>
      rw [if_neg (by simp)]
      rfl
    | [s1], hseg, _ =>
      simp [hseg s1 (by simp), namePathBytes]
    | s1 :: s2 :: ss, _, _ =>
      have hrest : (s1 :: s2 :: ss).mapM buildNameSeg = .ok ((s1 :: s2 :: ss).map padSeg) := by
        refine mapM_buildNameSeg _ fun s hs => ?_
        obtain ⟨a', t', rfl, hlen, -⟩ := segOk_iff.1 (hok s (List.mem_cons_of_mem _ hs))
        simp only [List.length_cons, ACPI_NAME_SEG_MAX]
        omega
      simp [hrest, namePathBytes]

/-! ### The decoder on what the encoder wrote -/

@[simp] theorem isNameChar_pad : isNameChar 0x5F = true := rfl

/-- A padded valid segment is a `NameSeg`, read back whatever follows it. -/
theorem decodeNameSeg_readsBack :
    ReadsBack (fun s => ∃ s0, segOk s0 = true ∧ s = padSeg s0) id decodeNameSeg := by
  rintro _ rest ⟨s, hs, rfl⟩
  obtain ⟨a, t, rfl, hlen, ha, ht⟩ := segOk_iff.1 hs
  match t, hlen, ht with
  | [], _, _ =>
    show decodeNameSeg (a :: 0x5F :: 0x5F :: 0x5F :: rest) = some ([a, 0x5F, 0x5F, 0x5F], rest)
    simp [decodeNameSeg, ha]
  | [b], _, ht =>
    show decodeNameSeg (a :: b :: 0x5F :: 0x5F :: rest) = some ([a, b, 0x5F, 0x5F], rest)
    simp [decodeNameSeg, ha, ht b (by simp)]
  | [b, c], _, ht =>
    show decodeNameSeg (a :: b :: c :: 0x5F :: rest) = some ([a, b, c, 0x5F], rest)
    simp [decodeNameSeg, ha, ht b (by simp), ht c (by simp)]
  | [b, c, d], _, ht =>
    show decodeNameSeg (a :: b :: c :: d :: rest) = some ([a, b, c, d], rest)
    simp [decodeNameSeg, ha, ht b (by simp), ht c (by simp), ht d (by simp)]

/-- `n` padded valid segments in a row are read back. -/
theorem decodeCount_padSeg {segs : List (List UInt8)} (hok : ∀ s ∈ segs, segOk s = true)
    (rest : List UInt8) :
    decodeCount decodeNameSeg segs.length ((segs.map padSeg).flatten ++ rest) =
      some (segs.map padSeg, rest) := by
  have h := decodeCount_flatMap decodeNameSeg_readsBack (segs.map padSeg) (by
    intro s hs
    obtain ⟨s0, hs0, rfl⟩ := List.mem_map.1 hs
    exact ⟨s0, hok s0 hs0, rfl⟩) rest
  rwa [List.flatMap_id, List.length_map] at h

/-- **NamePath read back.** The NamePath of 1 to 255 valid segments reads
back as the padded segments, whatever follows it. -/
theorem decodeNamePath_namePathBytes {segs : List (List UInt8)} (hne : segs ≠ [])
    (hle : segs.length ≤ 255) (hok : ∀ s ∈ segs, segOk s = true) (rest : List UInt8) :
    decodeNamePath (namePathBytes segs ++ rest) = some (segs.map padSeg, rest) := by
  match segs, hne, hle, hok with
  | [s], _, _, hok =>
    obtain ⟨a, t, rfl, -, ha, -⟩ := segOk_iff.1 (hok s List.mem_cons_self)
    obtain ⟨-, h0, hdual, hmulti⟩ := isLeadNameChar_ne ha
    have hseg := decodeNameSeg_readsBack (padSeg (a :: t)) rest
      ⟨a :: t, hok _ List.mem_cons_self, rfl⟩
    -- one segment goes without a prefix: its lead character starts the path
    show decodeNamePath (a :: (t ++ List.replicate (ACPI_NAME_SEG_MAX - (t.length + 1)) 0x5F ++
      rest)) = _
    rw [decodeNamePath, if_neg h0, if_neg hdual, if_neg hmulti]
    erw [hseg]
    rfl
  | [s0, s1], _, _, hok =>
    have h := decodeCount_padSeg hok rest
    simp only [List.map_cons, List.map_nil, List.flatten_cons, List.flatten_nil, List.append_nil,
      List.length_cons, List.length_nil] at h
    show decodeNamePath (0x2E :: (padSeg s0 ++ padSeg s1 ++ rest)) = _
    rw [decodeNamePath, if_neg (by decide), if_pos rfl, h]
    rfl
  | s0 :: s1 :: s2 :: ss, _, hle, hok =>
    have h := decodeCount_padSeg hok rest
    have hcount : (UInt8.ofNat (s0 :: s1 :: s2 :: ss).length).toNat = (s0 :: s1 :: s2 :: ss).length := by
      rw [UInt8.toNat_ofNat']
      omega
    have hcount0 : UInt8.ofNat (s0 :: s1 :: s2 :: ss).length ≠ 0 := by
      intro h0
      have := congrArg UInt8.toNat h0
      rw [hcount] at this
      simp at this
    show decodeNamePath (0x2F :: UInt8.ofNat (s0 :: s1 :: s2 :: ss).length ::
      (((s0 :: s1 :: s2 :: ss).map padSeg).flatten ++ rest)) = _
    rw [decodeNamePath, if_neg (by decide), if_neg (by decide), if_pos rfl, decodeMultiNamePath,
      if_neg hcount0, hcount, h]

/-- After a valid prefix, the NamePath is read from the first byte that is not
a prefix character. -/
theorem decodeNameString_prefix {p : List UInt8} (hp : prefixOk p = true) {b : UInt8}
    (hb : isPrefixChar b = false) (path : List UInt8) :
    decodeNameString (p ++ b :: path) =
      (decodeNamePath (b :: path)).map fun (segs, rest) => (⟨p, segs⟩, rest) := by
  have hb' : b ≠ 0x5C ∧ b ≠ 0x5E := by
    simp only [isPrefixChar, Bool.or_eq_false_iff, beq_eq_false_iff_ne] at hb
    exact hb
  simp only [prefixOk, Bool.or_eq_true, beq_iff_eq, List.all_eq_true] at hp
  rcases hp with rfl | hall
  · rw [List.singleton_append, decodeNameString, if_pos rfl]
  -- parent prefixes: the run of `^` stops at `b`
  have hcarets : (p ++ b :: path).takeWhile (· == 0x5E) = p :=
    takeWhile_append_of_stop path (fun x hx => by simp [hall x hx]) (by simp [hb'.2])
  cases p with
  | nil =>
    rw [List.nil_append, decodeNameString, if_neg hb'.1]
    simp only [List.nil_append] at hcarets
    simp only [hcarets, List.length_nil, List.drop_zero]
  | cons c p =>
    have hc : c = 0x5E := by simpa using hall c List.mem_cons_self
    rw [List.cons_append, decodeNameString, if_neg (by rw [hc]; decide)]
    rw [← List.cons_append]
    simp only [hcarets, List.drop_left]

/-- A NamePath of valid segments starts with a byte that is not a prefix
character: a prefix of the NamePath, or a segment's lead character. -/
theorem namePathBytes_head {segs : List (List UInt8)} (hne : segs ≠ [])
    (hok : ∀ s ∈ segs, segOk s = true) :
    ∃ b path, namePathBytes segs = b :: path ∧ isPrefixChar b = false := by
  match segs, hne, hok with
  | [s], _, hok =>
    obtain ⟨a, t, rfl, -, ha, -⟩ := segOk_iff.1 (hok s List.mem_cons_self)
    exact ⟨a, _, rfl, (isLeadNameChar_ne ha).1⟩
  | [s0, s1], _, _ => exact ⟨0x2E, _, rfl, by decide⟩
  | s0 :: s1 :: s2 :: ss, _, _ => exact ⟨0x2F, _, rfl, by decide⟩

/-- **NameString read back.** A valid name's prefix and NamePath read back
as the prefix and the padded segments, whatever follows them. -/
theorem decodeNameString_namePath (n : AmlNamePath) (rest : List UInt8) :
    decodeNameString (n.prefixPath ++ namePathBytes n.segs ++ rest) =
      some (⟨n.prefixPath, n.segs.map padSeg⟩, rest) := by
  obtain ⟨b, path, hbp, hb⟩ := namePathBytes_head n.segs_ne n.segs_ok
  have hpath := decodeNamePath_namePathBytes n.segs_ne n.segs_le n.segs_ok rest
  rw [hbp, List.cons_append] at hpath
  rw [List.append_assoc, hbp, List.cons_append, decodeNameString_prefix n.prefix_ok hb, hpath]
  rfl

/-- **Name string round trip.** Every name the grammar can express encodes,
and reads back as its prefix and its segments padded with `_`. -/
theorem buildNameString_readsBack (n : AmlNamePath) :
    ∃ bytes, buildNameString n.text = .ok bytes ∧
      ∀ rest, decodeNameString (bytes ++ rest) = some (⟨n.prefixPath, n.segs.map padSeg⟩, rest) :=
  ⟨_, buildNameString_text n, decodeNameString_namePath n⟩

/-- A bare prefix followed by `NullName` reads back as the prefix with no
segment: the encoding the grammar has for a name of prefix characters only. -/
theorem decodeNameString_nullName {p : List UInt8} (hp : prefixOk p = true) (rest : List UInt8) :
    decodeNameString (p ++ [0x00] ++ rest) = some (⟨p, []⟩, rest) := by
  rw [List.append_assoc, List.singleton_append, decodeNameString_prefix hp (by decide),
    decodeNamePath, if_pos rfl]
  rfl

/-! ### A name of prefix characters only -/

/-- A NamePath cannot start with a prefix character. -/
theorem decodeNamePath_prefixChar {b : UInt8} (hb : isPrefixChar b = true) (rest : List UInt8) :
    decodeNamePath (b :: rest) = none := by
  obtain ⟨hlead, h0, hdual, hmulti⟩ := isPrefixChar_ne hb
  rw [decodeNamePath, if_neg h0, if_neg hdual, if_neg hmulti]
  -- a segment must start with a lead character
  match rest with
  | x :: y :: z :: rest => simp [decodeNameSeg, hlead]
  | [] => rfl
  | [_] => rfl
  | [_, _] => rfl

/-- **Prefix-only names.** For a name of prefix characters only,
`build_name_string`'s prefix loop never breaks, so `index` stays 0 and the
whole name is emitted again as a NameSeg after the copied prefix: the
encoding is the prefix, then the prefix padded with `_` (a panic past four
characters), never the prefix followed by `NullName`; and whatever follows it,
no reading of it is the prefix with no segment. -/
theorem buildNameString_prefix_only {p : List UInt8} (hne : p ≠ [])
    (hpre : ∀ b ∈ p, isPrefixChar b = true) :
    buildNameString p = (buildNameSeg p).map (fun seg => p ++ seg) ∧
      ∀ bytes rest, buildNameString p = .ok bytes →
        decodeNameString (bytes ++ rest) ≠ some (⟨p, []⟩, rest) := by
  -- no `.`: one string, which the loop runs through without a `break`
  have hsplit : p.splitOn 0x2E = [p] := by
    have h := @List.splitOn_intercalate _ [p] _ _ 0x2E
      (fun l hl hdot => by
        rw [List.mem_singleton] at hl
        subst hl
        exact (isPrefixChar_ne (hpre _ hdot)).2.2.1 rfl)
      (List.cons_ne_nil _ _)
    rwa [List.intercalate_singleton] at h
  have hscan : scanPrefix p 0 = (p, 0) := scanPrefix_of_all p hpre 0
  have hbuild : buildNameString p = (buildNameSeg p).map (fun seg => p ++ seg) := by
    simp only [buildNameString, hsplit, List.length_singleton, hscan, List.drop_zero]
    rw [if_neg (by decide), if_neg (by simpa using hne)]
    cases buildNameSeg p <;> rfl
  refine ⟨hbuild, ?_⟩
  intro bytes rest hok hdec
  -- the encoding is the prefix twice over, then padding
  have hbytes : bytes = p ++ padSeg p := by
    rw [hbuild, buildNameSeg] at hok
    split at hok
    · cases hok
    · exact (Except.ok.inj hok).symm
  subst hbytes
  obtain ⟨c, p', rfl⟩ := List.exists_cons_of_ne_nil hne
  by_cases hc : c = 0x5C
  · -- a root character: one `\` is read, then the NamePath must begin
    subst hc
    rw [List.cons_append, List.cons_append, decodeNameString, if_pos rfl] at hdec
    cases hpath : decodeNamePath (p' ++ padSeg (0x5C :: p') ++ rest) with
    | none => rw [hpath] at hdec; cases hdec
    | some r =>
      rw [hpath] at hdec
      obtain ⟨segs, rest'⟩ := r
      simp only [Option.map_some, Option.some.injEq, Prod.mk.injEq, NameString.mk.injEq,
        List.cons.injEq, true_and] at hdec
      obtain ⟨⟨rfl, -⟩, -⟩ := hdec
      rw [List.nil_append, padSeg, List.cons_append, List.cons_append,
        decodeNamePath_prefixChar (by decide)] at hpath
      cases hpath
  · -- parent prefixes: the run of `^` read takes in the copy as well
    rw [List.cons_append, List.cons_append, decodeNameString, if_neg hc] at hdec
    rw [← List.cons_append, ← List.cons_append] at hdec
    cases hpath : decodeNamePath (((c :: p') ++ padSeg (c :: p') ++ rest).drop
        (((c :: p') ++ padSeg (c :: p') ++ rest).takeWhile (· == 0x5E)).length) with
    | none => simp only [hpath, Option.map_none, reduceCtorEq] at hdec
    | some r =>
      simp only [hpath, Option.map_some, Option.some.injEq, Prod.mk.injEq,
        NameString.mk.injEq] at hdec
      have hcar := hdec.1.1
      -- what was read is all `^`, so the name is, and then the copy is read too
      have hall : ∀ x ∈ c :: p', (x == 0x5E) = true := by
        intro x hx
        rw [← hcar] at hx
        have hread := List.mem_takeWhile_imp hx
        exact hread
      have hlong : (c :: p') ++ (c :: p') <+:
          ((c :: p') ++ padSeg (c :: p') ++ rest).takeWhile (· == 0x5E) := by
        simp only [padSeg, List.append_assoc]
        rw [List.takeWhile_append_of_pos hall, List.takeWhile_append_of_pos hall]
        exact ⟨_, List.append_assoc _ _ _⟩
      have hlen := hlong.length_le
      rw [hcar] at hlen
      simp only [List.length_append, List.length_cons] at hlen
      omega

/-- The failing input: the root name `\` is emitted as `\\___`, where the
grammar writes `\` and `NullName`. -/
theorem buildNameString_root :
    [(0x5C : UInt8)] ≠ [] ∧ (∀ b ∈ [(0x5C : UInt8)], isPrefixChar b = true) ∧
      buildNameString [0x5C] = (buildNameSeg [0x5C]).map (fun seg => [0x5C] ++ seg) ∧
      buildNameSeg [0x5C] = .ok [0x5C, 0x5F, 0x5F, 0x5F] :=
  have hroot : ∀ b ∈ [(0x5C : UInt8)], isPrefixChar b = true := List.forall_mem_singleton.2 rfl
  ⟨List.cons_ne_nil _ _, hroot, (buildNameString_prefix_only (List.cons_ne_nil _ _) hroot).1, rfl⟩

end StratoVirt.Acpi
