import Mathlib

/-!
# The AML encoder: PkgLength, NameString, and the term builders

`acpi/src/aml_compiler.rs`. Every ACPI table the VM boots with is built from
these builders; each one's `aml_bytes` is its encoding.

`build_pkg_length` picks 1 to 4 bytes from `length + 1`, `length + 2`,
`length + 3` against `2^6`, `2^12`, `2^20`, then adds its own size when the
length includes itself. `build_name_string` splits the name at `.`, copies the
leading root (`\`) and parent (`^`) characters of the first segment, and emits
the segments padded to four bytes with `_`, under a NullName, DualNamePath or
MultiNamePath prefix by their number.

A name is its UTF-8 bytes: `\`, `^` and `.` are one byte each, so splitting at
`.` and the byte index `drain` takes after the prefix characters are the same on
bytes. A Rust `panic!` is an `Except.error` carrying its message; `as u8` is
`UInt8.ofNat`, which keeps the low eight bits. The term builders form a tree
(`AmlTerm`): each scope-like builder's `buf` is what `new` put there followed by
its appended children.
-/

namespace StratoVirt.Acpi

/-- `ACPI_NAME_SEG_MAX`. -/
def ACPI_NAME_SEG_MAX : Nat := 4

/-! ## PkgLength -/

/-- The bytes of a PkgLength of `pkgLength` in `bytesCount` bytes: the count
less one in the lead byte's top two bits; one byte holds the value in bits 0-5,
more bytes hold its low nibble in bits 0-3 and the rest eight bits at a time.
(`bytesCount` is 1 to 4, so `panic!("Undefined PkgLength")` is out of reach.) -/
def pkgLengthBytes (bytesCount pkgLength : Nat) : List UInt8 :=
  match bytesCount with
  | 1 => [UInt8.ofNat pkgLength]
  | 2 => [UInt8.ofNat (1 <<< 6 ||| (pkgLength &&& 0xF)), UInt8.ofNat (pkgLength >>> 4)]
  | 3 => [UInt8.ofNat (2 <<< 6 ||| (pkgLength &&& 0xF)), UInt8.ofNat (pkgLength >>> 4),
      UInt8.ofNat (pkgLength >>> 12)]
  | _ => [UInt8.ofNat (3 <<< 6 ||| (pkgLength &&& 0xF)), UInt8.ofNat (pkgLength >>> 4),
      UInt8.ofNat (pkgLength >>> 12), UInt8.ofNat (pkgLength >>> 20)]

/-- How many bytes `build_pkg_length` uses for `length`. -/
def pkgBytesCount (length : Nat) : Nat :=
  if length + 1 < 1 <<< 6 then 1
  else if length + 2 < 1 <<< 12 then 2
  else if length + 3 < 1 <<< 20 then 3
  else 4

/-- `build_pkg_length`. -/
def buildPkgLength (length : Nat) (includeSelf : Bool) : List UInt8 :=
  let bytesCount := pkgBytesCount length
  let pkgLength := if includeSelf then length + bytesCount else length
  pkgLengthBytes bytesCount pkgLength

/-! ## NameString -/

/-- `build_name_seg`: a segment of at most four bytes, padded with `_`. -/
def buildNameSeg (name : List UInt8) : Except String (List UInt8) :=
  if name.length > ACPI_NAME_SEG_MAX then .error "the length of NameSeg is larger than 4."
  else .ok (name ++ List.replicate (ACPI_NAME_SEG_MAX - name.length) 0x5F)

/-- The root character `\` and the parent prefix `^`. -/
def isPrefixChar (ch : UInt8) : Bool := ch == 0x5C || ch == 0x5E

/-- The prefix loop of `build_name_string` over the first segment from
position `i`: the prefix characters it pushes, and `index`, set to the position
of the first other character at the `break`. A segment of prefix characters
only runs the loop out without a `break`, leaving `index` at its initial 0. -/
def scanPrefix : List UInt8 → Nat → List UInt8 × Nat
  | [], _ => ([], 0)
  | ch :: rest, i =>
    if isPrefixChar ch then
      let (bytes, index) := scanPrefix rest (i + 1)
      (ch :: bytes, index)
    else ([], i)

/-- `panic!("Invalid ACPI name string, length: {}", strs.len())`. -/
def invalidNameString (len : Nat) : String := "Invalid ACPI name string, length: " ++ toString len

/-- `build_name_string`. -/
def buildNameString (name : List UInt8) : Except String (List UInt8) :=
  let strs := name.splitOn 0x2E
  match strs with
  | [] => .error (invalidNameString 0)
  | first :: others =>
    if strs.length > 255 then .error (invalidNameString strs.length)
    else
      let (bytes, index) := scanPrefix first 0
      let remainFirst := first.drop index
      match others with
      | [] =>
        if remainFirst.isEmpty then .ok (bytes ++ [0x00])
        else do
          let seg ← buildNameSeg remainFirst
          pure (bytes ++ seg)
      | [second] => do
        let seg0 ← buildNameSeg remainFirst
        let seg1 ← buildNameSeg second
        pure (bytes ++ [0x2E] ++ seg0 ++ seg1)
      | _ => do
        let seg0 ← buildNameSeg remainFirst
        let segs ← others.mapM buildNameSeg
        pure (bytes ++ [0x2F, UInt8.ofNat strs.length] ++ seg0 ++ segs.flatten)

/-! ## Data objects -/

/-- `value.as_bytes()` of a `w`-byte integer: its low `w` bytes, least
significant first. -/
def leBytes : Nat → Nat → List UInt8
  | 0, _ => []
  | w + 1, n => UInt8.ofNat n :: leBytes w (n / 256)

/-- `AmlInteger(n).aml_bytes()`: `AmlZero`, `AmlOne`, or the narrowest of
`AmlByte`, `AmlWord`, `AmlDWord`, `AmlQWord` that holds `n`. -/
def amlInteger (n : Nat) : List UInt8 :=
  if n = 0 then [0x00]
  else if n = 1 then [0x01]
  else if n ≤ 0xFF then 0x0A :: leBytes 1 n
  else if n ≤ 0xFFFF then 0x0B :: leBytes 2 n
  else if n ≤ 0xFFFF_FFFF then 0x0C :: leBytes 4 n
  else 0x0E :: leBytes 8 n

/-- The encoding of the scope-like builders (`AmlScope`, `AmlDevice`,
`AmlMethod`, `AmlPackage`, `AmlVarPackage`, `AmlIf`, `AmlElse`, `AmlWhile`):
the opcode, a PkgLength counting itself and the body, and the body. -/
def pkgFramed (op buf : List UInt8) : List UInt8 :=
  op ++ buildPkgLength buf.length true ++ buf

/-- `AmlBuffer(data).aml_bytes()`: a PkgLength over the element count and the
data, then the count as an `AmlInteger`, then the data. -/
def amlBuffer (data : List UInt8) : List UInt8 :=
  let lenBytes := amlInteger data.length
  [0x11] ++ buildPkgLength (lenBytes.length + data.length) true ++ lenBytes ++ data

/-- `AmlResTemplate::aml_bytes` over the resource descriptors' bytes `buf`: the
buffer size counting the two-byte end tag, the descriptors, the end tag, and
then PkgLength and the buffer opcode inserted in front. -/
def amlResTemplate (buf : List UInt8) : List UInt8 :=
  let endTagLen := 2
  let bytes := amlInteger (buf.length + endTagLen) ++ buf ++ [0x79, 0x00]
  let pkgLength := buildPkgLength bytes.length true
  [0x11] ++ pkgLength ++ bytes

/-! ## Terms -/

/-- A term built from the builders: the scope-like ones carry the children
appended to them with `append_child`. -/
inductive AmlTerm where
  /-- `AmlInteger`. -/
  | integer (n : Nat)
  /-- `AmlString`. -/
  | string (s : List UInt8)
  /-- `AmlName`: a reference to a declared name. -/
  | name (s : List UInt8)
  /-- `AmlNameDecl::new(name, obj)`. -/
  | nameDecl (name : List UInt8) (obj : AmlTerm)
  /-- `AmlScope::new(name)` and its children. -/
  | scope (name : List UInt8) (children : List AmlTerm)
  /-- `AmlDevice::new(name)` and its children. -/
  | device (name : List UInt8) (children : List AmlTerm)
  /-- `AmlMethod::new(name, args_count, serialized)` and its body. -/
  | method (name : List UInt8) (argsCount : Nat) (serialized : Bool) (children : List AmlTerm)
  /-- `AmlBuffer`. -/
  | buffer (data : List UInt8)
  /-- `AmlPackage::new(elem_count)` and its elements. -/
  | package (elemCount : UInt8) (children : List AmlTerm)
  /-- `AmlVarPackage::new(elem_count)` and its elements. -/
  | varPackage (elemCount : UInt8) (children : List AmlTerm)
  /-- `AmlIf::new(predicate)` and its body. -/
  | ifScope (predicate : AmlTerm) (children : List AmlTerm)
  /-- `AmlElse::new()` and its body. -/
  | elseScope (children : List AmlTerm)
  /-- `AmlWhile::new(predicate)` and its body. -/
  | whileScope (predicate : AmlTerm) (children : List AmlTerm)
  /-- `AmlReturn::new()` (no value) or `AmlReturn::with_value`. -/
  | ret (value : Option AmlTerm)
  /-- `AmlLocal`. -/
  | local (n : Nat)
  /-- `AmlArg`. -/
  | arg (n : Nat)
  /-- `AmlResTemplate` over its resource descriptors' bytes. -/
  | resTemplate (buf : List UInt8)

mutual

/-- `aml_bytes` of a term; a builder that panics is an error. -/
def amlBytes : AmlTerm → Except String (List UInt8)
  | .integer n => .ok (amlInteger n)
  | .string s => .ok ([0x0D] ++ s ++ [0x00])
  | .name s => buildNameString s
  | .nameDecl name obj => do
    let n ← buildNameString name
    let o ← amlBytes obj
    pure ([0x08] ++ n ++ o)
  | .scope name children => do
    let n ← buildNameString name
    let c ← amlBytesList children
    pure (pkgFramed [0x10] (n ++ c))
  | .device name children => do
    let n ← buildNameString name
    let c ← amlBytesList children
    pure (pkgFramed [0x5B, 0x82] (n ++ c))
  | .method name argsCount serialized children =>
    if argsCount > 7 then
      .error ("Up to 7 arguments are supported, given " ++ toString argsCount)
    else do
      -- bits 0-2: ArgCount, bit 3: SerializeFlag
      let flag := if serialized then argsCount ||| 1 <<< 3 else argsCount
      let n ← buildNameString name
      let c ← amlBytesList children
      pure (pkgFramed [0x14] (n ++ [UInt8.ofNat flag] ++ c))
  | .buffer data => .ok (amlBuffer data)
  | .package elemCount children => do
    let c ← amlBytesList children
    pure (pkgFramed [0x12] ([elemCount] ++ c))
  | .varPackage elemCount children => do
    let c ← amlBytesList children
    pure (pkgFramed [0x13] ([elemCount] ++ c))
  | .ifScope predicate children => do
    let p ← amlBytes predicate
    let c ← amlBytesList children
    pure (pkgFramed [0xA0] (p ++ c))
  | .elseScope children => do
    let c ← amlBytesList children
    pure (pkgFramed [0xA1] c)
  | .whileScope predicate children => do
    let p ← amlBytes predicate
    let c ← amlBytesList children
    pure (pkgFramed [0xA2] (p ++ c))
  | .ret none => .ok [0xA4, 0x00]
  | .ret (some value) => do
    let v ← amlBytes value
    pure ([0xA4] ++ v)
  | .local n =>
    if n > 7 then .error ("Up to 8 Local are supported, given " ++ toString n)
    else .ok [UInt8.ofNat (0x60 + n)]
  | .arg n =>
    if n > 6 then .error ("Up to 7 Arguments are supported, given " ++ toString n)
    else .ok [UInt8.ofNat (0x68 + n)]
  | .resTemplate buf => .ok (amlResTemplate buf)

/-- The children of a scope, appended one after another. -/
def amlBytesList : List AmlTerm → Except String (List UInt8)
  | [] => .ok []
  | t :: ts => do
    let b ← amlBytes t
    let bs ← amlBytesList ts
    pure (b ++ bs)

end

end StratoVirt.Acpi
