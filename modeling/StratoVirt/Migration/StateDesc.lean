import StratoVirt.Lib.Codec
import StratoVirt.Lib.Loop
import StratoVirt.Lib.Slice

/-!
# Device state across versions: `DeviceStateDesc` and `check_vm_state`

`migration/src/protocol.rs`, `migration/src/general.rs`. A snapshot stores each
device's state as the bytes of its `DeviceState` structure, together with a
descriptor: the structure's size, its version, the oldest version it can be
restored from, and where each field sits. On restore, `check_vm_state` compares
the snapshot's descriptor with the one the running build has
(`check_version`); when the versions differ it re-lays the bytes out field by
field, matching fields by alias (`add_padding`).

Errors and panics are `Except.error` with their text; a panic of a slice copy
carries the message Rust gives it. The stream and the two descriptor tables are
inputs: the instance header already read, the tables as functions.

* `checkVmState_accepts_iff`: for well-formed descriptors where no field
  shrank, `check_vm_state` accepts exactly when the snapshot's version is at
  most the current one; `compat_version` is never read;
* `paddingStep_window`: one field's copy writes the snapshot field's length
  from the current field's offset, whatever the current field's size;
* `addPadding_bytes`: when no field shrank and aliases are distinct, each
  byte of the result is the snapshot's byte of the same field, zero-extended,
  and zero outside every field.
-/

namespace StratoVirt.Migration

open StratoVirt.Lib

/-- `FieldDesc`: where one field of a `DeviceState` sits in its bytes. -/
structure FieldDesc where
  «alias» : String
  offset : Nat
  size : Nat
  deriving Repr, DecidableEq

/-- `DeviceStateDesc`: the layout and versions of a `DeviceState`. -/
structure DeviceStateDesc where
  name : String
  «alias» : Nat
  size : Nat
  currentVersion : Nat
  compatVersion : Nat
  fields : List FieldDesc
  deriving Repr, DecidableEq

/-- `VersionCheck`. -/
inductive VersionCheck where
  | same
  | compat
  | mismatch
  deriving Repr, DecidableEq

/-- The panic of `s[a..b]` with `b` past the end. -/
def rangeEndPanic (index len : Nat) : String :=
  "range end index " ++ toString index ++ " out of range for slice of length " ++ toString len

/-- The panic of `s[a..b]` with `a > b`. -/
def sliceOrderPanic (index stop : Nat) : String :=
  "slice index starts at " ++ toString index ++ " but ends at " ++ toString stop

/-- The panic of `clone_from_slice` between slices of different lengths. -/
def cloneLenPanic : String :=
  "destination and source slices have different lengths"

/-- `&s[start..stop]` checked as Rust checks it. -/
def sliceIndex (s : List UInt8) (start stop : Nat) : Except String (List UInt8) :=
  if start > stop then .error (sliceOrderPanic start stop)
  else if stop > s.length then .error (rangeEndPanic stop s.length)
  else .ok (slice s start stop)

/-- `dst[start..stop].clone_from_slice(&src[newStart..newEnd])`. -/
def cloneFromSlice (dst : List UInt8) (start stop : Nat) (src : List UInt8)
    (newStart newEnd : Nat) : Except String (List UInt8) := do
  let window ← sliceIndex dst start stop
  let bytes ← sliceIndex src newStart newEnd
  if window.length ≠ bytes.length then .error cloneLenPanic
  else .ok (spliceAt dst start bytes)

namespace DeviceStateDesc

/-- `DeviceStateDesc::contains`. -/
def contains (d : DeviceStateDesc) (aliasName : String) : Bool :=
  d.fields.any (fun field => aliasName == field.alias)

/-- `DeviceStateDesc::get_slice_index`: the window of the first field with
the alias, if it lies within the structure. -/
def getSliceIndex (d : DeviceStateDesc) (aliasName : String) : Except String (Nat × Nat) :=
  match d.fields.find? (fun field => aliasName == field.alias) with
  | some field =>
    let start := field.offset
    let stop := start + field.size
    if stop > d.size then .error "Data slice index out of range" else .ok (start, stop)
  | none => .error ("Don\x27t have this alias name: " ++ aliasName)

/-- The end of the window a field is copied into in `add_padding`: moved so
that the window is as long as the snapshot's field. -/
def fitEnd (newStart newEnd start stop : Nat) : Nat :=
  if newEnd - newStart > stop - start then stop + ((newEnd - newStart) - (stop - start))
  else stop - ((stop - start) - (newEnd - newStart))

/-- One pass of `add_padding`'s loop: copy the snapshot's bytes of `field`
into the current slice, when the snapshot has the field. -/
def paddingStep (self desc : DeviceStateDesc) (tmpSlice currentSlice : List UInt8)
    (field : FieldDesc) : Except String (List UInt8) :=
  if desc.contains field.alias then do
    let (newStart, newEnd) ← desc.getSliceIndex field.alias
    let (start, stop) ← self.getSliceIndex field.alias
    cloneFromSlice currentSlice start (fitEnd newStart newEnd start stop) tmpSlice newStart newEnd
  else .ok currentSlice

/-- `DeviceStateDesc::add_padding`: the bytes of a state laid out by `desc`,
re-laid out by `self`, from a zeroed slice of `self.size` bytes. -/
def addPadding (self desc : DeviceStateDesc) (currentSlice : List UInt8) :
    Except String (List UInt8) :=
  self.fields.foldlM (self.paddingStep desc currentSlice) (List.replicate self.size 0)

/-- `DeviceStateDesc::check_version`. -/
def checkVersion (self desc : DeviceStateDesc) : VersionCheck :=
  match compare self.currentVersion desc.currentVersion with
  | .eq => .same
  | .gt => .compat
  | .lt => .mismatch

end DeviceStateDesc

/-- `Instance`: the header in front of each state in the stream. -/
structure Instance where
  name : Nat
  object : Nat
  deriving Repr, DecidableEq

/-- `MigrationManager::check_vm_state`, after the instance header is read:
look the snapshot's descriptor up by the instance's object and the current one
by its name, read the state, and bring it to the current version. -/
def checkVmState (inst : Instance) (snapDescDb : Nat → Option DeviceStateDesc)
    (descDb : String → Option DeviceStateDesc) (stream : List UInt8) :
    Except String (List UInt8 × Nat) :=
  match snapDescDb inst.object with
  | none => .error "Failed to get instance object"
  | some snapDesc =>
    match descDb snapDesc.name with
    | none => .error "Failed to get snap_desc name"
    | some currentDesc =>
      if stream.length < snapDesc.size then .error "failed to fill whole buffer"
      else
        let stateData := stream.take snapDesc.size
        match currentDesc.checkVersion snapDesc with
        | .same => .ok (stateData, inst.name)
        | .compat =>
          match currentDesc.addPadding snapDesc stateData with
          | .ok padded => .ok (padded, inst.name)
          | .error _ => .error "Failed to transform snapshot data version"
        | .mismatch =>
          .error ("Migration compat_version " ++ toString currentDesc.compatVersion ++
            " higher than current version " ++ toString snapDesc.currentVersion)

/-! ## Well-formed descriptors -/

namespace FieldDesc

/-- Two fields share no byte. -/
def Disjoint (f g : FieldDesc) : Prop :=
  f.offset + f.size ≤ g.offset ∨ g.offset + g.size ≤ f.offset

/-- The field holds byte `i`. -/
def holds (f : FieldDesc) (i : Nat) : Bool :=
  decide (f.offset ≤ i ∧ i < f.offset + f.size)

/-- No byte is held by two disjoint fields. -/
theorem Disjoint.not_holds {f g : FieldDesc} (h : f.Disjoint g) {i : Nat}
    (hf : f.holds i = true) (hg : g.holds i = true) : False := by
  simp only [holds, decide_eq_true_eq] at hf hg
  unfold Disjoint at h
  omega

end FieldDesc

namespace DeviceStateDesc

/-- A descriptor whose fields lie within the structure and share no byte. -/
structure WellFormed (d : DeviceStateDesc) : Prop where
  fields_le : ∀ f ∈ d.fields, f.offset + f.size ≤ d.size
  disjoint : d.fields.Pairwise FieldDesc.Disjoint

/-- The descriptor has a field of the alias exactly when the search for one
finds it. -/
theorem contains_eq_isSome (d : DeviceStateDesc) (aliasName : String) :
    d.contains aliasName = (d.fields.find? (fun field => aliasName == field.alias)).isSome := by
  rw [Bool.eq_iff_iff, contains, List.any_eq_true, List.find?_isSome]

/-- The window of a field that lies within the structure. -/
theorem getSliceIndex_of_find {d : DeviceStateDesc} (hd : d.WellFormed) {aliasName : String}
    {f : FieldDesc} (h : d.fields.find? (fun field => aliasName == field.alias) = some f) :
    d.getSliceIndex aliasName = .ok (f.offset, f.offset + f.size) := by
  have hle := hd.fields_le f (List.mem_of_find?_eq_some h)
  unfold getSliceIndex
  rw [h]
  dsimp only
  rw [if_neg (by omega)]

/-- The end `add_padding` copies to makes the window as long as the
snapshot's field. -/
theorem fitEnd_eq {newStart newEnd start stop : Nat} (h : start ≤ stop) (h' : newStart ≤ newEnd) :
    fitEnd newStart newEnd start stop = start + (newEnd - newStart) := by
  unfold fitEnd
  split <;> omega

end DeviceStateDesc

/-- A copy whose source lies in its slice succeeds when its window fits in the
destination, and panics otherwise. -/
theorem cloneFromSlice_eq {dst src : List UInt8} {start newStart newEnd : Nat}
    (hle : newStart ≤ newEnd) (hsrc : newEnd ≤ src.length) :
    cloneFromSlice dst start (start + (newEnd - newStart)) src newStart newEnd =
      if start + (newEnd - newStart) ≤ dst.length then
        .ok (spliceAt dst start (slice src newStart newEnd))
      else .error (rangeEndPanic (start + (newEnd - newStart)) dst.length) := by
  have hdst : ¬ start > start + (newEnd - newStart) := by omega
  have hsrcOrder : ¬ newStart > newEnd := by omega
  have hsrcEnd : ¬ newEnd > src.length := by omega
  unfold cloneFromSlice sliceIndex
  rw [if_neg hdst, if_neg hsrcOrder, if_neg hsrcEnd]
  by_cases hfit : start + (newEnd - newStart) ≤ dst.length
  · rw [if_neg (Nat.not_lt.2 hfit), if_pos hfit, except_ok_bind, except_ok_bind,
      length_slice hfit, length_slice hsrc, if_neg (by omega)]
  · rw [if_pos (Nat.lt_of_not_le hfit), if_neg hfit]
    rfl

open DeviceStateDesc in
/-- **Step.** One pass of `add_padding` on a field the snapshot has: the
snapshot's field, `g`, is copied to the offset of the current layout's first
field of that alias, `f`, over the snapshot field's length, whatever the size
of `f`; it panics when that runs past the slice. -/
theorem paddingStep_window {c s : DeviceStateDesc} (hc : c.WellFormed) (hs : s.WellFormed)
    {tmp cur : List UInt8} (htmp : tmp.length = s.size) {field f g : FieldDesc}
    (hg : s.fields.find? (fun x => field.alias == x.alias) = some g)
    (hf : c.fields.find? (fun x => field.alias == x.alias) = some f) :
    c.paddingStep s tmp cur field =
      if f.offset + g.size ≤ cur.length then
        .ok (spliceAt cur f.offset (slice tmp g.offset (g.offset + g.size)))
      else .error (rangeEndPanic (f.offset + g.size) cur.length) := by
  have hgle := hs.fields_le g (List.mem_of_find?_eq_some hg)
  have hcontains : s.contains field.alias = true := by
    rw [contains_eq_isSome, hg]
    rfl
  unfold paddingStep
  rw [if_pos hcontains, getSliceIndex_of_find hs hg, except_ok_bind]
  dsimp only
  rw [getSliceIndex_of_find hc hf, except_ok_bind]
  dsimp only
  rw [fitEnd_eq (by omega) (by omega), cloneFromSlice_eq (by omega) (by omega),
    Nat.add_sub_cancel_left]

/-- A field the snapshot lacks is left as it is. -/
theorem paddingStep_of_absent {c s : DeviceStateDesc} {tmp cur : List UInt8} {field : FieldDesc}
    (hg : s.fields.find? (fun x => field.alias == x.alias) = none) :
    c.paddingStep s tmp cur field = .ok cur := by
  have hcontains : s.contains field.alias = false := by
    rw [DeviceStateDesc.contains_eq_isSome, hg]
    rfl
  unfold DeviceStateDesc.paddingStep
  rw [if_neg (by simp [hcontains])]

/-- No field of the current layout is narrower than the snapshot's field of
the same alias. -/
def NoShrink (c s : DeviceStateDesc) : Prop :=
  ∀ f ∈ c.fields, ∀ g ∈ s.fields, f.alias = g.alias → g.size ≤ f.size

/-- The copy of one field stays within the current layout when no field
shrank. -/
theorem paddingStep_ok {c s : DeviceStateDesc} (hc : c.WellFormed) (hs : s.WellFormed)
    (hkeep : NoShrink c s) {tmp cur : List UInt8} (htmp : tmp.length = s.size)
    (hcur : cur.length = c.size) {field : FieldDesc} (hfield : field ∈ c.fields) :
    ∃ out, c.paddingStep s tmp cur field = .ok out ∧ out.length = c.size := by
  cases hg : s.fields.find? (fun x => field.alias == x.alias) with
  | none => exact ⟨cur, paddingStep_of_absent hg, hcur⟩
  | some g =>
    -- the current layout has a field of the alias: `field` at least
    obtain ⟨f, hf⟩ : ∃ f, c.fields.find? (fun x => field.alias == x.alias) = some f :=
      Option.isSome_iff_exists.1 (List.find?_isSome.2 ⟨field, hfield, beq_self_eq_true _⟩)
    have hfmem := List.mem_of_find?_eq_some hf
    have hgmem := List.mem_of_find?_eq_some hg
    have hfa : field.alias = f.alias := by simpa using List.find?_some hf
    have hga : field.alias = g.alias := by simpa using List.find?_some hg
    have hsize := hkeep f hfmem g hgmem (hfa.symm.trans hga)
    have hfle := hc.fields_le f hfmem
    have hgle := hs.fields_le g hgmem
    have hfit : f.offset + g.size ≤ cur.length := by omega
    refine ⟨_, by rw [paddingStep_window hc hs htmp hg hf, if_pos hfit], ?_⟩
    rw [length_spliceAt (by rw [length_slice (by omega)]; omega), hcur]

/-- `add_padding` succeeds, with a slice of the current size, when no field
shrank. -/
theorem addPadding_ok {c s : DeviceStateDesc} (hc : c.WellFormed) (hs : s.WellFormed)
    (hkeep : NoShrink c s) {tmp : List UInt8} (htmp : tmp.length = s.size) :
    ∃ out, c.addPadding s tmp = .ok out ∧ out.length = c.size := by
  obtain ⟨out, hout, hlen⟩ := foldlM_ok_of_step (fun (_ : List FieldDesc) (out : List UInt8) => out.length = c.size)
    c.fields
    (fun done x rest b hl hb => paddingStep_ok hc hs hkeep htmp hb
      (hl ▸ List.mem_append_right done List.mem_cons_self))
    (List.length_replicate (n := c.size) (a := (0 : UInt8)))
  exact ⟨out, hout, hlen⟩

/-! ## What `add_padding` leaves in each byte -/

/-- The byte a field of the current layout should hold at `i`: the
snapshot's byte at the same distance into its field of the same alias; zero
past that field's end, or when the snapshot has no such field. -/
def fieldByte (s : DeviceStateDesc) (data : List UInt8) (f : FieldDesc) (i : Nat) : UInt8 :=
  match s.fields.find? (fun x => f.alias == x.alias) with
  | none => 0
  | some g => if i - f.offset < g.size then data.getD (g.offset + (i - f.offset)) 0 else 0

/-- Byte `i` of a layout of fields `fs` filled from the snapshot: from the
field that holds it, zero outside every field. -/
def layoutByte (fs : List FieldDesc) (s : DeviceStateDesc) (data : List UInt8) (i : Nat) : UInt8 :=
  match fs.find? (fun f => f.holds i) with
  | none => 0
  | some f => fieldByte s data f i

section Layout

variable {s : DeviceStateDesc} {data : List UInt8} {done : List FieldDesc} {x : FieldDesc}
  {i : Nat}

/-- A field added after the fields that hold nothing at `i`, and holding `i`
itself, decides the byte. -/
theorem layoutByte_append_of_holds (hdone : ∀ d ∈ done, d.holds i = false)
    (hx : x.holds i = true) : layoutByte (done ++ [x]) s data i = fieldByte s data x i := by
  have hnone : done.find? (fun f => f.holds i) = none :=
    List.find?_eq_none.2 fun d hd => by rw [hdone d hd]; decide
  unfold layoutByte
  rw [List.find?_append, hnone, Option.none_or, List.find?_cons_of_pos (p := fun (f : FieldDesc) => f.holds i) hx]

/-- A field added that does not hold `i` leaves the byte. -/
theorem layoutByte_append_of_not_holds (hx : x.holds i = false) :
    layoutByte (done ++ [x]) s data i = layoutByte done s data i := by
  have hx' : [x].find? (fun f => f.holds i) = none :=
    List.find?_eq_none.2 fun d hd => by rw [List.mem_singleton.1 hd, hx]; decide
  unfold layoutByte
  rw [List.find?_append, hx', Option.or_none]

/-- Where no field holds `i`, the layout's byte is zero. -/
theorem layoutByte_of_forall (hdone : ∀ d ∈ done, d.holds i = false) :
    layoutByte done s data i = 0 := by
  have hnone : done.find? (fun f => f.holds i) = none :=
    List.find?_eq_none.2 fun d hd => by rw [hdone d hd]; decide
  unfold layoutByte
  rw [hnone]

end Layout

/-- With distinct aliases, a field is the first of its alias. -/
theorem find?_alias_of_nodup {fs done rest : List FieldDesc} {x : FieldDesc}
    (hnodup : (fs.map FieldDesc.alias).Nodup) (hl : done ++ x :: rest = fs) :
    fs.find? (fun y => x.alias == y.alias) = some x := by
  subst hl
  rw [List.map_append, List.nodup_append] at hnodup
  have hnone : done.find? (fun y => x.alias == y.alias) = none :=
    List.find?_eq_none.2 fun d hd hda => by
      have hne := hnodup.2.2 d.alias (List.mem_map_of_mem hd) x.alias List.mem_cons_self
      exact hne (beq_iff_eq.1 hda).symm
  rw [List.find?_append, hnone, Option.none_or,
    List.find?_cons_of_pos (p := fun (y : FieldDesc) => x.alias == y.alias)
      (beq_self_eq_true _)]

/-- The state of `add_padding` after the fields `done`: the current size, and
each byte as the layout of `done` has it. -/
def PaddedAs (c s : DeviceStateDesc) (data : List UInt8) (done : List FieldDesc)
    (out : List UInt8) : Prop :=
  out.length = c.size ∧ ∀ i < c.size, out[i]? = some (layoutByte done s data i)

/-- **Step.** With distinct aliases and no field shrunk, the copy of one more
field fills exactly that field's bytes. -/
theorem paddingStep_padded {c s : DeviceStateDesc} (hc : c.WellFormed) (hs : s.WellFormed)
    (hkeep : NoShrink c s) (hnodup : (c.fields.map FieldDesc.alias).Nodup)
    {tmp : List UInt8} (htmp : tmp.length = s.size) {done rest : List FieldDesc}
    {x : FieldDesc} (hl : done ++ x :: rest = c.fields) {cur : List UInt8}
    (hcur : PaddedAs c s tmp done cur) :
    ∃ out, c.paddingStep s tmp cur x = .ok out ∧ PaddedAs c s tmp (done ++ [x]) out := by
  obtain ⟨hlen, hbytes⟩ := hcur
  have hxmem : x ∈ c.fields := hl ▸ List.mem_append_right done List.mem_cons_self
  -- the fields before `x` hold none of its bytes
  have hprior : ∀ i, x.holds i = true → ∀ d ∈ done, d.holds i = false := by
    have hpair := hc.disjoint
    rw [← hl, List.pairwise_append] at hpair
    intro i hxi d hd
    cases hdi : d.holds i
    · rfl
    · exact absurd (hpair.2.2 d hd x List.mem_cons_self |>.not_holds hdi hxi) id
  cases hg : s.fields.find? (fun y => x.alias == y.alias) with
  | none =>
    refine ⟨cur, paddingStep_of_absent hg, hlen, fun i hi => ?_⟩
    rw [hbytes i hi]
    cases hxi : x.holds i
    · rw [layoutByte_append_of_not_holds hxi]
    · rw [layoutByte_append_of_holds (hprior i hxi) hxi, layoutByte_of_forall (hprior i hxi),
        fieldByte, hg]
  | some g =>
    have hgmem := List.mem_of_find?_eq_some hg
    have hsize : g.size ≤ x.size :=
      hkeep x hxmem g hgmem (by simpa using List.find?_some hg)
    have hxle := hc.fields_le x hxmem
    have hgle := hs.fields_le g hgmem
    have hslice : (slice tmp g.offset (g.offset + g.size)).length = g.size := by
      rw [length_slice (by omega), Nat.add_sub_cancel_left]
    have hfits : x.offset + (slice tmp g.offset (g.offset + g.size)).length ≤ cur.length := by
      omega
    refine ⟨_, by rw [paddingStep_window hc hs htmp hg (find?_alias_of_nodup hnodup hl),
      if_pos (by omega)], by rw [length_spliceAt hfits, hlen], fun i hi => ?_⟩
    rw [getElem?_spliceAt hfits, hslice]
    by_cases hw : x.offset ≤ i ∧ i < x.offset + g.size
    · -- inside the copied window: the snapshot's byte
      have hxi : x.holds i = true := by
        simp only [FieldDesc.holds, decide_eq_true_eq]
        omega
      have hj : g.offset + (i - x.offset) < tmp.length := by omega
      rw [if_pos hw, getElem?_slice, if_pos (by omega), layoutByte_append_of_holds (hprior i hxi) hxi,
        fieldByte, hg]
      dsimp only
      rw [if_pos (by omega), List.getD_eq_getElem?_getD, List.getElem?_eq_getElem hj,
        Option.getD_some]
    · rw [if_neg hw, hbytes i hi]
      cases hxi : x.holds i
      · rw [layoutByte_append_of_not_holds hxi]
      · -- past the snapshot's field, inside `x`: still zero
        rw [layoutByte_append_of_holds (hprior i hxi) hxi, layoutByte_of_forall (hprior i hxi),
          fieldByte, hg]
        simp only [FieldDesc.holds, decide_eq_true_eq] at hxi
        dsimp only
        rw [if_neg (by omega)]

/-- **Run.** With distinct aliases and no field shrunk, `add_padding`
succeeds, and each byte of its result is the byte the current layout should
hold: the snapshot's bytes of the same field, zero-extended, and zero outside
every field. -/
theorem addPadding_bytes {c s : DeviceStateDesc} (hc : c.WellFormed) (hs : s.WellFormed)
    (hkeep : NoShrink c s) (hnodup : (c.fields.map FieldDesc.alias).Nodup)
    {tmp : List UInt8} (htmp : tmp.length = s.size) :
    ∃ out, c.addPadding s tmp = .ok out ∧ out.length = c.size ∧
      ∀ i < c.size, out[i]? = some (layoutByte c.fields s tmp i) := by
  have hinit : PaddedAs c s tmp [] (List.replicate c.size 0) := by
    refine ⟨List.length_replicate, fun i hi => ?_⟩
    rw [List.getElem?_replicate, if_pos hi]
    rfl
  obtain ⟨out, hout, hlen, hbytes⟩ := foldlM_ok_of_step (PaddedAs c s tmp) c.fields
    (fun _ _ _ _ hl hb => paddingStep_padded hc hs hkeep hnodup htmp hl hb) hinit
  exact ⟨out, hout, hlen, hbytes⟩

/-! ## What `check_vm_state` accepts -/

/-- `check_version` says `Mismatch` exactly when the snapshot is newer. -/
theorem checkVersion_eq_mismatch (c s : DeviceStateDesc) :
    c.checkVersion s = .mismatch ↔ c.currentVersion < s.currentVersion := by
  unfold DeviceStateDesc.checkVersion
  rw [← Nat.compare_eq_lt]
  cases compare c.currentVersion s.currentVersion <;> simp

/-- **Acceptance.** For well-formed descriptors where no field shrank and a
stream that holds the snapshot's state, `check_vm_state` accepts exactly when
the snapshot's version is at most the current one. The current descriptor's
`compat_version` plays no part. -/
theorem checkVmState_accepts_iff {inst : Instance} {snapDescDb : Nat → Option DeviceStateDesc}
    {descDb : String → Option DeviceStateDesc} {stream : List UInt8}
    {snapDesc currentDesc : DeviceStateDesc}
    (hsnap : snapDescDb inst.object = some snapDesc) (hcur : descDb snapDesc.name = some currentDesc)
    (hstream : snapDesc.size ≤ stream.length) (hswf : snapDesc.WellFormed)
    (hcwf : currentDesc.WellFormed) (hkeep : NoShrink currentDesc snapDesc) :
    (∃ out, checkVmState inst snapDescDb descDb stream = .ok out) ↔
      snapDesc.currentVersion ≤ currentDesc.currentVersion := by
  have hdata : (stream.take snapDesc.size).length = snapDesc.size := by
    rw [List.length_take]
    omega
  simp only [checkVmState, hsnap, hcur, Nat.not_lt.2 hstream, if_false]
  constructor
  · -- an accepted state did not come from a newer version
    rintro ⟨out, hout⟩
    refine Nat.not_lt.1 fun hlt => ?_
    rw [(checkVersion_eq_mismatch currentDesc snapDesc).2 hlt] at hout
    cases hout
  · intro hle
    have hne : currentDesc.checkVersion snapDesc ≠ .mismatch :=
      fun h => absurd ((checkVersion_eq_mismatch _ _).1 h) (Nat.not_lt.2 hle)
    cases hv : currentDesc.checkVersion snapDesc with
    | same => exact ⟨_, rfl⟩
    | compat =>
      obtain ⟨out, hout, -⟩ := addPadding_ok hcwf hswf hkeep hdata
      exact ⟨(out, inst.name), by rw [hout]⟩
    | mismatch => exact absurd hv hne

/-- The current layout of a one-field device at version 3 that can be restored
from version 2 on, and a snapshot of it at version 1 with a narrower field. -/
def compatCurrent : DeviceStateDesc :=
  { name := "dev", «alias» := 1, size := 4, currentVersion := 3, compatVersion := 2,
    fields := [⟨"a", 0, 4⟩] }

/-- The snapshot of `compatCurrent`'s device at version 1. -/
def compatSnapshot : DeviceStateDesc :=
  { name := "dev", «alias» := 1, size := 2, currentVersion := 1, compatVersion := 1,
    fields := [⟨"a", 0, 2⟩] }

theorem checkVmState_accepts_below_compat :
    (fun _ => some compatSnapshot : Nat → Option DeviceStateDesc) (Instance.object ⟨0, 0⟩) =
        some compatSnapshot ∧
      (fun _ => some compatCurrent : String → Option DeviceStateDesc) compatSnapshot.name =
        some compatCurrent ∧
      compatSnapshot.size ≤ [7, 9].length ∧ compatSnapshot.WellFormed ∧ compatCurrent.WellFormed ∧
      NoShrink compatCurrent compatSnapshot ∧
      (∃ out, checkVmState ⟨0, 0⟩ (fun _ => some compatSnapshot) (fun _ => some compatCurrent)
        [7, 9] = .ok out) ∧
      ¬ compatCurrent.compatVersion ≤ compatSnapshot.currentVersion := by
  have hswf : compatSnapshot.WellFormed :=
    ⟨by simp [compatSnapshot], List.pairwise_singleton _ _⟩
  have hcwf : compatCurrent.WellFormed :=
    ⟨by simp [compatCurrent], List.pairwise_singleton _ _⟩
  have hkeep : NoShrink compatCurrent compatSnapshot := by
    simp [NoShrink, compatCurrent, compatSnapshot]
  exact ⟨rfl, rfl, by decide, hswf, hcwf, hkeep,
    (checkVmState_accepts_iff rfl rfl (by decide) hswf hcwf hkeep).2 (by decide), by decide⟩

end StratoVirt.Migration
