import Mathlib
import StratoVirt.VhostUserFs.Lookup

/-!
# Which lookups stay inside the shared directory

`FUSE_LOOKUP` resolves the guest's name relative to the parent inode's
descriptor. For a name that is one path component without a NUL — what
`CString::new` produces, and what `readdir` hands to the same root test — the
only way out of the shared directory is `..` at its root, and `internal_lookup`
turns that into `.`. `Confined` says that every inode the daemon holds is
inside the shared directory and that the inode at the shared directory carries
the root's node id; each lookup keeps it (`internalLookup_confined`), so every
run of such lookups does (`lookups_confined`).

A name read from the guest is not of that form: `read_cstring` keeps the NUL,
so `..` does not pass `path_is_dotdot`, and `lookup_dotdot_escapes` shows the
daemon open the parent of the shared directory. Names with `/` (`../x`, or an
absolute `/x`) leave the same way, since nothing on the lookup path checks
them.
-/

namespace StratoVirt.VhostUserFs

open FileSystem

/-! ## The escape -/

/-- The host has `/srv` (bytes `115 114 118`), shared. The guest looks up `..`
on the root inode, sent as `..` and its NUL: the lookup succeeds, and the
daemon now holds an inode, with node id 2, for the host root `/`. -/
theorem lookup_dotdot_escapes :
    (match FileSystem.new ⟨fun p => p ∈ [[], [[115, 114, 118]]]⟩ [[115, 114, 118]] with
      | .ok fs =>
        let r := doFuseLookup ⟨fun p => p ∈ [[], [[115, 114, 118]]]⟩ fs ROOT_INODE [DOT, DOT, 0]
        (r.ret, r.fs.inodes [])
      | .error _ => (EINVAL, none)) =
      (FUSE_OK, some ⟨[], 1, 2, []⟩) := by
  decide +kernel

/-! ## Names of one component -/

/-- A name of one path component, as `CString::new` builds it: no NUL and no
`/`. -/
def SingleComponent (name : CString) : Prop :=
  (0 : UInt8) ∉ name.bytes ∧ SLASH ∉ name.bytes

theorem cPath_of_single {name : CString} (h : SingleComponent name) : name.cPath = name.bytes := by
  unfold CString.cPath
  rw [List.takeWhile_eq_self_iff]
  intro x hx
  have : x ≠ 0 := fun hx0 => h.1 (hx0 ▸ hx)
  simpa using this

/-- `path_is_dotdot` holds of exactly the two bytes `..`, with nothing after. -/
theorem pathIsDotdot_iff (name : CString) : pathIsDotdot name = true ↔ name.bytes = [DOT, DOT] := by
  unfold pathIsDotdot
  rcases name with ⟨_ | ⟨a, _ | ⟨b, _ | ⟨c, l⟩⟩⟩⟩ <;> simp

/-- The parent of a path strictly below `shared` is still at or below it. -/
theorem prefix_dropLast {shared d : Path} (h : shared <+: d) (hne : d ≠ shared) :
    shared <+: d.dropLast := by
  obtain ⟨t, rfl⟩ := h
  -- `d` is `shared ++ t`, and `t` is not empty: drop its last component
  cases t using List.reverseRecOn with
  | nil => exact absurd (List.append_nil _) hne
  | append_singleton t c _ =>
    rw [← List.append_assoc, List.dropLast_concat]
    exact List.prefix_append _ _

/-- One step of a walk from a directory inside `shared` stays inside, unless
it is `..` at `shared` itself. -/
theorem step_inside {host : HostFs} {shared d q : Path} {comp : List UInt8} (hd : shared <+: d)
    (hdot : d = shared → comp ≠ [DOT, DOT]) (h : host.step d comp = some q) : shared <+: q := by
  unfold HostFs.step at h
  by_cases h1 : comp = [] ∨ comp = [DOT]
  · rw [if_pos h1, Option.some.injEq] at h
    rw [← h]
    exact hd
  · rw [if_neg h1] at h
    by_cases h2 : comp = [DOT, DOT]
    · -- `..`: the parent of a directory strictly inside `shared`
      rw [if_pos h2, Option.some.injEq] at h
      rw [← h]
      exact prefix_dropLast hd (fun hds => hdot hds h2)
    · rw [if_neg h2] at h
      by_cases h3 : host.present (d ++ [comp]) = true
      · rw [if_pos h3, Option.some.injEq] at h
        rw [← h]
        exact hd.trans (List.prefix_append _ _)
      · rw [if_neg h3] at h
        cases h

/-- An empty name is the directory itself, with `AT_EMPTY_PATH`. -/
theorem resolveAt_empty {host : HostFs} {d : Path} {name : CString} {emptyPath : Bool}
    (hname : SingleComponent name) (he : name.bytes = []) :
    host.resolveAt d name emptyPath = if emptyPath then .ok d else .error ENOENT := by
  dsimp only [HostFs.resolveAt]
  rw [cPath_of_single hname, if_pos he]

/-- A name of one component is one step of the walk from the directory. -/
theorem resolveAt_single {host : HostFs} {d : Path} {name : CString} {emptyPath : Bool}
    (hname : SingleComponent name) (hne : name.bytes ≠ []) :
    host.resolveAt d name emptyPath =
      match host.step d name.bytes with
      | some q => .ok q
      | none => .error ENOENT := by
  have hhead : ¬ name.bytes.head? = some SLASH := fun hh =>
    hname.2 (List.mem_of_mem_head? hh)
  dsimp only [HostFs.resolveAt]
  rw [cPath_of_single hname, if_neg hne, if_neg hhead, List.splitOn_eq_singleton hname.2]
  simp only [HostFs.walk]
  cases host.step d name.bytes <;> rfl

/-- **One component resolves inside.** From a directory inside `shared`, a
name of one component resolves inside `shared`, unless it is `..` at `shared`
itself. -/
theorem resolveAt_inside {host : HostFs} {shared d q : Path} {name : CString} {emptyPath : Bool}
    (hname : SingleComponent name) (hd : shared <+: d)
    (hdot : d = shared → name.bytes ≠ [DOT, DOT])
    (h : host.resolveAt d name emptyPath = .ok q) : shared <+: q := by
  by_cases he : name.bytes = []
  · -- the empty name is the directory itself
    rw [resolveAt_empty hname he] at h
    split at h
    · cases h
      exact hd
    · cases h
  · rw [resolveAt_single hname he] at h
    split at h
    · rename_i q' hstep
      cases h
      exact step_inside hd hdot hstep
    · cases h

/-- With a non-empty name, `AT_EMPTY_PATH` makes no difference. -/
theorem resolveAt_emptyPath {host : HostFs} {d : Path} {name : CString}
    (hne : name.cPath ≠ []) : host.resolveAt d name true = host.resolveAt d name false := by
  dsimp only [HostFs.resolveAt]
  rw [if_neg hne, if_neg hne]

/-- `open_at` opens the file `fstat_at` found. -/
theorem openAt_eq_fstatAt {host : HostFs} {d : Path} {name : CString} {key file : Path}
    (hstat : fstatAt host d name = .ok key) (hopen : openAt host d name = .ok file) :
    file = key := by
  have hne : name.cPath ≠ [] := by
    intro he
    dsimp only [openAt, HostFs.resolveAt] at hopen
    simp [he] at hopen
  rw [fstatAt, resolveAt_emptyPath hne] at hstat
  rw [openAt, hstat, Except.ok.injEq] at hopen
  exact hopen.symm

/-! ## The invariant -/

/-- Every inode the daemon holds is inside `shared`, under the key of its own
file; the one at `shared` carries the root's node id. -/
structure Confined (shared : Path) (fs : FileSystem) : Prop where
  root_held : ∃ ino, fs.inodes shared = some ino
  root_id : ∀ ino, fs.inodes shared = some ino → ino.nodeId = fs.rootInode.nodeId
  inside : ∀ k ino, fs.inodes k = some ino → shared <+: ino.file
  file_key : ∀ k ino, fs.inodes k = some ino → ino.file = k

/-- `FileSystem::new` holds the root inode alone, at the shared directory. -/
theorem new_inodes {host : HostFs} {shared : Path} {fs : FileSystem}
    (h : FileSystem.new host shared = .ok fs) :
    fs.rootInode.file = shared ∧ ∀ k, fs.inodes k = if k = shared then some fs.rootInode else none := by
  unfold FileSystem.new at h
  split at h
  · cases h
  · cases h
    exact ⟨rfl, fun _ => rfl⟩

theorem confined_new {host : HostFs} {shared : Path} {fs : FileSystem}
    (h : FileSystem.new host shared = .ok fs) : Confined shared fs := by
  obtain ⟨hfile, hinodes⟩ := new_inodes h
  -- the only inode is the root, at `shared`
  have hroot : ∀ k ino, fs.inodes k = some ino → k = shared ∧ ino = fs.rootInode := by
    intro k ino hino
    by_cases hk : k = shared
    · rw [hinodes, if_pos hk, Option.some.injEq] at hino
      exact ⟨hk, hino.symm⟩
    · rw [hinodes, if_neg hk] at hino
      cases hino
  refine ⟨⟨_, by rw [hinodes, if_pos rfl]⟩, fun ino hino => ?_, fun k ino hino => ?_,
    fun k ino hino => ?_⟩
  · rw [(hroot shared ino hino).2]
  · rw [(hroot k ino hino).2, hfile]
  · obtain ⟨hk, rfl⟩ := hroot k ino hino
    rw [hfile, hk]

/-- Holding one more inode inside `shared`, under the key of its own file, keeps
the daemon confined; at `shared` it must carry the root's node id. -/
theorem confined_update {shared key : Path} {fs : FileSystem} {ino : Inode}
    (hfs : Confined shared fs) (hin : shared <+: key) (hfile : ino.file = key)
    (hroot : key = shared → ino.nodeId = fs.rootInode.nodeId) (m : IdMap Path) :
    Confined shared { fs with inodes := Function.update fs.inodes key (some ino), inodeKeyMap := m } := by
  refine ⟨?_, fun ino' hino => ?_, fun k' ino' hino => ?_, fun k' ino' hino => ?_⟩
  · by_cases hks : shared = key
    · exact ⟨ino, by simp [hks]⟩
    · obtain ⟨ino', hino'⟩ := hfs.root_held
      exact ⟨ino', by simp [Function.update_of_ne hks, hino']⟩
  · dsimp only at hino
    by_cases hks : shared = key
    · subst hks
      rw [Function.update_self, Option.some_inj] at hino
      rw [← hino]
      exact hroot rfl
    · rw [Function.update_of_ne hks] at hino
      exact hfs.root_id ino' hino
  · dsimp only at hino
    by_cases hk : k' = key
    · subst hk
      rw [Function.update_self, Option.some_inj] at hino
      rw [← hino, hfile]
      exact hin
    · rw [Function.update_of_ne hk] at hino
      exact hfs.inside k' ino' hino
  · dsimp only at hino
    by_cases hk : k' = key
    · subst hk
      rw [Function.update_self, Option.some_inj] at hino
      rw [← hino, hfile]
    · rw [Function.update_of_ne hk] at hino
      exact hfs.file_key k' ino' hino

theorem findInode_held {fs : FileSystem} {nodeId : Nat} {ino : Inode}
    (h : fs.findInode nodeId = some ino) : ∃ k, fs.inodes k = some ino := by
  unfold FileSystem.findInode at h
  split at h
  · exact ⟨_, h⟩
  · cases h

/-- **A lookup keeps the daemon confined**, for a parent inode it holds and a
name of one component. -/
theorem internalLookup_confined {host : HostFs} {shared : Path} {fs : FileSystem}
    {parent : Inode} {k : Path} {name : CString} (hfs : Confined shared fs)
    (hparent : fs.inodes k = some parent) (hname : SingleComponent name) :
    Confined shared (internalLookup host fs parent name).fs := by
  -- the name actually resolved: `.` for `..` at the root
  have hson : SingleComponent (if parent.nodeId == fs.rootInode.nodeId && pathIsDotdot name
      then ⟨[DOT]⟩ else name) := by
    split
    · exact ⟨by decide, by decide⟩
    · exact hname
  have hdot : parent.file = shared → (if parent.nodeId == fs.rootInode.nodeId &&
      pathIsDotdot name then (⟨[DOT]⟩ : CString) else name).bytes ≠ [DOT, DOT] := by
    intro hps
    have hk : k = shared := by rw [← hfs.file_key k parent hparent, hps]
    have hid := hfs.root_id parent (hk ▸ hparent)
    by_cases hdd : pathIsDotdot name = true
    · rw [if_pos (by simp [hid, hdd])]
      decide
    · rw [if_neg (by simp [hdd])]
      exact fun hb => hdd ((pathIsDotdot_iff name).mpr hb)
  have hpin := hfs.inside k parent hparent
  dsimp only [internalLookup]
  generalize (if parent.nodeId == fs.rootInode.nodeId && pathIsDotdot name
    then (⟨[DOT]⟩ : CString) else name) = son at hson hdot ⊢
  split
  · exact hfs
  · rename_i key hstat
    have hkey : shared <+: key := resolveAt_inside hson hpin hdot hstat
    split
    · -- already held: one more lookup of it
      rename_i inode hheld
      have hfile : ({ inode with nlookup := inode.nlookup + 1 } : Inode).file = key :=
        hfs.file_key key inode hheld
      exact confined_update hfs hkey hfile
        (fun hks => hfs.root_id inode (hks ▸ hheld)) fs.inodeKeyMap
    · rename_i hnone
      split
      · exact hfs
      · -- a new inode for `key`, which is not `shared`: that one is held
        rename_i file hopen
        have hks : key ≠ shared := by
          intro hks
          obtain ⟨ino, hino⟩ := hfs.root_held
          rw [← hks, hnone] at hino
          cases hino
        exact confined_update hfs hkey (openAt_eq_fstatAt hstat hopen)
          (fun h => absurd h hks) _

theorem lookup_confined {host : HostFs} {shared : Path} {fs : FileSystem} {nodeId : Nat}
    {name : CString} (hfs : Confined shared fs) (hname : SingleComponent name) :
    Confined shared (fs.lookup host nodeId name).fs := by
  unfold FileSystem.lookup
  split
  · rename_i inode hfind
    obtain ⟨k, hk⟩ := findInode_held hfind
    exact internalLookup_confined hfs hk hname
  · exact hfs

/-- A run of lookups, each on a node id with a name. -/
def lookupRun (host : HostFs) (fs : FileSystem) : List (Nat × CString) → FileSystem
  | [] => fs
  | (nodeId, name) :: reqs => lookupRun host (fs.lookup host nodeId name).fs reqs

/-- **Lookups of single components stay inside the shared directory.** After
`FileSystem::new` for `shared` and any run of lookups whose names are one
component without a NUL, every inode the daemon holds is inside `shared`. -/
theorem lookups_confined (host : HostFs) (shared : Path) (fs : FileSystem)
    (hnew : FileSystem.new host shared = .ok fs) (reqs : List (Nat × CString))
    (hreqs : ∀ r ∈ reqs, SingleComponent r.2) :
    ∀ k ino, (lookupRun host fs reqs).inodes k = some ino → shared <+: ino.file := by
  -- induction on the run, carrying `Confined`
  have hrun : ∀ (reqs : List (Nat × CString)) (fs : FileSystem), Confined shared fs →
      (∀ r ∈ reqs, SingleComponent r.2) → Confined shared (lookupRun host fs reqs) := by
    intro reqs
    induction reqs with
    | nil => intro fs hfs _; exact hfs
    | cons r reqs ih =>
      intro fs hfs hall
      obtain ⟨nodeId, name⟩ := r
      exact ih _ (lookup_confined hfs (hall _ List.mem_cons_self))
        (fun r hr => hall r (List.mem_cons_of_mem _ hr))
  exact (hrun reqs fs (confined_new hnew) hreqs).inside

end StratoVirt.VhostUserFs
