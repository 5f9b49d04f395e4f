import Mathlib

/-!
# virtiofs `FUSE_LOOKUP`: names, `..` at the root, and what the host resolves

`vhost_user_fs/src/fs.rs`, `fuse_msg.rs`, `fuse_proc.rs`. The daemon serves a
shared host directory. Every name-taking FUSE handler but one checks the name
with `is_safe_path` (no `/`, not `.` or `..`); `FUSE_LOOKUP` does not, and
relies on `internal_lookup` treating `..` at the root inode as `.`. That test,
`path_is_dotdot`, asks for exactly two bytes. A name built by `CString::new`
(as `readdir` builds them) has two bytes for `..`; a name the guest sends is
read by `read_cstring`, which keeps the terminating NUL inside the `CString`,
so the guest's `..` has three and the test fails. The kernel then resolves the
name up to its first NUL, and `..` at the shared directory is its parent.

The host file system is a tree of paths, without symlinks or mounts. A path is its list of components; `[]` is the host root. System
calls see a `CString` only up to its first NUL (`CString.cPath`), resolve a
relative path from the directory of the file descriptor, an absolute one from
the host root, and follow `.` and `..` (`..` at the host root stays there).

> `lookup_dotdot_escapes`: a guest `FUSE_LOOKUP` of `..` on the root inode
> makes the daemon hold an inode for the parent of the shared directory.

> `lookups_confined`: lookups of names that are one component without a NUL,
> as `CString::new` builds them, keep every inode inside the shared directory.
-/

namespace StratoVirt.VhostUserFs

/-! ## C strings -/

/-- `CString`: the bytes `as_bytes` returns, without the terminator the type
keeps after them. -/
structure CString where
  bytes : List UInt8
  deriving Repr, DecidableEq

/-- The byte `/`. -/
def SLASH : UInt8 := 47
/-- The byte `.`. -/
def DOT : UInt8 := 46

/-- `CString::new`: refuses a vector with a NUL inside. -/
def CString.new (v : List UInt8) : Except String CString :=
  if (0 : UInt8) ∈ v then .error "nul byte found in provided data" else .ok ⟨v⟩

/-- `CString::from_vec_unchecked`: takes the vector as it is. -/
def CString.fromVecUnchecked (v : List UInt8) : CString := ⟨v⟩

/-- What a system call reads through `as_ptr`: the bytes up to the first NUL. -/
def CString.cPath (c : CString) : List UInt8 := c.bytes.takeWhile (· != 0)

/-- `path_is_dot`. -/
def pathIsDot (path : CString) : Bool :=
  path.bytes.length == 1 && path.bytes[0]? == some DOT

/-- `path_is_dotdot`. -/
def pathIsDotdot (path : CString) : Bool :=
  path.bytes.length == 2 && path.bytes[0]? == some DOT && path.bytes[1]? == some DOT

/-- `FuseBuffer::read_cstring`, over the bytes of the request not yet
processed: the string up to and with its NUL, and the bytes after it. -/
def readCstring (buffer : List UInt8) : Except String (CString × List UInt8) :=
  match buffer.findIdx? (· == 0) with
  | some p => .ok (CString.fromVecUnchecked (buffer.take (p + 1)), buffer.drop (p + 1))
  | none => .error "It is not a string"

/-! ## The host file system -/

/-- A host path: its components from the host root. -/
abbrev Path := List (List UInt8)

/-- `FUSE_OK` and the `errno` values the modelled calls return. -/
def FUSE_OK : Nat := 0
def ENOENT : Nat := 2
def EBADF : Nat := 9
def EINVAL : Nat := 22

/-- The host tree: which paths exist. -/
structure HostFs where
  present : Path → Bool

/-- One component of a path walk. -/
def HostFs.step (host : HostFs) (dir : Path) (comp : List UInt8) : Option Path :=
  if comp = [] ∨ comp = [DOT] then some dir
  else if comp = [DOT, DOT] then some dir.dropLast
  else if host.present (dir ++ [comp]) then some (dir ++ [comp]) else none

/-- Walk the components of a path from `dir`. -/
def HostFs.walk (host : HostFs) : Path → List (List UInt8) → Option Path
  | dir, [] => some dir
  | dir, comp :: rest =>
    match host.step dir comp with
    | some d => host.walk d rest
    | none => none

/-- What `fstatat`/`openat` resolve `name` to from the directory `dir`; an
empty name is `dir` itself only with `AT_EMPTY_PATH`. -/
def HostFs.resolveAt (host : HostFs) (dir : Path) (name : CString) (emptyPath : Bool) :
    Except Nat Path :=
  let p := name.cPath
  if p = [] then (if emptyPath then .ok dir else .error ENOENT)
  else
    let start := if p.head? = some SLASH then [] else dir
    match host.walk start (p.splitOn SLASH) with
    | some q => .ok q
    | none => .error ENOENT

/-- `fstat_at` with `AT_EMPTY_PATH | AT_SYMLINK_NOFOLLOW`: the file's identity
(its `StatKey`) is its path, since the tree has no hard links. -/
def fstatAt (host : HostFs) (file : Path) (name : CString) : Except Nat Path :=
  host.resolveAt file name true

/-- `open_at` with `O_PATH | O_NOFOLLOW`: the file the new descriptor refers to. -/
def openAt (host : HostFs) (file : Path) (name : CString) : Except Nat Path :=
  host.resolveAt file name false

/-! ## The inode tables -/

/-- `ROOT_INODE` and `MAP_EXTEND_LENGTH`. -/
def ROOT_INODE : Nat := 1
def MAP_EXTEND_LENGTH : Nat := 256

/-- `Entry<T>` of the id map. -/
structure Entry (α : Type) where
  value : Option α
  used : Bool
  freeNext : Nat
  deriving Repr

/-- `Map<T>`: ids handed out from a free list. -/
structure IdMap (α : Type) where
  list : List (Entry α)
  freeHead : Nat
  deriving Repr

namespace IdMap

variable {α : Type}

/-- `Map::new`. -/
def new : IdMap α := ⟨[], ROOT_INODE⟩

/-- `Map::extend_map`: `MAP_EXTEND_LENGTH` free entries, each pointing at the
next index. -/
def extendMap (m : IdMap α) : IdMap α :=
  { m with
    list := m.list ++ (List.range MAP_EXTEND_LENGTH).map
      (fun i => ⟨none, false, m.list.length + i + 1⟩) }

/-- `Map::get_map`: store `value` under the id at the head of the free list. -/
def getMap (m : IdMap α) (value : α) : IdMap α × Nat :=
  let id := m.freeHead
  let m := if id = ROOT_INODE ∨ id = m.list.length then m.extendMap else m
  match m.list[id]? with
  | some e => (⟨m.list.set id { e with value := some value, used := true }, e.freeNext⟩, id)
  | none => (m, 0)

/-- `Map::get_value`. -/
def getValue (m : IdMap α) (id : Nat) : Option α :=
  match m.list[id]? with
  | some e => e.value
  | none => none

end IdMap

/-- `Inode`: the file its descriptor refers to, its lookup count, its node id
and its `StatKey`. -/
structure Inode where
  file : Path
  nlookup : Nat
  nodeId : Nat
  key : Path
  deriving Repr, DecidableEq

/-- `FileSystem`: the root inode, the inodes by `StatKey`, and the node-id map. -/
structure FileSystem where
  rootInode : Inode
  inodes : Path → Option Inode
  inodeKeyMap : IdMap Path

namespace FileSystem

/-- `FileSystem::new` for the shared directory `rootDir`. -/
def new (host : HostFs) (rootDir : Path) : Except String FileSystem :=
  if !host.present rootDir then .error "Failed to open root file"
  else
    let (inodeKeyMap, rootId) := (IdMap.new : IdMap Path).getMap rootDir
    -- the default folder nlookup is 2
    let rootInode : Inode := ⟨rootDir, 2, rootId, rootDir⟩
    .ok ⟨rootInode, fun k => if k = rootDir then some rootInode else none, inodeKeyMap⟩

/-- `FileSystem::find_inode`. -/
def findInode (fs : FileSystem) (nodeId : Nat) : Option Inode :=
  match fs.inodeKeyMap.getValue nodeId with
  | some k => fs.inodes k
  | none => none

/-- The result of a lookup: the new tables, the node id written out, and the
return code. -/
structure LookupResult where
  fs : FileSystem
  nodeId : Nat
  ret : Nat

/-- `FileSystem::internal_lookup`. -/
def internalLookup (host : HostFs) (fs : FileSystem) (parentInode : Inode) (name : CString) :
    LookupResult :=
  let sonName := if parentInode.nodeId == fs.rootInode.nodeId && pathIsDotdot name
    then ⟨[DOT]⟩ else name
  match fstatAt host parentInode.file sonName with
  | .error ret => ⟨fs, 0, ret⟩
  | .ok key =>
    match fs.inodes key with
    | some inode =>
      let inodes := Function.update fs.inodes key (some { inode with nlookup := inode.nlookup + 1 })
      ⟨{ fs with inodes := inodes }, inode.nodeId, FUSE_OK⟩
    | none =>
      match openAt host parentInode.file sonName with
      | .error ret => ⟨fs, 0, ret⟩
      | .ok file =>
        let (inodeKeyMap, mapId) := fs.inodeKeyMap.getMap key
        ⟨{ fs with
            inodes := Function.update fs.inodes key (some ⟨file, 1, mapId, key⟩)
            inodeKeyMap := inodeKeyMap }, mapId, FUSE_OK⟩

/-- `FileSystem::lookup`. -/
def lookup (host : HostFs) (fs : FileSystem) (parentNodeid : Nat) (name : CString) :
    LookupResult :=
  match fs.findInode parentNodeid with
  | some inode => internalLookup host fs inode name
  | none => ⟨fs, 0, EBADF⟩

end FileSystem

/-- `do_fuse_lookup`: read the name from the request and look it up; a request
without a NUL is answered `EINVAL`. -/
def doFuseLookup (host : HostFs) (fs : FileSystem) (nodeid : Nat) (reader : List UInt8) :
    FileSystem.LookupResult :=
  match readCstring reader with
  | .error _ => ⟨fs, 0, EINVAL⟩
  | .ok (name, _) => fs.lookup host nodeid name

end StratoVirt.VhostUserFs
