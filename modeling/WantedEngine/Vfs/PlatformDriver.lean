import WantedEngine.Errno
import WantedEngine.Foundation.PathWalk
/-!
# The platform file drivers

The path operations of the drivers behind a platform preopen: `vfs-linux.c` and `vfs-nuttx.c`,
which pass a relative path on to the host's `*at()` calls (`platform/posix/fs.c`), and
`vfs-esp-idf.c`, which joins it onto the path recorded for the descriptor and calls the host
with the result. An operation yields its result and the host calls it issued, in order; which
objects a host call acts on follows from the directory tree alone (`HostCall.objects`).

Resolving a path depends on the host's directories (`HostTree`), the outcome of a call on its
answers (`Answers`). `cwk_path_join` is code outside the repository and a field of the former;
the law it is used under is `HostTree.JoinResolves`.
-/
namespace WantedEngine.Vfs

open Foundation

/-- `vfs_oflags_t`. -/
abbrev Oflags := BitVec 32

def vfsOWronly : Oflags := 0o1
def vfsORdwr : Oflags := 0o2
def vfsOCreat : Oflags := 0o100
def vfsOExcl : Oflags := 0o200
def vfsOTrunc : Oflags := 0o1000
def vfsOAppend : Oflags := 0o2000
def vfsONonblock : Oflags := 0o4000
def vfsODsync : Oflags := 0o10000
def vfsODirectory : Oflags := 0o200000
/-- `VFS_O_SYNC`, which is also `VFS_O_RSYNC`. -/
def vfsOSync : Oflags := 0o4010000

/-- `VFS_O_IS_WRITE`: the flags request some form of write access. -/
def vfsOIsWrite (flags : Oflags) : Bool :=
  flags &&& (vfsOWronly ||| vfsORdwr ||| vfsOCreat ||| vfsOTrunc ||| vfsOAppend) ≠ 0

/-- `vfs_whence_t`. -/
inductive Whence where
  | set | cur | end_
  deriving DecidableEq

/-- The byte `/`. -/
def slash : UInt8 := 47

/-- The move one component of a path stands for. -/
def componentMove (component : Bytes) : Move Bytes :=
  if component = [] ∨ component = ascii "." then .stay
  else if component = ascii ".." then .up
  else .down component

def moves (path : Bytes) : List (Move Bytes) := (path.splitOn slash).map componentMove

def isAbsolute (path : Bytes) : Bool := path.head? = some slash

def hostLocation (path : Bytes) : List Bytes := Move.walk [] (moves path)

inductive HostCall where
  /-- `openat2` with `RESOLVE_BENEATH`. -/
  | openat2 (fd : Int) (path : Bytes) (flags : Oflags)
  | openat (fd : Int) (path : Bytes) (flags : Oflags)
  | renameat (oldFd : Int) (oldPath : Bytes) (newFd : Int) (newPath : Bytes)
  | mkdirat (fd : Int) (path : Bytes)
  /-- `unlinkat`, with `AT_REMOVEDIR` when `removeDir` is set. -/
  | unlinkat (fd : Int) (path : Bytes) (removeDir : Bool)
  | open_ (path : Bytes) (flags : Oflags)
  | mkdir (path : Bytes)
  | stat (path : Bytes)
  | rename (oldPath newPath : Bytes)
  | rmdir (path : Bytes)
  | unlink (path : Bytes)
  deriving DecidableEq

/-- The host's directories and paths, as far as resolving a path depends on them. -/
structure HostTree where
  /-- The directory a descriptor stands for, by its absolute path: the kernel's record of it on
  Linux and NuttX, the entry of `g_open` on ESP-IDF. -/
  dirs : Int → Option Bytes
  /-- `cwk_path_join`, before it is cut to the caller's buffer. -/
  join : Bytes → Bytes → Bytes
  /-- `CONFIG_WANTED_MAX_PATH_LEN`. -/
  maxPathLen : Nat

structure Answers where
  answer : HostCall → Rc Int
  /-- `S_ISDIR` of what `stat` reports for a path. -/
  isDir : Bytes → Bool
  /-- `recordOpenLocked`: the descriptor recorded, or `-EMFILE` for a full table. -/
  recorded : Rc Int

/-- The join of a path onto an absolute one names what a walk along the path reaches from
there, `..` taken as the parent. -/
def HostTree.JoinResolves (tree : HostTree) : Prop :=
  ∀ base path, hostLocation (tree.join base path) = Move.walk (hostLocation base) (moves path)

/-- The location of the directory a descriptor stands for. -/
def HostTree.dirLocation (tree : HostTree) (fd : Int) : Option (List Bytes) :=
  (tree.dirs fd).map hostLocation

/-- Where a plain `*at()` call resolves a path; an absolute path ignores the descriptor. -/
def HostTree.resolveAt (tree : HostTree) (fd : Int) (path : Bytes) : Option (List Bytes) :=
  if isAbsolute path then some (hostLocation path)
  else (tree.dirLocation fd).map fun dir => Move.walk dir (moves path)

/-- Where `openat2` with `RESOLVE_BENEATH` resolves a path: nowhere when the path is absolute
or leaves the descriptor's directory on the way. -/
def HostTree.resolveBeneath (tree : HostTree) (fd : Int) (path : Bytes) : Option (List Bytes) :=
  if isAbsolute path ∨ (Move.climb (moves path)).1 ≠ 0 then none
  else (tree.dirLocation fd).map fun dir => Move.walk dir (moves path)

/-- The objects a host call opens, creates, renames or removes when it succeeds. -/
def HostCall.objects (tree : HostTree) : HostCall → List (List Bytes)
  | openat2 fd path _ => (tree.resolveBeneath fd path).toList
  | openat fd path _ => (tree.resolveAt fd path).toList
  | renameat oldFd oldPath newFd newPath =>
    (tree.resolveAt oldFd oldPath).toList ++ (tree.resolveAt newFd newPath).toList
  | mkdirat fd path => (tree.resolveAt fd path).toList
  | unlinkat fd path _ => (tree.resolveAt fd path).toList
  | open_ path _ => [hostLocation path]
  | mkdir path => [hostLocation path]
  | stat path => [hostLocation path]
  | rename oldPath newPath => [hostLocation oldPath, hostLocation newPath]
  | rmdir path => [hostLocation path]
  | unlink path => [hostLocation path]

/-- The result of an operation and the host calls it issued, in order. -/
structure Effect where
  /-- The result: a negative error number or a non-negative value. -/
  result : Rc Int
  calls : List HostCall

/-- An operation that fails before any host call. -/
def Effect.refuse (e : Errno) : Effect := ⟨.error e, []⟩

def Effect.issue (answers : Answers) (call : HostCall) : Effect := ⟨answers.answer call, [call]⟩

/-- The objects that the successful ones of some host calls acted on. -/
def actedOn (tree : HostTree) (answers : Answers) (calls : List HostCall) : List (List Bytes) :=
  (calls.filter fun call => succeeded (answers.answer call)).flatMap (HostCall.objects tree)

inductive Platform where
  | linux | nuttx | espIdf
  deriving DecidableEq

/-- A driver that `VfsPlatformFsInit` made. -/
structure PlatformDriver where
  /-- The driver's address, by which two drivers are told apart. -/
  key : Nat
  platform : Platform
  /-- The host directory the driver was made for. -/
  rootPath : Bytes
  readonly : Bool
  deriving DecidableEq

/-- `joinFromFd`: the path joined onto the one recorded for a descriptor. -/
def joinFromFd (tree : HostTree) (fd : Int) (path : Bytes) : Rc Bytes :=
  match tree.dirs fd with
  | none => .error .ebadf
  | some base =>
    if tree.maxPathLen ≤ (tree.join base path).length then .error .enametoolong
    else .ok (tree.join base path)

/-- The end of `espOpen` of a directory: `stat` it and record it. -/
def espOpenDir (answers : Answers) (path : Bytes) (made : List HostCall) : Effect :=
  match answers.answer (.stat path) with
  | .error e => ⟨.error e, made ++ [.stat path]⟩
  | .ok _ =>
    if ¬ answers.isDir path then ⟨.error .enotdir, made ++ [.stat path]⟩
    else ⟨answers.recorded, made ++ [.stat path]⟩

/-- `espOpen`: open an absolute host path and record it. -/
def espOpen (answers : Answers) (path : Bytes) (flags : Oflags) : Effect :=
  if flags &&& vfsODirectory ≠ 0 then
    if flags &&& vfsOCreat ≠ 0 then
      match answers.answer (.mkdir path) with
      | .ok _ => espOpenDir answers path [.mkdir path]
      | .error e =>
        if e = .eexist then espOpenDir answers path [.mkdir path]
        else ⟨.error e, [.mkdir path]⟩
    else espOpenDir answers path []
  else
    match answers.answer (.open_ path flags) with
    | .error e => ⟨.error e, [.open_ path flags]⟩
    | .ok _ => ⟨answers.recorded, [.open_ path flags]⟩

/-- An operation of the ESP-IDF driver on a joined path. -/
def withJoined (tree : HostTree) (fd : Int) (path : Bytes) (operation : Bytes → Effect) : Effect :=
  match joinFromFd tree fd path with
  | .error e => .refuse e
  | .ok joined => operation joined

namespace PlatformDriver

variable (d : PlatformDriver) (tree : HostTree) (answers : Answers)

/-- `_OpenAt` of the three drivers. -/
def openAt (fd : Int) (path : Bytes) (flags : Oflags) : Effect :=
  if d.readonly ∧ vfsOIsWrite flags then .refuse .erofs
  else
    match d.platform with
    | .linux => .issue answers (.openat2 fd path flags)
    | .nuttx => .issue answers (.openat fd path flags)
    | .espIdf => withJoined tree fd path fun joined => espOpen answers joined flags

/-- An operation that changes one directory entry: refused on a read-only grant, otherwise an
`*at()` call on Linux and NuttX and a call on the joined path on ESP-IDF. -/
def mutateAt (fd : Int) (path : Bytes) (atCall : HostCall) (absoluteCall : Bytes → HostCall) : Effect :=
  if d.readonly then .refuse .erofs
  else
    match d.platform with
    | .linux | .nuttx => .issue answers atCall
    | .espIdf => withJoined tree fd path fun joined => .issue answers (absoluteCall joined)

/-- `_Mkdir` over `PlatformFsMkdir`. -/
def mkdir (fd : Int) (path : Bytes) : Effect :=
  d.mutateAt tree answers fd path (.mkdirat fd path) .mkdir

/-- `_Rmdir` over `PlatformFsRmdir`. -/
def rmdir (fd : Int) (path : Bytes) : Effect :=
  d.mutateAt tree answers fd path (.unlinkat fd path true) .rmdir

/-- `_Unlink` over `PlatformFsUnlink`. -/
def unlink (fd : Int) (path : Bytes) : Effect :=
  d.mutateAt tree answers fd path (.unlinkat fd path false) .unlink

/-- `_Rename` over `PlatformFsRename`. -/
def rename (oldFd : Int) (oldPath : Bytes) (newFd : Int) (newPath : Bytes) : Effect :=
  if d.readonly then .refuse .erofs
  else
    match d.platform with
    | .linux | .nuttx => .issue answers (.renameat oldFd oldPath newFd newPath)
    | .espIdf =>
      withJoined tree oldFd oldPath fun oldJoined =>
        withJoined tree newFd newPath fun newJoined => .issue answers (.rename oldJoined newJoined)

end PlatformDriver

end WantedEngine.Vfs
