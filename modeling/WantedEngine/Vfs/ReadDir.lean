import WantedEngine.Foundation.Packing
import WantedEngine.Vfs.Router
import WantedEngine.Vfs.TarIndex
/-!
# Listing directories

The directory listings behind `fd_readdir`: `VfsFlatDirReadDir` for the drivers with a fixed list
of nodes, `DevFs_ReadDir` of `/dev`, the directories of the registry and of the wapps, the
directories above a mount (`mountChildren`), those of the TarFS (`readDirLocked`) and the root,
which lists the TarFS and then the mounts. Each packs entries into the guest's buffer up to the
first that does not fit, and reports the bytes it wrote.

A buffer is described by the entries in it, in order. `fd_readdir` hands the guest the bytes used
but not the position the listing stopped at: the guest resumes at the `d_next` of an entry.
-/
namespace WantedEngine.Vfs

open Foundation

/-- `vfs_filetype_t`. -/
inductive Filetype where
  | unknown | blockDevice | characterDevice | directory | regularFile | socketDgram
  | socketStream | symbolicLink
  deriving DecidableEq

/-- `vfs_dirent_t` with the name behind it. -/
structure Dirent where
  /-- `d_next`, the cookie of the entry after this one. -/
  next : Nat
  ino : Nat
  type : Filetype
  /-- The name; `d_namlen` is its length. -/
  name : Bytes
  deriving DecidableEq

/-- `sizeof(vfs_dirent_t)`. -/
def direntSize : Nat := 24

/-- What a listing leaves: the entries in the buffer, the position it stopped at, and the bytes
used. -/
structure Listed where
  /-- The entries, in the order of the buffer. -/
  dirents : List Dirent
  cookie : Nat
  used : Nat
  deriving DecidableEq

def Listed.cons (dirent : Dirent) (rest : Listed) : Listed :=
  { rest with dirents := dirent :: rest.dirents }

/-- `vfs_dir_entry_t`: a node of a directory. -/
structure DirEntry where
  name : Bytes
  type : Filetype
  deriving DecidableEq

/-! ### Directories that are lists -/

/-- The loop of the listings over a plain list, from an index on: an entry that fits is written,
the first that does not fit ends the call. What stands in `d_next` is a function of the index
and of the bytes used with the entry. -/
def packFrom (nextOf : Nat → Nat → Nat) (bufLen : Nat) : Nat → Nat → List DirEntry → Listed
  | index, used, [] => ⟨[], index, used⟩
  | index, used, entry :: rest =>
    let after := used + direntSize + entry.name.length
    if bufLen < after then ⟨[], index, used⟩
    else (packFrom nextOf bufLen (index + 1) after rest).cons
      ⟨nextOf index after, index, entry.type, entry.name⟩

/-- `VfsFlatDirReadDir`: here `d_next` is the place in the buffer behind the entry. -/
def vfsFlatDirReadDir (entries : List DirEntry) (cookie bufLen : Nat) : Listed :=
  packFrom (fun _ after => after) bufLen cookie 0 (entries.drop cookie)

/-- A listing whose `d_next` is the next index, from an index on. -/
def indexedReadDir (entries : List DirEntry) (index bufLen : Nat) : Listed :=
  packFrom (fun index _ => index + 1) bufLen index 0 (entries.drop index)

/-- `DevFs_ReadDir` of the root: the cookie is cut to eight bits. -/
def devFsReadDir (entries : List DirEntry) (cookie bufLen : Nat) : Listed :=
  indexedReadDir entries (cookie % 2 ^ 8) bufLen

/-- The nodes of the root of the registry (`ROOT_NAMES`). -/
def registryRootNames : List DirEntry :=
  [⟨ascii "blobs", .regularFile⟩, ⟨ascii "capacity", .regularFile⟩,
    ⟨ascii "images", .regularFile⟩]

/-- `readRootDir` of the registry, on a machine whose `size_t` has some bits. -/
def readRootDir (sizeBits cookie bufLen : Nat) : Listed :=
  indexedReadDir registryRootNames (cookie % 2 ^ sizeBits) bufLen

/-- `readBlobsDir`: the visible blobs by the hexadecimal form of their digests. -/
def readBlobsDir (sizeBits : Nat) (digests : List Bytes) (cookie bufLen : Nat) : Listed :=
  indexedReadDir (digests.map (⟨·, .regularFile⟩)) (cookie % 2 ^ sizeBits) bufLen

/-- The listing of the images: each entry as `<name>:<version>`. -/
def readImagesDir (sizeBits : Nat) (images : List (Bytes × Bytes)) (cookie bufLen : Nat) : Listed :=
  indexedReadDir (images.map fun image => ⟨image.1 ++ ascii ":" ++ image.2, .regularFile⟩)
    (cookie % 2 ^ sizeBits) bufLen

/-- The listing of the wapps: those that run, and those created that do not run yet. -/
def readWappsDir (running created : List Bytes) (cookie bufLen : Nat) : Listed :=
  indexedReadDir ((running ++ created.filter (· ∉ running)).map (⟨·, .directory⟩)) cookie bufLen

/-- The nodes of a wapp (`LEAVES`). -/
def wappLeaves : List DirEntry :=
  [⟨ascii "ctl", .characterDevice⟩, ⟨ascii "state", .characterDevice⟩,
    ⟨ascii "config", .characterDevice⟩]

def readWappDir (cookie bufLen : Nat) : Listed := indexedReadDir wappLeaves cookie bufLen

/-! ### Directories above mounts -/

/-- What a mount adds to the directory at a path: the next component of its mount path, and
whether it is the last. -/
def mountChild (base : Bytes) (mount : Mount) : Option (Bytes × Bool) :=
  match base.isPrefixOf mount.mountPath, mount.mountPath.drop base.length with
  | true, 47 :: name =>
    if name = [] then none
    else some (name.takeWhile (· ≠ slash), slash ∉ name)
  | _, _ => none

/-- A mount whose component an earlier mount adds already. -/
def mountRepeats (mounts : List Mount) (base : Bytes) (index : Nat) (name : Bytes) : Bool :=
  (mounts.take index).any fun other => (mountChild base other).any (·.1 = name)

/-- The type of a mount's component: the driver's for the mount itself, a directory for a
namespace of the engine and for a component on the way. -/
def mountChildType (filetypeOf : Nat → Filetype) (mount : Mount) (last : Bool) : Filetype :=
  match last, mount.type with
  | true, .driver key => filetypeOf key
  | _, _ => .directory

/-- The loop of `mountChildren` from an index on. -/
def mountChildrenFrom (filetypeOf : Nat → Filetype) (mounts : List Mount) (base : Bytes)
    (space cookieBit : Nat) : Nat → Nat → List Mount → Listed
  | index, used, [] => ⟨[], index, used⟩
  | index, used, mount :: rest =>
    match mountChild base mount with
    | none => mountChildrenFrom filetypeOf mounts base space cookieBit (index + 1) used rest
    | some (name, last) =>
      if mountRepeats mounts base index name then
        mountChildrenFrom filetypeOf mounts base space cookieBit (index + 1) used rest
      else if space < used + direntSize + name.length then ⟨[], index, used⟩
      else (mountChildrenFrom filetypeOf mounts base space cookieBit (index + 1)
          (used + direntSize + name.length) rest).cons
        ⟨cookieBit + (index + 1), 0x10000 + index, mountChildType filetypeOf mount last, name⟩

/-- `mountChildren`: the mounts immediately below a path, each component once. -/
def mountChildren (filetypeOf : Nat → Filetype) (mounts : List Mount) (base : Bytes)
    (space index cookieBit : Nat) : Listed :=
  mountChildrenFrom filetypeOf mounts base space cookieBit index 0 (mounts.drop index)

/-! ### Directories of the TarFS -/

/-- Whether an entry lies in the directory that another entry's suffix starts with. -/
def inSubdir (directory name : Bytes) (entry : TarEntry) : Bool :=
  directory.isPrefixOf entry.path ∧
    (name ++ [slash]).isPrefixOf (entry.path.drop directory.length)

/-- The loop of `readDirLocked` from a place of the index on. Each turn moves on in the index,
so its length is fuel enough. -/
def readDirFrom (index : List TarEntry) (directory : Bytes) (bufLen : Nat) : Nat → Nat → Nat → Listed
  | 0, pos, used => ⟨[], pos, used⟩
  | fuel + 1, pos, used =>
    match index[pos]? with
    | none => ⟨[], pos, used⟩
    | some entry =>
      if ¬ directory.isPrefixOf entry.path then ⟨[], pos, used⟩
      else
        let suffix := entry.path.drop directory.length
        let name := suffix.takeWhile (· ≠ slash)
        let after := used + direntSize + name.length
        if suffix = [] then readDirFrom index directory bufLen fuel (pos + 1) used
        else if slash ∉ suffix then
          if entry.isMarker then readDirFrom index directory bufLen fuel (pos + 1) used
          else if bufLen < after then ⟨[], pos, used⟩
          else (readDirFrom index directory bufLen fuel (pos + 1) after).cons
            ⟨pos + 1, pos, .regularFile, name⟩
        else if bufLen < after then ⟨[], pos, used⟩
        else
          -- the entries of one subdirectory stand together
          let siblings := (index.drop (pos + 1)).takeWhile (inSubdir directory name)
          let next := pos + 1 + siblings.length
          if (entry :: siblings).all (·.isMarker) then
            readDirFrom index directory bufLen fuel next used
          else (readDirFrom index directory bufLen fuel next after).cons
            ⟨next, pos, .directory, name⟩

/-- `readDirLocked` of a directory whose path with a trailing slash is given, empty for the
root. -/
def readDirLocked (index : List TarEntry) (directory : Bytes) (cookie bufLen : Nat) : Rc Listed :=
  if cookie = 0 then
    .ok (readDirFrom index directory bufLen (index.length + 1) (lowerBound index directory) 0)
  else if index.length < cookie then .error .einval
  else .ok (readDirFrom index directory bufLen (index.length + 1) (cookie % 2 ^ 16) 0)

/-! ### Every directory -/

def mountPhaseBit : Nat := 2 ^ 63

/-- `VfsReadDir` of the root: the TarFS, and in what it leaves of the buffer the mounts. -/
def readRoot (filetypeOf : Nat → Filetype) (index : List TarEntry) (mounts : List Mount)
    (cookie bufLen : Nat) : Rc Listed :=
  let mountPhase (before : Listed) (start : Nat) : Listed :=
    let children :=
      mountChildren filetypeOf mounts [] (bufLen - before.used) start mountPhaseBit
    ⟨before.dirents ++ children.dirents, mountPhaseBit + children.cookie,
      before.used + children.used⟩
  if mountPhaseBit ≤ cookie then .ok (mountPhase ⟨[], cookie, 0⟩ (cookie % mountPhaseBit))
  else
    match readDirLocked index [] cookie bufLen with
    | .error e => .error e
    | .ok listed =>
      if listed.used = bufLen then .ok listed
      else .ok (mountPhase listed 0)

/-- A directory that a descriptor can be open on, with what its listing depends on. -/
inductive Directory where
  /-- A driver's directory with a fixed list of nodes, `/net` and the directories of `/proc`. -/
  | flat (entries : List DirEntry)
  | dev (entries : List DirEntry)
  | registryRoot
  | registryBlobs (digests : List Bytes)
  | registryImages (images : List (Bytes × Bytes))
  | wapps (running created : List Bytes)
  | wapp
  /-- A path above a mount. -/
  | mountDir (filetypeOf : Nat → Filetype) (mounts : List Mount) (base : Bytes)
  /-- A directory of the TarFS below its root, by its path with a trailing slash. -/
  | tar (index : List TarEntry) (directory : Bytes)
  | root (filetypeOf : Nat → Filetype) (index : List TarEntry) (mounts : List Mount)

/-- `wasi_fd_readdir` over `VfsReadDir`, on a machine whose `size_t` has some bits: the entries
in the guest's buffer and `bufused`. -/
def wasiFdReaddir (sizeBits : Nat) (directory : Directory) (cookie bufLen : Nat) :
    Rc (List Dirent × Nat) :=
  let listed : Rc Listed :=
    match directory with
    | .flat entries => .ok (vfsFlatDirReadDir entries cookie bufLen)
    | .dev entries => .ok (devFsReadDir entries cookie bufLen)
    | .registryRoot => .ok (readRootDir sizeBits cookie bufLen)
    | .registryBlobs digests => .ok (readBlobsDir sizeBits digests cookie bufLen)
    | .registryImages images => .ok (readImagesDir sizeBits images cookie bufLen)
    | .wapps running created => .ok (readWappsDir running created cookie bufLen)
    | .wapp => .ok (readWappDir cookie bufLen)
    | .mountDir filetypeOf mounts base =>
      .ok (mountChildren filetypeOf mounts base bufLen cookie 0)
    | .tar index path => readDirLocked index path cookie bufLen
    | .root filetypeOf index mounts => readRoot filetypeOf index mounts cookie bufLen
  listed.map fun listed => (listed.dirents, listed.used)

end WantedEngine.Vfs
