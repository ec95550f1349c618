import WantedEngine.Vfs.PlatformDriver
/-!
# The descriptor table and the mount router

The table of descriptors of one wapp and the router of `src/vfs/vfs.c`: every path that a
platform descriptor does not take directly is normalised (`vfsResolvePath`) and handed to the
subsystem mounted at its longest matching mount path (`routeMatch`, `routeOpen`).

The subsystems behind the router (TarFS, DevFs, NetFs, ProcFs and mounted drivers) answer
through `Subsystems`, as does `cwk_path_normalize`. None of them is a platform preopen's
driver: the mount and device tables hold drivers of their own.
-/
namespace WantedEngine.Vfs

def vfsMaxFds : Nat := 32

/-- `ROOT_FD`, the first descriptor after the standard streams. -/
def rootFd : Nat := 3

def vfsFdPathLen : Nat := 128

/-- What a mount path is backed by. -/
inductive MountType where
  | tarfs | dev | net | proc
  /-- A driver of its own, told apart by its address. -/
  | driver (key : Nat)
  deriving DecidableEq

/-- What an open descriptor that is no platform descriptor refers to. -/
inductive FdType where
  | stream | mountdir
  | mounted (type : MountType)
  deriving DecidableEq

inductive FdSlot where
  /-- `VFS_TYPE_NONE`. -/
  | closed
  /-- `VFS_TYPE_PLATFORM`: a driver with its host descriptor, the open flags and the path. -/
  | platform (driver : PlatformDriver) (drvFd : Int) (flags : Oflags) (path : Bytes)
  /-- Any other type, with its open flags and path. -/
  | other (type : FdType) (flags : Oflags) (path : Bytes)
  deriving DecidableEq

def FdSlot.path : FdSlot → Bytes
  | closed => []
  | platform _ _ _ path => path
  | other _ _ path => path

structure Mount where
  mountPath : Bytes
  type : MountType
  deriving DecidableEq

/-- `struct vfs_ctx_t`, as far as path operations use it. -/
structure VfsCtx where
  fds : List FdSlot
  /-- The mount table, oldest first. -/
  mounts : List Mount
  /-- Whether a TarFS is attached. -/
  tarfs : Bool

/-- A path operation of the router. -/
inductive RoutedOp where
  | open_ (flags : Oflags) | unlink | rename (newSuffix : Bytes) | mkdir | rmdir
  deriving DecidableEq

/-- What the router calls. -/
structure Subsystems where
  /-- `cwk_path_normalize`, before it is cut to the caller's buffer. -/
  normalize : Bytes → Bytes
  /-- The answer of the subsystem a path is routed to, by the path below its mount. -/
  answer : MountType → Bytes → RoutedOp → Rc Int
  /-- Whether the TarFS has an entry for a path. -/
  tarfsHas : Bytes → Bool

/-- The slot of a descriptor; one outside the table is closed. -/
def VfsCtx.slot (c : VfsCtx) (fd : Int) : FdSlot :=
  if 0 ≤ fd then c.fds.getD fd.toNat .closed else .closed

/-- `checkFd`: the descriptor is open. -/
def checkFd (c : VfsCtx) (fd : Int) : Bool := c.slot fd ≠ .closed

/-- `findFirstClosedFd`: the first closed slot after the standard streams. -/
def findFirstClosedFd (c : VfsCtx) : Rc Nat :=
  match (c.fds.drop rootFd).findIdx? (· = .closed) with
  | some index => .ok (rootFd + index)
  | none => .error .emfile

/-- The part of a path that fits a slot. -/
def storedPath (path : Bytes) : Bytes := path.take (vfsFdPathLen - 1)

/-- `vfsResolvePath`: a path made absolute against a descriptor's path, normalised, without
the trailing slash. -/
def vfsResolvePath (env : Subsystems) (c : VfsCtx) (parentFd : Int) (path : Bytes) : Rc Bytes :=
  let finish (source : Bytes) : Rc Bytes :=
    let written := env.normalize source
    if vfsFdPathLen ≤ written.length then .error .enametoolong
    else if 1 < written.length ∧ written.getLast? = some slash then .ok written.dropLast
    else .ok written
  if isAbsolute path then finish path
  else
    match c.slot parentFd with
    | .closed => .error .ebadf
    | parent =>
      let base := parent.path
      if 2 * vfsFdPathLen ≤ base.length + 1 + path.length then .error .enametoolong
      else if base = [] ∨ base.getLast? ≠ some slash then finish (base ++ [slash] ++ path)
      else finish (base ++ path)

/-- Whether a mount path covers a path: the root mount covers every absolute path, any other
mount the paths equal to it or below it. -/
def Mount.covers (mount : Mount) (path : Bytes) : Bool :=
  if mount.mountPath.length = 1 then isAbsolute path
  else mount.mountPath.isPrefixOf path ∧
    ((path.drop mount.mountPath.length).head? = some slash ∨
      path.length = mount.mountPath.length)

/-- The search of `routeMatch`: the first of the longest covering mounts. -/
def longestMatch (path : Bytes) : List Mount → Option Mount → Option Mount
  | [], best => best
  | mount :: rest, best =>
    if mount.covers path ∧ (best.map (·.mountPath.length)).getD 0 < mount.mountPath.length then
      longestMatch path rest (some mount)
    else longestMatch path rest best

/-- `routeMatch`: the subsystem of a path and the path below its mount. -/
def routeMatch (c : VfsCtx) (path : Bytes) : Rc (MountType × Bytes) :=
  match longestMatch path c.mounts none with
  | none => .error .enoent
  | some mount =>
    let suffix := path.drop mount.mountPath.length
    .ok (mount.type, if suffix.head? = some slash then suffix.tail else suffix)

/-- `isMountAncestor`: some mount path lies strictly below the path. -/
def isMountAncestor (c : VfsCtx) (path : Bytes) : Bool :=
  c.mounts.any fun mount =>
    path.isPrefixOf mount.mountPath ∧ (mount.mountPath.drop path.length).head? = some slash ∧
      1 < (mount.mountPath.drop path.length).length

/-- Claim the first closed slot. -/
def claimSlot (c : VfsCtx) (slot : FdSlot) : Rc Int × VfsCtx :=
  match findFirstClosedFd c with
  | .error e => (.error e, c)
  | .ok fd => (.ok fd, { c with fds := c.fds.set fd slot })

/-- `route_open`: open a normalised path through the mount table. -/
def routeOpen (env : Subsystems) (c : VfsCtx) (path : Bytes) (flags : Oflags) : Rc Int × VfsCtx :=
  let mountDir := claimSlot c (.other .mountdir 0 (storedPath path))
  let opened (type : MountType) (suffix : Bytes) :=
    match env.answer type suffix (.open_ flags) with
    | .error e => (.error e, c)
    | .ok _ => claimSlot c (.other (.mounted type) flags (storedPath path))
  match routeMatch c path with
  | .error e => (.error e, c)
  | .ok (.tarfs, _) =>
    let readOnly :=
      flags &&& (vfsOWronly ||| vfsORdwr) = 0 ∧ flags &&& (vfsOCreat ||| vfsOTrunc) = 0
    if ¬ c.tarfs then
      if readOnly ∧ isMountAncestor c path then mountDir else (.error .enoent, c)
    else if ¬ readOnly then (.error .erofs, c)
    else if ¬ env.tarfsHas path ∧ isMountAncestor c path then mountDir
    else if ¬ env.tarfsHas path then (.error .enoent, c)
    else opened .tarfs path
  | .ok (type, suffix) => opened type suffix

/-- What the router answers to a change of a path, by the subsystem it is routed to. -/
def routedChange (env : Subsystems) (type : MountType) (suffix : Bytes) (op : RoutedOp) : Rc Int :=
  match type with
  | .driver _ => env.answer type suffix op
  | .tarfs | .proc => .error .erofs
  | .net => .error .einval
  | .dev => if op = .unlink then env.answer .dev suffix op else .error .enotsup

def routeChange (env : Subsystems) (c : VfsCtx) (fd : Int) (path : Bytes) (op : RoutedOp) : Rc Int := do
  let normal ← vfsResolvePath env c fd path
  let (type, suffix) ← routeMatch c normal
  routedChange env type suffix op

/-- A rename through the router, which stays within one subsystem. -/
def routeRename (env : Subsystems) (c : VfsCtx) (oldFd : Int) (oldPath : Bytes) (newFd : Int)
    (newPath : Bytes) : Rc Int := do
  let oldNormal ← vfsResolvePath env c oldFd oldPath
  let newNormal ← vfsResolvePath env c newFd newPath
  let (oldType, oldSuffix) ← routeMatch c oldNormal
  let (newType, newSuffix) ← routeMatch c newNormal
  if oldType ≠ newType then .error .exdev
  else routedChange env oldType oldSuffix (.rename newSuffix)

end WantedEngine.Vfs
