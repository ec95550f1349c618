import Mathlib.Algebra.Group.Int.Defs
import WantedEngine.Vfs.Router
import WantedEngine.Wasi.Memory
/-!
# The guest's path calls

The path operations of `src/vfs/vfs.c` and the WASI calls over them in
`src/wasi/wasi-vfs.c`. A relative path on a platform descriptor goes to the driver as it is,
every other path goes through the router.
-/
namespace WantedEngine.Vfs

open Wasi

variable (tree : HostTree) (answers : Answers) (env : Subsystems)

/-- The path stored for a descriptor that a platform parent opened. -/
def childPath (parent path : Bytes) : Bytes :=
  if parent.length + 1 + path.length < vfsFdPathLen then parent ++ [slash] ++ path else []

/-- `VfsOpenAt`: the result with the host calls, and the table after it. When no slot is free
the driver's descriptor is closed again, which names no path. -/
def vfsOpenAt (c : VfsCtx) (fd : Int) (path : Bytes) (flags : Oflags) : Effect × VfsCtx :=
  let routed :=
    match vfsResolvePath env c fd path with
    | .error e => (Effect.refuse e, c)
    | .ok normal =>
      let (result, after) := routeOpen env c normal flags
      (⟨result, []⟩, after)
  if path = [] then (.refuse .einval, c)
  else
    match c.slot fd with
    | .platform driver drvFd _ parent =>
      if isAbsolute path then routed
      else
        let opened := driver.openAt tree answers drvFd path flags
        match opened.result with
        | .error _ => (opened, c)
        | .ok hostFd =>
          let (result, after) :=
            claimSlot c (.platform driver hostFd flags (childPath parent path))
          (⟨result, opened.calls⟩, after)
    | _ => routed

/-- A change of one path: the driver's on a platform descriptor with a relative path, the
router's otherwise. -/
def vfsChange (c : VfsCtx) (fd : Int) (path : Bytes)
    (operation : PlatformDriver → Int → Bytes → Effect) (op : RoutedOp) : Effect :=
  match c.slot fd with
  | .closed => .refuse .ebadf
  | .platform driver drvFd _ _ =>
    if isAbsolute path then ⟨routeChange env c fd path op, []⟩ else operation driver drvFd path
  | _ => ⟨routeChange env c fd path op, []⟩

def vfsUnlink (c : VfsCtx) (fd : Int) (path : Bytes) : Effect :=
  vfsChange env c fd path (fun driver => driver.unlink tree answers) .unlink

def vfsMkdir (c : VfsCtx) (fd : Int) (path : Bytes) : Effect :=
  vfsChange env c fd path (fun driver => driver.mkdir tree answers) .mkdir

def vfsRmdir (c : VfsCtx) (fd : Int) (path : Bytes) : Effect :=
  vfsChange env c fd path (fun driver => driver.rmdir tree answers) .rmdir

/-- `VfsRename`: the driver's when both descriptors are platform descriptors and both paths
relative, and then only within one driver; the router's otherwise. -/
def vfsRename (c : VfsCtx) (oldFd : Int) (oldPath : Bytes) (newFd : Int) (newPath : Bytes) : Effect :=
  if ¬ checkFd c oldFd ∨ ¬ checkFd c newFd then .refuse .ebadf
  else
    match c.slot oldFd, c.slot newFd with
    | .platform oldDriver oldDrvFd _ _, .platform newDriver newDrvFd _ _ =>
      if isAbsolute oldPath ∨ isAbsolute newPath then
        ⟨routeRename env c oldFd oldPath newFd newPath, []⟩
      else if oldDriver ≠ newDriver then .refuse .exdev
      else oldDriver.rename tree answers oldDrvFd oldPath newDrvFd newPath
    | _, _ => ⟨routeRename env c oldFd oldPath newFd newPath, []⟩

/-- `wasi_preopen_t`, as far as `path_open` reads it. -/
structure Preopen where
  fd : Int
  /-- The rights a descriptor opened beneath it may have. -/
  rightsInheriting : BitVec 64

/-- `wasi_ctx_t`, as far as the path calls use it. -/
structure WasiCtx where
  vfs : VfsCtx
  preopens : List Preopen

def wasiCtxFindPreopen (ctx : WasiCtx) (fd : Int) : Option Preopen :=
  ctx.preopens.find? (·.fd = fd)

/-- `WasiRightsWithin`: no right is requested that is not inherited. -/
def wasiRightsWithin (inheriting requested : BitVec 64) : Bool := requested &&& ~~~inheriting = 0

def guestBytes (m : Memory) (addr count : Nat) : Bytes :=
  (List.range count).map fun i => m.byte (addr + i)

/-- The path of a call as the guest names it: an offset and a length. -/
structure GuestPath where
  /-- The offset in guest memory. -/
  app : BitVec 32
  /-- The length, a signed number in the source. -/
  len : BitVec 32

def GuestPath.lengthValid (path : GuestPath) : Bool :=
  0 ≤ path.len.toInt ∧ path.len.toInt < 512

/-- The range is empty or lies in guest memory. -/
def GuestPath.rangeValid (m : Memory) (path : GuestPath) : Bool :=
  (vaddr m path.app path.len).isSome ∨ path.len.toInt ≤ 0

/-- `host_path`: the path as the C string the calls pass on. -/
def GuestPath.hostPath (m : Memory) (path : GuestPath) : Bytes :=
  cString (guestBytes m path.app.toNat path.len.toNat)

/-- The arguments of `path_open` beyond the descriptor and the path. -/
structure OpenArgs where
  oflags : BitVec 32
  /-- The rights requested for the descriptor. -/
  rightsBase : BitVec 64
  fsFlags : BitVec 32
  /-- Where the new descriptor is stored. -/
  fdApp : BitVec 32

/-- A virtual file system flag for a bit of a WASI word. -/
def flagFor (word : BitVec 32) (bit : Nat) (flag : Oflags) : Oflags :=
  if word.getLsbD bit then flag else 0

/-- The open flags `path_open` passes on. -/
def OpenArgs.flags (args : OpenArgs) : Oflags :=
  flagFor args.oflags 0 vfsOCreat ||| flagFor args.oflags 1 vfsODirectory |||
  flagFor args.oflags 2 vfsOExcl ||| flagFor args.oflags 3 vfsOTrunc |||
  flagFor args.fsFlags 0 vfsOAppend ||| flagFor args.fsFlags 1 vfsODsync |||
  flagFor args.fsFlags 2 vfsONonblock ||| flagFor args.fsFlags 3 vfsOSync |||
  flagFor args.fsFlags 4 vfsOSync |||
  -- read and write, write alone, or read, whose flag is zero
  (if args.rightsBase.getLsbD 1 ∧ args.rightsBase.getLsbD 6 then vfsORdwr
    else if args.rightsBase.getLsbD 6 then vfsOWronly else 0)

structure PathOutcome where
  result : Except WasiError Unit
  calls : List HostCall
  ctx : WasiCtx
  memory : Memory

/-- A call that fails before it reaches the virtual file system. -/
def PathOutcome.refuse (error : WasiError) (ctx : WasiCtx) (m : Memory) : PathOutcome :=
  ⟨.error error, [], ctx, m⟩

/-- The outcome of a call that is one operation of the virtual file system. -/
def PathOutcome.ofEffect (effect : Effect) (ctx : WasiCtx) (m : Memory) : PathOutcome :=
  match effect.result with
  | .error e => ⟨.error (.vfs e), effect.calls, ctx, m⟩
  | .ok _ => ⟨.ok (), effect.calls, ctx, m⟩

/-- Whether `path_open` requests more than the preopen's descriptor may pass on. -/
def exceedsRights (ctx : WasiCtx) (dirfd : Int) (args : OpenArgs) : Bool :=
  match wasiCtxFindPreopen ctx dirfd with
  | some parent => ¬ wasiRightsWithin parent.rightsInheriting args.rightsBase
  | none => false

/-- The path `path_open` opens: the directory itself for an empty one. -/
def openPath (m : Memory) (path : GuestPath) : Bytes :=
  if path.len = 0 then ascii "." else path.hostPath m

def wasiPathOpen (ctx : WasiCtx) (m : Memory) (dirfd : Int) (path : GuestPath)
    (args : OpenArgs) : PathOutcome :=
  if ¬ path.lengthValid then .refuse .inval ctx m
  else if exceedsRights ctx dirfd args then .refuse .notcapable ctx m
  else if ¬ path.rangeValid m then .refuse .fault ctx m
  else
    match vaddr m args.fdApp 4 with
    | none => .refuse .fault ctx m
    | some fdOut =>
      let (effect, after) := vfsOpenAt tree answers env ctx.vfs dirfd (openPath m path) args.flags
      match effect.result with
      | .error e => ⟨.error (.vfs e), effect.calls, { ctx with vfs := after }, m⟩
      | .ok fd =>
        ⟨.ok (), effect.calls, { ctx with vfs := after },
          m.write fdOut (littleEndian 4 (fd % 2 ^ 32).toNat)⟩

/-- The checks of a call with one path, and the operation after them. -/
def onePath (ctx : WasiCtx) (m : Memory) (path : GuestPath) (operation : Bytes → Effect) :
    PathOutcome :=
  if ¬ path.lengthValid then .refuse .inval ctx m
  else if ¬ path.rangeValid m then .refuse .fault ctx m
  else .ofEffect (operation (path.hostPath m)) ctx m

def wasiPathUnlinkFile (ctx : WasiCtx) (m : Memory) (fd : Int) (path : GuestPath) : PathOutcome :=
  onePath ctx m path fun hostPath => vfsUnlink tree answers env ctx.vfs fd hostPath

def wasiPathCreateDirectory (ctx : WasiCtx) (m : Memory) (fd : Int) (path : GuestPath) : PathOutcome :=
  onePath ctx m path fun hostPath => vfsMkdir tree answers env ctx.vfs fd hostPath

def wasiPathRemoveDirectory (ctx : WasiCtx) (m : Memory) (fd : Int) (path : GuestPath) : PathOutcome :=
  onePath ctx m path fun hostPath => vfsRmdir tree answers env ctx.vfs fd hostPath

def wasiPathRename (ctx : WasiCtx) (m : Memory) (oldFd : Int) (oldPath : GuestPath)
    (newFd : Int) (newPath : GuestPath) : PathOutcome :=
  if ¬ oldPath.lengthValid ∨ ¬ newPath.lengthValid then .refuse .inval ctx m
  else if ¬ oldPath.rangeValid m ∨ ¬ newPath.rangeValid m then .refuse .fault ctx m
  else
    .ofEffect (vfsRename tree answers env ctx.vfs oldFd (oldPath.hostPath m) newFd
      (newPath.hostPath m)) ctx m

end WantedEngine.Vfs
