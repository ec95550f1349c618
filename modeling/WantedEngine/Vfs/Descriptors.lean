import WantedEngine.Foundation.Machine
import WantedEngine.Vfs.PathCalls
import Mathlib.Data.List.Dedup
/-!
# Descriptors, driver handles and mounts

The descriptor table of `src/vfs/vfs.c` with what each slot holds of a driver. An open asks a
driver for a handle and puts it into a slot; a close hands the handle back; `fd_renumber` moves a
slot; `VfsDestroy` closes what is open and destroys the drivers that were handed over. The
drivers' answers come from `Backends` by the number of the call, and every call of a driver that
opens, closes or destroys is logged.

Two handles are told apart by the number of the call that returned them: a driver may return one
number for two opens. A driver is told apart by the order in which the drivers are made, one for
each that is handed over. The drivers have a `Close`; the close of a console stream, whose slot
and driver stay, is not logged.
-/
namespace WantedEngine.Vfs

open Foundation

def vfsMaxMounts : Nat := 8

/-- `VFS_MOUNT_PREFIX_LEN`. -/
def vfsMountPathLen : Nat := 64

structure Handle where
  driver : Nat
  /-- `drv_fd`: the number the driver returned. -/
  drvFd : Int
  /-- The number of the call that returned it. -/
  serial : Nat
  deriving DecidableEq

/-- A call of a driver. -/
inductive DriverEvent where
  /-- `Open` of a path is called. -/
  | asked (driver : Nat) (path : Bytes) (flags : Oflags)
  /-- `Open`, `OpenAt` or `SockAccept` returned a handle. -/
  | opened (handle : Handle)
  /-- A host directory is handed over with its driver. -/
  | bound (handle : Handle)
  /-- The driver belongs to the virtual file system from here on. -/
  | taken (driver : Nat)
  /-- `Close` is called. -/
  | closed (handle : Handle)
  /-- `Destroy` is called. -/
  | destroyed (driver : Nat)
  deriving DecidableEq

/-- What the router calls, with the drivers' answers by the number of the call. -/
structure Backends extends Subsystems where
  /-- The answer of an `Open`, `OpenAt` or `SockAccept`. -/
  opens : Nat → Rc Int
  /-- The answer of a `Close`. -/
  closes : Nat → Rc Int
  /-- Whether the memory for a node's handle is there. -/
  allocates : Nat → Bool
  /-- Whether a driver serves a directory. -/
  directory : Nat → Bool
  /-- `CONFIG_WANTED_MAX_DRIVERS_CNT`. -/
  maxDriversCnt : Nat

structure OpenFd where
  /-- What the router sees of it. -/
  slot : FdSlot
  /-- The handle of the driver behind it. -/
  handle : Option Handle
  /-- The number of the call that opened it. -/
  opened : Nat
  live : slot ≠ .closed
  deriving DecidableEq

/-- The driver of a platform slot. -/
def OpenFd.platformKey (open_ : OpenFd) : Option Nat :=
  match open_.slot with
  | .platform driver _ _ _ => some driver.key
  | _ => none

def keyOf (fd : Option OpenFd) : Option Nat := fd.bind (·.platformKey)

/-- `struct vfs_ctx_t`, with the calls of drivers so far. -/
structure VfsState where
  fds : List (Option OpenFd)
  /-- The mount table, oldest first. -/
  mounts : List Mount
  /-- Whether a TarFS is attached. -/
  tarfs : Bool
  /-- The nodes of `/dev`. -/
  devfs : List (Bytes × Nat)
  /-- The nodes of `/net`. -/
  netfs : List (Bytes × Nat)
  /-- The drivers made so far. -/
  drivers : Nat
  /-- The calls made so far. -/
  calls : Nat
  /-- The calls of drivers, oldest first. -/
  log : List DriverEvent

def vfsInit : VfsState where
  fds := List.replicate vfsMaxFds none
  mounts := [⟨ascii "/", .tarfs⟩, ⟨ascii "/dev", .dev⟩, ⟨ascii "/net", .net⟩,
    ⟨ascii "/proc", .proc⟩]
  tarfs := false
  devfs := []
  netfs := []
  drivers := 0
  calls := 0
  log := []

def VfsState.ctx (v : VfsState) : VfsCtx where
  fds := v.fds.map fun fd => fd.elim .closed (·.slot)
  mounts := v.mounts
  tarfs := v.tarfs

def VfsState.open? (v : VfsState) (fd : Int) : Option OpenFd :=
  if 0 ≤ fd then v.fds.getD fd.toNat none else none

def VfsState.record (v : VfsState) (event : DriverEvent) : VfsState :=
  { v with log := v.log ++ [event] }

def VfsState.tick (v : VfsState) : VfsState := { v with calls := v.calls + 1 }

/-! ### Mounts and drivers -/

/-- `VfsMountDriver`, with `vfsMount`: binds a new driver at a mount path. -/
def vfsMountDriver (v : VfsState) (mountPath : Bytes) : Rc Int × VfsState :=
  let made := { v with drivers := v.drivers + 1 }
  if ¬ isAbsolute mountPath ∨ mountPath.length = 1 then (.error .einval, made)
  else if v.mounts.any (·.mountPath = mountPath) then (.error .eexist, made)
  else if vfsMaxMounts ≤ v.mounts.length then (.error .enospc, made)
  else if vfsMountPathLen ≤ mountPath.length then (.error .enametoolong, made)
  else
    (.ok 0, { made.record (.taken v.drivers) with
      mounts := v.mounts ++ [⟨mountPath, .driver v.drivers⟩] })

/-- `VFS_DEVFS_MAX_ENTRIES`, with the five built-in nodes. -/
def vfsDevfsMaxEntries (env : Backends) : Nat := 5 + env.maxDriversCnt

/-- The checks of `DevFs_Register` and `NetFs_Register`, with the table after them. -/
def registerNode (env : Backends) (nodes : List (Bytes × Nat)) (name : Bytes) (driver : Nat) :
    Rc (List (Bytes × Nat)) :=
  if name = [] then .error .einval
  else if maxEntryNameLen ≤ name.length then .error .enametoolong
  else if vfsDevfsMaxEntries env ≤ nodes.length then .error .enospc
  else if nodes.any (·.1 = name) then .error .eexist
  else .ok (nodes ++ [(name, driver)])

variable (env : Backends) (v : VfsState)

/-- `DevFs_Register` of a new driver. -/
def devFsRegister (name : Bytes) : Rc Int × VfsState :=
  let made := { v with drivers := v.drivers + 1 }
  match registerNode env v.devfs name v.drivers with
  | .error e => (.error e, made)
  | .ok devfs => (.ok 0, { made.record (.taken v.drivers) with devfs })

/-- `NetFs_Register` of a new driver. -/
def netFsRegister (name : Bytes) : Rc Int × VfsState :=
  let made := { v with drivers := v.drivers + 1 }
  match registerNode env v.netfs name v.drivers with
  | .error e => (.error e, made)
  | .ok netfs => (.ok 0, { made.record (.taken v.drivers) with netfs })

/-- `VfsRegister` of a new driver at a console stream, by the number of the stream. A driver for
any other path is destroyed. -/
def vfsRegister (v : VfsState) (stream : Nat) : Rc Int × VfsState :=
  let made := { v with drivers := v.drivers + 1, calls := v.calls + 1 }
  if rootFd ≤ stream then (.error .einval, made.record (.destroyed v.drivers))
  else
    let flags : Oflags := if stream = 0 then 0 else vfsOWronly
    (.ok 0, { made with
      fds := v.fds.set stream (some ⟨.other .stream flags [], none, v.calls, nofun⟩) })

/-! ### Handles and slots -/

def closeHandle (handle : Option Handle) : Rc Int × VfsState :=
  match handle with
  | none => (.ok 0, v)
  | some handle => (env.closes v.calls, (v.record (.closed handle)).tick)

/-- Ask a driver to open: the handle when it returns one. -/
def openHandle (driver : Nat) : Rc Handle × VfsState :=
  match env.opens v.calls with
  | .error e => (.error e, v.tick)
  | .ok drvFd =>
    (.ok ⟨driver, drvFd, v.calls⟩, (v.record (.opened ⟨driver, drvFd, v.calls⟩)).tick)

/-- Put a slot into the first closed place of the table, or hand its handle back. -/
def claim (slot : FdSlot) (live : slot ≠ .closed) (handle : Option Handle) : Rc Int × VfsState :=
  match findFirstClosedFd v.ctx with
  | .error e => (.error e, (closeHandle env v handle).2)
  | .ok fd => (.ok fd, { v.tick with fds := v.fds.set fd (some ⟨slot, handle, v.calls, live⟩) })

/-- Open a node of a driver for a slot. The nodes of `/dev` and `/net` need memory for a handle of
their own. -/
def openNode (driver : Nat) (path : Bytes) (flags : Oflags)
    (needsMemory : Bool) (slot : FdSlot) (live : slot ≠ .closed) : Rc Int × VfsState :=
  match openHandle env (v.record (.asked driver path flags)) driver with
  | (.error e, after) => (.error e, after)
  | (.ok handle, after) =>
    if needsMemory ∧ ¬ env.allocates after.calls then
      (.error .enomem, (closeHandle env after (some handle)).2)
    else claim env after slot live (some handle)

/-- The path a driver is opened at when nothing is left of the path. -/
def rootOf (env : Backends) (driver : Nat) : Bytes :=
  if env.directory driver then ascii "/" else []

/-- `devfsResolve`: the driver of a node, and the path below it when the path goes on. -/
def devfsResolve (nodes : List (Bytes × Nat)) (suffix : Bytes) : Option (Nat × Option Bytes) :=
  match nodes.find? (·.1 = suffix) with
  | some node => some (node.2, none)
  | none =>
    match nodes.find? fun node =>
        node.1 ≠ [] ∧ node.1.isPrefixOf suffix ∧
          (suffix.drop node.1.length).head? = some slash with
    | some node => some (node.2, some (suffix.drop (node.1.length + 1)))
    | none => none

/-- `DevFs_Open` with the slot it gets in `route_open`. -/
def devFsOpen (suffix path : Bytes) (flags : Oflags) : Rc Int × VfsState :=
  let slot := FdSlot.other (.mounted .dev) flags (storedPath path)
  if suffix = [] then
    if env.allocates v.calls then claim env v.tick slot nofun none else (.error .enomem, v.tick)
  else
    match devfsResolve v.devfs suffix with
    | none => (.error .enoent, v)
    | some (driver, below) =>
      openNode env v driver (below.getD (rootOf env driver)) flags true slot nofun

/-- `NetFs_Open` with the slot it gets in `route_open`. -/
def netFsOpen (suffix path : Bytes) (flags : Oflags) : Rc Int × VfsState :=
  let slot := FdSlot.other (.mounted .net) flags (storedPath path)
  if suffix = [] then
    if env.allocates v.calls then claim env v.tick slot nofun none else (.error .enomem, v.tick)
  else
    match v.netfs.find? (·.1 = suffix) with
    | none => (.error .enoent, v)
    | some (_, driver) => openNode env v driver [] flags true slot nofun

/-- `route_open`: open a normalised path through the mount table. -/
def routeOpenFd (path : Bytes) (flags : Oflags) : Rc Int × VfsState :=
  let mountDir := claim env v (.other .mountdir 0 (storedPath path)) nofun none
  match routeMatch v.ctx path with
  | .error e => (.error e, v)
  | .ok (.driver driver, suffix) =>
    openNode env v driver (if suffix = [] then rootOf env driver else suffix) flags false
      (.other (.mounted (.driver driver)) flags (storedPath path)) nofun
  | .ok (.dev, suffix) => devFsOpen env v suffix path flags
  | .ok (.net, suffix) => netFsOpen env v suffix path flags
  | .ok (.proc, suffix) =>
    match env.answer .proc suffix (.open_ flags) with
    | .error e => (.error e, v)
    | .ok _ => claim env v (.other (.mounted .proc) flags (storedPath path)) nofun none
  | .ok (.tarfs, _) =>
    let readOnly :=
      flags &&& (vfsOWronly ||| vfsORdwr) = 0 ∧ flags &&& (vfsOCreat ||| vfsOTrunc) = 0
    if ¬ v.tarfs then
      if readOnly ∧ isMountAncestor v.ctx path then mountDir else (.error .enoent, v)
    else if ¬ readOnly then (.error .erofs, v)
    else if ¬ env.tarfsHas path ∧ isMountAncestor v.ctx path then mountDir
    else if ¬ env.tarfsHas path then (.error .enoent, v)
    else claim env v (.other (.mounted .tarfs) flags (storedPath path)) nofun none

/-! ### The operations -/

/-- The end of `VfsOpen` and `VfsOpenAt`: resolve the path and open it through the mount table. -/
def openThroughMounts (fd : Int) (path : Bytes) (flags : Oflags) : Rc Int × VfsState :=
  match vfsResolvePath env.toSubsystems v.ctx fd path with
  | .error e => (.error e, v)
  | .ok normal => routeOpenFd env v normal flags

def vfsOpen (path : Bytes) (flags : Oflags) : Rc Int × VfsState :=
  if path = [] then (.error .einval, v) else openThroughMounts env v (-1) path flags

/-- `VfsOpenAt` on a platform slot with a relative path: the slot's driver is asked. -/
def openChild (driver : PlatformDriver) (parent path : Bytes) (flags : Oflags) : Rc Int × VfsState :=
  match openHandle env v driver.key with
  | (.error e, after) => (.error e, after)
  | (.ok handle, after) =>
    claim env after (.platform driver handle.drvFd flags (childPath parent path)) nofun
      (some handle)

/-- `VfsOpenAt`. -/
def vfsOpenAtFd (fd : Int) (path : Bytes) (flags : Oflags) : Rc Int × VfsState :=
  if path = [] then (.error .einval, v)
  else
    match v.open? fd with
    | some ⟨.platform driver _ _ parent, _, _, _⟩ =>
      if isAbsolute path then openThroughMounts env v fd path flags
      else openChild env v driver parent path flags
    | _ => openThroughMounts env v fd path flags

/-- Another platform slot than the one given has the same driver. -/
def sharesDriver (v : VfsState) (fd : Nat) (key : Nat) : Bool :=
  v.fds.zipIdx.any fun (other, pos) => pos ≠ fd ∧ keyOf other = some key

/-- Close the handle of a slot and clear the slot, whatever the driver answers. -/
def giveUpSlot (pos : Nat) (open_ : OpenFd) : Rc Int × VfsState :=
  let (result, after) := closeHandle env v open_.handle
  (result, { after with fds := after.fds.set pos none })

/-- `VfsClose`: a console stream and a platform slot that has its driver alone stay. -/
def vfsClose (fd : Int) : Rc Int × VfsState :=
  match v.open? fd with
  | none => (.error .ebadf, v)
  | some open_ =>
    match open_.slot with
    | .closed => (.error .ebadf, v)
    | .other .stream _ _ => (env.closes v.calls, v.tick)
    | .platform driver _ _ _ =>
      if sharesDriver v fd.toNat driver.key then giveUpSlot env v fd.toNat open_ else (.ok 0, v)
    | .other _ _ _ => giveUpSlot env v fd.toNat open_

/-- `isPlatformPreopen`: a platform slot that has its driver alone. -/
def isPlatformPreopen (v : VfsState) (fd : Int) : Bool :=
  match v.open? fd with
  | some ⟨.platform driver _ _ _, _, _, _⟩ => ¬ sharesDriver v fd.toNat driver.key
  | _ => false

def isStream (v : VfsState) (fd : Int) : Bool :=
  match v.open? fd with
  | some ⟨.other .stream _ _, _, _, _⟩ => true
  | _ => false

def vfsRenumber (source target : Int) : Rc Int × VfsState :=
  match v.open? source, v.open? target with
  | some open_, some _ =>
    if source = target then (.ok 0, v)
    else if isStream v source ∨ isStream v target ∨ isPlatformPreopen v source ∨
        isPlatformPreopen v target then (.error .enotsup, v)
    else
      match vfsClose env v target with
      | (.error e, after) => (.error e, after)
      | (.ok _, after) =>
        (.ok 0, { after with
          fds := (after.fds.set target.toNat (some open_)).set source.toNat none })
  | _, _ => (.error .ebadf, v)

/-- `routeMatch` of a path against a descriptor, when the path resolves. -/
def routeAt (fd : Int) (path : Bytes) : Rc (MountType × Bytes) := do
  let normal ← vfsResolvePath env.toSubsystems v.ctx fd path
  routeMatch v.ctx normal

def netFsStatPath (v : VfsState) (suffix : Bytes) : Rc Int :=
  if suffix = [] ∨ v.netfs.any (·.1 = suffix) then .ok 0 else .error .enoent

/-- Whether a relative path goes to the driver of a descriptor. -/
def bypasses (open_ : OpenFd) (path : Bytes) : Bool :=
  match open_.slot with
  | .platform _ _ _ _ => ¬ isAbsolute path
  | _ => false

def openAndClose (fd : Int) (path : Bytes) : Rc Int × VfsState :=
  match vfsOpenAtFd env v fd path 0 with
  | (.error e, after) => (.error e, after)
  | (.ok newFd, after) => (.ok 0, (vfsClose env after newFd).2)

/-- `VfsStatAt`, as far as descriptors go: a node of `/net` is looked up by name, anything else is
opened and closed again. -/
def vfsStatAt (fd : Int) (path : Bytes) : Rc Int × VfsState :=
  match v.open? fd with
  | none => (.error .ebadf, v)
  | some open_ =>
    if bypasses open_ path then openAndClose env v fd path
    else
      match routeAt env v fd path with
      | .ok (.net, suffix) => (netFsStatPath v suffix, v)
      | _ => openAndClose env v fd path

def enotsock : Errno := .host 88

/-- `VfsSockAccept` on a node of `/net`: the connection is a node of the listener's driver. -/
def acceptFrom (listener : Handle) (path : Bytes) (flags : Oflags) : Rc Int × VfsState :=
  match openHandle env v listener.driver with
  | (.error e, after) => (.error e, after)
  | (.ok handle, after) =>
    if ¬ env.allocates after.calls then
      (.error .enomem, (closeHandle env after (some handle)).2)
    else claim env after (.other (.mounted .net) flags (storedPath path)) nofun (some handle)

/-- `VfsSockAccept`. The directory `/net` has no driver to accept with; it is refused here, where
the source follows a null pointer. -/
def vfsSockAccept (fd : Int) (flags : Oflags) : Rc Int × VfsState :=
  match v.open? fd with
  | none => (.error .ebadf, v)
  | some ⟨.other (.mounted .net) _ path, some listener, _, _⟩ =>
    acceptFrom env v listener path flags
  | some _ => (.error enotsock, v)

/-- `VfsBindPlatformFd` of a new driver: a host directory becomes a descriptor. -/
def vfsBindPlatformFd (v : VfsState) (path : Bytes) (platform : Platform) (rootPath : Bytes)
    (hostFd : Int) (readonly : Bool) : Rc Int × VfsState :=
  let made := { v with drivers := v.drivers + 1 }
  match findFirstClosedFd v.ctx with
  | .error e => (.error e, made)
  | .ok fd =>
    let flags : Oflags := (if readonly then 0 else vfsORdwr) ||| vfsODirectory
    let driver : PlatformDriver := ⟨v.drivers, platform, rootPath, readonly⟩
    let handle : Handle := ⟨v.drivers, hostFd, v.calls⟩
    (.ok fd, { ((made.record (.taken v.drivers)).record (.bound handle)).tick with
      fds := v.fds.set fd
        (some ⟨.platform driver hostFd flags (storedPath path), some handle, v.calls, nofun⟩) })

def platformDrivers (v : VfsState) : List Nat :=
  (v.fds.filterMap keyOf).dedup

def Mount.driverKey (mount : Mount) : Option Nat :=
  match mount.type with
  | .driver key => some key
  | _ => none

def mountDrivers (v : VfsState) : List Nat := v.mounts.filterMap (·.driverKey)

/-- The drivers that belong to the virtual file system, console streams' excepted. -/
def ownedDrivers (v : VfsState) : List Nat :=
  platformDrivers v ++ mountDrivers v ++ v.devfs.map (·.2) ++ v.netfs.map (·.2)

def handleOf (fd : Option OpenFd) : List Handle := (fd.bind (·.handle)).toList

def handlesOf (fds : List (Option OpenFd)) : List Handle := fds.flatMap handleOf

/-- `VfsDestroy`: every handle is closed, those of platform slots last, and then every driver that
belongs to the virtual file system is destroyed. The console streams and their drivers come last
and are not logged. -/
def vfsDestroy (v : VfsState) : VfsState :=
  { v with
    fds := List.replicate vfsMaxFds none
    mounts := []
    devfs := []
    netfs := []
    log := v.log ++ (handlesOf (v.fds.filter fun fd => !(keyOf fd).isSome)).map .closed ++
      (handlesOf (v.fds.filter fun fd => (keyOf fd).isSome)).map .closed ++ (ownedDrivers v).map .destroyed }

/-! ### The machine -/

/-- One operation on the virtual file system before it is destroyed. -/
inductive VfsRequest where
  /-- `VfsMountDriver`. -/
  | mountDriver (mountPath : Bytes)
  /-- `DevFs_Register`. -/
  | registerDev (name : Bytes)
  /-- `NetFs_Register`. -/
  | registerNet (name : Bytes)
  /-- `VfsRegister`. -/
  | register (stream : Nat)
  /-- `VfsBindPlatformFd`. -/
  | bindPlatform (path : Bytes) (platform : Platform) (rootPath : Bytes) (hostFd : Int)
      (readonly : Bool)
  /-- `VfsAttachTarfs`. -/
  | attachTarfs
  /-- `VfsOpen`. -/
  | open_ (path : Bytes) (flags : Oflags)
  /-- `VfsOpenAt`. -/
  | openAt (fd : Int) (path : Bytes) (flags : Oflags)
  /-- `VfsClose`. -/
  | close (fd : Int)
  /-- `VfsRenumber`. -/
  | renumber (source target : Int)
  /-- `VfsStatAt`. -/
  | statAt (fd : Int) (path : Bytes)
  /-- `VfsSockAccept`. -/
  | sockAccept (fd : Int) (flags : Oflags)
  deriving DecidableEq

def serveVfs : VfsRequest → Rc Int × VfsState
  | .mountDriver mountPath => vfsMountDriver v mountPath
  | .registerDev name => devFsRegister env v name
  | .registerNet name => netFsRegister env v name
  | .register stream => vfsRegister v stream
  | .bindPlatform path platform rootPath hostFd readonly =>
    vfsBindPlatformFd v path platform rootPath hostFd readonly
  | .attachTarfs => (.ok 0, { v with tarfs := true })
  | .open_ path flags => vfsOpen env v path flags
  | .openAt fd path flags => vfsOpenAtFd env v fd path flags
  | .close fd => vfsClose env v fd
  | .renumber source target => vfsRenumber env v source target
  | .statAt fd path => vfsStatAt env v fd path
  | .sockAccept fd flags => vfsSockAccept env v fd flags

def vfsMachine (env : Backends) : Machine VfsState VfsRequest (Rc Int) := ⟨serveVfs env⟩

end WantedEngine.Vfs
