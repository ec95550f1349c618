import WantedEngine.Vfs.Descriptors
/-!
# The Linux driver behind the descriptor table

Every operation of `platform/linux/vfs/vfs-linux.c` with the host calls it issues, and the calls
of `src/vfs/vfs.c` that reach one. Two kinds of descriptor have such a driver: a host directory
bound by `VfsBindPlatformFd` and what is opened beneath it, and a console stream, a node or a
mount whose launch configuration names the driver `platform`. The second kind is made by
`platformFsInitRW`, never read-only, and it alone is opened by path (`_Open`).

The host's answers come from `LinuxHost` by the number of the host call. What another subsystem
answers is taken from it by the number of the call as well; it issues no call of this driver. An
effect on the descriptor table is that of the operation's model in `Descriptors`.
-/
namespace WantedEngine.Vfs

open Foundation

/-! ### Host calls -/

/-- The access mode of a host open. -/
inductive Access where
  | rdonly | wronly | rdwr
  deriving DecidableEq

/-- The flags of a host open, one field for each `O_` constant. -/
structure HostOpen where
  creat : Bool
  directory : Bool
  excl : Bool
  trunc : Bool
  append : Bool
  nonblock : Bool
  dsync : Bool
  sync : Bool
  rsync : Bool
  access : Access
  deriving DecidableEq

def convertVfsFlags (flags : Oflags) : HostOpen where
  creat := flags &&& vfsOCreat ≠ 0
  directory := flags &&& vfsODirectory ≠ 0
  excl := flags &&& vfsOExcl ≠ 0
  trunc := flags &&& vfsOTrunc ≠ 0
  append := flags &&& vfsOAppend ≠ 0
  nonblock := flags &&& vfsONonblock ≠ 0
  dsync := flags &&& vfsODsync ≠ 0
  sync := flags &&& vfsOSync ≠ 0
  rsync := flags &&& vfsOSync ≠ 0
  access :=
    if flags &&& vfsORdwr ≠ 0 then .rdwr else if flags &&& vfsOWronly ≠ 0 then .wronly else .rdonly

/-- An open that may create an object or change one: it creates, truncates or gives write
access. -/
def HostOpen.changes (mode : HostOpen) : Bool := mode.creat || mode.trunc || mode.access ≠ .rdonly

/-- A host call of `vfs-linux.c`. -/
inductive LinuxCall where
  | path (call : HostCall)
  | close (fd : Int)
  /-- `fcntl` with `F_GETFL`. -/
  | getfl (fd : Int)
  /-- `fcntl` with `F_SETFL`. -/
  | setfl (fd : Int) (flags : Oflags)
  | fstat (fd : Int)
  | read (fd : Int) (nbyte : Nat)
  | write (fd : Int) (data : Bytes)
  | lseek (fd : Int) (off : Int) (whence : Whence)
  /-- `fdopendir` and the calls that read the directory. -/
  | readdir (fd : Int)
  | fsync (fd : Int)
  | ftruncate (fd : Int) (len : Nat)
  /-- The `select` of `PlatformFdReady`. -/
  | select (fd : Int)
  deriving DecidableEq

/-- A call on a path that may create, change or remove a host object. -/
def HostCall.changes : HostCall → Bool
  | openat2 _ _ flags | openat _ _ flags | open_ _ flags => (convertVfsFlags flags).changes
  | stat _ => false
  | renameat _ _ _ _ | mkdirat _ _ | unlinkat _ _ _ | mkdir _ | rename _ _ | rmdir _
  | unlink _ => true

/-- A host call that may create, change or remove a host object. -/
def LinuxCall.changes : LinuxCall → Bool
  | path call => call.changes
  | write _ _ | ftruncate _ _ => true
  | close _ | getfl _ | setfl _ _ | fstat _ | read _ _ | lseek _ _ _ | readdir _ | fsync _
  | select _ => false

/-! ### The state -/

/-- The host, with the subsystems and drivers that are not this one. -/
structure LinuxHost extends Backends where
  tree : HostTree
  /-- The answers to the host calls. -/
  host : Nat → Rc Int
  /-- `cwk_path_change_root`, applied to a path and the new root. -/
  changeRoot : Bytes → Bytes → Bytes
  /-- The answers of the other subsystems. -/
  others : Nat → Rc Int

/-- The virtual file system of a wapp with the Linux drivers in it. -/
structure LinuxState where
  vfs : VfsState
  /-- The drivers of consoles, nodes and mounts that are Linux drivers. -/
  adaptors : List PlatformDriver
  /-- The console streams with the numbers of their drivers, the last one first. -/
  consoles : List (Int × Nat)
  /-- The host calls with the drivers that issued them, oldest first. -/
  issued : List (PlatformDriver × LinuxCall)

/-- The state after `VfsInit`. -/
def linuxInit : LinuxState := ⟨vfsInit, [], [], []⟩

/-- The result of an operation and the state after it. -/
abbrev Outcome := Rc Int × LinuxState

/-- `platformFsInitRW`: the driver that the name `platform` stands for. -/
def platformFsInitRW (key : Nat) (options : Bytes) : PlatformDriver := ⟨key, .linux, options, false⟩

/-- The Linux driver of a console, node or mount, by its number. -/
def LinuxState.adaptor (l : LinuxState) (key : Nat) : Option PlatformDriver :=
  l.adaptors.find? (·.key = key)

/-- `fdDriver`: the Linux driver serving a descriptor, with the number it knows it by. -/
def LinuxState.fdDriver (l : LinuxState) (fd : Int) : Option (PlatformDriver × Int) :=
  match l.vfs.open? fd with
  | none => none
  | some open_ =>
    match open_.slot with
    | .closed => none
    | .platform driver drvFd _ _ => some (driver, drvFd)
    | .other .stream _ _ =>
      (l.consoles.find? (·.1 = fd)).bind fun console => (l.adaptor console.2).map (·, fd)
    | .other _ _ _ =>
      open_.handle.bind fun handle => (l.adaptor handle.driver).map (·, handle.drvFd)

/-- The driver of a platform descriptor that a relative path is handed to. -/
def LinuxState.bypass (l : LinuxState) (fd : Int) (path : Bytes) : Option (PlatformDriver × Int) :=
  match l.vfs.open? fd with
  | some ⟨.platform driver drvFd _ _, _, _, _⟩ =>
    if isAbsolute path then none else some (driver, drvFd)
  | _ => none

variable (env : LinuxHost)

def issue (l : LinuxState) (d : PlatformDriver) (call : LinuxCall) : Outcome :=
  (env.host l.issued.length, { l with issued := l.issued ++ [(d, call)] })

/-- An answer of another subsystem. -/
def answerOther (l : LinuxState) : Outcome :=
  (env.others l.vfs.calls, { l with vfs := l.vfs.tick })

/-- The host's answers as the path operations take them. -/
def answersAt (l : LinuxState) : Answers := ⟨fun _ => env.host l.issued.length, fun _ => false, .ok 0⟩

/-- A path operation of a driver. -/
def perform (l : LinuxState) (d : PlatformDriver) (effect : Effect) : Outcome :=
  (effect.result, { l with issued := l.issued ++ effect.calls.map fun call => (d, .path call) })

/-! ### The operations of the driver -/

def isStdio (fd : Int) : Bool := fd = 0 ∨ fd = 1 ∨ fd = 2

/-- The host call of `_Close`: the process's own streams stay. -/
def closeCalls (fd : Int) : List LinuxCall := if isStdio fd then [] else [.close fd]

/-- `_Stat`. -/
def driverStat (l : LinuxState) (d : PlatformDriver) (fd : Int) : Outcome :=
  match issue env l d (.getfl fd) with
  | (.error e, after) => (.error e, after)
  | (.ok _, after) => issue env after d (.fstat fd)

/-- `_Write`. -/
def driverWrite (l : LinuxState) (d : PlatformDriver) (fd : Int) (data : Bytes) : Outcome :=
  if d.readonly then (.error .erofs, l) else issue env l d (.write fd data)

/-- `_Truncate`. A length beyond `off_t` is refused. -/
def driverTruncate (l : LinuxState) (d : PlatformDriver) (fd : Int) (size : Nat) : Outcome :=
  if d.readonly then (.error .erofs, l)
  else if 2 ^ 63 ≤ size then (.error .efbig, l)
  else issue env l d (.ftruncate fd size)

/-- `_SetFlags`. -/
def driverSetFlags (l : LinuxState) (d : PlatformDriver) (fd : Int) (flags : Oflags) : Outcome :=
  if isStdio fd then (.error .enotsup, l)
  else
    match issue env l d (.getfl fd) with
    | (.error e, after) => (.error e, after)
    | (.ok _, after) => issue env after d (.setfl fd flags)

/-! ### Calls on an open descriptor -/

variable (l : LinuxState) (fd : Int)

/-- An operation of the driver serving a descriptor, or of another subsystem. -/
def onDriver (operation : PlatformDriver → Int → Outcome) : Outcome :=
  match l.vfs.open? fd with
  | none => (.error .ebadf, l)
  | some _ =>
    match l.fdDriver fd with
    | some (d, drvFd) => operation d drvFd
    | none => answerOther env l

/-- `VfsRead`. -/
def linuxRead (nbyte : Nat) : Outcome :=
  onDriver env l fd fun d drvFd => issue env l d (.read drvFd nbyte)

/-- `VfsWrite`. -/
def linuxWrite (data : Bytes) : Outcome :=
  onDriver env l fd fun d drvFd => driverWrite env l d drvFd data

/-- `VfsSeek`, with the new position as its result. A node of `/net` has none. -/
def linuxSeek (off : Int) (whence : Whence) : Outcome :=
  match l.vfs.open? fd with
  | some ⟨.other (.mounted .net) _ _, _, _, _⟩ => (.error .enotsup, l)
  | _ => onDriver env l fd fun d drvFd => issue env l d (.lseek drvFd off whence)

/-- `VfsTell`. -/
def linuxTell : Outcome :=
  match linuxSeek env l fd 0 .cur with
  | (.error e, after) =>
    (.error (if e ∈ [.eperm, .enotsup, .enosys] then .espipe else e), after)
  | (.ok position, after) => (.ok position, after)

/-- `positionAt`, with the saved position as its result. -/
def positionAt (off : Nat) : Outcome :=
  if 2 ^ 63 ≤ off then (.error .eoverflow, l)
  else
    match linuxTell env l fd with
    | (.error e, after) => (.error e, after)
    | (.ok saved, after) =>
      match linuxSeek env after fd off .set with
      | (.error e, last) => (.error e, last)
      | (.ok _, last) => (.ok saved, last)

/-- A transfer at a position, which is restored. -/
def transferAt (off : Nat) (transfer : LinuxState → Outcome) : Outcome :=
  match positionAt env l fd off with
  | (.error e, after) => (.error e, after)
  | (.ok saved, after) =>
    let (result, moved) := transfer after
    (result, (linuxSeek env moved fd saved .set).2)

/-- `VfsPread`. -/
def linuxPread (nbyte off : Nat) : Outcome :=
  transferAt env l fd off fun at_ => linuxRead env at_ fd nbyte

def FdSlot.flags : FdSlot → Oflags
  | closed => 0
  | platform _ _ flags _ => flags
  | other _ flags _ => flags

/-- The open flags of a descriptor. -/
def LinuxState.flagsOf : Oflags :=
  (l.vfs.open? fd).elim 0 (·.slot.flags)

/-- `VfsPwrite`: a descriptor that appends ignores the position. -/
def linuxPwrite (data : Bytes) (off : Nat) : Outcome :=
  if l.flagsOf fd &&& vfsOAppend ≠ 0 then linuxWrite env l fd data
  else transferAt env l fd off fun at_ => linuxWrite env at_ fd data

/-- `VfsStat`. -/
def linuxStat : Outcome :=
  onDriver env l fd fun d drvFd => driverStat env l d drvFd

/-- `VfsStatSet`, which the driver does not have. -/
def linuxStatSet : Outcome :=
  match l.vfs.open? fd with
  | some ⟨.platform _ _ _ _, _, _, _⟩ | some ⟨.other (.mounted .net) _ _, _, _, _⟩ =>
    (.error .enotsup, l)
  | _ => onDriver env l fd fun _ _ => (.error .eperm, l)

/-- `VfsSync`. -/
def linuxSync : Outcome :=
  onDriver env l fd fun d drvFd => issue env l d (.fsync drvFd)

/-- `VfsTruncate`. -/
def linuxTruncate (size : Nat) : Outcome :=
  onDriver env l fd fun d drvFd => driverTruncate env l d drvFd size

/-- `VfsPoll`. -/
def linuxPoll : Outcome :=
  onDriver env l fd fun d drvFd => issue env l d (.select drvFd)

/-- `VfsReadDir`. A console stream is no directory. -/
def linuxReadDir : Outcome :=
  match l.vfs.open? fd with
  | some ⟨.other .stream _ _, _, _, _⟩ => (.error .enotsup, l)
  | _ => onDriver env l fd fun d drvFd => issue env l d (.readdir drvFd)

def runtimeFlags : Oflags := vfsONonblock ||| vfsOAppend

def syncFlags : Oflags := vfsOSync ||| vfsODsync

/-- A slot with other open flags. -/
def OpenFd.withFlags (open_ : OpenFd) (flags : Oflags) : OpenFd :=
  match open_ with
  | ⟨.platform driver drvFd _ path, handle, opened, _⟩ =>
    ⟨.platform driver drvFd flags path, handle, opened, nofun⟩
  | ⟨.other type _ path, handle, opened, _⟩ => ⟨.other type flags path, handle, opened, nofun⟩
  | ⟨.closed, handle, opened, live⟩ => ⟨.closed, handle, opened, live⟩

def storeFlags (open_ : OpenFd) (flags : Oflags) : LinuxState :=
  { l with vfs := { l.vfs with fds := l.vfs.fds.set fd.toNat (some (open_.withFlags flags)) } }

/-- `VfsSetFlags`. -/
def linuxSetFlags (flags : Oflags) : Outcome :=
  match l.vfs.open? fd with
  | none => (.error .ebadf, l)
  | some open_ =>
    let current := open_.slot.flags
    let next := (current &&& ~~~runtimeFlags) ||| (flags &&& runtimeFlags)
    if flags &&& syncFlags ≠ current &&& syncFlags then (.error .enotsup, l)
    else if next = current then (.ok 0, l)
    else
      match onDriver env l fd fun d drvFd => driverSetFlags env l d drvFd next with
      | (.error e, after) => (.error e, after)
      | (.ok _, after) => (.ok 0, storeFlags after fd open_ next)

/-! ### Calls that open and close -/

/-- The host calls behind one call of a driver: an open by path is one of a console, node or
mount; `closer` is the driver of the descriptor being closed. -/
def eventCalls (l : LinuxState) (closer : Nat → Option PlatformDriver) :
    DriverEvent → List (PlatformDriver × LinuxCall)
  | .asked key path flags =>
    (l.adaptor key).toList.map fun d => (d, .path (.open_ (env.changeRoot path d.rootPath) flags))
  | .closed handle =>
    (closer handle.driver).toList.flatMap fun d => (closeCalls handle.drvFd).map fun call => (d, call)
  | _ => []

/-- The state after an operation on the descriptor table, with the host calls of its calls of
drivers. -/
def follow (l : LinuxState) (closer : Nat → Option PlatformDriver)
    (out : Rc Int × VfsState) : Outcome :=
  (out.1, { l with
    vfs := out.2
    issued := l.issued ++
      (out.2.log.drop l.vfs.log.length).flatMap (eventCalls env l closer) })

/-- The driver that closes the handle of a descriptor. -/
def LinuxState.closerOf (key : Nat) : Option PlatformDriver :=
  match l.vfs.open? fd with
  | some ⟨.platform driver _ _ _, _, _, _⟩ => some driver
  | _ => l.adaptor key

/-- `VfsOpen`. -/
def linuxOpen (l : LinuxState) (path : Bytes) (flags : Oflags) : Outcome :=
  follow env l l.adaptor (vfsOpen env.toBackends l.vfs path flags)

/-- `VfsOpenAt`. The driver of a platform descriptor opens a relative path with `_OpenAt`, and
closes what it opened when no slot is free. -/
def linuxOpenAt (path : Bytes) (flags : Oflags) : Outcome :=
  if path = [] then (.error .einval, l)
  else
    match l.bypass fd path with
    | some (d, drvFd) =>
      let effect := d.openAt env.tree (answersAt env l) drvFd path flags
      let asked := (perform l d effect).2
      follow env asked (l.closerOf fd)
        (vfsOpenAtFd { env.toBackends with opens := fun _ => effect.result } l.vfs fd path flags)
    | none => follow env l l.adaptor (vfsOpenAtFd env.toBackends l.vfs fd path flags)

/-- `VfsClose`. -/
def linuxClose : Outcome :=
  follow env l (l.closerOf fd) (vfsClose env.toBackends l.vfs fd)

/-- `VfsRenumber`, which closes the second descriptor. -/
def linuxRenumber (l : LinuxState) (source target : Int) : Outcome :=
  follow env l (l.closerOf target) (vfsRenumber env.toBackends l.vfs source target)

/-- `VfsSockAccept`. -/
def linuxSockAccept (flags : Oflags) : Outcome :=
  follow env l l.adaptor (vfsSockAccept env.toBackends l.vfs fd flags)

/-- The end of `VfsStatAt`: open the path, ask for its state and close it again. -/
def openStatClose (path : Bytes) : Outcome :=
  match linuxOpenAt env l fd path 0 with
  | (.error e, after) => (.error e, after)
  | (.ok newFd, after) =>
    let (result, asked) := linuxStat env after newFd
    (result, (linuxClose env asked newFd).2)

/-- `VfsStatAt`. -/
def linuxStatAt (path : Bytes) : Outcome :=
  match l.vfs.open? fd with
  | none => (.error .ebadf, l)
  | some open_ =>
    if bypasses open_ path then openStatClose env l fd path
    else
      match routeAt env.toBackends l.vfs fd path with
      | .ok (.net, suffix) => (netFsStatPath l.vfs suffix, l)
      | _ => openStatClose env l fd path

/-! ### Calls on a path -/

/-- The Linux driver a path is routed to, with the path below its mount. -/
def routedAdaptor (path : Bytes) : Option (PlatformDriver × Bytes) :=
  match routeAt env.toBackends l.vfs fd path with
  | .ok (.driver key, suffix) => (l.adaptor key).map (·, suffix)
  | _ => none

/-- The driver of a node of `/dev` that a path lies below, with the path below the node. -/
def devAdaptor (path : Bytes) : Option (PlatformDriver × Bytes) :=
  match routeAt env.toBackends l.vfs fd path with
  | .ok (.dev, suffix) =>
    match devfsResolve l.vfs.devfs suffix with
    | some (key, some below) => (l.adaptor key).map (·, below)
    | _ => none
  | _ => none

/-- A change of one path: by the driver of a platform descriptor, by the Linux driver it is routed
to, or by another subsystem. -/
def changePath (path : Bytes)
    (operation : PlatformDriver → Int → Bytes → Effect) (op : RoutedOp) : Outcome :=
  match l.vfs.open? fd with
  | none => (.error .ebadf, l)
  | some _ =>
    match l.bypass fd path with
    | some (d, drvFd) => perform l d (operation d drvFd path)
    | none =>
      let routed :=
        (routedAdaptor env l fd path).or (if op = .unlink then devAdaptor env l fd path else none)
      match routed with
      | some (d, suffix) => perform l d (operation d (-1) suffix)
      | none => (routeChange env.toSubsystems l.vfs.ctx fd path op, l)

/-- `VfsUnlink`. -/
def linuxUnlink (path : Bytes) : Outcome :=
  changePath env l fd path (fun d => d.unlink env.tree (answersAt env l)) .unlink

/-- `VfsMkdir`. -/
def linuxMkdir (path : Bytes) : Outcome :=
  changePath env l fd path (fun d => d.mkdir env.tree (answersAt env l)) .mkdir

/-- `VfsRmdir`. -/
def linuxRmdir (path : Bytes) : Outcome :=
  changePath env l fd path (fun d => d.rmdir env.tree (answersAt env l)) .rmdir

/-- A rename through the router, by the Linux driver both paths are routed to or by another
subsystem. -/
def renameRouted (l : LinuxState) (oldFd : Int) (oldPath : Bytes) (newFd : Int)
    (newPath : Bytes) : Outcome :=
  match routedAdaptor env l oldFd oldPath, routedAdaptor env l newFd newPath with
  | some (oldDriver, oldSuffix), some (newDriver, newSuffix) =>
    if oldDriver ≠ newDriver then (.error .exdev, l)
    else
      perform l oldDriver
        (oldDriver.rename env.tree (answersAt env l) (-1) oldSuffix (-1) newSuffix)
  | _, _ => (routeRename env.toSubsystems l.vfs.ctx oldFd oldPath newFd newPath, l)

/-- `VfsRename`. -/
def linuxRename (l : LinuxState) (oldFd : Int) (oldPath : Bytes) (newFd : Int) (newPath : Bytes) :
    Outcome :=
  match l.vfs.open? oldFd, l.vfs.open? newFd with
  | some _, some _ =>
    match l.bypass oldFd oldPath, l.bypass newFd newPath with
    | some (oldDriver, oldDrvFd), some (newDriver, newDrvFd) =>
      if oldDriver ≠ newDriver then (.error .exdev, l)
      else
        perform l oldDriver
          (oldDriver.rename env.tree (answersAt env l) oldDrvFd oldPath newDrvFd newPath)
    | _, _ => renameRouted env l oldFd oldPath newFd newPath
  | _, _ => (.error .ebadf, l)

/-! ### The machine -/

/-- Where a driver named by the launch configuration is installed. -/
inductive Install where
  | mount (mountPath : Bytes)
  | dev (name : Bytes)
  | net (name : Bytes)
  | console (stream : Nat)
  deriving DecidableEq

def Install.request : Install → VfsRequest
  | mount mountPath => .mountDriver mountPath
  | dev name => .registerDev name
  | net name => .registerNet name
  | console stream => .register stream

/-- The console streams after a driver is installed. -/
def Install.consoles (target : Install) (l : LinuxState) : List (Int × Nat) :=
  match target with
  | console stream =>
    if stream < rootFd then ((stream : Int), l.vfs.drivers) :: l.consoles else l.consoles
  | _ => l.consoles

/-- `WantedInstallDriver`: a driver of the tables, with the options of a driver `platform`. -/
def installDriver (l : LinuxState) (target : Install) (options : Option Bytes) : Outcome :=
  let (result, after) := serveVfs env.toBackends l.vfs target.request
  (result, { l with
    vfs := after
    adaptors := l.adaptors ++ (options.map (platformFsInitRW l.vfs.drivers)).toList
    consoles := target.consoles l })

/-- A step of the launch, or a call on the virtual file system. -/
inductive LinuxRequest where
  | install (target : Install) (options : Option Bytes)
  /-- `VfsBindPlatformFd` of a driver of `VfsPlatformFsInit`. -/
  | bind (path : Bytes) (rootPath : Bytes) (hostFd : Int) (readonly : Bool)
  | attachTarfs
  | open_ (path : Bytes) (flags : Oflags)
  | openAt (fd : Int) (path : Bytes) (flags : Oflags)
  | close (fd : Int)
  | renumber (source target : Int)
  | sockAccept (fd : Int) (flags : Oflags)
  | statAt (fd : Int) (path : Bytes)
  | stat (fd : Int)
  | statSet (fd : Int)
  | read (fd : Int) (nbyte : Nat)
  | write (fd : Int) (data : Bytes)
  | seek (fd : Int) (off : Int) (whence : Whence)
  | tell (fd : Int)
  | pread (fd : Int) (nbyte off : Nat)
  | pwrite (fd : Int) (data : Bytes) (off : Nat)
  | sync (fd : Int)
  | truncate (fd : Int) (size : Nat)
  | setFlags (fd : Int) (flags : Oflags)
  | poll (fd : Int)
  | readDir (fd : Int)
  | unlink (fd : Int) (path : Bytes)
  | mkdir (fd : Int) (path : Bytes)
  | rmdir (fd : Int) (path : Bytes)
  | rename (oldFd : Int) (oldPath : Bytes) (newFd : Int) (newPath : Bytes)
  deriving DecidableEq

def serveLinux (l : LinuxState) : LinuxRequest → Outcome
  | .install target options => installDriver env l target options
  | .bind path rootPath hostFd readonly =>
    let (result, after) := vfsBindPlatformFd l.vfs path .linux rootPath hostFd readonly
    (result, { l with vfs := after })
  | .attachTarfs => (.ok 0, { l with vfs := { l.vfs with tarfs := true } })
  | .open_ path flags => linuxOpen env l path flags
  | .openAt fd path flags => linuxOpenAt env l fd path flags
  | .close fd => linuxClose env l fd
  | .renumber source target => linuxRenumber env l source target
  | .sockAccept fd flags => linuxSockAccept env l fd flags
  | .statAt fd path => linuxStatAt env l fd path
  | .stat fd => linuxStat env l fd
  | .statSet fd => linuxStatSet env l fd
  | .read fd nbyte => linuxRead env l fd nbyte
  | .write fd data => linuxWrite env l fd data
  | .seek fd off whence => linuxSeek env l fd off whence
  | .tell fd => linuxTell env l fd
  | .pread fd nbyte off => linuxPread env l fd nbyte off
  | .pwrite fd data off => linuxPwrite env l fd data off
  | .sync fd => linuxSync env l fd
  | .truncate fd size => linuxTruncate env l fd size
  | .setFlags fd flags => linuxSetFlags env l fd flags
  | .poll fd => linuxPoll env l fd
  | .readDir fd => linuxReadDir env l fd
  | .unlink fd path => linuxUnlink env l fd path
  | .mkdir fd path => linuxMkdir env l fd path
  | .rmdir fd path => linuxRmdir env l fd path
  | .rename oldFd oldPath newFd newPath => linuxRename env l oldFd oldPath newFd newPath

def linuxMachine : Machine LinuxState LinuxRequest (Rc Int) := ⟨serveLinux env⟩

end WantedEngine.Vfs
