import WantedEngine.Foundation.Machine
import WantedEngine.Ota.Driver
/-!
# The Linux A/B backing

`platform/linux/api/ota.c`: two slot directories, a pointer file that names the active slot
and a trial-boot file that names the slot to try. A session streams into a staging file in
the inactive slot; a commit renames it over the slot's image and arms the trial boot. Which
slot is inactive is read back from the pointer file at every call.

The host calls that change files answer through the request (`Host`): each can fail, a write
of image bytes can fail after any number of bytes, and a write of a pointer file can leave
any part of its line. The two pointer files are read as they are.
-/
namespace WantedEngine.Ota.Linux

open Foundation

inductive Slot where
  | a | b
  deriving DecidableEq

def Slot.other : Slot → Slot
  | .a => .b
  | .b => .a

def Slot.letter : Slot → UInt8
  | .a => 97
  | .b => 98

def otaPathMax : Nat := 256

def otaLineMax : Nat := 64

/-- `PREFIX_KEY`: what a bootloader config include expects to find. -/
def slotKey : Bytes := ascii "os_prefix=slot_"

structure Config where
  /-- `CONFIG_WANTED_OTA_SLOT_ROOT`. -/
  slotRoot : Bytes
  /-- `CONFIG_WANTED_OTA_IMAGE_NAME`. -/
  imageName : Bytes

structure Files where
  /-- `active_slot.txt`. -/
  active : Option Bytes
  /-- `tryboot.txt`. -/
  tryboot : Option Bytes
  staging : Slot → Option Bytes
  image : Slot → Option Bytes

def setSlot (files : Slot → Option Bytes) (slot : Slot) (content : Option Bytes) :
    Slot → Option Bytes := fun at_ => if at_ = slot then content else files at_

/-- The backing: its files, the open staging file, and what the history of the session says
about the bytes in it. -/
structure State where
  files : Files
  /-- `g_fd`: the slot whose staging file is open. -/
  fd : Option Slot
  /-- The bytes of the successful slot writes since the last begin, in order. -/
  accepted : Bytes
  /-- Whether a slot write since the last begin failed after writing part of its bytes. -/
  torn : Bool

inductive Pointer where
  /-- The whole line was written and synced. -/
  | done
  /-- The file could not be opened. -/
  | refused (e : Errno)
  /-- Only this many bytes of the line were written. -/
  | short (written : Nat)
  /-- The line was written but not synced. -/
  | unsynced (e : Errno)
  deriving DecidableEq

/-- The answers of the host to the calls of one request; `none` is success. -/
structure Host where
  /-- `mkdir` of the slot directory, with an existing directory counted as success. -/
  mkdir : Option Errno
  openStaging : Option Errno
  /-- The `write` calls of the request by their number: an error, or how many bytes beyond
  the first were taken. -/
  write : Nat → Rc Nat
  fsync : Option Errno
  /-- `rename` of an existing staging file. -/
  rename : Option Errno
  pointer : Pointer
  /-- `unlink` of an existing file. -/
  unlink : Option Errno

variable (cfg : Config)

/-- Whether `rootPath` fits its buffer. -/
def rootPathFits (leaf : String) : Bool :=
  cfg.slotRoot.length + 1 + (ascii leaf).length < otaPathMax

/-- Whether `imagePath` fits its buffer: the root, `/slot_x/`, the image name and a suffix. -/
def imagePathFits (suffix : String) : Bool :=
  cfg.slotRoot.length + 8 + cfg.imageName.length + (ascii suffix).length < otaPathMax

/-- `strstr`: the text after the first occurrence of a key. -/
def afterKey (key : Bytes) : Bytes → Option Bytes
  | [] => if key = [] then some [] else none
  | b :: rest =>
    if key.isPrefixOf (b :: rest) then some ((b :: rest).drop key.length) else afterKey key rest

def namedSlot (content : Bytes) : Option Slot :=
  match afterKey slotKey (cString (content.take (otaLineMax - 1))) with
  | some (letter :: _) =>
    if letter = Slot.a.letter then some .a else if letter = Slot.b.letter then some .b else none
  | _ => none

/-- `readSlotFile`: the slot named by a pointer file, if there is one and it names one. -/
def readSlotFile (leaf : String) (content : Option Bytes) : Option Slot :=
  if rootPathFits cfg leaf then content.bind namedSlot else none

/-- The line `writeSlotFile` writes. -/
def slotLine (slot : Slot) : Bytes := slotKey ++ [slot.letter] ++ ascii "/\n"

/-- `writeSlotFile`: the result and the content left in the file. -/
def writeSlotFile (host : Host) (leaf : String) (slot : Slot)
    (content : Option Bytes) : Rc Unit × Option Bytes :=
  if ¬ rootPathFits cfg leaf then (.error .enametoolong, content)
  else
    match host.pointer with
    | .refused e => (.error e, content)
    | .short written => (.error .eio, some ((slotLine slot).take written))
    | .unsynced e => (.error e, some (slotLine slot))
    | .done => (.ok (), some (slotLine slot))

/-- `removeSlotFile`: the result and the content left in the file. -/
def removeSlotFile (host : Host) (leaf : String) (content : Option Bytes) : Rc Unit × Option Bytes :=
  if ¬ rootPathFits cfg leaf then (.error .enametoolong, content)
  else
    match content, host.unlink with
    | none, _ => (.ok (), none)
    | some bytes, some e => (.error e, some bytes)
    | some _, none => (.ok (), none)

def activeSlot (files : Files) : Slot :=
  (readSlotFile cfg "active_slot.txt" files.active).getD .a

def inactiveSlot (files : Files) : Slot :=
  if activeSlot cfg files = .a then .b else .a

/-- The slot `tryboot.txt` names. -/
def trybootSlot (files : Files) : Option Slot :=
  readSlotFile cfg "tryboot.txt" files.tryboot

/-- `PlatformOtaBeginWrite`. The slot directory's path is shorter than the staging path by the
separator, the image name and the suffix. -/
def platformOtaBeginWrite (host : Host) (s : State) : Rc Unit × State :=
  if s.fd.isSome then (.error .ebusy, s)
  else
    let slot := inactiveSlot cfg s.files
    if ¬ cfg.slotRoot.length + 7 < otaPathMax then (.error .enametoolong, s)
    else
      match host.mkdir with
      | some e => (.error e, s)
      | none =>
        if ¬ imagePathFits cfg ".staging" then (.error .enametoolong, s)
        else
          match host.openStaging with
          | some e => (.error e, s)
          | none =>
            (.ok (),
              { s with
                files := { s.files with staging := setSlot s.files.staging slot (some []) }
                fd := some slot })

/-- The staging file of `slot` with bytes appended. -/
def appendStaging (files : Files) (slot : Slot) (bytes : Bytes) : Files :=
  { files with
    staging := setSlot files.staging slot (some ((files.staging slot).getD [] ++ bytes)) }

/-- The loop of `PlatformOtaWrite`: each host write takes at least one byte or fails, so
`fuel` bounded by the number of bytes left never runs out. -/
def platformOtaWriteGo (host : Host) (slot : Slot) :
    (fuel count : Nat) → Bytes → Files → Rc Unit × Files
  | 0, _, _, files => (.ok (), files)
  | fuel + 1, count, buf, files =>
    if buf = [] then (.ok (), files)
    else
      match host.write count with
      | .error e => (.error e, files)
      | .ok more =>
        let taken := min (more + 1) buf.length
        platformOtaWriteGo host slot fuel (count + 1) (buf.drop taken)
          (appendStaging files slot (buf.take taken))

def platformOtaWrite (host : Host) (buf : Bytes) (s : State) : Rc Unit × State :=
  match s.fd with
  | none => (.error .eperm, s)
  | some slot =>
    let (rc, files) := platformOtaWriteGo host slot buf.length 0 buf s.files
    (rc, { s with files := files })

/-- The part of `PlatformOtaCommit` after the descriptor is closed: rename the staging file
over the image and arm the trial boot. -/
def commitRename (host : Host) (slot : Slot) (s : State) : Rc Unit × State :=
  match s.files.staging slot, host.rename with
  | none, _ => (.error .enoent, s)
  | some _, some e => (.error e, s)
  | some content, none =>
    let files : Files :=
      { s.files with
        staging := setSlot s.files.staging slot none
        image := setSlot s.files.image slot (some content) }
    let (rc, tryboot) := writeSlotFile cfg host "tryboot.txt" slot files.tryboot
    (rc, { s with files := { files with tryboot := tryboot } })

def platformOtaCommit (host : Host) (s : State) : Rc Unit × State :=
  match s.fd with
  | none => (.error .eperm, s)
  | some _ =>
    let slot := inactiveSlot cfg s.files
    let closed := { s with fd := none }
    if ¬ (imagePathFits cfg ".staging" ∧ imagePathFits cfg "") then (.error .enametoolong, closed)
    else
      match host.fsync with
      | some e => (.error e, closed)
      | none => commitRename cfg host slot closed

def platformOtaAbort (host : Host) (s : State) : Rc Unit × State :=
  match s.fd with
  | none => (.ok (), s)
  | some _ =>
    let slot := inactiveSlot cfg s.files
    let closed := { s with fd := none }
    if ¬ imagePathFits cfg ".staging" then (.error .enametoolong, closed)
    else
      match s.files.staging slot, host.unlink with
      | none, _ => (.ok (), closed)
      | some _, some e => (.error e, closed)
      | some _, none =>
        (.ok (),
          { closed with
            files := { s.files with staging := setSlot s.files.staging slot none } })

def platformOtaConfirm (host : Host) (s : State) : Rc Unit × State :=
  match trybootSlot cfg s.files with
  | none => (.ok (), s)
  | some pending =>
    let (rc, active) := writeSlotFile cfg host "active_slot.txt" pending s.files.active
    let s := { s with files := { s.files with active := active } }
    match rc with
    | .error e => (.error e, s)
    | .ok () =>
      let (rc, tryboot) := removeSlotFile cfg host "tryboot.txt" s.files.tryboot
      (rc, { s with files := { s.files with tryboot := tryboot } })

def platformOtaRollback (host : Host) (s : State) : Rc Unit × State :=
  let (rc, tryboot) := removeSlotFile cfg host "tryboot.txt" s.files.tryboot
  (rc, { s with files := { s.files with tryboot := tryboot } })

/-- The backing the driver calls, with the host answers of one request. -/
def backing (host : Host) : Backing State where
  beginWrite := platformOtaBeginWrite cfg host
  write := platformOtaWrite host
  commit := platformOtaCommit cfg host
  abort := platformOtaAbort cfg host
  confirm := platformOtaConfirm cfg host
  rollback := platformOtaRollback cfg host

/-- A write on a node of `/dev/ota`. -/
structure Request where
  node : Node
  buf : Bytes
  host : Host

def stagedLength (s : State) : Nat :=
  match s.fd with
  | none => 0
  | some slot => ((s.files.staging slot).getD []).length

/-- The session history after a request: a begin starts it, a slot write adds its bytes when
it succeeds and tears it when it fails with some of them written. -/
def noteSession (req : Request) (rc : Rc Nat) (before after : State) : State :=
  match req.node with
  | .slot =>
    if succeeded rc then { after with accepted := before.accepted ++ req.buf }
    else { after with torn := before.torn || decide (stagedLength before < stagedLength after) }
  | .ctl =>
    if requestedCommand req.buf = some .begin ∧ succeeded rc then
      { after with accepted := [], torn := false }
    else after

def serve (s : State) (req : Request) : Rc Nat × State :=
  let (rc, after) := driverWrite (backing cfg req.host) req.node req.buf s
  (rc, noteSession req rc s after)

def machine : Machine State Request (Rc Nat) := ⟨serve cfg⟩

def start (files : Files) : State := ⟨files, none, [], false⟩

end WantedEngine.Ota.Linux
