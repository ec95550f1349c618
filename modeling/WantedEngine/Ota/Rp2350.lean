import WantedEngine.Foundation.Machine
import WantedEngine.Ota.Driver
/-!
# The RP2350 A/B backing

`platform/nuttx/api/ota.c` for the RP2350: the update slot is a flash device that is bulk
erased when a session begins, programmed in whole 256-byte units while image bytes stream
in, checked at commit and booted on the next reboot request. The functions here follow the
source one by one over a `Board`: the `g_ota` statics, the contents of the update slot, the
failed-slot file and the list of what was done to the slot.

The device answers come with each request (`Device`), so every pattern of failures is a
value. A failed erase or program leaves slot contents of the device's choosing.
-/
namespace WantedEngine.Ota.Rp2350

open Foundation

/-- `OTA_PROGRAM_UNIT`: the smallest unit the backing can program. -/
def otaProgramUnit : Nat := 256

/-- `PICOBIN_BLOCK_MARKER_START`: the word that opens a picobin block. -/
def picobinBlockMarkerStart : Nat := 0xffffded3

/-- `OTA_HEADER_SCAN_BYTES`: how much of a staged image is searched for the marker. -/
def otaHeaderScanBytes : Nat := 4096

/-- `PICOBIN_ITEM_LAST`: the item that ends a block and links the next. -/
def picobinItemLast : Nat := 0xff

/-- `PICOBIN_ITEM_HASH_VALUE`: the item that carries the image hash. -/
def picobinItemHashValue : Nat := 0x4b

def picobinMaxItems : Nat := 32

def picobinMaxBlocks : Nat := 4

/-- `IMAGE_DIGEST_BYTES`: the length of the image hash. -/
def imageDigestBytes : Nat := 32

/-- The `g_ota` statics. -/
structure Statics where
  /-- Whether `PlatformOtaInit` has run. -/
  inited : Bool
  /-- The slot the running firmware booted from, if the loader named one. -/
  activeSlot : Option Char
  /-- Whether the running firmware has no buy pending. -/
  confirmed : Bool
  /-- The open session descriptor, as its file position. -/
  fd : Option Nat
  /-- Whether a streaming session is open. -/
  writing : Bool
  /-- Whether a committed image waits for a reboot. -/
  pendingSwap : Bool
  /-- The slot of an image that ran and was never confirmed. -/
  lastFailedSlot : Option Char
  /-- Lowercase hex of the staged image's hash, empty when it has none. -/
  pendingDigest : Bytes
  /-- The bytes held back until they fill a program unit (`unit` up to `buffered`). -/
  unit : Bytes
  deriving DecidableEq

/-- What the history keeps about the update slot. -/
inductive SlotEvent where
  | erased
  | programmed
  /-- A commit returned success with this image in the slot. -/
  | committed (image : Bytes)
  /-- `BoardOtaBootPending` issued the boot-slot request with this image in the slot. -/
  | bootPending (image : Bytes)
  | restarted
  deriving DecidableEq

/-- The statics, the update slot, the failed-slot file and the slot's history, newest
first. -/
structure Board where
  ota : Statics
  /-- The contents of the update slot. -/
  slot : Bytes
  /-- The letter in the failed-slot file. -/
  failedSlot : Option Char
  /-- What was done to the slot, newest first. -/
  log : List SlotEvent
  deriving DecidableEq

/-- What the boot loader reports at a start and which contents the update slot then has. -/
structure Boot where
  /-- The slot letter `slotForOffset` finds, if any. -/
  activeSlot : Option Char
  /-- What `bootConfirmed` reports. -/
  confirmed : Bool
  /-- The contents of the slot that is the update slot of this boot. -/
  slot : Bytes
  deriving DecidableEq

/-- The result of one `write` of a program unit. -/
inductive Programmed where
  | done
  /-- The write failed and left these slot contents. -/
  | failed (e : Errno) (slot : Bytes)
  /-- The write was short and left these slot contents. -/
  | short (slot : Bytes)
  deriving DecidableEq

structure Device where
  /-- `open` of the slot device: the error if it fails. -/
  openSlot : Option Errno
  /-- The bulk erase: the error and the slot contents left if it fails. -/
  erase : Option (Errno × Bytes)
  /-- The program-unit writes of the request, by their number in it. -/
  program : Nat → Programmed
  /-- Seeking to and reading the header: the error if it fails. -/
  header : Option Errno
  /-- Whether the read at an offset of the staged image succeeds. -/
  readable : Nat → Bool
  /-- The confirm and boot-slot requests: the error if one fails. -/
  ioctl : Option Errno
  /-- Whether the failed-slot file can be written. -/
  recordable : Bool
  /-- The state the loader reports if this request restarts the board. -/
  boot : Boot

/-- The statics `PlatformOtaInit` leaves after a start. -/
def platformOtaInit (boot : Boot) (failedSlot : Option Char) : Statics where
  inited := true
  activeSlot := boot.activeSlot
  confirmed := boot.confirmed
  fd := none
  writing := false
  pendingSwap := false
  lastFailedSlot := if failedSlot = some 'a' ∨ failedSlot = some 'b' then failedSlot else none
  pendingDigest := []
  unit := []

def powerOn (boot : Boot) (failedSlot : Option Char) : Board :=
  ⟨platformOtaInit boot failedSlot, boot.slot, failedSlot, []⟩

/-- A restart: the statics are zeroed and initialised, the files stay. -/
def restart (boot : Boot) (board : Board) : Board :=
  ⟨platformOtaInit boot board.failedSlot, boot.slot, board.failedSlot, .restarted :: board.log⟩

/-- `endSession`: close the descriptor and forget the session. -/
def endSession (board : Board) : Board :=
  { board with ota := { board.ota with fd := none, writing := false, unit := [] } }

variable (dev : Device)

def platformOtaBeginWrite (board : Board) : Rc Unit × Board :=
  if ¬ board.ota.inited then (.error .eperm, board)
  else if board.ota.writing then (.error .ebusy, board)
  else
    let board := { board with failedSlot := none, ota := { board.ota with lastFailedSlot := none } }
    match dev.openSlot with
    | some e => (.error e, board)
    | none =>
      match dev.erase with
      | some (e, slot) =>
        (.error e, { board with slot := slot, log := .erased :: board.log })
      | none =>
        (.ok (),
          { board with
            slot := List.replicate board.slot.length 0xff
            log := .erased :: board.log
            ota := { board.ota with fd := some 0, writing := true, unit := [] } })

/-- The slot with `unit` programmed at `pos`. -/
def programAt (slot : Bytes) (pos : Nat) (unit : Bytes) : Bytes :=
  slot.take pos ++ unit ++ slot.drop (pos + unit.length)

/-- `writeUnit`: hand one whole program unit to the device at the descriptor's position. A
unit that does not fit the slot is a short write. -/
def writeUnit (answer : Programmed) (unit : Bytes) (board : Board) : Rc Unit × Board :=
  let pos := board.ota.fd.getD 0
  match answer with
  | .failed e slot =>
    (.error e, { board with slot := slot, log := .programmed :: board.log })
  | .short slot => (.error .eio, { board with slot := slot, log := .programmed :: board.log })
  | .done =>
    if pos + unit.length ≤ board.slot.length then
      (.ok (),
        { board with
          slot := programAt board.slot pos unit
          log := .programmed :: board.log
          ota := { board.ota with fd := some (pos + unit.length) } })
    else
      (.error .eio, { board with log := .programmed :: board.log })

/-- The loop of `PlatformOtaWrite`. Each turn takes at least one byte, so `fuel` bounded by
the number of bytes left never runs out; `count` numbers the program-unit writes. -/
def platformOtaWriteGo (dev : Device) : (fuel count : Nat) → Bytes → Board → Rc Unit × Board
  | 0, _, _, board => (.ok (), board)
  | fuel + 1, count, buf, board =>
    if buf = [] then (.ok (), board)
    else
      let room := otaProgramUnit - board.ota.unit.length
      let take := min buf.length room
      let unit := board.ota.unit ++ buf.take take
      let board := { board with ota := { board.ota with unit := unit } }
      let buf := buf.drop take
      if unit.length = otaProgramUnit then
        match writeUnit (dev.program count) unit board with
        | (.error e, board) => (.error e, endSession board)
        | (.ok (), board) =>
          platformOtaWriteGo dev fuel (count + 1) buf
            { board with ota := { board.ota with unit := [] } }
      else platformOtaWriteGo dev fuel count buf board

def platformOtaWrite (buf : Bytes) (board : Board) : Rc Unit × Board :=
  if ¬ board.ota.writing then (.error .eperm, board)
  else platformOtaWriteGo dev buf.length 0 buf board

def platformOtaAbort (board : Board) : Rc Unit × Board := (.ok (), endSession board)

def word32 : Bytes → Nat
  | [a, b, c, d] => a.toNat + 256 * b.toNat + 65536 * c.toNat + 16777216 * d.toNat
  | _ => 0

/-- `readFromFd`: `len` bytes of the slot at `off`, if the device reads them all. -/
def readFromFd (slot : Bytes) (off len : Nat) : Option Bytes :=
  if dev.readable off ∧ off + len ≤ slot.length then some ((slot.drop off).take len) else none

/-- The first word of the header that is the block marker, as its offset; `none` if a read
fails and `some none` if the header has no marker. -/
def findMarkerGo (dev : Device) (slot : Bytes) : (words off : Nat) → Option (Option Nat)
  | 0, _ => some none
  | words + 1, off =>
    match readFromFd dev slot off 4 with
    | none => none
    | some bytes =>
      if word32 bytes = picobinBlockMarkerStart then some (some off)
      else findMarkerGo dev slot words (off + 4)

/-- What walking the items of one block ends in. -/
inductive BlockEnd where
  /-- The block held the hash, or the walk failed. -/
  | result (answer : Rc Bytes)
  /-- The next block starts here. -/
  | next (blockOff : Nat)
  deriving DecidableEq

/-- The item loop of `imageDigest`; offsets are 32-bit. A block whose items run out is
walked again from its own start. -/
def imageDigestItems (dev : Device) (slot : Bytes) (blockOff : Nat) : (items pos : Nat) → BlockEnd
  | 0, _ => .next blockOff
  | items + 1, pos =>
    match readFromFd dev slot pos 4 with
    | none => .result (.error .eio)
    | some bytes =>
      let header := word32 bytes
      let type := header % 256
      let words := header / 256 % 256
      if type = picobinItemLast then
        match readFromFd dev slot ((pos + 4) % 2 ^ 32) 4 with
        | none => .result (.error .eio)
        | some bytes =>
          if word32 bytes = 0 then .result (.error .enoent)
          else .next ((blockOff + word32 bytes) % 2 ^ 32)
      else if type = picobinItemHashValue ∧ words * 4 ≥ 4 + imageDigestBytes then
        match readFromFd dev slot ((pos + 4) % 2 ^ 32) imageDigestBytes with
        | none => .result (.error .eio)
        | some digest => .result (.ok digest)
      else if words = 0 then .result (.error .ebadmsg)
      else imageDigestItems dev slot blockOff items ((pos + words * 4) % 2 ^ 32)

/-- The block loop of `imageDigest`. -/
def imageDigestBlocks (dev : Device) (slot : Bytes) : (blocks blockOff : Nat) → Rc Bytes
  | 0, _ => .error .enoent
  | blocks + 1, blockOff =>
    match imageDigestItems dev slot blockOff picobinMaxItems ((blockOff + 4) % 2 ^ 32) with
    | .result answer => answer
    | .next blockOff => imageDigestBlocks dev slot blocks blockOff

/-- `imageDigest`: the hash item of the staged image's block chain. -/
def imageDigest (slot : Bytes) : Rc Bytes :=
  match findMarkerGo dev slot (otaHeaderScanBytes / 4) 0 with
  | none => .error .eio
  | some none => .error .ebadmsg
  | some (some blockOff) => imageDigestBlocks dev slot picobinMaxBlocks blockOff

def hexEncode (bytes : Bytes) : Bytes :=
  bytes.flatMap fun b => [hexDigit (b.toNat / 16), hexDigit (b.toNat % 16)]

/-- Whether one of the aligned words of a header is the block marker. -/
def hasMarker : (words : Nat) → Bytes → Bool
  | 0, _ => false
  | words + 1, head => word32 (head.take 4) == picobinBlockMarkerStart ||
      hasMarker words (head.drop 4)

def stagedImageLooksSane (slot : Bytes) : Rc Unit :=
  match dev.header with
  | some e => .error e
  | none =>
    let head := slot.take otaHeaderScanBytes
    if head.length ≠ otaHeaderScanBytes then .error .eio
    else if hasMarker (otaHeaderScanBytes / 4) head then .ok ()
    else .error .ebadmsg

/-- The tail write of `PlatformOtaCommit`: a short unit is padded with erased bytes. -/
def commitTail (board : Board) : Rc Unit × Board :=
  if board.ota.unit.length > 0 then
    let unit := board.ota.unit ++
      List.replicate (otaProgramUnit - board.ota.unit.length) 0xff
    match writeUnit (dev.program 0) unit board with
    | (.error e, board) => (.error e, endSession board)
    | (.ok (), board) => (.ok (), { board with ota := { board.ota with unit := [] } })
  else (.ok (), board)

/-- The end of `PlatformOtaCommit`: a slot that holds a recognisable image becomes pending,
with its hash if it carries one, and the session ends either way. -/
def commitStaged (board : Board) : Rc Unit × Board :=
  match stagedImageLooksSane dev board.slot with
  | .error e => (.error e, endSession board)
  | .ok () =>
    let digest :=
      match imageDigest dev board.slot with
      | .ok digest => hexEncode digest
      | .error _ => []
    let board := endSession board
    (.ok (), { board with ota := { board.ota with pendingDigest := digest, pendingSwap := true } })

def platformOtaCommit (board : Board) : Rc Unit × Board :=
  if ¬ board.ota.writing then (.error .eperm, board)
  else
    match commitTail dev board with
    | (.error e, board) => (.error e, board)
    | (.ok (), board) => commitStaged dev board

def platformOtaConfirm (board : Board) : Rc Unit × Board :=
  match dev.openSlot with
  | some e => (.error e, board)
  | none =>
    match dev.ioctl with
    | some e => (.error e, board)
    | none => (.ok (), board)

/-- `PlatformOtaRollback`: the running slot is recorded as failed and the other one booted. A
boot-slot request that succeeds does not return. -/
def platformOtaRollback (board : Board) : Rc Unit × Board :=
  let board :=
    match board.ota.activeSlot with
    | none => board
    | some slot =>
      { board with
        failedSlot := if dev.recordable then some slot else board.failedSlot
        ota := { board.ota with lastFailedSlot := some slot } }
  match dev.openSlot with
  | some e => (.error e, board)
  | none =>
    match dev.ioctl with
    | some e => (.error e, board)
    | none => (.ok (), restart dev.boot board)

/-- `BoardOtaBootPending`: boot the slot a committed image was staged into. -/
def boardOtaBootPending (board : Board) : Board :=
  if ¬ board.ota.pendingSwap then board
  else
    match dev.openSlot with
    | some _ => board
    | none => { board with log := .bootPending board.slot :: board.log }

/-- The backing the driver calls, with the device answers of one request. -/
def backing : Backing Board where
  beginWrite := platformOtaBeginWrite dev
  write := platformOtaWrite dev
  commit := platformOtaCommit dev
  abort := platformOtaAbort
  confirm := platformOtaConfirm dev
  rollback := platformOtaRollback dev

/-- A request to the board. -/
inductive Request where
  /-- A write on a node of `/dev/ota`. -/
  | write (node : Node) (buf : Bytes) (dev : Device)
  /-- The run loop serves a reboot request. -/
  | reboot (dev : Device)

/-- The history entry of a finished write: a commit that succeeded records its image. -/
def noteCommit (node : Node) (buf : Bytes) (rc : Rc Nat) (board : Board) : Board :=
  if node = .ctl ∧ requestedCommand buf = some .commit ∧ succeeded rc then
    { board with log := .committed board.slot :: board.log }
  else board

/-- One request: a driver write, or the run loop's reboot, which boots a pending image and
resets the board. -/
def serve (board : Board) : Request → Rc Nat × Board
  | .write node buf dev =>
    let (rc, board) := driverWrite (backing dev) node buf board
    (rc, noteCommit node buf rc board)
  | .reboot dev => (.ok 0, restart dev.boot (boardOtaBootPending dev board))

def machine : Machine Board Request (Rc Nat) := ⟨serve⟩

end WantedEngine.Ota.Rp2350
