import WantedEngine.Registry.Files
import WantedEngine.Foundation.Machine
/-!
# The page store

The registry store on raw flash (`registry-page.c`). The partition is cut into allocation
units. A stage takes units as it needs them, erases each one and fills it; when the stage ends,
a small record with the extents is put as a file, so that a reset leaves a whole blob or none.
Which units are in use is kept in memory only, as a count of the blobs and stages on each unit,
and rebuilt from the records when the store starts. A blob of an older layout is adopted where
it lies; its extent need not align to units, so adopted blobs may share one.

What the flash driver and the file system answer is an oracle (`Host`): any call may fail, and a
flash call that fails leaves anything in the bytes it was to touch. Every change of the disk is
an event, and the store keeps a history of them, each with the disk and the stage it found. The
source has no such history; what a power cut can leave is read off it.
-/
namespace WantedEngine.Registry.Page

open Foundation

def registryPageMaxExtents : Nat := 32

/-- `registry_page_config_t`. The partition has at most `REGISTRY_PAGE_MAX_UNITS` units and its
size fits in 32 bits. -/
structure PageConfig where
  /-- The allocation unit in bytes. -/
  unit : Nat
  /-- The units of the partition. -/
  units : Nat
  /-- A mapping joins extents that are apart. -/
  scattered : Bool
  /-- The file a path below the entry directory leads to; none when a directory is missing. -/
  walk : Bytes → Option Bytes
  unit_pos : 0 < unit
  /-- The tables have an entry for each unit. -/
  units_le : units ≤ 4096
  /-- Offsets are 32 bits. -/
  fits : units * unit < 2 ^ 32
  /-- A path with no slash is the name of a file of the directory. -/
  walk_direct : ∀ name : Bytes, (47 : UInt8) ∉ name → walk name = some name

/-- What the flash driver and the file system answer, by the number of the call. -/
structure Host where
  /-- The error of a flash call, a barrier or a file put, none when it succeeds. -/
  fails : Nat → Option Errno
  /-- The error of a file removal, none when it succeeds. -/
  deletes : Nat → Option Errno
  /-- What a flash call that fails leaves. -/
  debris : Nat → Nat → UInt8
  /-- Where a mapping lies. -/
  address : Nat → Nat

/-! ### Blob records -/

/-- `registry_extent_t`. -/
structure Extent where
  offset : Nat
  length : Nat
  deriving DecidableEq

/-- `blob_rec_t`. -/
structure BlobRec where
  digest : Digest
  length : Nat
  /-- Adopted or not. -/
  flags : UInt8
  extents : List Extent
  deriving DecidableEq

def blobMagic : Nat := 0x314c4257

/-- `BLOB_FLAG_ADOPTED`: placed by a layout whose extents need not align to units. -/
def blobFlagAdopted : UInt8 := 0x01

def blobRecMax : Nat := 44 + registryPageMaxExtents * 8

def BlobRec.adopted (blob : BlobRec) : Bool := blob.flags &&& blobFlagAdopted ≠ 0

def encodeExtent (extent : Extent) : Bytes :=
  littleEndian 4 extent.offset ++ littleEndian 4 extent.length

/-- `encodeBlob`: magic, extent count, flags, two reserved bytes, length, digest, extents. -/
def encodeBlob (blob : BlobRec) : Bytes :=
  littleEndian 4 blobMagic ++ (blob.extents.length.toUInt8 :: blob.flags :: ([0, 0] ++
    (littleEndian 4 blob.length ++ (blob.digest.val ++ blob.extents.flatMap encodeExtent))))

def readExtent : Reader Extent := fun bytes => do
  let (offset, bytes) ← readNat 4 bytes
  let (length, bytes) ← readNat 4 bytes
  return (⟨offset, length⟩, bytes)

def decodeBlob (bytes : Bytes) : Option BlobRec := do
  let (magic, bytes) ← readNat 4 bytes
  if magic ≠ blobMagic then none
  let (count, bytes) ← readByte bytes
  let (flags, bytes) ← readByte bytes
  let (_, bytes) ← readBytes 2 bytes
  let (length, bytes) ← readNat 4 bytes
  let (digest, bytes) ← readFixed 32 bytes
  if count = 0 ∨ registryPageMaxExtents < count.toNat then none
  let (extents, _) ← readMany readExtent count.toNat bytes
  return { digest, length, flags, extents }

/-! ### The disk -/

structure Flash where
  cells : Nat → UInt8
  /-- The bytes that were erased since they were last written. -/
  erased : Nat → Bool
  blank : ∀ pos, erased pos = true → cells pos = 0xff

/-- What a power cut leaves: the partition and the record files. -/
structure Disk where
  flash : Flash
  entries : Files
  blobs : Files

inductive Event where
  | erase (unit : Nat)
  | write (offset : Nat) (data : Bytes)
  | putEntry (name content : Bytes)
  | delEntry (name : Bytes)
  | putBlob (name content : Bytes)
  | delBlob (name : Bytes)

variable (cfg : PageConfig) (host : Host)

/-- Whether an event touches a byte of the partition. -/
def Event.covers : Event → Nat → Bool
  | .erase unit, pos => unit * cfg.unit ≤ pos ∧ pos < (unit + 1) * cfg.unit
  | .write offset data, pos => offset ≤ pos ∧ pos < offset + data.length
  | _, _ => false

def Disk.putFiles (disk : Disk) : Event → Disk
  | .putEntry name content => { disk with entries := disk.entries.insert name content }
  | .delEntry name => { disk with entries := disk.entries.erase name }
  | .putBlob name content => { disk with blobs := disk.blobs.insert name content }
  | .delBlob name => { disk with blobs := disk.blobs.erase name }
  | _ => disk

def Flash.erase (flash : Flash) (covers : Nat → Bool) : Flash where
  cells pos := if covers pos then 0xff else flash.cells pos
  erased pos := covers pos || flash.erased pos
  blank pos erased := by
    cases covered : covers pos with
    | true => rfl
    | false =>
      rw [covered] at erased
      exact flash.blank pos erased

/-- Some bytes overwritten: what is there before decides what is there after. -/
def Flash.overwrite (flash : Flash) (covers : Nat → Bool) (byte : Nat → UInt8 → UInt8) : Flash where
  cells pos := if covers pos then byte pos (flash.cells pos) else flash.cells pos
  erased pos := !covers pos && flash.erased pos
  blank pos erased := by
    cases covered : covers pos with
    | true =>
      rw [covered] at erased
      cases erased
    | false =>
      rw [covered] at erased
      exact flash.blank pos erased

def Flash.change (flash : Flash) (event : Event) : Flash :=
  match event with
  | .erase _ => flash.erase (event.covers cfg)
  | .write offset data =>
    flash.overwrite (event.covers cfg) fun pos old => old &&& data.getD (pos - offset) 0
  | _ => flash

def Disk.apply (disk : Disk) (event : Event) : Disk :=
  { disk.putFiles event with flash := disk.flash.change cfg event }

/-- An event that does not complete: the files are as they were, and the bytes it was to touch
hold anything. -/
def Disk.spoil (disk : Disk) (event : Event) (debris : Nat → UInt8) : Disk :=
  { disk with flash := disk.flash.overwrite (event.covers cfg) fun pos _ => debris pos }

/-! ### The state in memory -/

/-- `run_t`: adjacent units. -/
structure Run where
  first : Nat
  count : Nat
  deriving DecidableEq

def Run.units (run : Run) : List Nat := List.range' run.first run.count

structure PageStage where
  active : Bool
  runs : List Run
  /-- The bytes written in the last unit taken. -/
  curOff : Nat
  total : Nat
  /-- A write of this stage failed. The source has no such field; its caller knows. -/
  failed : Bool
  deriving DecidableEq

def PageStage.none : PageStage := ⟨false, [], 0, 0, false⟩

def PageStage.units (stage : PageStage) : List Nat := stage.runs.flatMap Run.units

structure Alloc where
  /-- The blobs and stages on a unit. -/
  refs : Nat → Nat
  /-- The units an adopted blob names. -/
  adopted : Nat → Bool

/-- An event with the disk and the stage it found. -/
structure Step where
  before : Disk
  stage : PageStage
  event : Event

structure PageStore where
  /-- What a power cut leaves. -/
  disk : Disk
  alloc : Alloc
  stage : PageStage
  /-- The calls made to the host. -/
  calls : Nat
  /-- Every change of the disk, the oldest first. -/
  log : List Step

/-- `RegistryPageStore`: the store over a disk, before it is started. -/
def registryPageStore (disk : Disk) : PageStore :=
  ⟨disk, ⟨fun _ => 0, fun _ => false⟩, .none, 0, []⟩

/-! ### Calls to the host -/

variable (s : PageStore)

/-- A call to the host that changes nothing on the disk. -/
def callHost : Rc Unit × PageStore :=
  match host.fails s.calls with
  | none => (.ok (), { s with calls := s.calls + 1 })
  | some e => (.error e, { s with calls := s.calls + 1 })

def Host.refuses : Event → Nat → Option Errno
  | .delEntry _, call => host.deletes call
  | .delBlob _, call => host.deletes call
  | _, call => host.fails call

/-- A call to the host that changes the disk. -/
def perform (event : Event) : Rc Unit × PageStore :=
  let asked := { s with calls := s.calls + 1, log := s.log ++ [Step.mk s.disk s.stage event] }
  match host.refuses event s.calls with
  | none => (.ok (), { asked with disk := s.disk.apply cfg event })
  | some e =>
    (.error e, { asked with disk := s.disk.spoil cfg event (host.debris s.calls) })

def barrier : Rc Unit × PageStore := callHost host s

/-! ### The allocation table -/

def Alloc.unitUsed (alloc : Alloc) (unit : Nat) : Bool := 0 < alloc.refs unit

/-- `setUnit`: the count saturates at `UINT8_MAX`. -/
def Alloc.setUnit (alloc : Alloc) (unit : Nat) (on : Bool) : Alloc :=
  let count := if on then min (alloc.refs unit + 1) 255 else alloc.refs unit - 1
  { alloc with refs := Function.update alloc.refs unit count }

def Extent.units (extent : Extent) : List Nat :=
  List.range' (extent.offset / cfg.unit)
    ((extent.offset + extent.length - 1) / cfg.unit + 1 - extent.offset / cfg.unit)

/-- The loop body of `markRange`. -/
def Alloc.markUnit (on adopted : Bool) (alloc : Alloc) (unit : Nat) : Alloc :=
  let counted := alloc.setUnit unit on
  let marked := (adopted && on || alloc.adopted unit) && counted.unitUsed unit
  { counted with adopted := Function.update alloc.adopted unit marked }

/-- `markRange`: takes or gives back the units a byte range touches. -/
def Alloc.markRange (alloc : Alloc) (extent : Extent) (on adopted : Bool) : Alloc :=
  ((extent.units cfg).filter (· < cfg.units)).foldl (Alloc.markUnit on adopted) alloc

/-- The extents of a blob taken or given back in turn. -/
def Alloc.markBlob (alloc : Alloc) (blob : BlobRec) (on : Bool) : Alloc :=
  blob.extents.foldl (fun alloc extent => alloc.markRange cfg extent on blob.adopted) alloc

def freeStageUnits : PageStore :=
  { s with
    alloc := s.stage.units.foldl (fun alloc unit => alloc.setUnit unit false) s.alloc
    stage := .none }

/-- The loop body of `largestRun`: the best run, where it starts, and the current run. -/
def largestRunStep (alloc : Alloc) (found : Nat × Nat × Nat) (unit : Nat) : Nat × Nat × Nat :=
  let (best, start, run) := found
  if alloc.unitUsed unit then (best, start, 0)
  else if best < run + 1 then (run + 1, unit - run, run + 1)
  else (best, start, run + 1)

/-- `largestRun`: the length and the start of the longest free run. -/
def largestRun (alloc : Alloc) : Nat × Nat :=
  let found := (List.range cfg.units).foldl (largestRunStep alloc) (0, 0, 0)
  (found.1, found.2.1)

def firstFree (alloc : Alloc) : Option Nat :=
  (List.range cfg.units).find? fun unit => !alloc.unitUsed unit

/-- Where a new run starts. -/
def freshUnit (alloc : Alloc) : Option Nat :=
  if cfg.scattered then firstFree cfg alloc
  else
    let (best, start) := largestRun cfg alloc
    if best = 0 then none else some start

def startRun : Rc Nat × PageStore :=
  if registryPageMaxExtents ≤ s.stage.runs.length then (.error .enospc, s)
  else
    match freshUnit cfg s.alloc with
    | none => (.error .enospc, s)
    | some unit =>
      (.ok unit,
        { s with
          alloc := s.alloc.setUnit unit true
          stage := { s.stage with runs := s.stage.runs ++ [⟨unit, 1⟩] } })

/-- `takeUnit`: the unit after the last one taken when it is free, else a unit elsewhere on a
store that can join extents. -/
def takeUnit : Rc Nat × PageStore :=
  match s.stage.runs.getLast? with
  | none => startRun cfg s
  | some last =>
    let unit := last.first + last.count
    if unit < cfg.units ∧ s.alloc.unitUsed unit = false then
      (.ok unit,
        { s with
          alloc := s.alloc.setUnit unit true
          stage :=
            { s.stage with
              runs := s.stage.runs.dropLast ++ [{ last with count := last.count + 1 }] } })
    else if ¬ cfg.scattered then (.error .enospc, s)
    else startRun cfg s

/-! ### Staging -/

/-- `_StageBegin`: the first write takes a unit. -/
def stageBegin : Rc Unit × PageStore :=
  if s.stage.active then (.error .ebusy, s)
  else (.ok (), { s with stage := ⟨true, [], cfg.unit, 0, false⟩ })

/-- The next unit of the stage, erased, when the last one is full. -/
def prepareUnit : Rc Unit × PageStore :=
  if s.stage.curOff < cfg.unit then (.ok (), s)
  else
    match takeUnit cfg s with
    | (.error e, s) => (.error e, s)
    | (.ok unit, s) =>
      match perform cfg host s (.erase unit) with
      | (.error e, s) => (.error e, s)
      | (.ok (), s) => (.ok (), { s with stage := { s.stage with curOff := 0 } })

/-- One turn of the loop of `_StageWrite`: as much as fits in the last unit. The answer is the
number of bytes written. -/
def writeTurn (buf : Bytes) : Rc Nat × PageStore :=
  match prepareUnit cfg host s with
  | (.error e, s) => (.error e, s)
  | (.ok (), s) =>
    match s.stage.runs.getLast? with
    -- The stage has a unit here; without one the source reads outside its table.
    | none => (.error .efault, s)
    | some last =>
      let chunk := buf.take (cfg.unit - s.stage.curOff)
      let offset := (last.first + last.count - 1) * cfg.unit + s.stage.curOff
      match perform cfg host s (.write offset chunk) with
      | (.error e, s) => (.error e, s)
      | (.ok (), s) =>
        let curOff := s.stage.curOff + chunk.length
        let total := s.stage.total + chunk.length
        (.ok chunk.length, { s with stage := { s.stage with curOff, total } })

/-- The loop of `_StageWrite`. A turn writes at least one byte, so the bytes bound the turns. -/
def writeLoop : (turns : Nat) → PageStore → Bytes → Rc Unit × PageStore
  | 0, s, _ => (.ok (), s)
  | turns + 1, s, buf =>
    if buf = [] then (.ok (), s)
    else
      match writeTurn cfg host s buf with
      | (.error e, s) => (.error e, s)
      | (.ok written, s) => writeLoop turns s (buf.drop written)

/-- `_StageWrite`: the count is returned as an `int`. -/
def stageWrite (buf : Bytes) : Rc Nat × PageStore :=
  match writeLoop cfg host buf.length s buf with
  | (.error e, s) => (.error e, { s with stage := { s.stage with failed := true } })
  | (.ok (), s) =>
    if buf.length < 2 ^ 31 then (.ok buf.length, s)
    else
      (.error (.host (2 ^ 32 - buf.length)), { s with stage := { s.stage with failed := true } })

/-- `stageExtents`: the runs as byte extents; the last one ends with the data. -/
def stageExtents (left : Nat) : List Run → List Extent
  | [] => []
  | run :: rest =>
    let length := min (run.count * cfg.unit) left
    ⟨run.first * cfg.unit, length⟩ :: stageExtents (left - length) rest

def stageBlob (stage : PageStage) (digest : Digest) (len : Nat) : BlobRec :=
  { digest, length := len, flags := 0, extents := stageExtents cfg stage.total stage.runs }

def stageEnd (digest : Digest) (len : Nat) : Rc Unit × PageStore :=
  let name := registryDigestToHex digest
  match regFilesGet s.disk.blobs name blobRecMax with
  | .ok (_ :: _) => (.ok (), freeStageUnits s)
  | _ =>
    if len = 0 ∨ s.stage.total ≠ len then (.error .einval, freeStageUnits s)
    else
      let record := encodeBlob (stageBlob cfg s.stage digest len)
      match barrier host s with
      | (.error e, s) => (.error e, freeStageUnits s)
      | (.ok (), s) =>
        match perform cfg host s (.putBlob name record) with
        | (.error e, s) => (.error e, freeStageUnits s)
        | (.ok (), s) => (.ok (), { s with stage := .none })

def stageAbort : PageStore := freeStageUnits s

/-! ### Blobs -/

def loadBlob (blobs : Files) (digest : Digest) : Rc BlobRec :=
  match regFilesGet blobs (registryDigestToHex digest) blobRecMax with
  | .error e => .error e
  | .ok bytes =>
    match decodeBlob bytes with
    | none => .error .enoent
    | some blob => .ok blob

def Flash.read (flash : Flash) (offset length : Nat) : Bytes :=
  (List.range length).map fun pos => flash.cells (offset + pos)

/-- The bytes a mapping of a blob shows: the extents joined, or the range from the first. -/
def blobBytes (flash : Flash) (blob : BlobRec) : Bytes :=
  if cfg.scattered then
    (blob.extents.flatMap fun extent => flash.read extent.offset extent.length).take blob.length
  else
    match blob.extents with
    | [] => []
    | first :: _ => flash.read first.offset blob.length

def blobMap (digest : Digest) (_len : Nat) : Rc BlobMap × PageStore :=
  match loadBlob s.disk.blobs digest with
  | .error e => (.error e, s)
  | .ok blob =>
    match callHost host s with
    | (.error e, s') => (.error e, s')
    | (.ok (), s') =>
      (.ok ⟨host.address s.calls, blobBytes cfg s.disk.flash blob, digest⟩, s')

def blobHas (digest : Digest) : Bool := succeeded (loadBlob s.disk.blobs digest)

def blobDrop (digest : Digest) : Rc Unit × PageStore :=
  match loadBlob s.disk.blobs digest with
  | .error e => (.error e, s)
  | .ok blob =>
    match perform cfg host s (.delBlob (registryDigestToHex digest)) with
    | (.error e, s) => (.error e, s)
    | (.ok (), s) => (.ok (), { s with alloc := s.alloc.markBlob cfg blob false })

def blobList : Rc (List Digest) := .ok (blobDigests s.disk.blobs)

/-! ### Entry records -/

def recordFile (key : Key) : Rc Bytes :=
  match regFilesKeyName key with
  | .error e => .error e
  | .ok name =>
    match cfg.walk name with
    | none => .error .enoent
    | some file => .ok file

def recPut (key : Key) (record : Bytes) : Rc Unit × PageStore :=
  match regFilesKeyName key with
  | .error e => (.error e, s)
  | .ok _ =>
    match barrier host s with
    | (.error e, s) => (.error e, s)
    | (.ok (), s) =>
      match recordFile cfg key with
      | .error e => (.error e, s)
      | .ok file => perform cfg host s (.putEntry file record)

def recGet (key : Key) (cap : Nat) : Rc Bytes :=
  match recordFile cfg key with
  | .error e => .error e
  | .ok file => regFilesGet s.disk.entries file cap

def recDel (key : Key) : Rc Unit × PageStore :=
  match regFilesKeyName key with
  | .error e => (.error e, s)
  | .ok _ =>
    match barrier host s with
    | (.error e, s) => (.error e, s)
    | (.ok (), s) =>
      match recordFile cfg key with
      | .error e => (.error e, s)
      | .ok file =>
        if file ∈ s.disk.entries then perform cfg host s (.delEntry file)
        else (.error .enoent, s)

def recList : Rc (List Key) :=
  .ok ((regFilesNames s.disk.entries).filterMap regFilesParseKey)

/-! ### Starting and adopting -/

/-- Whether an extent can be taken: it lies in the partition, and its units are free but for
those that adopted blobs share. -/
def Alloc.claimable (alloc : Alloc) (adopted : Bool) (extent : Extent) : Bool :=
  extent.length ≠ 0 ∧ extent.offset + extent.length ≤ cfg.units * cfg.unit ∧
    ∀ unit ∈ extent.units cfg,
      alloc.unitUsed unit = false ∨ (adopted ∧ alloc.adopted unit)

def Alloc.claimBlob (alloc : Alloc) (blob : BlobRec) : Option Alloc :=
  if ∀ extent ∈ blob.extents, alloc.claimable cfg blob.adopted extent then
    some (alloc.markBlob cfg blob true)
  else none

/-- `visitRebuild`: a record that does not fit what is there is discarded. -/
def visitRebuild (name : Bytes) : PageStore :=
  match registryDigestFromHex name with
  | none => s
  | some digest =>
    match loadBlob s.disk.blobs digest with
    | .error _ => (perform cfg host s (.delBlob name)).2
    | .ok blob =>
      if blob.digest ≠ digest then (perform cfg host s (.delBlob name)).2
      else
        match s.alloc.claimBlob cfg blob with
        | none => (perform cfg host s (.delBlob name)).2
        | some alloc => { s with alloc }

def init : PageStore :=
  (regFilesNames s.disk.blobs).foldl (visitRebuild cfg host)
    { s with alloc := ⟨fun _ => 0, fun _ => false⟩, stage := .none }

def adoptedBlob (digest : Digest) (offset length : Nat) : BlobRec :=
  { digest, length, flags := blobFlagAdopted, extents := [⟨offset, length⟩] }

def registryPageAdopt (digest : Digest) (offset length : Nat) : Rc Unit × PageStore :=
  if length = 0 then (.error .einval, s)
  else if succeeded (loadBlob s.disk.blobs digest) then (.ok (), s)
  else
    let blob := adoptedBlob digest offset length
    match s.alloc.claimBlob cfg blob with
    | none => (.error .eexist, s)
    | some alloc =>
      let released (s : PageStore) : PageStore :=
        { s with alloc := s.alloc.markRange cfg ⟨offset, length⟩ false true }
      match barrier host { s with alloc } with
      | (.error e, s) => (.error e, released s)
      | (.ok (), s) =>
        match perform cfg host s (.putBlob (registryDigestToHex digest) (encodeBlob blob)) with
        | (.error e, s) => (.error e, released s)
        | (.ok (), s) => (.ok (), s)

/-! ### The store and its machine -/

/-- The page store behind the store interface. -/
def pageOps : StoreOps PageStore where
  init := init cfg host
  stageBegin := stageBegin cfg
  stageWrite := stageWrite cfg host
  stageEnd := stageEnd cfg host
  stageAbort := stageAbort
  blobMap := blobMap cfg host
  -- Releasing a mapping changes nothing that the store keeps.
  blobUnmap := fun s _ => s
  blobHas := blobHas
  blobDrop := blobDrop cfg host
  blobList := blobList
  recPut := recPut cfg host
  recGet := recGet cfg
  recDel := recDel cfg host
  recList := recList

/-- One call of the page store. -/
inductive PageRequest where
  | stageBegin
  | stageWrite (buf : Bytes)
  | stageEnd (digest : Digest) (len : Nat)
  | stageAbort
  | blobMap (digest : Digest) (len : Nat)
  | blobUnmap (map : BlobMap)
  | blobDrop (digest : Digest)
  /-- `RegistryPageAdopt`. -/
  | adopt (digest : Digest) (offset length : Nat)
  | recPut (key : Key) (record : Bytes)
  | recDel (key : Key)
  | init
  deriving DecidableEq

/-- Serve one call; the answer is whether it succeeded. -/
def servePage : PageRequest → Bool × PageStore
  | .stageBegin => (stageBegin cfg s).map succeeded id
  | .stageWrite buf => (stageWrite cfg host s buf).map succeeded id
  | .stageEnd digest len => (stageEnd cfg host s digest len).map succeeded id
  | .stageAbort => (true, stageAbort s)
  | .blobMap digest len => (blobMap cfg host s digest len).map succeeded id
  | .blobUnmap map => (true, (pageOps cfg host).blobUnmap s map)
  | .blobDrop digest => (blobDrop cfg host s digest).map succeeded id
  | .adopt digest offset length =>
    (registryPageAdopt cfg host s digest offset length).map succeeded id
  | .recPut key record => (recPut cfg host s key record).map succeeded id
  | .recDel key => (recDel cfg host s key).map succeeded id
  | .init => (true, init cfg host s)

def pageMachine : Machine PageStore PageRequest Bool := ⟨servePage cfg host⟩

end WantedEngine.Registry.Page
