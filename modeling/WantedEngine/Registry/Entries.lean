import WantedEngine.Registry.Store
/-!
# The registry's state and its entries

The wapp images installed on a device (`registry.c`), above the store interface. An image is
staged layer by layer, each layer a blob named by its digest; a commit publishes the staged
layers as one record. Three tables hold blobs that no record lists yet or any more: the
pending layers, the mapped blobs, and the stage in progress. A blob is freed when nothing
lists, stages or maps it.

This module has the state, how a reference finds its record, and the two ways blobs are
freed: `dropAllIfFree` after an operation and `reclaim` after a reset.
-/
namespace WantedEngine.Registry

open Foundation

/-- `REGISTRY_MAX_ENTRIES`: entries enumerated and resolved. -/
def registryMaxEntries : Nat := 50
/-- `MAX_BLOBS`: distinct digests a listing can hold. -/
def maxBlobs : Nat := 64
/-- `MAX_RESIDENT`: resident images. -/
def maxResident : Nat := 16
/-- `REGISTRY_KEY_NAME_LEN`: a name or a version with its NUL. -/
def registryKeyNameLen : Nat := 16
/-- `MAX_PENDING`: staged layers that wait for a commit. -/
def maxPending (cfg : Config) : Nat := 2 * cfg.maxLayers
/-- `MAX_MAPS`: blobs mapped at once. -/
def maxMaps (cfg : Config) : Nat := (cfg.maxWapps + 1) * cfg.maxLayers

/-- `map_t`: one mapped blob and its users. -/
structure MapSlot where
  /-- The store that maps it, by its place in the list; none for a resident image. -/
  store : Option Nat
  map : BlobMap
  digest : Digest
  /-- How many share the range. -/
  users : Nat
  deriving DecidableEq

/-- `resident_t`: a one-layer image in memory that stays mapped. -/
structure Resident where
  /-- The reference it is listed as. -/
  key : Key
  ptr : Nat
  data : Bytes
  /-- Its build time. -/
  created : UInt64
  digest : Digest
  deriving DecidableEq

/-- `pending_t`: a staged layer that waits for a commit. -/
structure Pending where
  key : Key
  /-- Its place among the layers. -/
  index : Nat
  digest : Digest
  len : UInt32
  /-- When it was staged, relative to the others. -/
  order : UInt32
  deriving DecidableEq

/-- `stage_t` while a stage is active. The running hash and the length are those of the bytes
the store took. -/
structure Stage where
  /-- The plain route also commits when it finishes. -/
  plain : Bool
  /-- The first store error, returned by every later call. -/
  err : Option Errno
  /-- The bytes the store took. -/
  taken : Bytes
  key : Key
  layer : Nat
  deriving DecidableEq

structure State (σ : Type) where
  /-- The stores were started. -/
  ready : Bool
  /-- The stores of the platform, the first holding the entry records. -/
  stores : List σ
  /-- The newest install sequence. -/
  seq : UInt32
  /-- The order of the newest pending layer. -/
  order : UInt32
  stage : Option Stage
  pending : List (Option Pending)
  maps : List (Option MapSlot)
  resident : List Resident

/-- What the registry is built on: the build's limits, the store operations and the hash. -/
structure System (σ : Type) where
  /-- The build's limits. -/
  cfg : Config
  ops : StoreOps σ
  sha256 : Bytes → Digest

variable {σ : Type} (sys : System σ)

/-! ### References and keys -/

/-- `parseRef`: splits `<name>[:<version>]` into a key. -/
def parseRef (ref : Bytes) : Rc Key :=
  let text := cString ref
  if text = [] then .error .einval
  else
    let name := text.takeWhile (· ≠ 58)
    let version := (text.dropWhile (· ≠ 58)).drop 1
    if name.length = 0 ∨ registryKeyNameLen ≤ name.length ∨
        registryKeyNameLen ≤ version.length then .error .enametoolong
    else .ok ⟨name, version⟩

/-- `reg_entry_t`, as far as the registry reads it. -/
structure Entry where
  name : Bytes
  /-- The version, empty for the newest. -/
  version : Bytes
  deriving DecidableEq

/-- `keyFromEntry`: `strncpy` keeps all but the last byte of the field. -/
def keyFromEntry (entry : Entry) : Key :=
  ⟨(cString entry.name).take (registryKeyNameLen - 1),
    (cString entry.version).take (registryKeyNameLen - 1)⟩

/-- `keyCmp a b < 0`. -/
def keyBefore (a b : Key) : Bool := a.name < b.name ∨ (a.name = b.name ∧ a.version < b.version)

/-- One insertion of `sortKeys`: after the keys that do not come later. -/
def insertKey (key : Key) : List Key → List Key
  | [] => [key]
  | other :: rest =>
    if keyBefore key other then key :: other :: rest else other :: insertKey key rest

/-- `sortKeys`: an insertion sort. -/
def sortKeys (keys : List Key) : List Key := keys.foldl (fun sorted key => insertKey key sorted) []

/-! ### Records and residents -/

variable (r : State σ)

def residentFind (key : Key) : Option Resident :=
  r.resident.find? fun image => image.key = key

def residentByDigest (digest : Digest) : Option Resident :=
  r.resident.find? fun image => image.digest = digest

/-- `residentMeta`: the record a resident image reads as. -/
def residentMeta (image : Resident) : Meta :=
  { size := image.data.length.toUInt32, keyId := 0, installSeq := 0, installed := 0
    created := image.created, flags := metaSeeded ||| metaClockUnset
    layers := [⟨image.data.length.toUInt32, image.digest⟩], signature := Signature.zero }

/-- `recGet` of the primary store, `-ENODEV` without one. -/
def primaryGet (key : Key) : Rc Bytes :=
  match r.stores with
  | [] => .error .enodev
  | p :: _ => sys.ops.recGet p key registryRecordMax

/-- `readMeta`: an installed entry wins over a resident image of the same reference. -/
def readMeta (key : Key) : Rc Meta :=
  match primaryGet sys r key with
  | .ok bytes =>
    match registryRecordDecode sys.cfg bytes with
    | some record => .ok record
    | none => .error .enoent
  | .error e =>
    match residentFind r key with
    | none => .error e
    | some image => .ok (residentMeta image)

/-- `residentOnly`: the reference has a resident image and no installed entry. -/
def residentOnly (key : Key) : Bool :=
  (residentFind r key).isSome && !succeeded (primaryGet sys r key)

def writeMeta (key : Key) (record : Meta) : Rc Unit × State σ :=
  match r.stores with
  | [] => (.error .enodev, r)
  | p :: others =>
    match registryRecordEncode sys.cfg record with
    | none => (.error .einval, r)
    | some bytes =>
      let (rc, p) := sys.ops.recPut p key bytes
      (rc, { r with stores := p :: others })

/-- `recList` of the primary store, `-ENODEV` without one. -/
def primaryList : Rc (List Key) :=
  match r.stores with
  | [] => .error .enodev
  | p :: _ => sys.ops.recList p

/-- The resident keys that a listing lacks, added in turn. -/
def addResidentKeys (resident : List Resident) (keys : List Key) : List Key :=
  resident.foldl (fun keys image => if image.key ∈ keys then keys else keys ++ [image.key]) keys

/-- `listKeys`: the first entries of the store, the resident images, in sort order. -/
def listKeys : Rc (List Key) :=
  match primaryList sys r with
  | .error e => .error e
  | .ok keys => .ok (sortKeys (addResidentKeys r.resident (keys.take registryMaxEntries)))

/-- The newest entry of a name among some keys; a tie keeps the earlier one. -/
def newestOf (r : State σ) (name : Bytes) (best : Option (Key × Meta)) : List Key → Option (Key × Meta)
  | [] => best
  | key :: rest =>
    if key.name ≠ name then newestOf r name best rest
    else
      match readMeta sys r key with
      | .error _ => newestOf r name best rest
      | .ok candidate =>
        match best with
        | none => newestOf r name (some (key, candidate)) rest
        | some found =>
          if found.2.installSeq < candidate.installSeq then
            newestOf r name (some (key, candidate)) rest
          else newestOf r name best rest

/-- `resolve`: the entry a key names. A key with no version takes the newest entry. -/
def resolve (key : Key) : Rc (Key × Meta) :=
  if key.version ≠ [] then (readMeta sys r key).map fun record => (key, record)
  else
    match listKeys sys r with
    | .error e => .error e
    | .ok keys =>
      match newestOf sys r key.name none keys with
      | none => .error .enoent
      | some found => .ok found

/-! ### Freeing blobs -/

/-- Adds the digests a set lacks; none when the set is full. -/
def addDigests : List Digest → List Digest → Option (List Digest)
  | refs, [] => some refs
  | refs, digest :: rest =>
    if digest ∈ refs then addDigests refs rest
    else if refs.length = maxBlobs then none
    else addDigests (refs ++ [digest]) rest

/-- The loop of `listedDigests` over the keys. -/
def collectDigests (r : State σ) (refs : List Digest) : List Key → Option (List Digest)
  | [] => some refs
  | key :: rest =>
    match primaryGet sys r key with
    | .error .enoent => collectDigests r refs rest
    | .error _ => none
    | .ok bytes =>
      match registryRecordDecode sys.cfg bytes with
      | none => collectDigests r refs rest
      | some record =>
        match addDigests refs record.digests with
        | none => none
        | some refs => collectDigests r refs rest

/-- `listedDigests`: every digest a store record lists, or none when the set may be short. -/
def listedDigests : Option (List Digest) :=
  match r.stores with
  | [] => some []
  | p :: _ =>
    match sys.ops.recList p with
    | .error _ => none
    | .ok keys => if registryMaxEntries < keys.length then none else collectDigests sys r [] keys

/-- `held`: a pending layer or a mapping has the digest. -/
def held (digest : Digest) : Bool :=
  r.pending.any (fun slot => slot.any fun layer => layer.digest = digest) ||
    r.maps.any (fun slot => slot.any fun mapped => mapped.digest = digest)

def dropFrom (digest : Digest) (store : σ) : σ :=
  if sys.ops.blobHas store digest then (sys.ops.blobDrop store digest).2 else store

/-- `dropAllIfFree`: frees each of the digests that nothing lists, stages, or maps. A listing
that may be short frees nothing. -/
def dropAllIfFree (digests : List Digest) : State σ :=
  if digests = [] then r
  else
    match listedDigests sys r with
    | none => r
    | some refs =>
      { r with
        stores := (digests.filter fun digest => digest ∉ refs ∧ ¬ held r digest).foldl
          (fun stores digest => stores.map (dropFrom sys digest)) r.stores }

/-- `reclaim` in one store: what it lists and no entry does. -/
def reclaimStore (refs : List Digest) (store : σ) : σ :=
  match sys.ops.blobList store with
  | .error _ => store
  | .ok digests =>
    ((digests.take maxBlobs).filter fun digest => digest ∉ refs).foldl
      (fun store digest => (sys.ops.blobDrop store digest).2) store

/-- `reclaim`: frees every blob no entry lists, after a reset cut an install. -/
def reclaim : State σ :=
  match listedDigests sys r with
  | none => r
  | some refs => { r with stores := r.stores.map (reclaimStore sys refs) }

/-- The newest install sequence among some entries, or the one already known. -/
def newestSeq (seq : UInt32) (keys : List Key) : UInt32 :=
  keys.foldl (fun seq key =>
    match readMeta sys r key with
    | .error _ => seq
    | .ok record => if seq < record.installSeq then record.installSeq else seq) seq

def startStores : State σ := { r with stores := r.stores.map sys.ops.init }

/-- The newest install sequence of all the entries. -/
def startSeq : UInt32 :=
  match listKeys sys r with
  | .error _ => 0
  | .ok keys => newestSeq sys r 0 keys

/-- `ensureReady`: starts the stores and reclaims what a reset left, once. -/
def ensureReady : State σ :=
  if r.ready then r
  else
    let started := startStores sys r
    { reclaim sys { started with seq := startSeq sys started } with ready := true }

end WantedEngine.Registry
