import WantedEngine.Registry.Entries
import WantedEngine.Foundation.Machine
/-!
# The registry's operations

Staging, committing, removing, mapping and linking (`registry.c`). Every function runs under
the registry lock, so an operation is one step of `registryMachine`. What the clock and the
allocator answer is part of the request, and so are the moments the device restarts.
-/
namespace WantedEngine.Registry

open Foundation

variable {σ : Type} (sys : System σ)

/-! ### Pending layers -/

def isLayer (key : Key) (index : Nat) (slot : Option Pending) : Bool :=
  slot.any fun layer => layer.key = key ∧ layer.index = index

/-- The place of the oldest pending layer from a place on, or the one found so far. -/
def oldestFrom (pos : Nat) (best : Option (Nat × UInt32)) : List (Option Pending) →
    Option (Nat × UInt32)
  | [] => best
  | none :: rest => oldestFrom (pos + 1) best rest
  | some layer :: rest =>
    match best with
    | none => oldestFrom (pos + 1) (some (pos, layer.order)) rest
    | some found =>
      if layer.order < found.2 then oldestFrom (pos + 1) (some (pos, layer.order)) rest
      else oldestFrom (pos + 1) best rest

/-- The slot `pendingAdd` takes: the layer's own, else the first free one, else the oldest. -/
def pendingSlot (pending : List (Option Pending)) (key : Key) (index : Nat) : Nat :=
  match pending.findIdx? (isLayer key index) with
  | some own => own
  | none =>
    match pending.findIdx? (fun slot => slot.isNone) with
    | some free => free
    | none => ((oldestFrom 0 none pending).map Prod.fst).getD 0

/-- What `pendingAdd` replaces: the digest of the slot's layer when it is another one. -/
def replacedDigest (pending : List (Option Pending)) (pos : Nat) (digest : Digest) : List Digest :=
  match pending[pos]? with
  | some (some layer) => if layer.digest ≠ digest then [layer.digest] else []
  | _ => []

variable (r : State σ)

/-- `pendingAdd`: records the slot before freeing what it held. -/
def pendingAdd (key : Key) (index : Nat) (digest : Digest) (len : UInt32) : State σ :=
  let pos := pendingSlot r.pending key index
  let replaced := replacedDigest r.pending pos digest
  let order := r.order + 1
  dropAllIfFree sys
    { r with order, pending := r.pending.set pos (some ⟨key, index, digest, len, order⟩) }
    replaced

def pendingFind (pending : List (Option Pending)) (key : Key) (index : Nat) : Option Pending :=
  (pending.find? (isLayer key index)).join

/-! ### Committing -/

/-- The layers a commit publishes, from a place on, and their total length. -/
def gatherLayers (pending : List (Option Pending)) (key : Key) (size : UInt32) (pos : Nat) :
    (count : Nat) → Rc (List Layer × UInt32)
  | 0 => .ok ([], size)
  | count + 1 =>
    match pendingFind pending key pos with
    | none => .error .enoent
    | some layer =>
      if size + layer.len < size then .error .efbig
      else
        match gatherLayers pending key (size + layer.len) (pos + 1) count with
        | .error e => .error e
        | .ok (layers, total) => .ok (⟨layer.len, layer.digest⟩ :: layers, total)

/-- `syncSeq`: the next sequence follows every record there is. -/
def syncSeq : State σ :=
  match primaryList sys r with
  | .error _ => r
  | .ok keys => { r with seq := newestSeq sys r r.seq (keys.take registryMaxEntries) }

/-- `recordCount`, where a refused listing counts less than any limit. -/
def recordCount : Nat :=
  match primaryList sys r with
  | .error _ => 0
  | .ok keys => keys.length

def isOf (key : Key) (slot : Option Pending) : Bool := slot.any fun layer => layer.key = key

/-- The staged layers of an entry past those it commits. -/
def surplusDigests (pending : List (Option Pending)) (key : Key) (count : Nat) : List Digest :=
  pending.filterMap fun slot =>
    slot.bind fun layer =>
      if layer.key = key ∧ count ≤ layer.index then some layer.digest else none

/-- The table without the layers of an entry. -/
def clearPending (pending : List (Option Pending)) (key : Key) : List (Option Pending) :=
  pending.map fun slot => if isOf key slot then none else slot

/-- What a commit frees: the layers of the entry it replaces and the staged ones past its
count, as many as its buffer takes. -/
def freedDigests (old : Rc Meta) (pending : List (Option Pending)) (key : Key)
    (count : Nat) : List Digest :=
  (match old with
    | .ok record => record.digests
    | .error _ => []) ++ surplusDigests pending key count

/-- The record a commit writes. -/
def commitMeta (layers : List Layer) (size seq : UInt32) (now : Option UInt64)
    (created : Option UInt64) : Meta :=
  { size, keyId := 0, installSeq := seq + 1, installed := now.getD 0
    created := created.getD 0, flags := if now.isNone then metaClockUnset else 0, layers
    signature := Signature.zero }

/-- `commitLocked`. The clock answers the seconds when it is valid. -/
def commitLocked (key : Key) (count : Nat) (created : Option UInt64)
    (now : Option UInt64) : Rc Unit × State σ :=
  if count = 0 then (.error .einval, r)
  else if sys.cfg.maxLayers < count then (.error .e2big, r)
  else
    match gatherLayers r.pending key 0 0 count with
    | .error e => (.error e, r)
    | .ok (layers, size) =>
      let old := readMeta sys r key
      if !succeeded old ∧ registryMaxEntries ≤ recordCount sys r then (.error .enospc, r)
      else
        let r := syncSeq sys r
        let record := commitMeta layers size r.seq now created
        match writeMeta sys r key record with
        | (.error e, r) => (.error e, r)
        | (.ok (), r) =>
          let freed := (freedDigests old r.pending key count).take (maxPending sys.cfg)
          (.ok (), dropAllIfFree sys
            { r with seq := record.installSeq, pending := clearPending r.pending key } freed)

/-! ### Staging -/

/-- The primary store replaced. -/
def setPrimary (p : σ) : State σ :=
  { r with stores := r.stores.set 0 p }

/-- `stageWriteLocked`: the first error sticks; the hash follows the bytes the store took. -/
def stageWriteLocked (p : σ) (stage : Stage) (buf : Bytes) : Rc Nat × State σ :=
  match stage.err with
  | some e => (.error e, r)
  | none =>
    match sys.ops.stageWrite p buf with
    | (.error e, p) =>
      (.error e, setPrimary { r with stage := some { stage with err := some e } } p)
    | (.ok taken, p) =>
      (.ok taken, setPrimary
        { r with stage := some { stage with taken := stage.taken ++ buf.take taken } } p)

def stageDrop (p : σ) : State σ :=
  setPrimary { r with stage := none } (sys.ops.stageAbort p)

def stageFinishLocked (p : σ) (stage : Stage) (now : Option UInt64) : Rc Unit × State σ :=
  match stage.err with
  | some e => (.error e, stageDrop sys r p)
  | none =>
    if stage.taken = [] then (.error .einval, stageDrop sys r p)
    else
      let digest := sys.sha256 stage.taken
      match sys.ops.stageEnd p digest stage.taken.length with
      | (.error e, p) => (.error e, setPrimary { r with stage := none } p)
      | (.ok (), p) =>
        let r := setPrimary { r with stage := none } p
        let r := pendingAdd sys r stage.key stage.layer digest stage.taken.length.toUInt32
        if stage.plain then commitLocked sys r stage.key 1 none now else (.ok (), r)

/-- `write_state_t` with what each state carries. -/
inductive WriteState where
  /-- `START_WRITE`: the reference, the layer, and what the allocator of the hash answers. -/
  | start (ref : Bytes) (layer : Nat) (allocated : Bool)
  /-- `CONTINUE_WRITE`. -/
  | next
  /-- `FINISH_WRITE`, with what the clock answers. -/
  | finish (now : Option UInt64)
  /-- `ABORT_WRITE`. -/
  | abort
  deriving DecidableEq

/-- `START_WRITE` of `writeLayerLocked`. -/
def startWrite (p : σ) (plain : Bool) (ref : Bytes) (layer : Nat)
    (allocated : Bool) (buf : Bytes) : Rc Nat × State σ :=
  if buf = [] then (.error .einval, r)
  else if r.stage.isSome then (.error .ebusy, r)
  else
    match parseRef ref with
    | .error e => (.error e, r)
    | .ok key =>
      if sys.cfg.maxLayers ≤ layer then (.error .einval, r)
      else if ¬ allocated then (.error .enomem, r)
      else
        match sys.ops.stageBegin p with
        | (.error e, p) => (.error e, setPrimary r p)
        | (.ok (), p) =>
          match sys.ops.stageWrite p buf with
          | (.error e, p) => (.error e, stageDrop sys r p)
          | (.ok taken, p) =>
            (.ok taken, setPrimary
              { r with stage := some ⟨plain, none, buf.take taken, key, layer⟩ } p)

def writeLayerLocked (state : WriteState) (plain : Bool) (buf : Bytes) : Rc Nat × State σ :=
  match r.stores with
  | [] => (.error .enodev, r)
  | p :: _ =>
    match state with
    | .start ref layer allocated =>
      startWrite sys r p plain ref (if plain then 0 else layer) allocated buf
    | .next =>
      match r.stage with
      | none => (.error .ebadf, r)
      | some stage =>
        if buf = [] then (.error .einval, r) else stageWriteLocked sys r p stage buf
    | .finish now =>
      match r.stage with
      | none => (.error .ebadf, r)
      | some stage =>
        let (rc, r) := stageFinishLocked sys r p stage now
        (rc.map fun _ => 0, r)
    | .abort =>
      match r.stage with
      | none => (.error .ebadf, r)
      | some _ => (.ok 0, stageDrop sys r p)

/-! ### Mapping -/

/-- The first store that has a blob: its place and its state. -/
def storeHolding (stores : List σ) (digest : Digest) : Option (Nat × σ) :=
  match stores.findIdx? (fun store => sys.ops.blobHas store digest) with
  | none => none
  | some pos => stores[pos]?.map fun store => (pos, store)

/-- `mapBlob`: a further user of a mapping, a resident image, or a new mapping. -/
def mapBlob (digest : Digest) (len : Nat) : Rc BlobMap × State σ :=
  match r.maps.findIdx? (fun slot => slot.any fun mapped => mapped.digest = digest) with
  | some pos =>
    match r.maps[pos]?.join with
    | none => (.error .enoent, r)
    | some mapped =>
      (.ok mapped.map,
        { r with maps := r.maps.set pos (some { mapped with users := mapped.users + 1 }) })
  | none =>
    match residentByDigest r digest, storeHolding sys r.stores digest,
        r.maps.findIdx? (fun slot => slot.isNone) with
    | some _, _, none => (.error .enomem, r)
    | some image, _, some free =>
      let map : BlobMap := ⟨image.ptr, image.data, image.digest⟩
      (.ok map, { r with maps := r.maps.set free (some ⟨none, map, image.digest, 1⟩) })
    | none, none, _ => (.error .enoent, r)
    | none, some _, none => (.error .enomem, r)
    | none, some (pos, store), some free =>
      match sys.ops.blobMap store digest len with
      | (.error e, store) => (.error e, { r with stores := r.stores.set pos store })
      | (.ok map, store) =>
        (.ok map,
          { r with
            stores := r.stores.set pos store
            maps := r.maps.set free (some ⟨some pos, map, digest, 1⟩) })

def releaseMap (stores : List σ) (mapped : MapSlot) : List σ :=
  match mapped.store with
  | none => stores
  | some pos => stores.modify pos fun store => sys.ops.blobUnmap store mapped.map

/-- `unmapPtr`: the last user of a mapping to go unmaps it. -/
def unmapPtr (ptr : Nat) : State σ :=
  match r.maps.findIdx? (fun slot => slot.any fun mapped => mapped.map.ptr = ptr) with
  | none => r
  | some pos =>
    match r.maps[pos]?.join with
    | none => r
    | some mapped =>
      if 1 < mapped.users then
        { r with maps := r.maps.set pos (some { mapped with users := mapped.users - 1 }) }
      else
        dropAllIfFree sys
          { r with stores := releaseMap sys r.stores mapped, maps := r.maps.set pos none }
          [mapped.digest]

/-- Map layers in turn; a failure releases those mapped before it. -/
def mapAll (r : State σ) (mapped : List BlobMap) : List Layer → Rc (List BlobMap) × State σ
  | [] => (.ok mapped, r)
  | layer :: rest =>
    match mapBlob sys r layer.digest layer.len.toNat with
    | (.error e, r) => (.error e, mapped.foldl (fun r map => unmapPtr sys r map.ptr) r)
    | (.ok map, r) => mapAll r (mapped ++ [map]) rest

/-- `mapLayersLocked`: every layer of the entry, topmost first. -/
def mapLayersLocked (entry : Entry) : Rc (Key × List BlobMap) × State σ :=
  match resolve sys r (keyFromEntry entry) with
  | .error e => (.error e, r)
  | .ok (key, record) =>
    match mapAll sys r [] record.layers.reverse with
    | (.error e, r) => (.error e, r)
    | (.ok maps, r) => (.ok (key, maps), r)

/-! ### Entry points -/

/-- `RegistryMapLayers` and `RegistryLoad`: they map alike; a load also names the image. -/
def registryMapLayers (entry : Entry) : Rc (Key × List BlobMap) × State σ :=
  mapLayersLocked sys (ensureReady sys r) entry

/-- `RegistryUnmapLayers` and `RegistryUnload`: releases each range that is mapped. -/
def registryUnmapLayers (ptrs : List Nat) : State σ :=
  ptrs.foldl (unmapPtr sys) r

/-- `RegistryWrite` (plain) and `RegistryWriteLayer`. -/
def registryWrite (plain : Bool) (state : WriteState) (buf : Bytes) : Rc Nat × State σ :=
  writeLayerLocked sys (ensureReady sys r) state plain buf

def registryCommit (ref : Bytes) (count : Nat) (created now : Option UInt64) : Rc Unit × State σ :=
  match parseRef ref with
  | .error e => (.error e, r)
  | .ok key => commitLocked sys (ensureReady sys r) key count created now

def registryRemove (entry : Entry) : Rc Unit × State σ :=
  let r := ensureReady sys r
  match r.stores with
  | [] => (.error .enodev, r)
  | p :: others =>
    match resolve sys r (keyFromEntry entry) with
    | .error e => (.error e, r)
    | .ok (key, record) =>
      if record.has metaSeeded then (.error .eperm, r)
      else
        match sys.ops.recDel p key with
        | (.error e, p) => (.error e, { r with stores := p :: others })
        | (.ok (), p) =>
          (.ok (), dropAllIfFree sys { r with stores := p :: others } record.digests)

def registryMetaRead (entry : Entry) : Rc Meta × State σ :=
  let r := ensureReady sys r
  ((resolve sys r (keyFromEntry entry)).map Prod.snd, r)

/-- `RegistryMetaSetSignature`: attaches a key id and a signature to a committed entry. -/
def registryMetaSetSignature (entry : Entry) (keyId : UInt32)
    (signature : Signature) : Rc Unit × State σ :=
  let r := ensureReady sys r
  match resolve sys r (keyFromEntry entry) with
  | .error e => (.error e, r)
  | .ok (key, record) =>
    if residentOnly sys r key then (.error .eperm, r)
    else
      writeMeta sys r key { record with keyId, signature, flags := record.flags ||| metaSigned }

/-- `RegistryMarkSeeded`: marks an entry as firmware-provided. -/
def registryMarkSeeded (ref : Bytes) : State σ :=
  match parseRef ref with
  | .error _ => r
  | .ok want =>
    let r := ensureReady sys r
    match resolve sys r want with
    | .error _ => r
    | .ok (key, record) =>
      if residentOnly sys r key || record.has metaSeeded then r
      else (writeMeta sys r key { record with flags := record.flags ||| metaSeeded }).2

/-- `RegistryAddResident`: lists a one-layer image from memory that stays mapped. The data and
the allocator's answer come with the call. -/
def registryAddResident (ref : Bytes) (ptr : Nat) (data : Bytes)
    (created : UInt64) (allocated : Bool) : Rc Unit × State σ :=
  if data = [] then (.error .einval, r)
  else
    match parseRef ref with
    | .error e => (.error e, r)
    | .ok key =>
      if ¬ allocated then (.error .enomem, r)
      else
        let image : Resident := ⟨key, ptr, data, created, sys.sha256 data⟩
        match r.resident.findIdx? (fun other => other.key = key) with
        | some pos => (.ok (), { r with resident := r.resident.set pos image })
        | none =>
          if maxResident ≤ r.resident.length then (.error .enospc, r)
          else (.ok (), { r with resident := r.resident ++ [image] })

/-- `blobPresent`: a resident image or a store holds the blob. -/
def blobPresent (digest : Digest) : Bool :=
  (residentByDigest r digest).isSome || (storeHolding sys r.stores digest).isSome

/-- The length the last of some entries gives a blob, or the one found so far. -/
def listedLen (r : State σ) (digest : Digest) (found : Option UInt32) : List Key → Option UInt32
  | [] => found
  | key :: rest =>
    match readMeta sys r key with
    | .error _ => listedLen r digest found rest
    | .ok record =>
      match record.layers.find? fun layer => layer.digest = digest with
      | none => listedLen r digest found rest
      | some layer => listedLen r digest (some layer.len) rest

/-- `blobLookup`: the length of a blob that an entry lists and something holds. -/
def blobLookup (digest : Digest) : Option UInt32 :=
  match listKeys sys r with
  | .error _ => none
  | .ok keys =>
    match listedLen sys r digest none keys with
    | none => none
    | some len => if blobPresent sys r digest then some len else none

/-- `RegistryLinkLayer`: stages a layer as a blob the registry holds, with no bytes written. -/
def registryLinkLayer (ref : Bytes) (layer : Nat) (digest : Digest) : Rc Unit × State σ :=
  match parseRef ref with
  | .error e => (.error e, r)
  | .ok key =>
    if sys.cfg.maxLayers ≤ layer then (.error .einval, r)
    else
      let r := ensureReady sys r
      match blobLookup sys r digest with
      | none => (.error .enoent, r)
      | some len => (.ok (), pendingAdd sys r key layer digest len)

def registryClearResident : State σ := { r with resident := [] }

/-- The tables and the stage forgotten, the stores to be started again. -/
def forgotten : State σ :=
  { r with
    ready := false, stage := none
    pending := List.replicate (maxPending sys.cfg) none
    maps := List.replicate (maxMaps sys.cfg) none }

/-- The stage of the primary store dropped, when one is active. -/
def abortStage : List σ :=
  match r.stage, r.stores with
  | some _, p :: others => sys.ops.stageAbort p :: others
  | _, _ => r.stores

def releaseAll (stores : List σ) (maps : List (Option MapSlot)) : List σ :=
  maps.foldl (fun stores slot =>
    match slot with
    | none => stores
    | some mapped => releaseMap sys stores mapped) stores

def registryDeinit : State σ :=
  if ¬ r.ready then r
  else { forgotten sys r with stores := releaseAll sys (abortStage sys r) r.maps }

/-- A reset: memory is lost and the stores keep what they had stored. The firmware lists the
same resident images again before anything else reaches the registry. -/
def powerCycle : State σ := { forgotten sys r with seq := 0, order := 0 }

/-! ### The machine -/

inductive Request where
  /-- `RegistryWrite` when plain, else `RegistryWriteLayer`. -/
  | write (plain : Bool) (state : WriteState) (buf : Bytes)
  /-- `RegistryCommit`. -/
  | commit (ref : Bytes) (count : Nat) (created now : Option UInt64)
  /-- `RegistryRemove`. -/
  | remove (entry : Entry)
  /-- `RegistryMapLayers` or `RegistryLoad`. -/
  | mapLayers (entry : Entry)
  /-- `RegistryUnmapLayers` or `RegistryUnload`. -/
  | unmapLayers (ptrs : List Nat)
  /-- `RegistryMetaRead`, and every other operation that only reads. -/
  | metaRead (entry : Entry)
  /-- `RegistryMetaSetSignature`. -/
  | setSignature (entry : Entry) (keyId : UInt32) (signature : Signature)
  /-- `RegistryMarkSeeded`. -/
  | markSeeded (ref : Bytes)
  /-- `RegistryLinkLayer`. -/
  | linkLayer (ref : Bytes) (layer : Nat) (digest : Digest)
  /-- `RegistryAddResident`. -/
  | addResident (ref : Bytes) (ptr : Nat) (data : Bytes) (created : UInt64) (allocated : Bool)
  /-- `RegistryClearResident`. -/
  | clearResident
  /-- `RegistryInit`. -/
  | init
  /-- `RegistryDeinit`. -/
  | deinit
  /-- The device is reset. -/
  | powerCycle

inductive Answer where
  /-- A return code, with the bytes taken by a write. -/
  | rc (result : Rc Nat)
  /-- The image and its mapped layers, topmost first. -/
  | mapped (result : Rc (Key × List BlobMap))
  | record (result : Rc Meta)

/-- A return code of an operation that returns no number. -/
def Answer.ofUnit (result : Rc Unit) : Answer := .rc (result.map fun _ => 0)

def serve : Request → Answer × State σ
  | .write plain state buf => (registryWrite sys r plain state buf).map .rc id
  | .commit ref count created now => (registryCommit sys r ref count created now).map .ofUnit id
  | .remove entry => (registryRemove sys r entry).map .ofUnit id
  | .mapLayers entry => (registryMapLayers sys r entry).map .mapped id
  | .unmapLayers ptrs => (.rc (.ok 0), registryUnmapLayers sys r ptrs)
  | .metaRead entry => (registryMetaRead sys r entry).map .record id
  | .setSignature entry keyId signature =>
    (registryMetaSetSignature sys r entry keyId signature).map .ofUnit id
  | .markSeeded ref => (.rc (.ok 0), registryMarkSeeded sys r ref)
  | .linkLayer ref layer digest => (registryLinkLayer sys r ref layer digest).map .ofUnit id
  | .addResident ref ptr data created allocated =>
    (registryAddResident sys r ref ptr data created allocated).map .ofUnit id
  | .clearResident => (.rc (.ok 0), registryClearResident r)
  | .init => (.rc (.ok 0), ensureReady sys r)
  | .deinit => (.rc (.ok 0), registryDeinit sys r)
  | .powerCycle => (.rc (.ok 0), powerCycle sys r)

def registryMachine : Machine (State σ) Request Answer := ⟨serve sys⟩

/-- The registry before its first operation. -/
def booted (stores : List σ) (resident : List Resident) : State σ :=
  { ready := false, stores, seq := 0, order := 0, stage := none
    pending := List.replicate (maxPending sys.cfg) none
    maps := List.replicate (maxMaps sys.cfg) none, resident }

end WantedEngine.Registry
