import WantedEngine.Registry.Contract
import WantedEngine.Registry.Files
/-!
# The file store

The store of a platform with a file system (`registry-fs.c`): an entry record is a file of one
directory, a blob is a file of another, named by its digest, and the stage is a file that is
renamed to become a blob. A listing of the entry records reads every name of the directory that
parses as the name of a record; unlike that of the page store it skips no name by its first byte.

The images of the layout before blobs, which a start converts to records, are not in the model:
the directory of the store has none.
-/
namespace WantedEngine.Registry.Posix

open Foundation Function

/-- Where the records lie. -/
structure FileConfig where
  /-- The file a path below the entry directory leads to; none when a directory is missing. -/
  walk : Bytes → Option Bytes
  /-- A path with no slash is the name of a file of the directory. -/
  walk_direct : ∀ name : Bytes, (47 : UInt8) ∉ name → walk name = some name

/-- What the host answers, by the number of the operation that asks. An error is none when the
call succeeds. -/
structure Host where
  /-- The error of opening a file to write. -/
  opens : Nat → Option Errno
  /-- The error of a write; it may name none (`errno` is 0). -/
  writes : Nat → Option (Option Errno)
  /-- The bytes that a write which fails has put. -/
  taken : Nat → Nat
  closes : Nat → Option Errno
  renames : Nat → Option Errno
  deletes : Nat → Option Errno
  maps : Nat → Option Errno
  /-- Where a mapping lies. -/
  address : Nat → Nat

/-- The open stream of the stage. -/
structure FileStage where
  data : Bytes
  /-- The error indicator of the stream. -/
  failed : Bool
  deriving DecidableEq

/-- The store: its two directories and the stage. -/
structure FileStore where
  entries : Files
  blobs : Files
  stage : Option FileStage
  /-- How many operations asked the host. -/
  calls : Nat

variable (cfg : FileConfig) (host : Host)

variable (s : FileStore)

/-- An operation asked the host. -/
def FileStore.asked : FileStore := { s with calls := s.calls + 1 }

/-! ### Blobs -/

def stageBegin : Rc Unit × FileStore :=
  match host.opens s.calls with
  | some e => (.error e, s.asked)
  | none => (.ok (), { s.asked with stage := some ⟨[], false⟩ })

/-- `_StageWrite`. A write that fails for no stated reason ran out of space. -/
def stageWrite (buf : Bytes) : Rc Nat × FileStore :=
  match s.stage with
  | none => (.error .ebadf, s)
  | some stage =>
    match host.writes s.calls with
    | some e =>
      (.error (e.getD .enospc),
        { s.asked with stage := some ⟨stage.data ++ buf.take (host.taken s.calls), true⟩ })
    | none =>
      (.ok buf.length, { s.asked with stage := some { stage with data := stage.data ++ buf } })

/-- `_StageEnd`: the stage becomes the blob, or is dropped when the blob is there. -/
def stageEnd (digest : Digest) (_len : Nat) : Rc Unit × FileStore :=
  match s.stage with
  | none => (.error .ebadf, s)
  | some stage =>
    let ended := { s.asked with stage := none }
    if (host.closes s.calls).isSome then (.error .eio, ended)
    else if registryDigestToHex digest ∈ s.blobs then (.ok (), ended)
    else
      match host.renames s.calls with
      | some e => (.error e, ended)
      | none =>
        (.ok (), { ended with blobs := s.blobs.insert (registryDigestToHex digest) stage.data })

def stageAbort : FileStore := { s with stage := none }

def blobMap (digest : Digest) (_len : Nat) : Rc BlobMap × FileStore :=
  match s.blobs.lookup (registryDigestToHex digest) with
  | none => (.error .enoent, s)
  | some bytes =>
    match host.maps s.calls with
    | some e => (.error e, s.asked)
    | none => (.ok ⟨host.address s.calls, bytes, digest⟩, s.asked)

def blobUnmap (_map : BlobMap) : FileStore := s

def blobHas (digest : Digest) : Bool := registryDigestToHex digest ∈ s.blobs

def blobDrop (digest : Digest) : Rc Unit × FileStore :=
  if registryDigestToHex digest ∈ s.blobs then
    match host.deletes s.calls with
    | some e => (.error e, s.asked)
    | none => (.ok (), { s.asked with blobs := s.blobs.erase (registryDigestToHex digest) })
  else (.error .enoent, s.asked)

/-- `_BlobList`: the names of the directory that are digests. -/
def blobList : Rc (List Digest) :=
  .ok (s.blobs.keys.filterMap registryDigestFromHex)

/-! ### Entry records -/

def nameMax : Nat := 255

/-- `recPath`: the file of the record of a key. -/
def recPath (key : Key) : Rc Bytes :=
  let file := key.name ++ registryVersionSeparator :: (key.version ++ registryRecExt)
  if nameMax + 1 ≤ file.length then .error .enametoolong
  else
    match cfg.walk file with
    | none => .error .enoent
    | some file => .ok file

/-- `writeWhole`: the error of staging a file and renaming it over its target. -/
def writeWhole (call : Nat) : Option Errno :=
  match host.opens call with
  | some e => some e
  | none =>
    if (host.writes call).isSome ∨ (host.closes call).isSome then some .eio else host.renames call

def recPut (key : Key) (record : Bytes) : Rc Unit × FileStore :=
  match recPath cfg key with
  | .error e => (.error e, s)
  | .ok file =>
    match writeWhole host s.calls with
    | some e => (.error e, s.asked)
    | none => (.ok (), { s.asked with entries := s.entries.insert file record })

def recGet (key : Key) (cap : Nat) : Rc Bytes :=
  match recPath cfg key with
  | .error e => .error e
  | .ok file => regFilesGet s.entries file cap

def recDel (key : Key) : Rc Unit × FileStore :=
  match recPath cfg key with
  | .error e => (.error e, s)
  | .ok file =>
    if file ∈ s.entries then
      match host.deletes s.calls with
      | some e => (.error e, s.asked)
      | none => (.ok (), { s.asked with entries := s.entries.erase file })
    else (.error .enoent, s.asked)

/-- `_RecList` by `listRaw`. A name with a slash lies in another directory. -/
def recList : Rc (List Key) :=
  .ok ((s.entries.keys.filter fun name => (47 : UInt8) ∉ name).filterMap regFilesParseKey)

/-- `_Init`: the stage that a reset left is removed. -/
def init : FileStore := { s with stage := none }

def fileOps : StoreOps FileStore where
  init := init
  stageBegin := stageBegin host
  stageWrite := stageWrite host
  stageEnd := stageEnd host
  stageAbort := stageAbort
  blobMap := blobMap host
  blobUnmap := blobUnmap
  blobHas := blobHas
  blobDrop := blobDrop host
  blobList := blobList
  recPut := recPut cfg host
  recGet := recGet cfg
  recDel := recDel cfg host
  recList := recList

/-! ### The file store keeps the promise of a store -/

def stageReading : StageView :=
  match s.stage with
  | none => .idle
  | some stage => if stage.failed then .broken else .writing stage.data

/-- The name of a record: the file it is in, none when no file can be. -/
def recordName (key : Key) : Option Bytes :=
  match recPath cfg key with
  | .error _ => none
  | .ok file => some file

/-- A key whose file is in the directory and reads back as the key. -/
def Listable (key : Key) : Prop :=
  ∃ file, regFilesParseKey file = some key ∧ (47 : UInt8) ∉ file

/-- How the state of the file store is read. A mapping keeps no blob from being freed. -/
def fileReading : Reading FileStore (Option Bytes) where
  good _ := True
  view s :=
    { records := fun name => name.bind s.entries.lookup
      blobs := fun digest => s.blobs.lookup (registryDigestToHex digest)
      stage := stageReading s }
  busy _ _ := False
  recName := recordName cfg
  listable := Listable

variable {cfg host s}

/-- A state is read by its directories and its stage. -/
lemma becomes_of_view {after : FileStore} {view : View (Option Bytes)}
    (reads : (fileReading cfg).view after = view) :
    (fileReading cfg).Becomes s after view := ⟨trivial, reads, fun _ busy => busy⟩

variable {data : Bytes}

lemma stage_of_reading (writing : stageReading s = .writing data) : s.stage = some ⟨data, false⟩ := by
  unfold stageReading at writing
  split at writing
  · cases writing
  rename_i stage opened
  obtain ⟨_, failed⟩ := stage
  cases failed with
  | true => cases writing
  | false =>
    cases writing
    exact opened

lemma stageBegin_becomes (idle : stageReading s = .idle) :
    (fileReading cfg).Becomes s (stageBegin host s).2
      { (fileReading cfg).view s with
        stage := if succeeded (stageBegin host s).1 then .writing [] else .idle } := by
  apply becomes_of_view
  unfold stageBegin
  cases host.opens s.calls with
  | none => rfl
  | some e =>
    have stays : stageReading s.asked = .idle := idle
    simp only [fileReading, stays]
    rfl

lemma stageWrite_becomes (buf : Bytes) (writing : stageReading s = .writing data) :
    (fileReading cfg).Becomes s (stageWrite host s buf).2
      { (fileReading cfg).view s with
        stage := match (stageWrite host s buf).1 with
          | .ok taken => .writing (data ++ buf.take taken)
          | .error _ => .broken } := by
  apply becomes_of_view
  unfold stageWrite
  rw [stage_of_reading writing]
  cases host.writes s.calls with
  | none =>
    simp only [List.take_length]
    rfl
  | some e => rfl

variable (host) in
lemma stageEnd_cases {stage : FileStage} (opened : s.stage = some stage) (digest : Digest) (len : Nat) :
    (∃ e, stageEnd host s digest len = (.error e, { s.asked with stage := none })) ∨
    (registryDigestToHex digest ∈ s.blobs ∧
      stageEnd host s digest len = (.ok (), { s.asked with stage := none })) ∨
    (registryDigestToHex digest ∉ s.blobs ∧
      stageEnd host s digest len =
        (.ok (), { s.asked with
          stage := none
          blobs := s.blobs.insert (registryDigestToHex digest) stage.data })) := by
  unfold stageEnd
  rw [opened]
  dsimp only
  by_cases closed : (host.closes s.calls).isSome = true
  · rw [if_pos closed]
    exact .inl ⟨_, rfl⟩
  rw [if_neg closed]
  by_cases there : registryDigestToHex digest ∈ s.blobs
  · rw [if_pos there]
    exact .inr (.inl ⟨there, rfl⟩)
  rw [if_neg there]
  cases host.renames s.calls with
  | some e => exact .inl ⟨e, rfl⟩
  | none => exact .inr (.inr ⟨there, rfl⟩)

lemma stageEnd_becomes (digest : Digest) (len : Nat) (writing : stageReading s = .writing data) :
    (fileReading cfg).Becomes s (stageEnd host s digest len).2
      { (fileReading cfg).view s with
        stage := .idle
        blobs := if succeeded (stageEnd host s digest len).1 then
            keepBlob ((fileReading cfg).view s).blobs digest data
          else ((fileReading cfg).view s).blobs } := by
  apply becomes_of_view
  rcases stageEnd_cases host (stage_of_reading writing) digest len with
    ⟨e, ended⟩ | ⟨there, ended⟩ | ⟨lacks, ended⟩
  · simp only [ended]
    rfl
  · have has := AList.lookup_isSome.mpr there
    simp only [ended, fileReading, keepBlob, has]
    rfl
  · have missing := AList.lookup_eq_none.mpr lacks
    have blobs : (fun other => (s.blobs.insert (registryDigestToHex digest) data).lookup
        (registryDigestToHex other)) =
        keepBlob (fun other => s.blobs.lookup (registryDigestToHex other)) digest data := by
      have absent : ¬ (s.blobs.lookup (registryDigestToHex digest)).isSome = true := by
        simp [missing]
      rw [keepBlob, if_neg absent]
      exact lookup_insert_update (some ∘ registryDigestToHex) data rfl fun _ same =>
        registryDigestToHex_injective (Option.some.inj same)
    simp only [ended, fileReading, blobs]
    rfl

lemma blobDrop_becomes (reliable : ∀ call, host.deletes call = none) {digest : Digest}
    (held : (s.blobs.lookup (registryDigestToHex digest)).isSome = true) :
    (fileReading cfg).Becomes s (blobDrop host s digest).2
      { (fileReading cfg).view s with
        blobs := update ((fileReading cfg).view s).blobs digest none } := by
  apply becomes_of_view
  unfold blobDrop
  rw [if_pos (AList.lookup_isSome.mp held), reliable]
  simp only [fileReading]
  congr 1
  exact lookup_erase_update (some ∘ registryDigestToHex) rfl fun _ same =>
    registryDigestToHex_injective (Option.some.inj same)

lemma recPut_becomes (s : FileStore) (key : Key) (record : Bytes) :
    (fileReading cfg).Becomes s (recPut cfg host s key record).2
      { (fileReading cfg).view s with
        records := if succeeded (recPut cfg host s key record).1 then
            update ((fileReading cfg).view s).records (recordName cfg key) (some record)
          else ((fileReading cfg).view s).records } := by
  apply becomes_of_view
  unfold recPut recordName
  cases recPath cfg key with
  | error e => rfl
  | ok file =>
    cases writeWhole host s.calls with
    | some e => rfl
    | none =>
      simp only [fileReading]
      congr 1
      exact lookup_insert_update id record rfl fun _ => id

variable (cfg host) in
lemma recDel_cases (s : FileStore) (key : Key) : (∃ file, recPath cfg key = .ok file ∧
      recDel cfg host s key = (.ok (), { s.asked with entries := s.entries.erase file })) ∨
    ∃ e after, recDel cfg host s key = (.error e, after) ∧
      (fileReading cfg).view after = (fileReading cfg).view s := by
  unfold recDel
  cases named : recPath cfg key with
  | error e => exact .inr ⟨e, s, rfl, rfl⟩
  | ok file =>
    dsimp only
    by_cases there : file ∈ s.entries
    · rw [if_pos there]
      cases host.deletes s.calls with
      | some e => exact .inr ⟨e, s.asked, rfl, rfl⟩
      | none => exact .inl ⟨file, rfl, rfl⟩
    · rw [if_neg there]
      exact .inr ⟨.enoent, s.asked, rfl, rfl⟩

lemma recDel_becomes (s : FileStore) (key : Key) : (fileReading cfg).Becomes s (recDel cfg host s key).2
      { (fileReading cfg).view s with
        records := if succeeded (recDel cfg host s key).1 then
            update ((fileReading cfg).view s).records (recordName cfg key) none
          else ((fileReading cfg).view s).records } := by
  apply becomes_of_view
  rcases recDel_cases cfg host s key with ⟨_, named, gone⟩ | ⟨_, _, refused, same⟩
  · simp only [gone, recordName, named, fileReading]
    congr 1
    exact lookup_erase_update id rfl fun _ => id
  · simp only [refused, same]
    rfl

lemma recordName_of_parse {file : Bytes} {key : Key} (direct : (47 : UInt8) ∉ file)
    (parsed : regFilesParseKey file = some key) : recordName cfg key = some file := by
  have name := regFilesKeyName_of_parse parsed
  unfold regFilesKeyName at name
  dsimp only at name
  split at name
  · cases name
  rename_i short
  cases name
  have fits : ¬ nameMax + 1 ≤
      (key.name ++ registryVersionSeparator :: (key.version ++ registryRecExt)).length := by
    unfold nameMax
    unfold registryKeyNameLen at short
    omega
  simp only [recordName, recPath, if_neg fits, cfg.walk_direct _ direct]

lemma recList_spec (s : FileStore) : ∃ keys, recList s = .ok keys ∧ (keys.map (recordName cfg)).Nodup ∧
      (∀ key ∈ keys, ((recordName cfg key).bind s.entries.lookup).isSome = true) ∧
      ∀ key, Listable key →
        ((recordName cfg key).bind s.entries.lookup).isSome = true → key ∈ keys := by
  obtain ⟨⟨nodup, listed⟩, lists⟩ := parsed_spec s.entries (fun name => (47 : UInt8) ∉ name)
    fun isShown parsed =>
      show recordName cfg _ = _ from recordName_of_parse (of_decide_eq_true isShown) parsed
  refine ⟨_, rfl, nodup, listed, ?_⟩
  rintro key ⟨_, parsed, direct⟩ present
  exact lists (decide_eq_true direct) parsed present

lemma blobList_spec (s : FileStore) : ∃ digests, blobList s = .ok digests ∧ digests.Nodup ∧
      ∀ digest, digest ∈ digests ↔ (s.blobs.lookup (registryDigestToHex digest)).isSome = true := by
  refine ⟨_, rfl, s.blobs.keys_nodup.filterMap ?_, fun digest => ?_⟩
  · intro a b digest readA readB
    rw [← registryDigestToHex_of_fromHex readA, ← registryDigestToHex_of_fromHex readB]
  rw [AList.lookup_isSome, List.mem_filterMap]
  constructor
  · rintro ⟨_, mem, read⟩
    rw [registryDigestToHex_of_fromHex read]
    exact mem
  · exact fun mem => ⟨_, mem, registryDigestFromHex_toHex digest⟩

variable (cfg host) in
lemma blobMap_spec {digest : Digest} {bytes : Bytes} (len : Nat)
    (found : s.blobs.lookup (registryDigestToHex digest) = some bytes) :
    (fileReading cfg).view (blobMap host s digest len).2 = (fileReading cfg).view s ∧
      ∀ map, (blobMap host s digest len).1 = .ok map → map.bytes = bytes ∧ map.handle = digest := by
  unfold blobMap
  rw [found]
  cases host.maps s.calls with
  | some e => exact ⟨rfl, nofun⟩
  | none =>
    refine ⟨rfl, fun map mapped => ?_⟩
    cases mapped
    exact ⟨rfl, rfl⟩

lemma fileContract (reliable : ∀ call, host.deletes call = none) :
    Contract (fileOps cfg host) (fileReading cfg) where
  init := fun _ => ⟨becomes_of_view rfl, fun _ busy => busy⟩
  stageBegin := fun _ idle => stageBegin_becomes idle
  stageWrite := fun buf _ writing => stageWrite_becomes buf writing
  stageEnd := fun {_ data} digest _ writing _ => stageEnd_becomes digest data.length writing
  stageAbort := fun _ => becomes_of_view rfl
  blobMap := fun len _ held _ =>
    have spec := blobMap_spec cfg host len held
    ⟨trivial, spec.1, fun _ busy => .inl busy, spec.2⟩
  blobUnmap := fun _ _ => ⟨becomes_of_view rfl, fun busy => busy⟩
  blobHas := fun {s} _ digest => by
    rw [Bool.eq_iff_iff]
    show decide (registryDigestToHex digest ∈ s.blobs) = true ↔
      (s.blobs.lookup (registryDigestToHex digest)).isSome = true
    rw [decide_eq_true_eq, AList.lookup_isSome]
  blobDrop := fun _ held _ => blobDrop_becomes reliable held
  blobList := fun {s} _ => blobList_spec s
  recPut := fun {s} key bytes _ => recPut_becomes s key bytes
  recGet := fun {s _} key cap _ found => regFilesGet_found (recPath cfg key) s.entries cap found
  recGet_none := fun {s} key cap _ missing =>
    regFilesGet_missing (recPath cfg key) s.entries cap missing
  recDel := fun {s} key _ => recDel_becomes s key
  recList := fun {s} _ => recList_spec s

end WantedEngine.Registry.Posix
