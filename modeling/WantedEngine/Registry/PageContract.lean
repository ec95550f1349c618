import WantedEngine.Registry.PageCalls
import WantedEngine.Registry.Contract
/-!
# The page store keeps the promise of a store

The state of the page store reads as records, blobs and a stage (`pageReading`), and every call
moves that reading as `registry-store.h` says: the page store meets `Contract`. A listing of
the entry records passes over the files whose names start with a dot or an underscore, and over
those that do not parse back, so not every key is listable.
-/
namespace WantedEngine.Registry.Page

open Foundation Function

section Reading

variable (cfg : PageConfig)

def stageReading (s : PageStore) : StageView :=
  if s.stage.active then
    if s.stage.failed then .broken else .writing (stageBytes cfg s.disk.flash s.stage)
  else .idle

/-- The name of a record: the file it is in, none when no file can be. -/
def recordName (key : Key) : Option Bytes :=
  match recordFile cfg key with
  | .error _ => none
  | .ok file => some file

/-- A key whose file a listing visits and reads back as the key. -/
def Listable (key : Key) : Prop :=
  ∃ file, regFilesKeyName key = .ok file ∧ visible file = true ∧ (47 : UInt8) ∉ file ∧
    regFilesParseKey file = some key

/-- How the state of the page store is read. A mapping keeps no blob from being freed. -/
def pageReading : Reading PageStore (Option Bytes) where
  good := PageOk cfg
  view s :=
    { records := fun name => name.bind s.disk.entries.lookup
      blobs := s.disk.blobAt cfg
      stage := stageReading cfg s }
  busy _ _ := False
  recName := recordName cfg
  listable := Listable

end Reading

variable {cfg : PageConfig} {s : PageStore} {host : Host} {digest : Digest} {key : Key}

variable {after : PageStore}

/-- A state with the same records and blobs reads the same but for the stage. -/
lemma becomes_of_keeps (ok : PageOk cfg after) (keeps : s.disk.Keeps cfg after.disk) {stage : StageView}
    (staged : stageReading cfg after = stage) :
    (pageReading cfg).Becomes s after { (pageReading cfg).view s with stage } := by
  refine ⟨ok, ?_, fun _ busy => busy⟩
  have bytes : after.disk.blobAt cfg = s.disk.blobAt cfg := funext keeps.bytes
  simp only [pageReading, keeps.entries, bytes, staged]

variable (cfg) in
lemma stageReading_of_same {after : PageStore} (stage : after.stage = s.stage)
    (flash : after.disk.flash = s.disk.flash) :
    stageReading cfg after = stageReading cfg s := by
  unfold stageReading
  rw [stage, flash]

variable (cfg) in
lemma stageReading_none (stage : s.stage = .none) : stageReading cfg s = .idle := by
  unfold stageReading
  rw [stage]
  rfl

variable {data : Bytes}

lemma writing_of_reading (writing : stageReading cfg s = .writing data) :
    s.stage.active = true ∧ s.stage.failed = false ∧ stageBytes cfg s.disk.flash s.stage = data := by
  unfold stageReading at writing
  split at writing
  · rename_i active
    split at writing
    · cases writing
    rename_i sound
    cases writing
    exact ⟨active, by simpa using sound, rfl⟩
  · cases writing

variable (cfg) in
lemma blobDrop_done (reliable : ∀ call, host.deletes call = none) {blob : BlobRec}
    (loaded : loadBlob s.disk.blobs digest = .ok blob) :
    (blobDrop cfg host s digest).2.disk =
      { s.disk with blobs := s.disk.blobs.erase (registryDigestToHex digest) } := by
  have answer : host.refuses (.delBlob (registryDigestToHex digest)) s.calls = none :=
    reliable s.calls
  unfold blobDrop
  rw [loaded]
  unfold perform
  rw [answer]
  rfl

lemma blobAt_isSome {disk : Disk} :
    (disk.blobAt cfg digest).isSome = true ↔ ∃ blob, loadBlob disk.blobs digest = .ok blob := by
  unfold Disk.blobAt
  cases loadBlob disk.blobs digest with
  | error e => simp
  | ok blob => simp

lemma listable_of_parse {file : Bytes} (shown : visible file = true)
    (direct : (47 : UInt8) ∉ file) (parsed : regFilesParseKey file = some key) :
    Listable key ∧ recordName cfg key = some file := by
  have name := regFilesKeyName_of_parse parsed
  refine ⟨⟨file, name, shown, direct, parsed⟩, ?_⟩
  unfold recordName recordFile
  rw [name]
  dsimp only
  rw [cfg.walk_direct file direct]

lemma active_of_reading (idle : stageReading cfg s = .idle) : s.stage.active = false := by
  unfold stageReading at idle
  split at idle
  · split at idle <;> cases idle
  · rename_i closed
    simpa using closed

lemma stageBegin_becomes (ok : PageOk cfg s) (idle : stageReading cfg s = .idle) :
    (pageReading cfg).Becomes s (stageBegin cfg s).2
      { (pageReading cfg).view s with
        stage := if succeeded (stageBegin cfg s).1 then .writing [] else .idle } := by
  obtain ⟨okAfter, quiet⟩ := stageBegin_ok ok
  have closed := active_of_reading idle
  refine becomes_of_keeps okAfter quiet.keeps ?_
  unfold stageBegin
  rw [closed]
  rfl

lemma stageWrite_becomes (host : Host) (buf : Bytes) (ok : PageOk cfg s)
    (writing : stageReading cfg s = .writing data) :
    (pageReading cfg).Becomes s (stageWrite cfg host s buf).2
      { (pageReading cfg).view s with
        stage := match (stageWrite cfg host s buf).1 with
          | .ok taken => .writing (data ++ buf.take taken)
          | .error _ => .broken } := by
  obtain ⟨active, sound, rfl⟩ := writing_of_reading writing
  obtain ⟨okAfter, quiet, stillActive, out⟩ := stageWrite_ok host ok active sound buf rfl
  refine becomes_of_keeps okAfter quiet.keeps ?_
  unfold stageReading
  rw [if_pos stillActive]
  split at out
  · rename_i failed
    rw [failed, if_pos out]
  rename_i wrote
  obtain ⟨rfl, sound, bytes⟩ := out
  rw [wrote, sound, bytes]
  simp

lemma stageEnd_becomes (host : Host) (digest : Digest) (ok : PageOk cfg s)
    (writing : stageReading cfg s = .writing data) {after}
    (ended : stageEnd cfg host s digest data.length = after) :
    (pageReading cfg).Becomes s after.2
      { (pageReading cfg).view s with
        stage := .idle
        blobs := if succeeded after.1 then keepBlob (s.disk.blobAt cfg) digest data
          else s.disk.blobAt cfg } := by
  obtain ⟨active, sound, bytes⟩ := writing_of_reading writing
  obtain ⟨okAfter, stage, out⟩ := stageEnd_cases host ok active sound digest data.length ended
  have idle := stageReading_none cfg stage
  obtain ⟨quiet, present⟩ | ⟨done, _, kept, blobEq⟩ := out
  · refine ⟨okAfter, ?_, fun _ busy => busy⟩
    have same : after.2.disk.blobAt cfg = s.disk.blobAt cfg := funext quiet.keeps.bytes
    have blobs : (if succeeded after.1 then keepBlob (s.disk.blobAt cfg) digest data
        else s.disk.blobAt cfg) = s.disk.blobAt cfg := by
      split
      · rename_i done
        obtain ⟨blob, loaded, _⟩ := ok.counted.ok.loads digest (present done)
        rw [keepBlob, if_pos (blobAt_isSome.mpr ⟨blob, loaded⟩)]
      · rfl
    rw [blobs]
    simp only [pageReading, quiet.keeps.entries, same, idle]
  · refine ⟨okAfter, ?_, fun _ busy => busy⟩
    have fresh : ¬ (s.disk.blobAt cfg digest).isSome = true := fun held => by
      obtain ⟨blob, loaded⟩ := blobAt_isSome.mp held
      exact kept.absent (mem_blobDigests_of_load loaded)
    have blobs : after.2.disk.blobAt cfg = keepBlob (s.disk.blobAt cfg) digest data := by
      rw [kept.disk, blobAt_insert kept.placed, keepBlob, if_neg fresh, blobEq, bytes]
    have entries : after.2.disk.entries = s.disk.entries := by rw [kept.disk]
    rw [done]
    simp only [pageReading, entries, blobs, idle, succeeded_ok, if_true]

lemma blobDrop_becomes (reliable : ∀ call, host.deletes call = none) (ok : PageOk cfg s)
    (held : (s.disk.blobAt cfg digest).isSome = true) :
    (pageReading cfg).Becomes s (blobDrop cfg host s digest).2
      { (pageReading cfg).view s with
        blobs := update (s.disk.blobAt cfg) digest none } := by
  obtain ⟨_, loaded⟩ := blobAt_isSome.mp held
  obtain ⟨okAfter, stage, _⟩ := blobDrop_cases host ok digest
  have disk := blobDrop_done cfg reliable loaded
  refine ⟨okAfter, ?_, fun _ busy => busy⟩
  have blobs : (blobDrop cfg host s digest).2.disk.blobAt cfg =
      update (s.disk.blobAt cfg) digest none := by
    rw [disk, blobAt_erase]
  have staged := stageReading_of_same cfg stage (by rw [disk])
  have entries : (blobDrop cfg host s digest).2.disk.entries = s.disk.entries := by rw [disk]
  simp only [pageReading, entries, blobs, staged]

lemma recordName_of_file {file : Bytes} (found : recordFile cfg key = .ok file) :
    recordName cfg key = some file := by
  rw [recordName, found]

lemma EntryCall.becomes (call : EntryCall s after) (ok : PageOk cfg s)
    {records : Option Bytes → Option Bytes}
    (entries : ∀ name, name.bind after.disk.entries.lookup = records name) :
    (pageReading cfg).Becomes s after { (pageReading cfg).view s with records } := by
  refine ⟨ok.of_same call.blobs call.flash call.alloc call.stage, ?_, fun _ busy => busy⟩
  have blobs : after.disk.blobAt cfg = s.disk.blobAt cfg := funext call.blobAt
  have staged := stageReading_of_same cfg call.stage call.flash
  simp only [pageReading, blobs, staged, funext entries]

lemma recPut_becomes (host : Host) (ok : PageOk cfg s) (key : Key) (record : Bytes) :
    (pageReading cfg).Becomes s (recPut cfg host s key record).2
      { (pageReading cfg).view s with
        records := if succeeded (recPut cfg host s key record).1 then
            update ((pageReading cfg).view s).records (recordName cfg key) (some record)
          else ((pageReading cfg).view s).records } := by
  obtain ⟨call, _, ⟨_, done, found, entries⟩ | ⟨⟨_, refused⟩, entries⟩⟩ :=
    recPut_cases cfg host s key record
  · refine call.becomes ok fun name => ?_
    rw [done, entries, recordName_of_file found]
    exact congrFun (lookup_insert_update id record rfl fun _ => id) name
  · refine call.becomes ok fun name => ?_
    rw [refused, entries]
    rfl

lemma recDel_becomes (host : Host) (ok : PageOk cfg s) (key : Key) :
    (pageReading cfg).Becomes s (recDel cfg host s key).2
      { (pageReading cfg).view s with
        records := if succeeded (recDel cfg host s key).1 then
            update ((pageReading cfg).view s).records (recordName cfg key) none
          else ((pageReading cfg).view s).records } := by
  obtain ⟨call, _, ⟨_, done, found, entries⟩ | ⟨⟨_, refused⟩, entries⟩⟩ :=
    recDel_cases cfg host s key
  · refine call.becomes ok fun name => ?_
    rw [done, entries, recordName_of_file found]
    exact congrFun (lookup_erase_update id rfl fun _ => id) name
  · refine call.becomes ok fun name => ?_
    rw [refused, entries]
    rfl

lemma recList_spec (s : PageStore) : ∃ keys, recList s = .ok keys ∧ (keys.map (recordName cfg)).Nodup ∧
      (∀ key ∈ keys, ((recordName cfg key).bind s.disk.entries.lookup).isSome = true) ∧
      ∀ key, Listable key →
        ((recordName cfg key).bind s.disk.entries.lookup).isSome = true → key ∈ keys := by
  obtain ⟨⟨nodup, listed⟩, lists⟩ := parsed_spec s.disk.entries
    (fun name => visible name = true ∧ (47 : UInt8) ∉ name) fun isShown parsed => by
    obtain ⟨isVisible, direct⟩ := of_decide_eq_true isShown
    exact show recordName cfg _ = _ from (listable_of_parse isVisible direct parsed).2
  refine ⟨_, rfl, nodup, listed, ?_⟩
  rintro key ⟨_, _, isVisible, direct, parsed⟩ present
  exact lists (decide_eq_true ⟨isVisible, direct⟩) parsed present

lemma blobMap_bytes (len : Nat) {bytes : Bytes} {map : BlobMap}
    (held : s.disk.blobAt cfg digest = some bytes)
    (mapped : (blobMap cfg host s digest len).1 = .ok map) :
    map.bytes = bytes ∧ map.handle = digest := by
  unfold Disk.blobAt at held
  unfold blobMap at mapped
  split at mapped
  · cases mapped
  rename_i loaded
  rw [loaded] at held
  cases held
  split at mapped
  · cases mapped
  · cases mapped
    exact ⟨rfl, rfl⟩

lemma pageContract (reliable : ∀ call, host.deletes call = none) :
    Contract (pageOps cfg host) (pageReading cfg) where
  init := fun {s} good => by
    obtain ⟨ok, disk, _, stage⟩ := init_ok host good.counted.ok good.counted.few
    exact ⟨becomes_of_keeps ok (disk ▸ .refl _) (stageReading_none cfg stage), fun _ busy => busy⟩
  stageBegin := stageBegin_becomes
  stageWrite := stageWrite_becomes host
  stageEnd := fun digest good writing _ => stageEnd_becomes host digest good writing rfl
  stageAbort := fun {s} good => becomes_of_keeps (freeStageUnits_ok good.counted)
    (freeStageUnits_quiet s).keeps (stageReading_none cfg rfl)
  blobMap := fun {s digest bytes} len good held _ => by
    obtain ⟨ok, quiet⟩ := blobMap_ok host good digest len
    obtain ⟨_, only⟩ := blobMap_only cfg host s digest len
    have becomes := becomes_of_keeps ok quiet.keeps
      (stageReading_of_same cfg (by rw [only]) (by rw [only]))
    refine ⟨ok, becomes.view, fun _ busy => .inl busy, fun map mapped => ?_⟩
    exact blobMap_bytes len held mapped
  blobUnmap := fun {s} map good =>
    ⟨⟨good, rfl, fun _ busy => busy⟩, fun busy => busy⟩
  blobHas := fun {s} _ digest => by
    rw [Bool.eq_iff_iff]
    show succeeded (loadBlob s.disk.blobs digest) = true ↔ (s.disk.blobAt cfg digest).isSome
    rw [blobAt_isSome]
    cases loadBlob s.disk.blobs digest with
    | error e => simp
    | ok blob => simp
  blobDrop := fun good held _ => blobDrop_becomes reliable good held
  blobList := fun {s} good => by
    refine ⟨_, rfl, blobDigests_nodup _, fun digest => ?_⟩
    show _ ↔ (s.disk.blobAt cfg digest).isSome = true
    rw [blobAt_isSome]
    constructor
    · intro mem
      obtain ⟨blob, loaded, _⟩ := good.counted.ok.loads digest mem
      exact ⟨blob, loaded⟩
    · rintro ⟨blob, loaded⟩
      exact mem_blobDigests_of_load loaded
  recPut := fun key bytes good => recPut_becomes host good key bytes
  recGet := fun {s _} key cap _ found =>
    regFilesGet_found (recordFile cfg key) s.disk.entries cap found
  recGet_none := fun {s} key cap _ missing =>
    regFilesGet_missing (recordFile cfg key) s.disk.entries cap missing
  recDel := fun key good => recDel_becomes host good key
  recList := fun {s} _ => recList_spec s

end WantedEngine.Registry.Page
