import WantedEngine.Registry.Operations
import Mathlib.Data.List.Nodup
/-!
# What a store promises

`registry-store.h` states what each call of a store does. Here the promise is a refinement:
a store's state reads as a map of records, a map of blobs and a stage (`View`), and every call
moves that reading as its comment in the header says (`Contract`). A call may refuse; a refused
call leaves the reading as it was, apart from a stage that a failed write breaks.

The registry calls a store only in certain ways: it frees a blob only when no record lists it,
and it puts a record only when something holds every blob the record lists. `Evolves` is the
relation between store lists that such calls give, with the number of records changed. Both
hold as long as a listing of the records shows every record; `strict` says that the account
includes them. Without it the relation only says that the calls are made in turn.
-/
namespace WantedEngine.Registry

open Function

/-- What a stage holds. -/
inductive StageView where
  | idle
  | writing (data : Bytes)
  /-- A write failed; the stage can only be dropped. -/
  | broken
  deriving DecidableEq

/-- A store as the registry sees it. Records are found under the store's own names. -/
structure View (ν : Type) where
  records : ν → Option Bytes
  /-- The blobs by the digest they are kept under. -/
  blobs : Digest → Option Bytes
  stage : StageView

/-- How a store's state is read. -/
structure Reading (σ ν : Type) where
  /-- The states the store can be in. -/
  good : σ → Prop
  /-- What a state holds. -/
  view : σ → View ν
  /-- A mapping keeps the blob from being freed. -/
  busy : σ → Digest → Prop
  /-- The name of the record of a key. -/
  recName : Key → ν
  /-- A listing of the records names the key when its record is there. -/
  listable : Key → Prop

/-- A state is reached that reads as said and keeps no more blobs from being freed. -/
structure Reading.Becomes {σ ν : Type} (abs : Reading σ ν) (s s' : σ) (view : View ν) : Prop where
  good : abs.good s'
  view : abs.view s' = view
  busy : ∀ digest, abs.busy s' digest → abs.busy s digest

/-- The blobs with staged bytes kept, unless the store has that digest. -/
def keepBlob (blobs : Digest → Option Bytes) (digest : Digest) (data : Bytes) : Digest → Option Bytes :=
  if (blobs digest).isSome then blobs else update blobs digest (some data)

variable {blobs : Digest → Option Bytes} {data : Bytes}

/-- The store has the digest that was kept. -/
lemma keepBlob_isSome {digest : Digest} : (keepBlob blobs digest data digest).isSome := by
  unfold keepBlob
  split
  · assumption
  · rw [update_self]
    rfl

variable {digest other : Digest}

lemma keepBlob_other (ne : other ≠ digest) : keepBlob blobs digest data other = blobs other := by
  unfold keepBlob
  split
  · rfl
  · rw [update_of_ne ne]

lemma keptBlobs_isSome {kept : Bool} (held : (blobs other).isSome) :
    ((if kept then keepBlob blobs digest data else blobs) other).isSome := by
  unfold keepBlob
  split
  · split
    · exact held
    by_cases same : other = digest
    · rw [same, update_self]
      rfl
    · rw [update_of_ne same]
      exact held
  · exact held

/-- A record as a read of at most `cap` bytes answers it. -/
def recordAnswer (bytes : Bytes) (cap : Nat) : Rc Bytes :=
  if bytes.length ≤ cap then .ok bytes else .error .emsgsize

/-- A read that succeeds returns the record. -/
lemma recordAnswer_ok {record bytes : Bytes} {cap : Nat}
    (answer : recordAnswer record cap = .ok bytes) : record = bytes := by
  unfold recordAnswer at answer
  split at answer
  · cases answer
    rfl
  · cases answer

/-- The promise of a store that reports no fault on a read. -/
structure Contract {σ ν : Type} [DecidableEq ν] (ops : StoreOps σ) (abs : Reading σ ν) : Prop where
  /-- Starting keeps records and blobs; stages and mappings do not survive it. -/
  init : ∀ {s}, abs.good s →
    abs.Becomes s (ops.init s) { abs.view s with stage := .idle } ∧
      ∀ digest, ¬ abs.busy (ops.init s) digest
  /-- A stage opens empty. -/
  stageBegin : ∀ {s}, abs.good s → (abs.view s).stage = .idle →
    abs.Becomes s (ops.stageBegin s).2
      { abs.view s with
        stage := if succeeded (ops.stageBegin s).1 then .writing [] else .idle }
  /-- The stage grows by the bytes taken. -/
  stageWrite : ∀ {s data} (buf), abs.good s → (abs.view s).stage = .writing data →
    abs.Becomes s (ops.stageWrite s buf).2
      { abs.view s with
        stage := match (ops.stageWrite s buf).1 with
          | .ok taken => .writing (data ++ buf.take taken)
          | .error _ => .broken }
  /-- The staged bytes are kept under the digest, or dropped when the store has it. -/
  stageEnd : ∀ {s data} (digest), abs.good s → (abs.view s).stage = .writing data →
    data ≠ [] →
    abs.Becomes s (ops.stageEnd s digest data.length).2
      { abs.view s with
        stage := .idle
        blobs := if succeeded (ops.stageEnd s digest data.length).1 then
            keepBlob (abs.view s).blobs digest data
          else (abs.view s).blobs }
  /-- The stage is dropped. -/
  stageAbort : ∀ {s}, abs.good s →
    abs.Becomes s (ops.stageAbort s) { abs.view s with stage := .idle }
  /-- A blob that is not mapped is mapped whole. -/
  blobMap : ∀ {s digest bytes} (len), abs.good s →
    (abs.view s).blobs digest = some bytes → ¬ abs.busy s digest →
    abs.good (ops.blobMap s digest len).2 ∧
      abs.view (ops.blobMap s digest len).2 = abs.view s ∧
      (∀ other, abs.busy (ops.blobMap s digest len).2 other →
        abs.busy s other ∨ (succeeded (ops.blobMap s digest len).1 ∧ other = digest)) ∧
      ∀ map, (ops.blobMap s digest len).1 = .ok map → map.bytes = bytes ∧ map.handle = digest
  /-- A mapping is released. -/
  blobUnmap : ∀ {s} (map : BlobMap), abs.good s →
    abs.Becomes s (ops.blobUnmap s map) (abs.view s) ∧
      ¬ abs.busy (ops.blobUnmap s map) map.handle
  /-- The store has what it holds. -/
  blobHas : ∀ {s}, abs.good s → ∀ digest,
    ops.blobHas s digest = ((abs.view s).blobs digest).isSome
  /-- A blob that is held and not mapped is freed. -/
  blobDrop : ∀ {s digest}, abs.good s → ((abs.view s).blobs digest).isSome →
    ¬ abs.busy s digest →
    abs.Becomes s (ops.blobDrop s digest).2
      { abs.view s with blobs := update (abs.view s).blobs digest none }
  /-- Every blob is listed, each once. -/
  blobList : ∀ {s}, abs.good s →
    ∃ digests, ops.blobList s = .ok digests ∧ digests.Nodup ∧
      ∀ digest, digest ∈ digests ↔ ((abs.view s).blobs digest).isSome
  /-- A record is replaced whole or not at all. -/
  recPut : ∀ {s} (key bytes), abs.good s →
    abs.Becomes s (ops.recPut s key bytes).2
      { abs.view s with
        records := if succeeded (ops.recPut s key bytes).1 then
            update (abs.view s).records (abs.recName key) (some bytes)
          else (abs.view s).records }
  /-- A record is read back. -/
  recGet : ∀ {s bytes} (key cap), abs.good s →
    (abs.view s).records (abs.recName key) = some bytes →
    ops.recGet s key cap = recordAnswer bytes cap
  /-- A record that is not there is not read. -/
  recGet_none : ∀ {s} (key cap), abs.good s →
    (abs.view s).records (abs.recName key) = none →
    ∃ e, ops.recGet s key cap = .error e
  /-- A record is removed. -/
  recDel : ∀ {s} (key), abs.good s →
    abs.Becomes s (ops.recDel s key).2
      { abs.view s with
        records := if succeeded (ops.recDel s key).1 then
            update (abs.view s).records (abs.recName key) none
          else (abs.view s).records }
  /-- A listing names records that are there, each once, and every one of a listable key. -/
  recList : ∀ {s}, abs.good s →
    ∃ keys, ops.recList s = .ok keys ∧ (keys.map abs.recName).Nodup ∧
      (∀ key ∈ keys, ((abs.view s).records (abs.recName key)).isSome) ∧
      ∀ key, abs.listable key →
        ((abs.view s).records (abs.recName key)).isSome → key ∈ keys

/-! ### How the registry uses its stores -/

section Evolution

variable {σ ν : Type} [DecidableEq ν] (sys : System σ) (abs : Reading σ ν) (strict : Prop)

/-- A digest is listed by a record that this build reads. -/
def Lists (cfg : Config) (records : ν → Option Bytes) (digest : Digest) : Prop :=
  ∃ name bytes record, records name = some bytes ∧
    registryRecordDecode cfg bytes = some record ∧ digest ∈ record.digests

/-- The records of a list of stores: those of the first. -/
def recordsOf : List σ → ν → Option Bytes
  | [] => fun _ => none
  | p :: _ => (abs.view p).records

/-- A store of the list holds the blob. -/
def HeldBy (stores : List σ) (digest : Digest) : Prop :=
  ∃ store ∈ stores, ((abs.view store).blobs digest).isSome

/-- A resident image or a store holds the blob. -/
def Present (resident : List Resident) (stores : List σ) (digest : Digest) : Prop :=
  (∃ image ∈ resident, image.digest = digest) ∨ HeldBy abs stores digest

/-- A call that changes no record. A blob is freed only when no record lists it. -/
inductive Act (listed : Digest → Prop) : σ → σ → Prop where
  | init (s : σ) : Act listed s (sys.ops.init s)
  | stageBegin {s : σ} (idle : (abs.view s).stage = .idle) :
      Act listed s (sys.ops.stageBegin s).2
  | stageWrite {s : σ} {data : Bytes} (buf : Bytes)
      (writing : (abs.view s).stage = .writing data) :
      Act listed s (sys.ops.stageWrite s buf).2
  | stageEnd {s : σ} (data : Bytes) (writing : (abs.view s).stage = .writing data)
      (some : data ≠ []) : Act listed s (sys.ops.stageEnd s (sys.sha256 data) data.length).2
  | stageAbort (s : σ) : Act listed s (sys.ops.stageAbort s)
  | blobMap {s : σ} (digest : Digest) (len : Nat)
      (held : ((abs.view s).blobs digest).isSome) (free : ¬ abs.busy s digest) :
      Act listed s (sys.ops.blobMap s digest len).2
  | blobUnmap (s : σ) (map : BlobMap) : Act listed s (sys.ops.blobUnmap s map)
  | blobDrop {s : σ} (digest : Digest) (held : ((abs.view s).blobs digest).isSome)
      (free : ¬ abs.busy s digest) (unlisted : strict → ¬ listed digest) :
      Act listed s (sys.ops.blobDrop s digest).2
  | putRefused {s : σ} (key : Key) (bytes : Bytes) {e : Errno}
      (refused : (sys.ops.recPut s key bytes).1 = .error e) :
      Act listed s (sys.ops.recPut s key bytes).2
  | delRefused {s : σ} (key : Key) {e : Errno}
      (refused : (sys.ops.recDel s key).1 = .error e) : Act listed s (sys.ops.recDel s key).2

/-- The calls of an operation on a list of stores, and how many changed a record. A record is
put under the name of a key that a listing shows, and everything it lists is present. -/
inductive Evolves (resident : List Resident) (start : List σ) : Nat → List σ → Prop where
  | refl : Evolves resident start 0 start
  /-- A further call that changes no record. -/
  | act {n : Nat} {front back : List σ} {s s' : σ}
      (before : Evolves resident start n (front ++ s :: back))
      (call : Act sys abs strict
        (Lists sys.cfg (recordsOf abs (front ++ s :: back))) s s') :
      Evolves resident start n (front ++ s' :: back)
  | put {n : Nat} {others : List σ} {p : σ} {key : Key} {bytes : Bytes}
      (before : Evolves resident start n (p :: others))
      (done : (sys.ops.recPut p key bytes).1 = .ok ())
      (named : strict →
        ∃ other, abs.listable other ∧ abs.recName other = abs.recName key)
      (present : strict → ∀ record, registryRecordDecode sys.cfg bytes = some record →
        ∀ digest ∈ record.digests, Present abs resident (p :: others) digest) :
      Evolves resident start (n + 1) ((sys.ops.recPut p key bytes).2 :: others)
  | del {n : Nat} {others : List σ} {p : σ} {key : Key}
      (before : Evolves resident start n (p :: others))
      (done : (sys.ops.recDel p key).1 = .ok ()) :
      Evolves resident start (n + 1) ((sys.ops.recDel p key).2 :: others)

variable {sys abs strict} {resident : List Resident}

omit [DecidableEq ν] in
/-- Two parts of an operation in a row. -/
lemma Evolves.trans {n m : Nat} {first second third : List σ}
    (before : Evolves sys abs strict resident first n second)
    (after : Evolves sys abs strict resident second m third) :
    Evolves sys abs strict resident first (n + m) third := by
  induction after with
  | refl => exact before
  | act _ call ih => exact ih.act call
  | put _ done named present ih => exact ih.put done named present
  | del _ done ih => exact ih.del done

omit [DecidableEq ν] in
lemma Evolves.one (front back : List σ) {s s' : σ}
    (call : Act sys abs strict (Lists sys.cfg (recordsOf abs (front ++ s :: back))) s s') :
    Evolves sys abs strict resident (front ++ s :: back) 0 (front ++ s' :: back) :=
  Evolves.refl.act call

lemma Act.keeps (laws : Contract sys.ops abs) {listed : Digest → Prop} {s s' : σ}
    (good : abs.good s) (call : Act sys abs strict listed s s') :
    abs.good s' ∧ (abs.view s').records = (abs.view s).records ∧
      ∀ digest, strict → listed digest → ((abs.view s).blobs digest).isSome →
        ((abs.view s').blobs digest).isSome := by
  cases call with
  | init => simp [(laws.init good).1.good, (laws.init good).1.view]
  | stageBegin idle =>
    have after := laws.stageBegin good idle
    simp [after.good, after.view]
  | stageWrite buf writing =>
    have after := laws.stageWrite buf good writing
    simp [after.good, after.view]
  | stageEnd data writing some =>
    have after := laws.stageEnd (sys.sha256 data) good writing some
    refine ⟨after.good, by rw [after.view], fun digest _ _ held => ?_⟩
    rw [after.view]
    exact keptBlobs_isSome held
  | stageAbort => simp [(laws.stageAbort good).good, (laws.stageAbort good).view]
  | blobMap digest len held free =>
    obtain ⟨bytes, held⟩ := Option.isSome_iff_exists.mp held
    obtain ⟨good', view, _⟩ := laws.blobMap len good held free
    simp [good', view]
  | blobUnmap map =>
    simp [(laws.blobUnmap map good).1.good, (laws.blobUnmap map good).1.view]
  | blobDrop dropped held free unlisted =>
    have after := laws.blobDrop good held free
    refine ⟨after.good, by rw [after.view], fun digest isStrict isListed held' => ?_⟩
    rw [after.view]
    dsimp only
    have other : digest ≠ dropped := fun same => unlisted isStrict (same ▸ isListed)
    rw [update_of_ne other]
    exact held'
  | putRefused key bytes refused =>
    have after := laws.recPut key bytes good
    simp [after.good, after.view, refused]
  | delRefused key refused =>
    have after := laws.recDel key good
    simp [after.good, after.view, refused]

end Evolution

end WantedEngine.Registry
