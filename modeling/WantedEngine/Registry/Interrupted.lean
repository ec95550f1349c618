import WantedEngine.Registry.Driver
import WantedEngine.Registry.FailedInstall
import WantedEngine.Registry.Listed
import WantedEngine.Registry.Reload
/-!
# Installs that are interrupted

A wapp that is stopped, traps or exits leaves its descriptors to `VfsDestroy`, which closes them like
the wapp would have. The close of an install that has taken bytes finishes it, so the bytes that were
written so far are published as the image (`_Close` of `vfs-wanted-registry.c`). An interrupted
install leaves what is listed and what is loaded as it was iff that finish is refused, or
when the entry held the very bytes written so far (`interrupted_install_iff`).
-/
namespace WantedEngine.Registry

open Foundation Page List List Function

variable {σ ν : Type} {dec : DecidableEq ν} {sys : System σ} {abs : Reading σ ν}

/-! ### What is listed and what is held -/

/-- `RegistryRead` may list the entry of a key: it does in some order in which the host names the
files of the stores. -/
def MayList (sys : System σ) (abs : Reading σ ν) (r : State σ) (key : Key) : Prop :=
  ∃ stores, SameContent abs r.stores stores ∧ ListedAs sys { r with stores } key

/-- A resident image or a store has the bytes under the digest. -/
def Holds (abs : Reading σ ν) (r : State σ) (digest : Digest) (bytes : Bytes) : Prop :=
  (∃ image ∈ r.resident, image.digest = digest ∧ image.data = bytes) ∨
    ∃ store ∈ r.stores, (abs.view store).blobs digest = some bytes

def heldBytes (abs : Reading σ ν) (r : State σ) : Set Bytes :=
  {bytes | ∃ digest, Holds abs r digest bytes}

def stagedBytes (r : State σ) : Set Bytes :=
  {bytes | ∃ stage, r.stage = some stage ∧ stage.taken = bytes}

/-- The layers of the entry of a key, base first, as the registry holds them. -/
def IsImage (sys : System σ) (abs : Reading σ ν) (r : State σ) (key : Key)
    (image : List Bytes) : Prop :=
  ∃ record, readMeta sys r key = .ok record ∧
    List.Forall₂ (fun layer bytes => Holds abs r layer.digest bytes) record.layers image

/-- The records of other entries stay, the entry of the key is listed only if it was, and it holds
the layers it held. -/
structure Undisturbed (sys : System σ) (abs : Reading σ ν) (before after : State σ) (key : Key) :
    Prop where
  /-- The records of other entries. -/
  others : ∀ name, name ≠ abs.recName key →
    recordsOf abs after.stores name = recordsOf abs before.stores name
  /-- Nothing new is listed. -/
  unlisted : MayList sys abs after key → MayList sys abs before key
  /-- The layers. -/
  image : ∀ image, IsImage sys abs before key image → IsImage sys abs after key image

variable {r before : State σ} {key : Key} {record : Meta}

/-- What is present is held as some bytes. -/
lemma exists_holds {digest : Digest} (present : Present abs r.resident r.stores digest) :
    ∃ bytes, Holds abs r digest bytes := by
  rcases present with ⟨image, isImage, same⟩ | ⟨store, isStore, held⟩
  · exact ⟨image.data, .inl ⟨image, isImage, same, rfl⟩⟩
  · obtain ⟨bytes, isBytes⟩ := Option.isSome_iff_exists.mp held
    exact ⟨bytes, .inr ⟨store, isStore, isBytes⟩⟩

lemma Digested.holds (digested : Digested sys abs r) {digest : Digest} {bytes : Bytes}
    (held : Holds abs r digest bytes) : sys.sha256 bytes = digest := by
  rcases held with ⟨image, isImage, rfl, rfl⟩ | ⟨store, isStore, isBytes⟩
  · exact digested.resident image isImage
  · exact digested.stores store isStore digest bytes isBytes

lemma Sound.loose (sound : Sound sys abs True r) : Sound sys abs False r :=
  ⟨⟨sound.stores.good, nofun, nofun⟩, nofun, nofun, sound.handles, sound.stage, sound.busy,
    sound.unready⟩

variable (laws : Contract sys.ops abs) (sound : Sound sys abs True r)
include laws sound

lemma present_of_readMeta (read : readMeta sys r key = .ok record) :
    ∀ layer ∈ record.layers, Present abs r.resident r.stores layer.digest := by
  intro layer isLayer
  have mem : layer.digest ∈ record.digests := mem_map_of_mem isLayer
  rcases readMeta_cases read with ⟨_, got, decoded⟩ | ⟨_, image, -, found, rfl⟩
  · exact (sound.stores.answered laws got decoded).2 trivial _ mem
  · have only : layer.digest = image.digest := by simpa [residentMeta, Meta.digests] using mem
    exact .inl ⟨image, mem_of_find?_eq_some found, only.symm⟩

lemma exists_image (read : readMeta sys r key = .ok record) : ∃ image, IsImage sys abs r key image := by
  have present := present_of_readMeta laws sound read
  have each : ∀ layers : List Layer,
      (∀ layer ∈ layers, Present abs r.resident r.stores layer.digest) →
      ∃ image, List.Forall₂ (fun layer bytes => Holds abs r layer.digest bytes) layers image := by
    intro layers all
    induction layers with
    | nil => exact ⟨[], .nil⟩
    | cons layer rest ih =>
      obtain ⟨bytes, held⟩ := exists_holds (all layer mem_cons_self)
      obtain ⟨image, later⟩ := ih fun other isOther => all other (mem_cons_of_mem _ isOther)
      exact ⟨bytes :: image, .cons held later⟩
  obtain ⟨image, whole⟩ := each record.layers present
  exact ⟨image, record, read, whole⟩

omit sound laws

lemma images_eq {r' : State σ} {known : Set Bytes} (collisionFree : Set.InjOn sys.sha256 known)
    (digested : Digested sys abs r) (digested' : Digested sys abs r')
    (within : heldBytes abs r ⊆ known) (within' : heldBytes abs r' ⊆ known)
    {layers : List Layer} {image image' : List Bytes}
    (held : List.Forall₂ (fun layer bytes => Holds abs r layer.digest bytes) layers image)
    (held' : List.Forall₂ (fun layer bytes => Holds abs r' layer.digest bytes) layers image') :
    image = image' := by
  induction held generalizing image' with
  | nil =>
    cases held'
    rfl
  | cons first rest ih =>
    cases held' with
    | cons first' rest' =>
      have hash := (digested.holds first).trans (digested'.holds first').symm
      have same := collisionFree (within ⟨_, first⟩) (within' ⟨_, first'⟩) hash
      rw [same, ih rest']

include laws

/-- An entry whose record lists one layer, by what some bytes hash to, has these bytes as its image,
when they collide with nothing that is held. -/
lemma isImage_single_iff (sound : Sound sys abs True r) (digested : Digested sys abs r)
    (read : readMeta sys r key = .ok record) {len : UInt32} {bytes : Bytes}
    (layers : record.layers = [⟨len, sys.sha256 bytes⟩])
    (collisionFree : Set.InjOn sys.sha256 (heldBytes abs r ∪ {bytes})) (image : List Bytes) :
    IsImage sys abs r key image ↔ image = [bytes] := by
  have only : ∀ image, IsImage sys abs r key image → image = [bytes] := by
    rintro image ⟨_, isRead, held⟩
    rw [read] at isRead
    cases isRead
    rw [layers, forall₂_cons_left_iff] at held
    obtain ⟨_, _, isLayer, none, rfl⟩ := held
    rw [forall₂_nil_left_iff.mp none]
    rw [collisionFree (.inl ⟨_, isLayer⟩) (.inr rfl) (digested.holds isLayer)]
  refine ⟨only image, ?_⟩
  rintro rfl
  obtain ⟨image, isImage⟩ := exists_image laws sound read
  exact only image isImage ▸ isImage

/-! ### Reading entries -/

lemma readMeta_congr {r' : State σ} (good : ∀ store ∈ r.stores, abs.good store)
    (good' : ∀ store ∈ r'.stores, abs.good store)
    (records : recordsOf abs r'.stores (abs.recName key) =
      recordsOf abs r.stores (abs.recName key)) (resident : r'.resident = r.resident)
    (read : readMeta sys r key = .ok record) : readMeta sys r' key = .ok record := by
  rcases readMeta_entryOf laws good read with installed | ⟨image, found, rfl, only⟩
  · refine (readMeta_of_entryOf laws good' ?_).1
    rw [entryOf, records]
    exact installed
  have found' : residentFind r' key = some image := by
    rw [residentFind, resident]
    exact found
  cases got' : primaryGet sys r' key with
  | error errno' => simp only [readMeta, got', found']
  | ok bytes =>
    -- a record that one of the two answers the other answers as well
    have here' := recordsOf_of_primaryGet laws good' got'
    have answer := primaryGet_eq laws good (records.symm.trans here')
    rw [residentOnly, answer, ← primaryGet_eq laws good' here', got'] at only
    simp [succeeded] at only

lemma mayList_iff (shows : Shows sys.ops abs) (sound : Sound sys abs False r)
    (ready : r.ready = true) (some_ : r.stores ≠ []) (fits : FitsEntry key) :
    MayList sys abs r key ↔ (∃ record, readMeta sys r key = .ok record) ∧
      ((∃ image ∈ r.resident, image.key = key) ∨ (abs.listable key ∧
        (recordsOf abs r.stores (abs.recName key)).isSome)) := by
  have started : ∀ stores, ensureReady sys { r with stores } = { r with stores } :=
    fun stores => by rw [ensureReady, if_pos ready]
  have listed_iff : ∀ {stores keys record}, readMeta sys { r with stores } key = .ok record →
      primaryList sys { r with stores } = .ok keys → (ListedAs sys { r with stores } key ↔
        key ∈ keys.take registryMaxEntries ∨ ∃ image ∈ r.resident, image.key = key) := by
    intro stores keys record read isList
    have iff := listedAs_read fits (by rwa [started]) (by rwa [started])
    rwa [started] at iff
  constructor
  · rintro ⟨stores, same, listed⟩
    have soundSame := same.sound sound
    obtain ⟨record, mem⟩ := (listedAs_iff fits).mp listed
    have someSame : stores ≠ [] := by
      intro empty
      have lengths := List.Forall₂.length_eq same
      rw [empty] at lengths
      exact some_ (length_eq_zero_iff.mp lengths)
    obtain ⟨keys, isList, complete, exists_, -⟩ :=
      primaryList_spec (r := { r with stores }) laws soundSame.stores.good someSame
    have read : readMeta sys { r with stores } key = .ok record := by
      unfold readFrom at mem
      rw [started] at mem
      split at mem
      · cases mem
      · exact (mem_readable.mp mem).2
    refine ⟨⟨record, readMeta_congr laws soundSame.stores.good sound.stores.good
      (congrFun same.records_eq.symm _) rfl read⟩, ?_⟩
    rcases (listed_iff read isList).mp listed with inList | image
    · have isKey := mem_of_mem_take inList
      cases first : stores with
      | nil => exact absurd first someSame
      | cons primary others =>
        have recList : sys.ops.recList primary = .ok keys := by
          rw [first] at isList
          exact isList
        have present := exists_ key isKey
        rw [same.records_eq] at present
        exact .inr ⟨shows.only recList key isKey, present⟩
    · exact .inl image
  · rintro ⟨⟨record, read⟩, image | ⟨listable, present⟩⟩
    · obtain ⟨keys, isList, -⟩ := primaryList_spec laws sound.stores.good some_
      exact ⟨r.stores, .refl sound.stores.good, (listed_iff read isList).mpr (.inr image)⟩
    cases stores : r.stores with
    | nil => exact absurd stores some_
    | cons primary others =>
      -- the host may name the file of the key before all others
      have good := sound.stores.good primary (primary_mem stores)
      obtain ⟨first, back, count, becomes, recList, absent⟩ := shows.first key good
      have same : SameContent abs r.stores (first :: others) := by
        rw [stores]
        refine .cons becomes (SameContent.refl fun store isStore => ?_)
        exact sound.stores.good store (by rw [stores]; exact mem_cons_of_mem _ isStore)
      have soundSame := same.sound sound
      have isList : primaryList sys { r with stores := first :: others } =
          .ok (replicate count key ++ back) := recList
      have readSame : readMeta sys { r with stores := first :: others } key = .ok record :=
        readMeta_congr laws sound.stores.good soundSame.stores.good
          (congrFun same.records_eq _) rfl read
      obtain ⟨keys, found, complete, -⟩ := primaryList_spec
        (r := { r with stores := first :: others }) laws soundSame.stores.good
        (cons_ne_nil _ _)
      rw [isList] at found
      cases found
      have mem : key ∈ replicate count key ++ back := by
        refine complete key listable ?_
        rwa [same.records_eq]
      have isFirst := (mem_append.mp mem).resolve_right absent
      have shown : key ∈ (replicate count key ++ back).take registryMaxEntries := by
        cases count with
        | zero => cases isFirst
        | succ more => exact mem_cons_self
      exact ⟨first :: others, same, (listed_iff readSame isList).mpr (.inl shown)⟩

omit laws

/-! ### The end of the install -/

/-- The finish of the stage is refused: the stage has an error or no bytes, or the store does not keep
it, or the commit is refused. -/
def FinishRefused (sys : System σ) (r : State σ) (now : Option UInt64) : Prop :=
  ∀ primary others stage primary', r.stores = primary :: others → r.stage = some stage →
    stage.err = none → stage.taken ≠ [] →
    sys.ops.stageEnd primary (sys.sha256 stage.taken) stage.taken.length = (.ok (), primary') →
    CommitRefused sys (stageKept sys r primary' stage) stage now

/-- A finish is refused and leaves the records, or puts the record of the one layer that was
written. -/
lemma Writing.finish_cases (laws : Contract sys.ops abs)
    (writing : Writing sys abs before r) (table : 0 < r.pending.length) {stage : Stage}
    (active : r.stage = some stage) (now : Option UInt64) :
    (FinishRefused sys r now ∧
      succeeded (registryWrite sys r true (.finish now) []).1 = false ∧
      recordsOf abs (registryWrite sys r true (.finish now) []).2.stores = recordsOf abs r.stores) ∨
    (¬ FinishRefused sys r now ∧
      succeeded (registryWrite sys r true (.finish now) []).1 = true ∧ ∃ record bytes,
      record.layers = [⟨stage.taken.length.toUInt32, sys.sha256 stage.taken⟩] ∧
      registryRecordEncode sys.cfg record = some bytes ∧
      recordsOf abs (registryWrite sys r true (.finish now) []).2.stores =
        update (recordsOf abs r.stores) (abs.recName stage.key) (some bytes)) := by
  obtain ⟨sound, ready, some_, ⟨_, active', plain, layer⟩, -⟩ := writing
  rw [active] at active'
  cases active'
  cases stores : r.stores with
  | nil => exact absurd stores some_
  | cons primary others =>
    rw [← stores]
    have condition : FinishRefused sys r now ↔ ∀ primary', Keeps sys primary stage primary' →
        CommitRefused sys (stageKept sys r primary' stage) stage now :=
      keeps_iff stores active fun _ stage primary' =>
        CommitRefused sys (stageKept sys r primary' stage) stage now
    rw [condition]
    rcases registryWrite_finish laws sound ready stores active true now with
      ⟨notKept, failed, same⟩ | ⟨primary', isKept, finish⟩
    · exact .inl ⟨fun primary' isKept => absurd isKept (notKept primary'),
        exists_error_iff.mp failed, same.records⟩
    · have kept := stageKept_continues laws sound ready stores isKept active
      have keptRecords := kept.records_eq laws sound
      have found := @stageKept_found _ sys r table primary' stage
      rw [keptLayer, layer] at found
      obtain ⟨refusedIff, quiet⟩ := commitLocked_plain laws kept.sound.stores.good found now
      have changes := commitLocked_changes laws kept.sound (kept.ready ready) stage.key 1 none now
      rw [finish, if_pos plain, succeeded_map]
      cases committed : (commitLocked sys (stageKept sys r primary' stage) stage.key 1 none now).1 with
      | error e =>
        have refused := refusedIff.mp ⟨e, committed⟩
        refine .inl ⟨?_, rfl, (quiet refused).records.trans keptRecords⟩
        rintro _ ⟨-, -, isEnd⟩
        cases isKept.2.2.symm.trans isEnd
        exact refused
      | ok _ =>
        rw [committed] at changes
        obtain ⟨layers, _, record, gathered, isLayers, commit⟩ := changes
        obtain ⟨bytes, encoded, put⟩ := commit.put
        rw [keptRecords] at put
        refine .inr ⟨fun refused => ?_, rfl, record, bytes, ?_, encoded, put⟩
        · obtain ⟨e, failed⟩ := refusedIff.mpr (refused primary' isKept)
          cases committed.symm.trans failed
        rw [isLayers]
        rw [gatherLayers, found] at gathered
        dsimp only at gathered
        cases gathered
        rfl

/-! ### The install of a wapp -/

/-- The wapp writes further chunks to a descriptor, whatever is answered. -/
def regWrites (sys : System σ) (p : ControlPlane σ) (fd : Nat) (chunks : List Bytes) : ControlPlane σ :=
  chunks.foldl (fun p chunk => (regWrite sys p fd chunk true).2) p

/-- A slot that was set is read back. -/
lemma getD_set_self {fds : List RegFd} {fd : Nat} (inside : fd < fds.length) (kind : RegFd) :
    (fds.set fd kind).getD fd .free = kind := by
  rw [getD_eq_getElem?_getD, getElem?_set_self inside]
  rfl

lemma regWrites_started {p : ControlPlane σ} {fd : Nat} {ref : Bytes}
    (started : p.fds.getD fd .free = .install ref true) (chunks : List Bytes) :
    regWrites sys p fd chunks = ⟨p.fds, continued sys p.registry chunks⟩ := by
  induction chunks generalizing p with
  | nil => rfl
  | cons chunk rest ih =>
    have same := started ▸ Slots.set_getD _ _ _
    have wrote : (regWrite sys p fd chunk true).2 =
        ⟨p.fds, (registryWrite sys p.registry true .next chunk).2⟩ := by
      rw [regWrite, started]
      exact congrArg (ControlPlane.mk · _) same
    rw [regWrites, foldl_cons, wrote]
    exact ih (p := ⟨p.fds, _⟩) started

lemma regWrites_first {p : ControlPlane σ} {fd : Nat} {ref : Bytes}
    (opened : p.fds.getD fd .free = .install ref false) {first : Bytes} {allocated : Bool}
    {taken : Nat} (wrote : (regWrite sys p fd first allocated).1 = .ok taken)
    (chunks : List Bytes) :
    let started := registryWrite sys p.registry true (.start ref 0 allocated) first
    let fds := p.fds.set fd (.install ref true)
    started.1 = .ok taken ∧ fds.getD fd .free = .install ref true ∧
      regWrites sys (regWrite sys p fd first allocated).2 fd chunks =
        ⟨fds, continued sys started.2 chunks⟩ := by
  have inside : fd < p.fds.length := Slots.getD_ne _ _ .free (by rw [opened]; nofun)
  have slot := getD_set_self inside (.install ref true)
  rw [regWrite, opened] at wrote ⊢
  have answer : (registryWrite sys p.registry true (.start ref 0 allocated) first).1 = .ok taken :=
    wrote
  refine ⟨answer, slot, ?_⟩
  simp only [wantedWrite, answer]
  exact regWrites_started slot chunks

include laws sound

lemma registryWrite_quiet (digested : Digested sys abs r) (state : WriteState) (buf : Bytes)
    (quiet : publishes r (.write true state buf) = none) :
    Sound sys abs True (registryWrite sys r true state buf).2 ∧
      Digested sys abs (registryWrite sys r true state buf).2 ∧
      (registryWrite sys r true state buf).2.resident = r.resident := by
  have allowed : Allowed abs True r (.write true state buf) := by
    refine ⟨rfl, fun _ key published => ?_⟩
    rw [quiet] at published
    cases published
  have done := serve_operates laws sound allowed
  exact ⟨done.sound, serve_digested laws sound.loose digested (.write true state buf), done.resident⟩

lemma continued_strict (digested : Digested sys abs r) (chunks : List Bytes) :
    Sound sys abs True (continued sys r chunks) ∧
      Digested sys abs (continued sys r chunks) ∧
      (continued sys r chunks).resident = r.resident := by
  induction chunks generalizing r with
  | nil => exact ⟨sound, digested, rfl⟩
  | cons chunk rest ih =>
    obtain ⟨nextSound, nextDigested, same⟩ :=
      registryWrite_quiet laws sound digested .next chunk rfl
    obtain ⟨lastSound, lastDigested, lastSame⟩ := ih nextSound nextDigested
    exact ⟨lastSound, lastDigested, lastSame.trans same⟩

omit sound laws

lemma continued_key {stage : Stage} (active : r.stage = some stage) (chunks : List Bytes) :
    ∃ stage', (continued sys r chunks).stage = some stage' ∧ stage'.key = stage.key := by
  induction chunks generalizing r stage with
  | nil => exact ⟨stage, active, rfl⟩
  | cons chunk rest ih =>
    obtain ⟨_, -, middleKey, -, frame, -⟩ := registryWrite_next_frame sys active true chunk
    obtain ⟨last, isLast, lastKey⟩ := ih frame.stage
    exact ⟨last, isLast, lastKey.trans middleKey⟩

lemma start_key {ref first : Bytes} {allocated : Bool} {taken : Nat}
    (done : (registryWrite sys r true (.start ref 0 allocated) first).1 = .ok taken) :
    ∃ stage, (registryWrite sys r true (.start ref 0 allocated) first).2.stage = some stage ∧
      parseRef ref = .ok stage.key := by
  rcases registryWrite_start_frame sys r true ref 0 allocated first rfl with
    ⟨_, key, -, -, -, parsed, frame⟩ | ⟨e, refused, -⟩
  · exact ⟨_, frame.stage, parsed⟩
  · cases refused.symm.trans done

/-- The finish of an install leaves its entry as it was before the install iff it is refused
or the entry held the bytes that were written. -/
lemma Writing.undisturbed_iff (laws : Contract sys.ops abs)
    (shows : Shows sys.ops abs) (writing : Writing sys abs before r)
    (table : 0 < r.pending.length) (soundBefore : Sound sys abs True before)
    (readyBefore : before.ready = true) (digestedBefore : Digested sys abs before)
    (sound : Sound sys abs True r) (digested : Digested sys abs r)
    (resident : r.resident = before.resident) {stage : Stage} (active : r.stage = some stage)
    (fits : FitsEntry stage.key) (listable : abs.listable stage.key) (now : Option UInt64)
    (collisionFree : Set.InjOn sys.sha256 (heldBytes abs before ∪
      heldBytes abs (registryWrite sys r true (.finish now) []).2 ∪ stagedBytes r)) :
    Undisturbed sys abs before (registryWrite sys r true (.finish now) []).2 stage.key ↔
      FinishRefused sys r now ∨ IsImage sys abs before stage.key [stage.taken] := by
  obtain ⟨_, active', plain, -⟩ := writing.stage
  rw [active] at active'
  cases active'
  have published : publishes r (.write true (.finish now) []) = some stage.key := by
    simp [publishes, active, plain]
  have allowed : Allowed abs True r (.write true (.finish now) []) := by
    refine ⟨rfl, fun _ key isKey => ?_⟩
    rw [published, Option.some.injEq] at isKey
    exact isKey ▸ listable
  have done := serve_operates laws sound allowed
  have readyAfter := (serve_publishes laws sound.loose published).2
  have digestedAfter :=
    serve_digested laws sound.loose digested (.write true (.finish now) [])
  have finish := writing.finish_cases laws table active now
  have served : (serve sys r (.write true (.finish now) [])).2 =
      (registryWrite sys r true (.finish now) []).2 := rfl
  rw [served] at done readyAfter digestedAfter
  generalize (registryWrite sys r true (.finish now) []).2 = after at *
  have same := writing.unchanged.records
  have residentAfter := done.resident.trans resident
  have someBefore : before.stores ≠ [] := by
    intro empty
    have blobs := writing.unchanged.blobs
    rw [blobsOf, blobsOf, empty, map_nil, map_eq_nil_iff] at blobs
    exact writing.stores blobs
  have someAfter : after.stores ≠ [] := by
    obtain ⟨_, -, steps⟩ := done.steps
    exact steps.ne_nil writing.stores
  have within : heldBytes abs before ⊆ heldBytes abs before ∪ heldBytes abs after ∪ stagedBytes r :=
    fun _ held => .inl (.inl held)
  have withinAfter : heldBytes abs after ⊆ heldBytes abs before ∪ heldBytes abs after ∪ stagedBytes r :=
    fun _ held => .inl (.inr held)
  have listsBefore := mayList_iff laws shows soundBefore.loose readyBefore someBefore fits
  have listsAfter := mayList_iff laws shows done.sound.loose readyAfter someAfter fits
  rcases finish with ⟨refused, -, records⟩ | ⟨finished, -, record, bytes, layers, encoded, put⟩
  · -- the records are those from before the install, and so is what they list
    refine ⟨fun _ => .inl refused, fun _ => ⟨?_, ?_, ?_⟩⟩
    · exact fun name _ => by rw [records, same]
    · rw [listsBefore, listsAfter, records, same, residentAfter]
      rintro ⟨⟨record, read⟩, shown⟩
      refine ⟨⟨record, ?_⟩, shown⟩
      exact readMeta_congr laws done.sound.stores.good soundBefore.stores.good
        (by rw [records, same]) residentAfter.symm read
    rintro image ⟨record, read, held⟩
    have readAfter := readMeta_congr laws soundBefore.stores.good done.sound.stores.good
        (by rw [records, same]) residentAfter read
    obtain ⟨_, _, isRead, heldAfter⟩ := exists_image laws done.sound readAfter
    rw [readAfter] at isRead
    cases isRead
    have whole := images_eq collisionFree digestedBefore digestedAfter within withinAfter held heldAfter
    exact ⟨record, readAfter, whole ▸ heldAfter⟩
  · -- the entry is now the one layer that was written
    have installed : entryOf sys.cfg (recordsOf abs after.stores)
        (abs.recName stage.key) = some record := by
      refine entryOf_of_encode encoded ?_
      rw [put, update_self]
    have readAfter := (readMeta_of_entryOf laws done.sound.stores.good installed).1
    have imageAfter : ∀ image, IsImage sys abs after stage.key image ↔ image = [stage.taken] := by
      refine isImage_single_iff laws done.sound digestedAfter readAfter layers ?_
      refine collisionFree.mono (Set.union_subset withinAfter ?_)
      rintro _ rfl
      exact .inr ⟨stage, active, rfl⟩
    have listedAfter : MayList sys abs after stage.key := by
      rw [listsAfter]
      refine ⟨⟨record, readAfter⟩, .inr ⟨listable, ?_⟩⟩
      rw [put, update_self]
      rfl
    constructor
    · intro undisturbed
      obtain ⟨⟨old, read⟩, -⟩ := listsBefore.mp (undisturbed.unlisted listedAfter)
      obtain ⟨image, isImage⟩ := exists_image laws soundBefore read
      have kept := (imageAfter image).mp (undisturbed.image image isImage)
      exact .inr (kept ▸ isImage)
    rintro (refused | ⟨old, read, held⟩)
    · exact absurd refused finished
    refine ⟨?_, ?_, ?_⟩
    · intro name other
      rw [put, update_of_ne other, same]
    · intro _
      rw [listsBefore]
      refine ⟨⟨old, read⟩, ?_⟩
      rcases readMeta_entryOf laws soundBefore.stores.good read with isEntry | ⟨image, found, -⟩
      · exact .inr ⟨listable, entryOf_isSome isEntry⟩
      · refine .inl ⟨image, mem_of_find?_eq_some found, ?_⟩
        simpa using find?_some found
    · rintro image ⟨_, isRead, heldImage⟩
      rw [read] at isRead
      cases isRead
      have whole := images_eq collisionFree digestedBefore digestedBefore within within heldImage held
      exact (imageAfter image).mpr whole

/-- For every plain install of a reference that a listing shows, in any chunks, that `VfsDestroy`
ends because the wapp did not close its descriptor: the reference lists nothing new and its earlier
entry holds its old layers, iff the finish that the close makes is refused or the entry held
the very bytes written so far. -/
theorem interrupted_install_iff (laws : Contract sys.ops abs)
    (shows : Shows sys.ops abs) {p : ControlPlane σ}
    (sound : Sound sys abs True p.registry) (digested : Digested sys abs p.registry)
    (table : 0 < p.registry.pending.length) {ref : Bytes} {key : Key}
    (accepted : validInstallRef ref = true) (parsed : parseRef ref = .ok key)
    (listable : abs.listable key) {fd : Nat}
    (opened : p.fds.getD fd .free = .install ref false) (first : Bytes) (allocated : Bool)
    {taken : Nat} (wrote : (regWrite sys p fd first allocated).1 = .ok taken)
    (chunks : List Bytes) (now : Option UInt64) {node : Nat} {fildes : Int → Option Nat}
    {v : Vfs.VfsState} {handle : Vfs.Handle} (held : handle ∈ Vfs.handlesOf v.fds)
    (isNode : handle.driver = node) (behind : fildes handle.drvFd = some fd)
    (quiet : ∀ other ∈ regCloses node fildes v, other ≠ fd → (p.fds.getD other .free).Quiet)
    (collisionFree : Set.InjOn sys.sha256 (heldBytes abs (ensureReady sys p.registry) ∪
      heldBytes abs (destroyVfs sys now node fildes v
        (regWrites sys (regWrite sys p fd first allocated).2 fd chunks)).registry ∪
      stagedBytes (regWrites sys (regWrite sys p fd first allocated).2 fd chunks).registry)) :
    Undisturbed sys abs (ensureReady sys p.registry)
        (destroyVfs sys now node fildes v
          (regWrites sys (regWrite sys p fd first allocated).2 fd chunks)).registry key ↔
      FinishRefused sys (regWrites sys (regWrite sys p fd first allocated).2 fd chunks).registry now ∨
        ∃ bytes ∈ stagedBytes (regWrites sys (regWrite sys p fd first allocated).2 fd chunks).registry,
          IsImage sys abs (ensureReady sys p.registry) key [bytes] := by
  obtain ⟨start, ready⟩ := ensureReady_continues laws sound
  obtain ⟨answer, slot, written⟩ := regWrites_first opened wrote chunks
  rw [written] at collisionFree ⊢
  -- the close of the one descriptor that is not quiet finishes the stage
  have ended : (destroyVfs sys now node fildes v ⟨p.fds.set fd (.install ref true), continued sys
      (registryWrite sys p.registry true (.start ref 0 allocated) first).2 chunks⟩).registry =
      (registryWrite sys (continued sys
        (registryWrite sys p.registry true (.start ref 0 allocated) first).2 chunks)
        true (.finish now) []).2 := by
    rw [destroyVfs_registry now (mem_regCloses held isNode behind), slot]
    · rfl
    intro other isClosed differs
    rw [Slots.getD_set_ne _ (Ne.symm differs)]
    exact quiet other isClosed differs
  rw [ended] at collisionFree ⊢
  have writing := (registryWrite_start laws sound.loose ref allocated first).2 taken answer
  obtain ⟨stage, active, isKey⟩ := start_key answer
  rw [parsed] at isKey
  cases isKey
  obtain ⟨startSound, startDigested, startResident⟩ :=
    registryWrite_quiet laws sound digested (.start ref 0 allocated) first rfl
  obtain ⟨soundLast, digestedLast, lastResident⟩ :=
    continued_strict laws startSound startDigested chunks
  obtain ⟨last, activeLast, lastKey⟩ := continued_key active chunks
  have writingLast := writing.continued laws chunks
  have tableLast : 0 < (continued sys
      (registryWrite sys p.registry true (.start ref 0 allocated) first).2 chunks).pending.length := by
    rw [writingLast.unchanged.pending, ensureReady_only]
    exact table
  have startMaps : MapsDigested sys (ensureReady sys p.registry).maps := by
    rw [ensureReady_only]
    exact digested.maps
  have digestedStart := digested.of_continues laws sound.loose
      (ensureReady_continues laws sound.loose).1 startMaps
  have acceptedKey := (accepted_of_parse accepted parsed).1
  have residentLast := lastResident.trans (startResident.trans start.resident.symm)
  have iff := writingLast.undisturbed_iff laws shows tableLast start.sound ready digestedStart
    soundLast digestedLast residentLast activeLast (lastKey ▸ acceptedKey.fits)
    (lastKey ▸ listable) now collisionFree
  rw [lastKey] at iff
  rw [iff]
  refine or_congr_right ⟨fun isImage => ⟨_, ⟨last, activeLast, rfl⟩, isImage⟩, ?_⟩
  rintro ⟨_, ⟨_, isStage, rfl⟩, isImage⟩
  rw [activeLast] at isStage
  cases isStage
  exact isImage

/-! ### Examples -/

/-- A file system with one open descriptor, of the node `/dev/wanted`. -/
def installingVfs : Vfs.VfsState :=
  { Vfs.vfsInit with
    fds := [some ⟨.other (.mounted .dev) 0 [], some ⟨0, 3, 0⟩, 0, nofun⟩]
    devfs := [(ascii "wanted", 0)] }

/-- A wapp has opened `app:1` for writing. -/
def openedApp (r : State PageStore) : ControlPlane PageStore :=
  ⟨(openImage sample.cfg (List.replicate maxRegFds .free) (ascii "app:1")).2, r⟩

def stoppedApp (r : State PageStore) (first : Bytes) (chunks : List Bytes) : State PageStore :=
  (destroyVfs sample none 0 (fun _ => some 0) installingVfs
    (regWrites sample (regWrite sample (openedApp r) 0 first true).2 0 chunks)).registry

variable {pages : PageConfig} {r : State PageStore}

/-- Without resident images a page registry holds what its blobs hold. -/
lemma heldBytes_among (noResident : r.resident = [])
    (among : List Bytes) (each : ∀ s ∈ r.stores, ∀ digest ∈ blobDigests s.disk.blobs,
      ((pageReading pages).view s).blobs digest ∈ among.map some) :
    ∀ bytes ∈ heldBytes (pageReading pages) r, bytes ∈ among := by
  rintro bytes ⟨digest, ⟨_, isImage, -⟩ | ⟨store, isStore, isBytes⟩⟩
  · rw [noResident] at isImage
    cases isImage
  obtain ⟨_, loaded⟩ := blobAt_isSome.mp (Option.isSome_of_eq_some isBytes)
  have listed := each store isStore digest (mem_blobDigests_of_load loaded)
  rw [isBytes] at listed
  simpa using listed

lemma heldBytes_empty (noResident : r.resident = [])
    (noBlobs : ∀ s ∈ r.stores, ∀ digest ∈ blobDigests s.disk.blobs,
      ((pageReading pages).view s).blobs digest ∈ [].map some) :
    heldBytes (pageReading pages) r = ∅ :=
  Set.eq_empty_of_forall_notMem fun _ held => not_mem_nil (heldBytes_among noResident [] noBlobs _ held)

/-- A store of sixty bytes refuses the chunks of a seventy-byte image, and the interrupted install
leaves nothing. -/
theorem interrupted_install_large : Undisturbed sample wide
      (ensureReady sample (sampleRegistry []))
      (stoppedApp (sampleRegistry []) [7] [List.replicate 69 7]) ⟨ascii "app", ascii "1"⟩ := by
  have empty : heldBytes wide (ensureReady sample (sampleRegistry [])) =
      ∅ := heldBytes_empty (by decide +kernel) (by decide +kernel)
  have emptyAfter : heldBytes wide (stoppedApp (sampleRegistry []) [7] [replicate 69 7]) = ∅ :=
    heldBytes_empty (by decide +kernel) (by decide +kernel)
  have broken : ((regWrites sample (regWrite sample (openedApp (sampleRegistry [])) 0 [7]
      true).2 0 [replicate 69 7]).registry.stage.map fun stage => stage.err.isSome) =
        some true := by decide +kernel
  have accepted : Accepted ⟨ascii "app", ascii "1"⟩ := ⟨by decide, by decide⟩
  refine Iff.mpr (interrupted_install_iff sampleContract (pageShows wideConfig sampleHost)
    (sampleRegistry_sound True []) (sampleRegistry_digested (forall_mem_nil _))
    (by decide)
    (show validInstallRef (ascii "app:1") = true by decide) (by decide)
    ((page_listable_iff accepted).mpr (by decide)) (by decide) [7] true
    (show (regWrite sample (openedApp (sampleRegistry [])) 0 [7] true).1 = .ok 1 by
      decide +kernel)
    [replicate 69 7] none (mem_singleton_self (⟨0, 3, 0⟩ : Vfs.Handle)) rfl rfl ?_ ?_)
    (.inl ?_)
  · intro other closed differs
    exact absurd (mem_singleton.mp closed) differs
  · show Set.InjOn _ (heldBytes wide
      (ensureReady sample (sampleRegistry [])) ∪ heldBytes wide
      (stoppedApp (sampleRegistry []) [7] [replicate 69 7]) ∪ _)
    rw [empty, emptyAfter, Set.union_empty, Set.empty_union]
    rintro _ ⟨stage, isStage, rfl⟩ _ ⟨_, isStage', rfl⟩ -
    rw [isStage] at isStage'
    cases isStage'
    rfl
  · intro primary others stage primary' stores active noErr
    rw [active, Option.map_some, noErr] at broken
    cases broken

/-- A wapp that is stopped after one byte of `app:1` has installed it: nothing was listed before, and
`app:1` is listed then. And where `app:1` was installed with another byte, its load returns the byte
of the interrupted install. -/
theorem interrupted_install_published : (registryRead sample (sampleRegistry []) 50).2.1 = [] ∧
    (registryRead sample (stoppedApp (sampleRegistry []) [7] []) 50).2.1 =
      [⟨⟨ascii "app", ascii "1"⟩, 1⟩] ∧
    loadedBytes (registryMapLayers sample ((registryMachine sample).exec
      (sampleRegistry []) (installOf (ascii "app:1"))) appEntry).1 = some [[7]] ∧
    loadedBytes (registryMapLayers sample (stoppedApp ((registryMachine sample).exec
      (sampleRegistry []) (installOf (ascii "app:1"))) [8] []) appEntry).1 = some [[8]] := by
  decide +kernel

end WantedEngine.Registry
