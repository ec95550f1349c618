import WantedEngine.Registry.RecordLimit
/-!
# Installs that fail

A plain install is a START, any number of CONTINUEs and a FINISH (`RegistryWrite`). Whatever refuses
it before its bytes are kept leaves the records, the pending layers and the blobs as they were. The
FINISH keeps the bytes as a blob and lists the layer as pending before it commits, and a commit that
is refused takes neither back. So a failed install leaves no trace iff the commit is not
what refused it (`failed_install_unchanged_iff`).
-/
namespace WantedEngine.Registry

open Foundation Page List

variable {σ ν : Type} {dec : DecidableEq ν} {sys : System σ} {abs : Reading σ ν}
variable (laws : Contract sys.ops abs) {r : State σ} (sound : Sound sys abs False r)

def continued (sys : System σ) (r : State σ) (chunks : List Bytes) : State σ :=
  chunks.foldl (fun r chunk => (registryWrite sys r true .next chunk).2) r

/-- A plain install. A refused START ends it; a refused CONTINUE is told again by the FINISH. -/
def installPlain (sys : System σ) (r : State σ) (ref first : Bytes) (allocated : Bool)
    (chunks : List Bytes) (now : Option UInt64) : Rc Nat × State σ :=
  match registryWrite sys r true (.start ref 0 allocated) first with
  | (.error e, r) => (.error e, r)
  | (.ok _, r) => registryWrite sys (continued sys r chunks) true (.finish now) []

def blobsOf (abs : Reading σ ν) (stores : List σ) : List (Digest → Option Bytes) :=
  stores.map fun store => (abs.view store).blobs

/-- The records, the pending layers and the blobs are as before. -/
structure Unchanged (abs : Reading σ ν) (r r' : State σ) : Prop where
  records : recordsOf abs r'.stores = recordsOf abs r.stores
  pending : r'.pending = r.pending
  blobs : blobsOf abs r'.stores = blobsOf abs r.stores

/-- Nothing done changes nothing. -/
lemma Unchanged.refl (r : State σ) : Unchanged abs r r := ⟨rfl, rfl, rfl⟩

lemma Unchanged.trans {first second third : State σ} (before : Unchanged abs first second)
    (after : Unchanged abs second third) : Unchanged abs first third :=
  ⟨after.records.trans before.records, after.pending.trans before.pending,
    after.blobs.trans before.blobs⟩

variable {others : List σ} {stage : Stage} {before : State σ}

lemma Unchanged.primary {r : State σ} {p p' : σ} (stores : r.stores = p :: others)
    (records : (abs.view p').records = (abs.view p).records)
    (blobs : (abs.view p').blobs = (abs.view p).blobs) (stage : Option Stage) :
    Unchanged abs r (setPrimary { r with stage } p') := by
  refine ⟨?_, rfl, ?_⟩
  · rw [stores]
    exact records
  · rw [stores]
    exact congrArg (· :: blobsOf abs others) blobs

/-! ### Before the bytes are kept -/

lemma Restages.unchanged {strict : Prop} {r r' : State σ}
    (restages : Restages sys abs strict r r') : Unchanged abs r r' := by
  cases restages with
  | intro stage stores calls view busy =>
    exact Unchanged.primary stores (by rw [view]) (by rw [view]) stage

/-- An install that is being written: its stage is open and nothing else has changed. -/
structure Writing (sys : System σ) (abs : Reading σ ν) (before r : State σ) : Prop where
  sound : Sound sys abs False r
  ready : r.ready = true
  stores : r.stores ≠ []
  /-- The stage is of the one layer of a plain install. -/
  stage : ∃ stage, r.stage = some stage ∧ stage.plain = true ∧ stage.layer = 0
  unchanged : Unchanged abs before r

include laws

/-- CONTINUE goes on. -/
lemma Writing.next {r : State σ} (writing : Writing sys abs before r) (chunk : Bytes) :
    Writing sys abs before (registryWrite sys r true .next chunk).2 := by
  obtain ⟨sound, ready, some_, ⟨stage, active, plain, layer⟩, unchanged⟩ := writing
  have started : ensureReady sys r = r := by rw [ensureReady, if_pos ready]
  cases stores : r.stores with
  | nil => exact absurd stores some_
  | cons p others =>
    rw [registryWrite, started, writeLayerLocked, stores]
    rw [active]
    dsimp only
    split
    · exact ⟨sound, ready, some_, ⟨stage, active, plain, layer⟩, unchanged⟩
    obtain ⟨restages, stage', active', plain', layer'⟩ :=
      stageWriteLocked_restages laws sound ready stores active chunk
    have continues := restages.continues laws sound ready
    exact ⟨continues.sound, continues.ready ready, continues.steps.ne_nil some_,
      ⟨stage', active', plain'.trans plain, layer'.trans layer⟩,
      unchanged.trans restages.unchanged⟩

lemma Writing.continued {r : State σ} (writing : Writing sys abs before r)
    (chunks : List Bytes) : Writing sys abs before (continued sys r chunks) := by
  induction chunks generalizing r with
  | nil => exact writing
  | cons chunk rest ih => exact ih (writing.next laws chunk)

include sound

lemma registryWrite_start (ref : Bytes) (allocated : Bool) (first : Bytes) :
    Unchanged abs (ensureReady sys r) (registryWrite sys r true (.start ref 0 allocated) first).2 ∧
      ∀ taken, (registryWrite sys r true (.start ref 0 allocated) first).1 = .ok taken →
        Writing sys abs (ensureReady sys r)
          (registryWrite sys r true (.start ref 0 allocated) first).2 := by
  obtain ⟨start, ready⟩ := ensureReady_continues laws sound
  rw [registryWrite, writeLayerLocked]
  cases stores : (ensureReady sys r).stores with
  | nil => exact ⟨Unchanged.refl _, nofun⟩
  | cons p others =>
    have some_ : (ensureReady sys r).stores ≠ [] := by
      rw [stores]
      exact cons_ne_nil _ _
    obtain ⟨restages, opened⟩ :=
      startWrite_restages laws start.sound ready stores true ref 0 allocated first
    have continues := restages.continues laws start.sound ready
    refine ⟨restages.unchanged, ?_⟩
    intro taken done
    split at opened
    · rename_i refused
      cases (congrArg Prod.fst refused).symm.trans done
    rename_i result
    obtain ⟨_, -, -, active⟩ := opened
    refine ⟨continues.sound, continues.ready ready, continues.steps.ne_nil some_, ?_,
      restages.unchanged⟩
    exact ⟨_, (congrArg (State.stage ∘ Prod.snd) result).trans active, rfl, rfl⟩

omit laws sound

/-! ### The commit -/

variable {pending : List (Option Pending)}

lemma pendingSlot_first {key : Key} {index pos : Nat}
    (before : pos < pendingSlot pending key index) (slot : Option Pending)
    (here : pending[pos]? = some slot) : isLayer key index slot = false := by
  unfold pendingSlot at before
  cases own : pending.findIdx? (isLayer key index) with
  | some first =>
    rw [own] at before
    obtain ⟨_, -, earlier⟩ := findIdx?_eq_some_iff_getElem.mp own
    have other := earlier pos before
    obtain ⟨_, at_⟩ := List.getElem?_eq_some_iff.mp here
    rw [at_] at other
    simpa using other
  | none =>
    exact findIdx?_eq_none_iff.mp own slot (mem_of_getElem? here)

lemma pendingFind_added (some_ : 0 < pending.length) (layer : Pending) :
    pendingFind (pending.set (pendingSlot pending layer.key layer.index) (some layer)) layer.key
      layer.index = some layer := by
  have inside := pendingSlot_lt some_ layer.key layer.index
  have found : (pending.set (pendingSlot pending layer.key layer.index) (some layer)).find?
      (isLayer layer.key layer.index) = some (some layer) := by
    rw [find?_eq_some_iff_getElem]
    refine ⟨by simp [isLayer], pendingSlot pending layer.key layer.index, by simpa using inside,
      by simp, ?_⟩
    intro pos before
    have bound := Nat.lt_trans before inside
    have other := pendingSlot_first before pending[pos] (getElem?_eq_getElem bound)
    rw [getElem_set_ne (Nat.ne_of_gt before), other]
    rfl
  rw [pendingFind, found]
  rfl

def plainMeta (sys : System σ) (r : State σ) (stage : Stage) (now : Option UInt64) : Meta :=
  commitMeta [⟨stage.taken.length.toUInt32, sys.sha256 stage.taken⟩]
    (0 + stage.taken.length.toUInt32) (syncSeq sys r).seq now none

/-- The commit of a plain install is refused: the entry is new and the registry is full, or the
store does not take the record. -/
def CommitRefused (sys : System σ) (r : State σ) (stage : Stage) (now : Option UInt64) : Prop :=
  (succeeded (readMeta sys r stage.key) = false ∧ registryMaxEntries ≤ recordCount sys r) ∨
    ∃ e, (writeMeta sys (syncSeq sys r) stage.key (plainMeta sys r stage now)).1 =
      .error e

include laws

/-- A record that the store does not take changes nothing. -/
lemma writeMeta_unchanged {r : State σ} (good : ∀ store ∈ r.stores, abs.good store)
    {key : Key} {record : Meta} {e : Errno}
    (failed : (writeMeta sys r key record).1 = .error e) :
    Unchanged abs r (writeMeta sys r key record).2 := by
  unfold writeMeta at failed ⊢
  split at failed
  · exact Unchanged.refl r
  rename_i p others stores
  split at failed
  · exact Unchanged.refl r
  rename_i bytes encoded
  have after := laws.recPut key bytes (good p (primary_mem stores))
  rw [failed] at after
  have same := Unchanged.primary stores (by rw [after.view]; rfl) (by rw [after.view]) r.stage
  rw [setPrimary_eq (show ({ r with stage := r.stage } : State σ).stores = _ from stores)] at same
  exact same

lemma commitLocked_plain {r : State σ} (good : ∀ store ∈ r.stores, abs.good store)
    {order : UInt32} (found : pendingFind r.pending stage.key 0 =
      some ⟨stage.key, 0, sys.sha256 stage.taken, stage.taken.length.toUInt32, order⟩)
    (now : Option UInt64) :
    ((∃ e, (commitLocked sys r stage.key 1 none now).1 = .error e) ↔ CommitRefused sys r stage now) ∧
      (CommitRefused sys r stage now →
        Unchanged abs r (commitLocked sys r stage.key 1 none now).2) := by
  have gathered : gatherLayers r.pending stage.key 0 0 1 =
      .ok ([⟨stage.taken.length.toUInt32, sys.sha256 stage.taken⟩],
        0 + stage.taken.length.toUInt32) := by
    rw [gatherLayers, found]
    rfl
  have one := Nat.not_lt.mpr sys.cfg.maxLayers_pos
  obtain ⟨seq, synced⟩ := syncSeq_eq sys r
  rw [commitLocked, if_neg one, gathered]
  dsimp only
  by_cases full : (!succeeded (readMeta sys r stage.key)) = true ∧
      registryMaxEntries ≤ recordCount sys r
  · rw [if_pos full]
    have refused : CommitRefused sys r stage now :=
      Or.inl ⟨by simpa using full.1, full.2⟩
    exact ⟨⟨fun _ => refused, fun _ => ⟨_, rfl⟩⟩, fun _ => Unchanged.refl r⟩
  rw [if_neg full]
  have onlyPut : CommitRefused sys r stage now ↔
      ∃ e, (writeMeta sys (syncSeq sys r) stage.key (plainMeta sys r stage now)).1 = .error e := by
    refine or_iff_right ?_
    intro counted
    exact full ⟨by simpa using counted.1, counted.2⟩
  rw [onlyPut]
  have goodSynced : ∀ store ∈ (syncSeq sys r).stores, abs.good store := by
    rw [synced]
    exact good
  have same : Unchanged abs r (syncSeq sys r) := by
    rw [synced]
    exact ⟨rfl, rfl, rfl⟩
  have unwritten := @writeMeta_unchanged _ _ _ _ _ laws _ goodSynced stage.key
    (plainMeta sys r stage now)
  unfold plainMeta at unwritten ⊢
  cases written : writeMeta sys (syncSeq sys r) stage.key
    (commitMeta [⟨stage.taken.length.toUInt32, sys.sha256 stage.taken⟩]
      (0 + stage.taken.length.toUInt32) (syncSeq sys r).seq now none) with
  | mk rc after =>
    rw [written] at unwritten
    cases rc with
    | error e =>
      refine ⟨⟨fun _ => ⟨e, rfl⟩, fun _ => ⟨e, rfl⟩⟩, fun _ => same.trans (unwritten rfl)⟩
    | ok _ =>
      refine ⟨⟨?_, ?_⟩, ?_⟩
      · rintro ⟨e, failed⟩
        cases failed
      · rintro ⟨e, failed⟩
        cases failed
      · rintro ⟨e, failed⟩
        cases failed

omit laws

/-! ### The end of an install -/

def keptLayer (sys : System σ) (r : State σ) (stage : Stage) : Pending :=
  ⟨stage.key, stage.layer, sys.sha256 stage.taken, stage.taken.length.toUInt32, r.order + 1⟩

/-- The layer of the stage is pending already, in the very slot and with the very age it is about
to get, and the primary store has its blob. -/
def AlreadyKept (sys : System σ) (abs : Reading σ ν) (r : State σ) (p : σ) (stage : Stage) : Prop :=
  r.pending[pendingSlot r.pending stage.key stage.layer]? = some (some (keptLayer sys r stage)) ∧
    ((abs.view p).blobs (sys.sha256 stage.taken)).isSome

/-- A refused commit of the stage that a FINISH ends finds the stage's layer there already. -/
def LeavesNoTrace (sys : System σ) (abs : Reading σ ν) (r : State σ) (now : Option UInt64) : Prop :=
  ∀ p others stage p', r.stores = p :: others → r.stage = some stage →
    stage.err = none → stage.taken ≠ [] →
    sys.ops.stageEnd p (sys.sha256 stage.taken) stage.taken.length = (.ok (), p') →
    CommitRefused sys (stageKept sys r p' stage) stage now →
    AlreadyKept sys abs r p stage

/-- A stage that is kept becomes a pending layer. -/
lemma stageKept_pending (sys : System σ) (r : State σ) (p : σ) (stage : Stage) :
    (stageKept sys r p stage).pending =
      r.pending.set (pendingSlot r.pending stage.key stage.layer) (some (keptLayer sys r stage)) := by
  rw [stageKept, pendingAdd, dropAllIfFree_only]
  rfl

lemma stageKept_stores {r : State σ} {p : σ}
    (already : r.pending[pendingSlot r.pending stage.key stage.layer]? =
      some (some (keptLayer sys r stage))) :
    (stageKept sys r p stage).stores = (setPrimary { r with stage := none } p).stores := by
  have nothing : replacedDigest r.pending (pendingSlot r.pending stage.key stage.layer)
      (sys.sha256 stage.taken) = [] := by
    rw [replacedDigest, already]
    exact if_neg (not_not_intro rfl)
  exact congrArg (fun replaced => (dropAllIfFree sys _ replaced).stores) nothing

lemma stageKept_unchanged_iff {r : State σ} {p p' : σ}
    (stores : r.stores = p :: others) (table : 0 < r.pending.length)
    (records : (abs.view p').records = (abs.view p).records)
    (blobs : (abs.view p').blobs = keepBlob (abs.view p).blobs (sys.sha256 stage.taken) stage.taken) :
    Unchanged abs r (stageKept sys r p' stage) ↔ AlreadyKept sys abs r p stage := by
  constructor
  · intro unchanged
    have pending := unchanged.pending
    rw [stageKept_pending] at pending
    have slot : r.pending[pendingSlot r.pending stage.key stage.layer]? =
        some (some (keptLayer sys r stage)) := by
      have inside := pendingSlot_lt table stage.key stage.layer
      have set := getElem?_set_self (a := some (keptLayer sys r stage)) inside
      rwa [pending] at set
    refine ⟨slot, ?_⟩
    have same := unchanged.blobs
    rw [stageKept_stores slot, stores]
      at same
    have heads : (abs.view p').blobs = (abs.view p).blobs :=
      (List.cons.inj same).1
    rw [← heads, blobs]
    exact keepBlob_isSome
  · rintro ⟨slot, held⟩
    have kept : (abs.view p').blobs = (abs.view p).blobs := by
      rw [blobs, keepBlob, if_pos held]
    have same := Unchanged.primary stores records kept none
    refine ⟨?_, ?_, ?_⟩
    · rw [stageKept_stores slot]
      exact same.records
    · rw [stageKept_pending]
      obtain ⟨inside, at_⟩ := List.getElem?_eq_some_iff.mp slot
      rw [← at_]
      exact set_getElem_self inside
    · rw [stageKept_stores slot]
      exact same.blobs

lemma Unchanged.symm {first second : State σ} (same : Unchanged abs first second) :
    Unchanged abs second first :=
  ⟨same.records.symm, same.pending.symm, same.blobs.symm⟩

/-- A condition on what a FINISH keeps speaks of the one stage that is open. -/
lemma keeps_iff {r : State σ} {p : σ} (stores : r.stores = p :: others)
    (active : r.stage = some stage) (condition : σ → Stage → σ → Prop) :
    (∀ p others stage p', r.stores = p :: others → r.stage = some stage →
      stage.err = none → stage.taken ≠ [] →
      sys.ops.stageEnd p (sys.sha256 stage.taken) stage.taken.length = (.ok (), p') →
      condition p stage p') ↔
    ∀ p', Keeps sys p stage p' → condition p stage p' := by
  constructor
  · rintro all p' ⟨noErr, nonempty, ended⟩
    exact all p others stage p' stores active noErr nonempty ended
  intro all first rest other p' stores' active' noErr nonempty ended
  rw [stores] at stores'
  rw [active] at active'
  cases stores'
  cases active'
  exact all p' ⟨noErr, nonempty, ended⟩

/-- A FINISH fails and changes nothing else, or the store keeps the bytes of the stage and they become
a pending layer, which a plain stage commits. -/
lemma registryWrite_finish (laws : Contract sys.ops abs) {r : State σ}
    (sound : Sound sys abs False r) (ready : r.ready = true) {p : σ}
    (stores : r.stores = p :: others) (active : r.stage = some stage) (plain : Bool)
    (now : Option UInt64) :
    ((∀ p', ¬ Keeps sys p stage p') ∧
      (∃ e, (registryWrite sys r plain (.finish now) []).1 = .error e) ∧
      Unchanged abs r (registryWrite sys r plain (.finish now) []).2) ∨
    ∃ p', Keeps sys p stage p' ∧
      registryWrite sys r plain (.finish now) [] =
        let done := if stage.plain then
            commitLocked sys (stageKept sys r p' stage) stage.key 1 none now
          else (.ok (), stageKept sys r p' stage)
        (done.1.map fun _ => 0, done.2) := by
  have started : ensureReady sys r = r := by rw [ensureReady, if_pos ready]
  rw [registryWrite, started, writeLayerLocked, stores]
  rw [active]
  dsimp only
  rcases stageFinishLocked_cases laws sound ready stores active now with
    ⟨notKept, e, r', finish, -, restages⟩ | ⟨p', isKept, finish⟩
  · rw [finish]
    exact .inl ⟨notKept, ⟨e, rfl⟩, restages.unchanged⟩
  · rw [finish]
    exact .inr ⟨p', isKept, rfl⟩

lemma stageKept_found {r : State σ} (table : 0 < r.pending.length) (p : σ) (stage : Stage) :
    pendingFind (stageKept sys r p stage).pending stage.key stage.layer =
      some (keptLayer sys r stage) := by
  rw [stageKept_pending]
  exact pendingFind_added table (keptLayer sys r stage)

lemma Writing.finish_iff (laws : Contract sys.ops abs) {r : State σ}
    (writing : Writing sys abs before r) (table : 0 < r.pending.length) (now : Option UInt64) :
    ((∃ e, (registryWrite sys r true (.finish now) []).1 = .error e) →
        Unchanged abs before (registryWrite sys r true (.finish now) []).2) ↔
      LeavesNoTrace sys abs r now := by
  obtain ⟨sound, ready, some_, ⟨stage, active, plain, layer⟩, unchanged⟩ := writing
  cases stores : r.stores with
  | nil => exact absurd stores some_
  | cons p others =>
    have condition : LeavesNoTrace sys abs r now ↔ ∀ p',
        Keeps sys p stage p' →
        CommitRefused sys (stageKept sys r p' stage) stage now →
        AlreadyKept sys abs r p stage :=
      keeps_iff stores active fun p stage p' =>
        CommitRefused sys (stageKept sys r p' stage) stage now → AlreadyKept sys abs r p stage
    rw [condition]
    rcases registryWrite_finish laws sound ready stores active true now with
      ⟨notKept, -, same⟩ | ⟨p', isKept, finish⟩
    · exact ⟨fun _ p' isKept => absurd isKept (notKept p'),
        fun _ _ => unchanged.trans same⟩
    · obtain ⟨-, records, blobs, -⟩ := isKept.continues laws sound ready stores active
      have kept := stageKept_continues laws sound ready stores isKept active
      have found := @stageKept_found _ sys r table p' stage
      rw [keptLayer, layer] at found
      obtain ⟨refusedIff, quiet⟩ := commitLocked_plain laws kept.sound.stores.good found now
      have keptIff := stageKept_unchanged_iff stores table records blobs
      rw [finish, if_pos plain, exists_error_iff, succeeded_map, ← exists_error_iff]
      constructor
      · rintro leaves _ ⟨-, -, isEnd⟩ refused
        cases isKept.2.2.symm.trans isEnd
        have whole := leaves (refusedIff.mpr refused)
        exact keptIff.mp ((unchanged.symm.trans whole).trans (quiet refused).symm)
      · intro leaves isFailed
        have refused := refusedIff.mp isFailed
        have already := leaves p' isKept refused
        exact (unchanged.trans (keptIff.mpr already)).trans (quiet refused)

/-- For every registry and every plain install: an install that ends in an error leaves the records,
the pending layers and the blobs as they were, iff the commit at its end is not refused (or
finds the layer it added there already). -/
theorem failed_install_unchanged_iff (laws : Contract sys.ops abs) {r : State σ}
    (sound : Sound sys abs False r) (table : 0 < r.pending.length) (ref first : Bytes)
    (allocated : Bool) (chunks : List Bytes) (now : Option UInt64) :
    ((∃ e, (installPlain sys r ref first allocated chunks now).1 = .error e) →
        Unchanged abs (ensureReady sys r) (installPlain sys r ref first allocated chunks now).2) ↔
      ∀ taken opened, registryWrite sys r true (.start ref 0 allocated) first = (.ok taken, opened) →
        LeavesNoTrace sys abs (continued sys opened chunks) now := by
  obtain ⟨same, writing⟩ := registryWrite_start laws sound ref allocated first
  unfold installPlain
  cases started : registryWrite sys r true (.start ref 0 allocated) first with
  | mk rc opened =>
    rw [started] at same writing
    cases rc with
    | error e => exact ⟨fun _ _ _ => nofun, fun _ _ => same⟩
    | ok taken =>
      have goesOn := (writing taken rfl).continued laws chunks
      have sized : 0 < (continued sys opened chunks).pending.length := by
        rw [goesOn.unchanged.pending, ensureReady_only]
        exact table
      rw [goesOn.finish_iff laws sized now]
      constructor
      · intro leaves taken' opened' isStart
        cases isStart
        exact leaves
      · intro leaves
        exact leaves taken opened rfl

/-- A store of sixty bytes refuses a seventy-byte image: the install meets the theorem's condition and
leaves no trace. -/
theorem failed_install_unchanged_large :
    (∃ e, (installPlain sample (sampleRegistry []) (ascii "app:1") [7] true
      [List.replicate 69 7] none).1 = .error e) ∧
    Unchanged wide (ensureReady sample (sampleRegistry []))
      (installPlain sample (sampleRegistry []) (ascii "app:1") [7] true
        [List.replicate 69 7] none).2 := by
  have sound := sampleRegistry_sound False []
  have failed : ∃ e, (installPlain sample (sampleRegistry []) (ascii "app:1") [7] true
      [List.replicate 69 7] none).1 = .error e := ⟨.enospc, by decide +kernel⟩
  refine ⟨failed, (failed_install_unchanged_iff sampleContract sound (by decide) (ascii "app:1") [7] true
    [List.replicate 69 7] none).mpr ?_ failed⟩
  intro taken opened isStart p others stage p' stores active noErr
  have broken : ((continued sample (registryWrite sample (sampleRegistry []) true
      (.start (ascii "app:1") 0 true) [7]).2 [List.replicate 69 7]).stage.map
        fun stage => stage.err.isSome) = some true := by decide +kernel
  rw [isStart, active, Option.map_some, noErr] at broken
  cases broken

/-- Fifty images are installed: the install of another is refused by its commit, and its layer stays
pending. -/
theorem failed_install_kept : (∃ e, (installPlain sample
      (sampleAfter [] fillingRun) (ascii "app:1") [9] true
      [] none).1 = .error e) ∧
    ¬ Unchanged wide
      (ensureReady sample (sampleAfter [] fillingRun))
      (installPlain sample (sampleAfter [] fillingRun) (ascii "app:1") [9] true [] none).2 := by
  refine ⟨⟨.enospc, by decide +kernel⟩, ?_⟩
  intro unchanged
  have differ : (installPlain sample
      (sampleAfter [] fillingRun) (ascii "app:1") [9] true
      [] none).2.pending ≠ (ensureReady sample ((registryMachine sample).exec
        (sampleRegistry []) fillingRun)).pending := by decide +kernel
  exact differ unchanged.pending

end WantedEngine.Registry
