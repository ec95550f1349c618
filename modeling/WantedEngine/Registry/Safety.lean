import WantedEngine.Registry.Mapping
import WantedEngine.Registry.Resolve
/-!
# Runs of the registry keep what is in use

Every request, a restart included, leads from a sound state to a sound state by calls the
registry may make (`serve_operates`), as long as what it publishes has a key that a listing of
the records shows. Along a run, whatever a record lists, whatever is pending and whatever is
mapped is held by a store or is a resident image.
-/
namespace WantedEngine.Registry

open Foundation List

variable {σ ν : Type} {sys : System σ} {abs : Reading σ ν} {strict : Prop}

/-- One operation: a sound state, the same resident images, and at most one record changed. -/
structure Operates (sys : System σ) (abs : Reading σ ν) (strict : Prop) (r r' : State σ) : Prop where
  sound : Sound sys abs strict r'
  resident : r'.resident = r.resident
  steps : ∃ n ≤ 1, Evolves sys abs strict r.resident r.stores n r'.stores

/-- What continues soundly is an operation. -/
lemma ContinuesOnce.operates {r r' : State σ} (done : ContinuesOnce sys abs strict r r') :
    Operates sys abs strict r r' := by
  obtain ⟨n, few, done⟩ := done
  exact ⟨done.sound, done.resident, n, few, done.steps⟩

/-! ### Records that were read -/

variable {key : Key} {record : Meta} {r : State σ}

lemma readMeta_cases (read : readMeta sys r key = .ok record) :
    (∃ bytes, primaryGet sys r key = .ok bytes ∧ registryRecordDecode sys.cfg bytes = some record) ∨
    ∃ e image, primaryGet sys r key = .error e ∧ residentFind r key = some image ∧
      record = residentMeta image := by
  unfold readMeta at read
  split at read
  · rename_i bytes got
    split at read
    · rename_i decoded
      cases read
      exact .inl ⟨bytes, got, decoded⟩
    · cases read
  · rename_i e got
    split at read
    · cases read
    rename_i image found
    cases read
    exact .inr ⟨e, image, got, found, rfl⟩

variable [dec : DecidableEq ν]
omit dec
variable (laws : Contract sys.ops abs) {r : State σ} (sound : Sound sys abs strict r)
  (ready : r.ready = true)

include dec in
lemma StoresSound.answered (laws : Contract sys.ops abs) {resident : List Resident}
    (sound : StoresSound sys abs strict resident r.stores) {bytes : Bytes}
    (got : primaryGet sys r key = .ok bytes)
    (decoded : registryRecordDecode sys.cfg bytes = some record) :
    (strict → ∃ other, abs.listable other ∧ abs.recName other = abs.recName key) ∧
      (strict → ∀ digest ∈ record.digests, Present abs resident r.stores digest) := by
  have found := recordsOf_of_primaryGet laws sound.good got
  constructor
  · exact fun isStrict => sound.named isStrict _ (by rw [found]; rfl)
  · exact fun isStrict digest mem =>
      sound.listed isStrict digest ⟨_, bytes, record, found, decoded, mem⟩

include laws sound ready dec dec in
lemma rewrite_continues {want : Key} {changed : Meta}
    (resolved : resolve sys r want = .ok (key, record)) (installed : residentOnly sys r key = false)
    (layers : changed.layers = record.layers) :
    ContinuesOnce sys abs strict r (writeMeta sys r key changed).2 := by
  have same : changed.digests = record.digests := by rw [Meta.digests, layers]; rfl
  rcases readMeta_cases (resolve_reads resolved).2.1 with ⟨_, got, decoded⟩ | other
  · obtain ⟨named, present⟩ := sound.stores.answered laws got decoded
    exact writeMeta_continues laws sound ready named (same ▸ present)
  · obtain ⟨_, _, got, found, _⟩ := other
    simp [residentOnly, got, found] at installed

omit laws sound ready dec

/-! ### Operations -/

include laws sound dec

lemma recDel_continues (ready : r.ready = true) {p p' : σ} {others : List σ}
    (stores : r.stores = p :: others) {rc : Rc Unit}
    (result : sys.ops.recDel p key = (rc, p')) :
    ContinuesOnce sys abs strict r { r with stores := p' :: others } := by
  have good := sound.stores.good p (primary_mem stores)
  have after := laws.recDel key good
  rw [result] at after
  have staged : (abs.view p').stage = stageView r.stage := by
    rw [after.view]
    exact sound.stage ready p (by rw [stores]; rfl)
  have keeps : ∀ digest, ((abs.view p).blobs digest).isSome → ((abs.view p').blobs digest).isSome :=
    fun digest has => by rw [after.view]; exact has
  cases rc with
  | error e =>
    have steps : Evolves sys abs strict r.resident (p :: others) 0
        ((sys.ops.recDel p key).2 :: others) :=
      Evolves.one [] others (.delRefused key (by rw [result]))
    rw [result] at steps
    exact (sound.primary laws ready stores steps keeps after.busy staged).once
  | ok _ =>
    have steps : Evolves sys abs strict r.resident (p :: others) 1
        ((sys.ops.recDel p key).2 :: others) := Evolves.refl.del (by rw [result])
    rw [result] at steps
    exact ⟨1, Nat.le_refl 1, sound.primary laws ready stores steps keeps after.busy staged⟩

lemma registryRemove_continues (entry : Entry) :
    ContinuesOnce sys abs strict r (registryRemove sys r entry).2 := by
  obtain ⟨start, ready⟩ := ensureReady_continues laws sound
  unfold registryRemove
  dsimp only
  refine ContinuesOnce.after start ?_
  split
  · exact start.sound.continues.once
  rename_i stores
  split
  · exact start.sound.continues.once
  rename_i record _
  split
  · exact start.sound.continues.once
  split
  · rename_i result
    exact recDel_continues laws start.sound ready stores result
  rename_i result
  obtain ⟨n, few, removed⟩ := recDel_continues laws start.sound ready stores result
  have freed := dropAllIfFree_continues laws removed.sound ready record.digests
  exact ⟨n, few, removed.trans freed⟩

omit laws sound dec

lemma registryUnmapLayers_unready {r : State σ} (sound : Sound sys abs strict r)
    (unready : r.ready = false) (ptrs : List Nat) : registryUnmapLayers sys r ptrs = r := by
  have same : ∀ ptr, unmapPtr sys r ptr = r := by
    intro ptr
    have none : r.maps.findIdx? (fun slot => slot.any fun mapped => mapped.map.ptr = ptr) = none := by
      refine findIdx?_eq_none_iff.mpr fun slot mem => ?_
      rw [(sound.unready unready).2.2 slot mem]
      rfl
    simp only [unmapPtr, none]
  unfold registryUnmapLayers
  induction ptrs with
  | nil => rfl
  | cons ptr rest ih => rw [foldl_cons, same, ih]

include laws sound dec

lemma registryUnmapLayers_continues (ptrs : List Nat) :
    Continues sys abs strict 0 r (registryUnmapLayers sys r ptrs) := by
  cases ready : r.ready with
  | true => exact foldl_unmapPtr_continues laws sound ready ptrs
  | false =>
    rw [registryUnmapLayers_unready sound ready]
    exact sound.continues

lemma registryMetaSetSignature_continues (entry : Entry) (keyId : UInt32) (signature : Signature) :
    ContinuesOnce sys abs strict r (registryMetaSetSignature sys r entry keyId signature).2 := by
  obtain ⟨start, ready⟩ := ensureReady_continues laws sound
  unfold registryMetaSetSignature
  refine ContinuesOnce.after start ?_
  dsimp only
  split
  · exact start.sound.continues.once
  rename_i resolved
  split
  · exact start.sound.continues.once
  rename_i installed
  exact rewrite_continues laws start.sound ready resolved (by simpa using installed) rfl

lemma registryMarkSeeded_continues (ref : Bytes) :
    ContinuesOnce sys abs strict r (registryMarkSeeded sys r ref) := by
  unfold registryMarkSeeded
  split
  · exact sound.continues.once
  obtain ⟨start, ready⟩ := ensureReady_continues laws sound
  refine ContinuesOnce.after start ?_
  dsimp only
  split
  · exact start.sound.continues.once
  rename_i resolved
  split
  · exact start.sound.continues.once
  rename_i installed
  refine rewrite_continues laws start.sound ready resolved ?_ rfl
  simp only [Bool.or_eq_true, not_or, Bool.not_eq_true] at installed
  exact installed.1

omit laws sound dec

include dec in
lemma present_of_blobLookup (laws : Contract sys.ops abs)
    (good : ∀ store ∈ r.stores, abs.good store) {digest : Digest} {len : UInt32}
    (looked : blobLookup sys r digest = some len) :
    Present abs r.resident r.stores digest := by
  unfold blobLookup at looked
  split at looked
  · cases looked
  split at looked
  · cases looked
  split at looked
  · exact (blobPresent_iff laws good digest).mp ‹_›
  · cases looked

include laws sound dec

lemma registryLinkLayer_continues (ref : Bytes) (layer : Nat) (digest : Digest) :
    Continues sys abs strict 0 r (registryLinkLayer sys r ref layer digest).2 := by
  unfold registryLinkLayer
  split
  · exact sound.continues
  split
  · exact sound.continues
  obtain ⟨start, ready⟩ := ensureReady_continues laws sound
  refine start.then ?_
  dsimp only
  split
  · exact start.sound.continues
  rename_i len looked
  exact pendingAdd_continues laws start.sound ready _ layer len fun _ =>
    present_of_blobLookup laws start.sound.stores.good looked

omit laws sound dec

/-! ### Restarts -/

variable {stores : List σ}

lemma forgotten_sound {r : State σ}
    (sound : StoresSound sys abs strict r.resident stores) (seq order : UInt32) :
    Sound sys abs strict { forgotten sys r with stores, seq, order } := by
  refine ⟨sound, ?_, ?_, ?_, nofun, nofun, fun _ => ⟨rfl, ?_, ?_⟩⟩
  · exact fun _ layer mem => nomatch eq_of_mem_replicate mem
  · exact fun _ slot mem => nomatch eq_of_mem_replicate mem
  · exact fun slot mem => nomatch eq_of_mem_replicate mem
  · exact fun slot mem => eq_of_mem_replicate mem
  · exact fun slot mem => eq_of_mem_replicate mem

lemma releaseMap_evolves (resident : List Resident) (stores : List σ) (mapped : MapSlot) :
    Evolves sys abs strict resident stores 0 (releaseMap sys stores mapped) := by
  unfold releaseMap
  split
  · exact .refl
  rename_i pos _
  rw [modify_eq_set_getElem?]
  cases found : stores[pos]? with
  | none => exact .refl
  | some store => exact Evolves.set resident found (.blobUnmap store mapped.map)

lemma releaseAll_evolves (resident : List Resident) (stores : List σ) (maps : List (Option MapSlot)) :
    Evolves sys abs strict resident stores 0 (releaseAll sys stores maps) := by
  induction maps generalizing stores with
  | nil => exact .refl
  | cons slot rest ih =>
    cases slot with
    | none => exact ih stores
    | some mapped => exact (releaseMap_evolves resident stores mapped).trans (ih _)

lemma abortStage_evolves (resident : List Resident) (r : State σ) :
    Evolves sys abs strict resident r.stores 0 (abortStage sys r) := by
  unfold abortStage
  split
  · rename_i p others _ stores
    rw [stores]
    exact Evolves.one [] others (.stageAbort p)
  · exact .refl

include laws sound dec

lemma registryDeinit_operates : Operates sys abs strict r (registryDeinit sys r) := by
  unfold registryDeinit
  split
  · exact sound.continues.once.operates
  have steps : Evolves sys abs strict r.resident r.stores 0
      (releaseAll sys (abortStage sys r) r.maps) :=
    (abortStage_evolves r.resident r).trans (releaseAll_evolves r.resident _ r.maps)
  exact ⟨forgotten_sound (steps.sound laws sound.stores) r.seq r.order, rfl, 0, Nat.zero_le 1, steps⟩

omit laws sound dec

lemma powerCycle_operates {r : State σ} (sound : Sound sys abs strict r) :
    Operates sys abs strict r (powerCycle sys r) :=
  ⟨forgotten_sound sound.stores 0 0, rfl, 0, Nat.zero_le 1, .refl⟩

/-! ### Runs -/

/-- The key under which a request publishes a record: that of a commit, or that of a plain
stage that finishes. -/
def publishes (r : State σ) : Request → Option Key
  | .commit ref _ _ _ => (parseRef ref).toOption
  | .write _ (.finish _) _ =>
    r.stage.bind fun stage => if stage.plain then some stage.key else none
  | _ => none

def changesResidents : Request → Bool
  | .addResident .. => true
  | .clearResident => true
  | _ => false

/-- The resident images are fixed after boot. In a strict account, what is published has a key
that a listing of the records shows. -/
def Allowed (abs : Reading σ ν) (strict : Prop) (r : State σ) (req : Request) : Prop :=
  changesResidents req = false ∧
    (strict → ∀ key, publishes r req = some key → abs.listable key)

include laws sound dec

/-- One request leads from a sound state to a sound state. -/
lemma serve_operates {req : Request} (allowed : Allowed abs strict r req) :
    Operates sys abs strict r (serve sys r req).2 := by
  obtain ⟨start, ready⟩ := ensureReady_continues laws sound
  cases req with
  | write plain state buf =>
    refine (ContinuesOnce.after start (writeLayerLocked_continues laws start.sound ready
      state plain buf ?_)).operates
    rintro isStrict now stage rfl active isPlain
    have same : r.stage = some stage := congrArg State.stage (ensureReady_only r) ▸ active
    exact allowed.2 isStrict stage.key (by simp [publishes, same, isPlain])
  | commit ref count created now =>
    simp only [serve, registryCommit]
    split
    · exact sound.continues.once.operates
    rename_i key parsed
    exact (ContinuesOnce.after start (commitLocked_continues laws start.sound ready
      (fun isStrict => allowed.2 isStrict key (by simp [publishes, parsed, Except.toOption]))
      count created now)).operates
  | remove entry => exact (registryRemove_continues laws sound entry).operates
  | mapLayers entry =>
    exact (start.then (mapLayersLocked_continues laws start.sound ready entry)).once.operates
  | unmapLayers ptrs => exact (registryUnmapLayers_continues laws sound ptrs).once.operates
  | metaRead entry | init => exact start.once.operates
  | setSignature entry keyId signature =>
    exact (registryMetaSetSignature_continues laws sound entry keyId signature).operates
  | markSeeded ref => exact (registryMarkSeeded_continues laws sound ref).operates
  | linkLayer ref layer digest =>
    exact (registryLinkLayer_continues laws sound ref layer digest).once.operates
  | addResident => cases allowed.1
  | clearResident => cases allowed.1
  | deinit => exact registryDeinit_operates laws sound
  | powerCycle => exact powerCycle_operates sound

omit laws sound dec

lemma booted_sound {resident : List Resident} (sound : StoresSound sys abs strict resident stores) :
    Sound sys abs strict (booted sys stores resident) :=
  forgotten_sound (r := booted sys stores resident) sound 0 0

/-- A digest is in use: a record lists it, or it is pending, or it is mapped. -/
def InUse (sys : System σ) (abs : Reading σ ν) (r : State σ) (digest : Digest) : Prop :=
  Lists sys.cfg (recordsOf abs r.stores) digest ∨
    (∃ layer, some layer ∈ r.pending ∧ layer.digest = digest) ∨
    ∃ slot, some slot ∈ r.maps ∧ slot.digest = digest

/-- In a sound state what is in use is present. -/
lemma Sound.present {r : State σ} (sound : Sound sys abs True r) {digest : Digest}
    (inUse : InUse sys abs r digest) : Present abs r.resident r.stores digest := by
  rcases inUse with listed | ⟨layer, mem, rfl⟩ | ⟨slot, mem, rfl⟩
  · exact sound.stores.listed trivial digest listed
  · exact sound.pended trivial layer mem
  · exact sound.mapped trivial slot mem

end WantedEngine.Registry
