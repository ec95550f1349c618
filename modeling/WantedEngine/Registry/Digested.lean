import WantedEngine.Registry.Changes
import WantedEngine.Registry.Frames
/-!
# Bytes under their digest

The registry stages bytes and keeps them under the digest it computed, a resident image is listed
with the digest of its data, and a mapping is of what a store or an image has under a digest. So in
every state of a run that starts with stores in order, whatever is held, resident or mapped hashes to
the digest it is known by (`exec_digested`).
-/
namespace WantedEngine.Registry

open Foundation List Function

variable {σ ν : Type} [DecidableEq ν] {sys : System σ} {abs : Reading σ ν}
variable (laws : Contract sys.ops abs) {r : State σ} (sound : Sound sys abs False r)
  (ready : r.ready = true)

/-- What is held, resident or mapped hashes to its digest. -/
structure Digested (sys : System σ) (abs : Reading σ ν) (r : State σ) : Prop where
  stores : ∀ store ∈ r.stores, ∀ digest bytes,
    (abs.view store).blobs digest = some bytes → sys.sha256 bytes = digest
  resident : ∀ image ∈ r.resident, sys.sha256 image.data = image.digest
  maps : ∀ slot, some slot ∈ r.maps → sys.sha256 slot.map.bytes = slot.digest

/-! ### Stores -/

include laws

/-- A call of the registry keeps bytes under their digest. -/
lemma Act.digested {strict : Prop} {listed : Digest → Prop} {s s' : σ} (good : abs.good s)
    (call : Act sys abs strict listed s s')
    (digested : ∀ digest bytes, (abs.view s).blobs digest = some bytes → sys.sha256 bytes = digest) :
    ∀ digest bytes, (abs.view s').blobs digest = some bytes → sys.sha256 bytes = digest := by
  intro digest bytes held
  cases call with
  | init => exact digested digest bytes (by rwa [(laws.init good).1.view] at held)
  | stageBegin idle =>
    exact digested digest bytes (by rwa [(laws.stageBegin good idle).view] at held)
  | stageWrite buf writing =>
    exact digested digest bytes (by rwa [(laws.stageWrite buf good writing).view] at held)
  | stageEnd data writing some =>
    -- the bytes are kept under the digest the registry computed of them
    rw [(laws.stageEnd (sys.sha256 data) good writing some).view] at held
    dsimp only at held
    split at held
    · by_cases same : digest = sys.sha256 data
      · unfold keepBlob at held
        split at held
        · exact digested digest bytes held
        rw [same, update_self] at held
        cases held
        exact same.symm
      · rw [keepBlob_other same] at held
        exact digested digest bytes held
    · exact digested digest bytes held
  | stageAbort => exact digested digest bytes (by rwa [(laws.stageAbort good).view] at held)
  | blobMap other len isHeld free =>
    obtain ⟨_, isFound⟩ := Option.isSome_iff_exists.mp isHeld
    exact digested digest bytes (by rwa [(laws.blobMap len good isFound free).2.1] at held)
  | blobUnmap map =>
    exact digested digest bytes (by rwa [(laws.blobUnmap map good).1.view] at held)
  | blobDrop dropped isHeld free unlisted =>
    rw [(laws.blobDrop good isHeld free).view] at held
    dsimp only at held
    by_cases same : digest = dropped
    · rw [same, update_self] at held
      cases held
    · rw [update_of_ne same] at held
      exact digested digest bytes held
  | putRefused key record refused =>
    exact digested digest bytes (by rwa [(laws.recPut key record good).view] at held)
  | delRefused key refused =>
    exact digested digest bytes (by rwa [(laws.recDel key good).view] at held)

lemma Evolves.digested {strict : Prop} {resident : List Resident} {n : Nat}
    {start stores : List σ} (steps : Evolves sys abs strict resident start n stores)
    (sound : StoresSound sys abs strict resident start)
    (digested : ∀ store ∈ start, ∀ digest bytes,
      (abs.view store).blobs digest = some bytes → sys.sha256 bytes = digest) :
    ∀ store ∈ stores, ∀ digest bytes,
      (abs.view store).blobs digest = some bytes → sys.sha256 bytes = digest := by
  induction steps with
  | refl => exact digested
  | @act n front back s s' before call ih =>
    intro store mem
    rcases mem_append.mp mem with early | late
    · exact ih store (mem_append_left _ early)
    rcases mem_cons.mp late with rfl | later
    · have good := (before.sound laws sound).good s (by simp)
      exact call.digested laws good (ih s (by simp))
    · exact ih store (mem_append_right _ (mem_cons_of_mem _ later))
  | @put n others p key bytes before done named present ih =>
    have good := (before.sound laws sound).good p mem_cons_self
    refine forall_mem_cons.mpr ⟨fun digest data held => ?_, (forall_mem_cons.mp ih).2⟩
    rw [(laws.recPut key bytes good).view] at held
    exact ih p mem_cons_self digest data held
  | @del n others p key before done ih =>
    have good := (before.sound laws sound).good p mem_cons_self
    refine forall_mem_cons.mpr ⟨fun digest data held => ?_, (forall_mem_cons.mp ih).2⟩
    rw [(laws.recDel key good).view] at held
    exact ih p mem_cons_self digest data held

omit laws

/-! ### Mappings -/

section Maps

omit [DecidableEq ν]

lemma writeLayerLocked_maps (r : State σ) (state : WriteState) (plain : Bool) (buf : Bytes) :
    (writeLayerLocked sys r state plain buf).2.maps = r.maps := by
  unfold writeLayerLocked
  split
  · rfl
  cases state with
  | start ref layer allocated =>
    dsimp only
    unfold startWrite
    repeat' split
    all_goals rfl
  | next =>
    dsimp only
    split
    · rfl
    split
    · rfl
    unfold stageWriteLocked
    repeat' split
    all_goals rfl
  | finish now =>
    dsimp only
    split
    · rfl
    unfold stageFinishLocked
    dsimp only
    split
    · rfl
    split
    · rfl
    split
    · rfl
    split
    · rw [(commitLocked_frame sys _ _ _ _ _).2, pendingAdd, dropAllIfFree_only]
      rfl
    · rw [pendingAdd, dropAllIfFree_only]
      rfl
  | abort =>
    dsimp only
    split <;> rfl

/-- The slots of a table hold mappings of bytes under their digest. -/
def MapsDigested (sys : System σ) (maps : List (Option MapSlot)) : Prop :=
  ∀ slot, some slot ∈ maps → sys.sha256 slot.map.bytes = slot.digest

/-- A slot replaced by one in order leaves the table in order. -/
lemma MapsDigested.set {sys : System σ} {maps : List (Option MapSlot)}
    (digested : MapsDigested sys maps) {pos : Nat} {value : Option MapSlot}
    (new : ∀ slot, value = some slot → sys.sha256 slot.map.bytes = slot.digest) :
    MapsDigested sys (maps.set pos value) := by
  intro slot mem
  rcases mem_or_eq_of_mem_set mem with before | isNew
  · exact digested slot before
  · exact new slot isNew.symm

end Maps

include laws sound ready

lemma mapBlob_digested (digested : Digested sys abs r) (digest : Digest) (len : Nat) :
    MapsDigested sys (mapBlob sys r digest len).2.maps ∧
      ∀ map, (mapBlob sys r digest len).1 = .ok map → sys.sha256 map.bytes = digest := by
  unfold mapBlob
  split
  · rename_i search
    obtain ⟨_, isSlot, has⟩ := findIdx?_slot search
    split
    · exact ⟨digested.maps, nofun⟩
    rename_i mapped found
    obtain ⟨at_, mem⟩ := mem_of_join found
    have isDigest : mapped.digest = digest := by
      rw [at_] at isSlot
      cases isSlot
      simpa using has
    refine ⟨MapsDigested.set digested.maps ?_, ?_⟩
    · rintro _ ⟨⟩
      exact digested.maps mapped mem
    · rintro _ ⟨⟩
      rw [digested.maps mapped mem, isDigest]
  rename_i unmapped
  split
  · exact ⟨digested.maps, nofun⟩
  · rename_i image pos isImage search
    have mem := mem_of_find?_eq_some isImage
    have isDigest : image.digest = digest := by simpa using find?_some isImage
    refine ⟨MapsDigested.set digested.maps ?_, ?_⟩
    · rintro _ ⟨⟩
      exact digested.resident image mem
    rintro _ ⟨⟩
    rw [← isDigest]
    exact digested.resident image mem
  · exact ⟨digested.maps, nofun⟩
  · exact ⟨digested.maps, nofun⟩
  · rename_i store freeSlot _ holding search
    obtain ⟨found, good, notBusy, bytes, held⟩ := sound.holding laws ready unmapped holding
    obtain ⟨-, -, -, mapping⟩ := laws.blobMap len good held notBusy
    have whole := digested.stores store (mem_of_getElem? found) digest bytes held
    split
    · exact ⟨digested.maps, nofun⟩
    rename_i map store' result
    rw [result] at mapping
    refine ⟨MapsDigested.set digested.maps ?_, ?_⟩
    · rintro _ ⟨⟩
      rw [(mapping map rfl).1]
      exact whole
    · rintro _ ⟨⟩
      rw [(mapping map rfl).1]
      exact whole

omit laws sound ready

omit [DecidableEq ν] in
lemma unmapPtr_maps {r : State σ} (digested : MapsDigested sys r.maps) (ptr : Nat) :
    MapsDigested sys (unmapPtr sys r ptr).maps := by
  unfold unmapPtr
  split
  · exact digested
  split
  · exact digested
  rename_i mapped found
  split
  · refine MapsDigested.set digested ?_
    rintro _ ⟨⟩
    exact digested mapped (mem_of_join found).2
  · rw [dropAllIfFree_only]
    exact MapsDigested.set digested nofun

lemma Digested.of_continues (laws : Contract sys.ops abs) {n : Nat} {r r' : State σ}
    (digested : Digested sys abs r) (sound : Sound sys abs False r)
    (done : Continues sys abs False n r r') (maps : MapsDigested sys r'.maps) :
    Digested sys abs r' := by
  refine ⟨done.steps.digested laws sound.stores digested.stores, ?_, maps⟩
  rw [done.resident]
  exact digested.resident

include laws sound ready

lemma mapAll_digested (digested : Digested sys abs r) (mapped : List BlobMap)
    (layers : List Layer) {maps : List BlobMap} (done : (mapAll sys r mapped layers).1 = .ok maps) :
    maps.map (fun map => sys.sha256 map.bytes) =
      mapped.map (fun map => sys.sha256 map.bytes) ++ layers.map Layer.digest := by
  induction layers generalizing r mapped with
  | nil =>
    cases done
    exact (append_nil _).symm
  | cons layer rest ih =>
    have first := mapBlob_continues laws sound ready layer.digest layer.len.toNat
    obtain ⟨table, whole⟩ :=
      mapBlob_digested laws sound ready digested layer.digest layer.len.toNat
    unfold mapAll at done
    split at done
    · cases done
    rename_i map r' result
    rw [result] at first table whole
    rw [ih first.sound (first.ready ready) (digested.of_continues laws sound first table) _ done,
      map_append, append_assoc]
    exact congrArg _ (congrArg (· :: rest.map Layer.digest) (whole map rfl))

omit laws sound ready

/-! ### Runs -/

omit [DecidableEq ν] in
lemma registryAddResident_digested {r : State σ}
    (digested : ∀ image ∈ r.resident, sys.sha256 image.data = image.digest) (ref : Bytes) (ptr : Nat)
    (data : Bytes) (created : UInt64) (allocated : Bool) :
    ∀ image ∈ (registryAddResident sys r ref ptr data created allocated).2.resident,
      sys.sha256 image.data = image.digest := by
  unfold registryAddResident
  split
  · exact digested
  split
  · exact digested
  split
  · exact digested
  split
  · intro image mem
    rcases mem_or_eq_of_mem_set mem with before | rfl
    · exact digested image before
    · rfl
  · split
    · exact digested
    · exact forall_mem_append.mpr ⟨digested, forall_mem_singleton.mpr rfl⟩

include laws sound

variable (digested : Digested sys abs r)
include digested

lemma serve_maps (req : Request) : MapsDigested sys (serve sys r req).2.maps := by
  obtain ⟨start, ready⟩ := ensureReady_continues laws sound
  have startMaps := congrArg State.maps (@ensureReady_only _ sys r)
  have kept : ∀ {maps : List (Option MapSlot)}, maps = r.maps → MapsDigested sys maps :=
    fun same => same ▸ digested.maps
  have cleared : MapsDigested sys (List.replicate (maxMaps sys.cfg) none) :=
    fun slot mem => by cases eq_of_mem_replicate mem
  cases req with
  | write plain state buf => exact kept ((writeLayerLocked_maps _ state plain buf).trans startMaps)
  | commit ref count created now =>
    simp only [serve, registryCommit]
    split
    · exact digested.maps
    · exact kept ((commitLocked_frame sys _ _ count created now).2.trans startMaps)
  | remove entry =>
    simp only [serve, registryRemove]
    split
    · exact kept startMaps
    split
    · exact kept startMaps
    split
    · exact kept startMaps
    split
    · exact kept startMaps
    · exact kept ((congrArg State.maps (dropAllIfFree_only _ _)).trans startMaps)
  | mapLayers entry =>
    have started := digested.of_continues laws sound start (kept startMaps)
    exact (mapLayersLocked_keeps
      (fun r' => Continues sys abs False 0 (ensureReady sys r) r' ∧ Digested sys abs r')
      (fun _ digest len both =>
        have done := mapBlob_continues laws both.1.sound (both.1.ready ready) digest len
        have table :=
          mapBlob_digested laws both.1.sound (both.1.ready ready) both.2 digest len
        ⟨both.1.then done, both.2.of_continues laws both.1.sound done table.1⟩)
      (fun _ ptr both =>
        have done := unmapPtr_continues laws both.1.sound (both.1.ready ready) ptr
        ⟨both.1.then done, both.2.of_continues laws both.1.sound done (unmapPtr_maps both.2.maps ptr)⟩)
      ⟨start.sound.continues, started⟩ entry).2.maps
  | unmapLayers ptrs =>
    exact foldlRecOn (motive := fun (r' : State σ) => MapsDigested sys r'.maps) ptrs (unmapPtr sys)
      digested.maps fun _ table ptr _ => unmapPtr_maps table ptr
  | metaRead entry => exact kept startMaps
  | setSignature entry keyId signature =>
    simp only [serve, registryMetaSetSignature]
    split
    · exact kept startMaps
    split
    · exact kept startMaps
    · exact kept ((writeMeta_frame sys _ _ _).2.trans startMaps)
  | markSeeded ref =>
    simp only [serve, registryMarkSeeded]
    split
    · exact digested.maps
    split
    · exact kept startMaps
    split
    · exact kept startMaps
    · exact kept ((writeMeta_frame sys _ _ _).2.trans startMaps)
  | linkLayer ref layer digest =>
    simp only [serve, registryLinkLayer]
    split
    · exact digested.maps
    split
    · exact digested.maps
    split
    · exact kept startMaps
    · exact kept ((congrArg State.maps (dropAllIfFree_only _ _)).trans startMaps)
  | addResident ref ptr data created allocated =>
    obtain ⟨_, same⟩ := @serve_residents _ sys r (.addResident ref ptr data created allocated) rfl
    rw [same]
    exact digested.maps
  | clearResident => exact digested.maps
  | init => exact kept startMaps
  | deinit =>
    show MapsDigested sys (registryDeinit sys r).maps
    unfold registryDeinit
    split
    · exact digested.maps
    · exact cleared
  | powerCycle => exact cleared

lemma serve_digested (req : Request) : Digested sys abs (serve sys r req).2 := by
  have maps := serve_maps laws sound digested req
  cases fixed : changesResidents req with
  | false =>
    have done := serve_operates laws sound ⟨fixed, nofun⟩
    obtain ⟨_, -, steps⟩ := done.steps
    refine ⟨steps.digested laws sound.stores digested.stores, ?_, maps⟩
    rw [done.resident]
    exact digested.resident
  | true =>
    cases req with
    | addResident ref ptr data created allocated =>
      refine ⟨?_, registryAddResident_digested digested.resident ref ptr data created allocated, maps⟩
      obtain ⟨resident, same⟩ := serve_residents sys r fixed
      rw [same]
      exact digested.stores
    | clearResident => exact ⟨digested.stores, nofun, maps⟩
    | _ => cases fixed

lemma exec_digested (reqs : List Request) : Sound sys abs False ((registryMachine sys).exec r reqs) ∧
      Digested sys abs ((registryMachine sys).exec r reqs) :=
  (registryMachine sys).exec_invariant_of_step
    (fun r => Sound sys abs False r ∧ Digested sys abs r)
    (fun _ req before => ⟨serve_loose laws before.1 req,
      serve_digested laws before.1 before.2 req⟩) ⟨sound, digested⟩ reqs

end WantedEngine.Registry
