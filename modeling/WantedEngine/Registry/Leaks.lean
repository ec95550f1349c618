import WantedEngine.Registry.Tight
/-!
# Runs of the registry leave no blob behind

One lemma for each function: within the limits of a listing it keeps the registry tidy. Whatever
takes a digest out of a record, the pending table or the mapping table frees it when that was
its last use, and starting the stores frees everything no record lists.
-/
namespace WantedEngine.Registry

open Foundation List Function

variable {σ ν : Type} {dec : DecidableEq ν} {sys : System σ} {abs : Reading σ ν} {strict : Prop}
variable (laws : Contract sys.ops abs) {r : State σ} (sound : Sound sys abs False r)
  (ready : r.ready = true)

/-- The limits of a listing: the records are within them and no store holds more than
`MAX_BLOBS` blobs. -/
structure Within (cfg : Config) (abs : Reading σ ν) (stores : List σ) : Prop where
  /-- The records can all be read and listed. -/
  records : RecordsWithin cfg (recordsOf abs stores)
  /-- At most `MAX_BLOBS` blobs in a store. -/
  blobs : ∀ store ∈ stores, ∃ digests : List Digest, digests.length ≤ maxBlobs ∧
    ∀ digest, ((abs.view store).blobs digest).isSome → digest ∈ digests

/-! ### Starting -/

variable {digest : Digest} {p : σ} {others : List σ}

/-- A store with no more than `MAX_BLOBS` blobs loses in `reclaim` all that the listing lacks. -/
lemma mem_reclaimedIn (laws : Contract sys.ops abs) {s : σ} (good : abs.good s)
    (few : ∃ digests : List Digest, digests.length ≤ maxBlobs ∧
      ∀ digest, ((abs.view s).blobs digest).isSome → digest ∈ digests) {refs : List Digest}
    (has : ((abs.view s).blobs digest).isSome) (unlisted : digest ∉ refs) :
    digest ∈ reclaimedIn sys refs s := by
  obtain ⟨digests, listed, once, complete⟩ := laws.blobList good
  obtain ⟨_, bound, inside⟩ := few
  have short := Nat.le_trans (subperm_of_subset once fun other mem =>
      inside other ((complete other).mp mem)).length_le bound
  unfold reclaimedIn reclaimed
  rw [listed]
  dsimp only
  rw [take_of_length_le short]
  exact mem_filter.mpr ⟨(complete digest).mpr has, by simpa using unlisted⟩

include laws sound

lemma reclaim_listed (unready : r.ready = false) (idle : Idle abs r.stores)
    (within : Within sys.cfg abs r.stores)
    (held : HeldBy abs (reclaim sys r).stores digest) :
    Lists sys.cfg (recordsOf abs (reclaim sys r).stores) digest := by
  rw [(reclaim_continues laws sound unready idle).1.records_eq laws sound]
  obtain ⟨refs, listing⟩ := listedDigests_isSome laws sound.stores.good within.records
  simp only [reclaim, listing] at held
  have good := sound.stores.good
  obtain ⟨store, isStore, has, stays⟩ := (heldBy_map_iff (fun store mem =>
    reclaimStore_becomes laws (good store mem) (idle store mem).2 refs) digest).mp held
  by_contra unlisted
  refine stays (mem_reclaimedIn laws (good store isStore) (within.blobs store isStore) has ?_)
  exact fun isRef => unlisted (listedDigests_lists laws good listing isRef)

lemma ensureReady_listed (unready : r.ready = false) (within : Within sys.cfg abs r.stores)
    (held : HeldBy abs (ensureReady sys r).stores digest) :
    Lists sys.cfg (recordsOf abs (ensureReady sys r).stores) digest := by
  obtain ⟨start, idle⟩ := startStores_continues laws sound unready
  have numbered := start.sound.withSeq (startSeq sys (startStores sys r))
  have same : (ensureReady sys r).stores =
      (reclaim sys { startStores sys r with seq := startSeq sys (startStores sys r) }).stores := by
    simp [ensureReady, unready]
  rw [same] at held ⊢
  refine reclaim_listed laws numbered.sound unready idle ⟨?_, ?_⟩ held
  · exact (congrArg (RecordsWithin sys.cfg) (start.records_eq laws sound)).mpr within.records
  intro store mem
  obtain ⟨before, isStore, rfl⟩ := mem_map.mp mem
  rw [(laws.init (sound.stores.good before isStore)).1.view]
  exact within.blobs before isStore

lemma ensureReady_tidy (tidy : Tidy sys abs r) (within : Within sys.cfg abs r.stores) :
    Tidy sys abs (ensureReady sys r) ∧
      RecordsWithin sys.cfg (recordsOf abs (ensureReady sys r).stores) := by
  have records := (ensureReady_continues laws sound).1.records_eq laws sound
  refine ⟨⟨by rw [ensureReady_only]; exact tidy.pending,
    by rw [ensureReady_only]; exact tidy.layer, fun _ => ?_⟩, records ▸ within.records⟩
  cases ready : r.ready with
  | true =>
    have same : ensureReady sys r = r := by simp [ensureReady, ready]
    rw [same]
    exact tidy.tight ready
  | false =>
    exact fun digest held => .inl (.inl (ensureReady_listed laws sound ready within held))

omit laws sound

/-! ### Staging -/

lemma Tidy.staging {r : State σ} (tidy : Tidy sys abs r) (ready : r.ready = true)
    {p' : σ} (stores : r.stores = p :: others)
    (records : (abs.view p').records = (abs.view p).records)
    (blobs : (abs.view p').blobs = (abs.view p).blobs) (stage : Option Stage)
    (layer : ∀ active, stage = some active → active.layer < sys.cfg.maxLayers) :
    Tidy sys abs (setPrimary { r with stage } p') := by
  rw [setPrimary_eq (show ({ r with stage } : State σ).stores = _ from stores)]
  refine tidy.frame ready rfl (fun slot mem => ⟨slot, mem, rfl⟩) layer
    (fun digest held => ?_) (fun digest listed => ?_)
  · rw [stores]
    exact HeldBy.replace [] others held fun has => blobs ▸ has
  · rw [stores] at listed
    exact recordsOf_replace [] others records ▸ listed

lemma Restages.tidy {r r' : State σ} (restages : Restages sys abs strict r r')
    (tidy : Tidy sys abs r) (ready : r.ready = true)
    (layer : ∀ stage, r'.stage = some stage → stage.layer < sys.cfg.maxLayers) :
    Tidy sys abs r' := by
  cases restages with
  | intro stage stores calls view busy =>
    exact tidy.staging ready stores (by rw [view]) (by rw [view]) stage layer

include laws sound ready

variable (tidy : Tidy sys abs r)
include tidy

lemma stageFinishLocked_tidy (stores : r.stores = p :: others) {stage : Stage}
    (active : r.stage = some stage) (now : Option UInt64)
    (within : RecordsWithin sys.cfg (recordsOf abs r.stores))
    (withinAfter : RecordsWithin sys.cfg
      (recordsOf abs (stageFinishLocked sys r p stage now).2.stores)) :
    Tidy sys abs (stageFinishLocked sys r p stage now).2 := by
  revert withinAfter
  rcases stageFinishLocked_cases laws sound ready stores active now with
    ⟨-, e, r', finish, dropped, restages⟩ | ⟨p', isKept, finish⟩
  · rw [finish]
    exact fun _ => restages.tidy tidy ready (by rw [dropped]; nofun)
  have kept := stageKept_continues laws sound ready stores isKept active
  obtain ⟨ended, -, blobs, -⟩ := isKept.continues laws sound ready stores active
  have records := ended.records_eq laws sound
  -- The one blob that is not in use yet is the one that was staged.
  have tightBut : TightBut sys abs (setPrimary { r with stage := none } p')
      [sys.sha256 stage.taken] := by
    intro digest held
    rw [setPrimary_eq (show ({ r with stage := none } : State σ).stores = _ from stores)] at held
    by_cases isNew : digest = sys.sha256 stage.taken
    · exact .inr (mem_singleton.mpr isNew)
    have before : HeldBy abs r.stores digest := by
      rw [stores]
      refine HeldBy.replace [] others held fun has => ?_
      rwa [blobs, keepBlob_other isNew] at has
    refine .inl (((tidy.tight ready digest before).resolve_right (by simp)).mono ?_
      (fun layer mem => ⟨layer, mem, rfl⟩) (fun slot mem => ⟨slot, mem, rfl⟩))
    rw [records]
    exact fun _ => id
  have tidyKept : Tidy sys abs (stageKept sys r p' stage) := by
    refine ⟨?_, ?_, fun _ => ?_⟩
    · exact pendingAdd_ok (r := setPrimary { r with stage := none } p') tidy.pending
        stage.key (tidy.layer stage active) _ _
    · rw [stageKept, pendingAdd, dropAllIfFree_only]
      nofun
    · exact pendingAdd_tight laws ended.sound (ended.ready ready) (records ▸ within)
        tidy.pending stage.key stage.layer _ tightBut
  rw [finish]
  split
  · refine commitLocked_tidy laws kept.sound (kept.ready ready) tidyKept _ 1 none now ?_
    rw [kept.records_eq laws sound]
    exact within
  · exact fun _ => tidyKept

lemma writeLayerLocked_tidy (state : WriteState) (plain : Bool) (buf : Bytes)
    (within : RecordsWithin sys.cfg (recordsOf abs r.stores))
    (withinAfter : RecordsWithin sys.cfg
      (recordsOf abs (writeLayerLocked sys r state plain buf).2.stores)) :
    Tidy sys abs (writeLayerLocked sys r state plain buf).2 := by
  rcases writeLayerLocked_cases laws sound ready state plain buf with
    ⟨e, failed⟩ | ⟨-, restages, layers⟩ |
      ⟨now, p, others, stage, rfl, stores, active, finish⟩
  · rw [failed]
    exact tidy
  · refine restages.tidy tidy ready fun stage' active => ?_
    rcases layers stage' active with within | same
    · exact within
    · obtain ⟨stage, isStage, same⟩ := Option.map_eq_some_iff.mp same
      exact same ▸ tidy.layer stage isStage
  · rw [finish] at withinAfter ⊢
    exact stageFinishLocked_tidy laws sound ready tidy stores active now within withinAfter

omit tidy laws sound ready

/-! ### Mapping -/

lemma Tidy.users {r : State σ} (tidy : Tidy sys abs r) (ready : r.ready = true) {pos : Nat}
    {mapped : MapSlot} (at_ : r.maps[pos]? = some (some mapped)) (users : Nat) :
    Tidy sys abs { r with maps := r.maps.set pos (some { mapped with users }) } :=
  tidy.frame ready rfl (fun slot mem =>
    (mem_set_users at_ users slot mem).imp fun _ kept => ⟨kept.1, kept.2.2⟩) tidy.layer
    (fun _ => id) fun _ => id

lemma heldBy_set {stores : List σ} {pos : Nat} {store store' : σ}
    (at_ : stores[pos]? = some store) (same : abs.view store' = abs.view store)
    (digest : Digest) : HeldBy abs (stores.set pos store') digest ↔ HeldBy abs stores digest := by
  obtain ⟨whole, replaced⟩ := set_split at_
  rw [replaced store']
  constructor
  · intro held
    rw [whole]
    exact held.replace _ _ fun has => by rwa [same] at has
  · intro held
    rw [whole] at held
    exact held.replace _ _ fun has => by rwa [same]

include laws sound ready tidy

lemma mapBlob_tidy (digest : Digest) (len : Nat) : Tidy sys abs (mapBlob sys r digest len).2 := by
  have records := (mapBlob_continues laws sound ready digest len).records_eq laws sound
  revert records
  unfold mapBlob
  split
  · rename_i search
    split
    · exact fun _ => tidy
    rename_i mapped found
    exact fun _ => tidy.users ready (mem_of_join found).1 (mapped.users + 1)
  rename_i unmapped
  have kept : ∀ {pos} {entry : MapSlot},
      r.maps.findIdx? (fun slot => slot.isNone) = some pos →
      ∀ slot, some slot ∈ r.maps →
        ∃ slot', some slot' ∈ r.maps.set pos (some entry) ∧ slot'.digest = slot.digest :=
    fun search slot mem => ⟨slot, mem_set_free search mem, rfl⟩
  split
  · exact fun _ => tidy
  · rename_i search
    exact fun _ => tidy.frame ready rfl (kept search) tidy.layer (fun _ => id) fun _ => id
  · exact fun _ => tidy
  · exact fun _ => tidy
  rename_i holding search
  obtain ⟨found, good, notBusy, _, held⟩ := sound.holding laws ready unmapped holding
  obtain ⟨_, view, _⟩ := laws.blobMap len good held notBusy
  split
  · rename_i result
    rw [result] at view
    exact fun records => tidy.frame ready rfl (fun slot mem => ⟨slot, mem, rfl⟩) tidy.layer
      (fun _ => (heldBy_set found view _).mp) fun _ => records ▸ id
  · rename_i result
    rw [result] at view
    exact fun records => tidy.frame ready rfl (kept search) tidy.layer
      (fun _ => (heldBy_set found view _).mp) fun _ => records ▸ id

lemma released_tightBut {pos : Nat} {mapped : MapSlot} (slot : r.maps[pos]? = some (some mapped)) :
    TightBut sys abs (released sys r pos mapped) [mapped.digest] := by
  have records := (released_continues laws sound ready slot).records_eq laws sound
  intro digest held
  have before : HeldBy abs r.stores digest := by
    revert held
    unfold released releaseMap
    split
    · exact id
    rename_i at_ _
    rw [modify_eq_set_getElem?]
    cases found : r.stores[at_]? with
    | none => exact id
    | some store =>
      exact (heldBy_set found (laws.blobUnmap mapped.map
        (sound.stores.good store (mem_of_getElem? found))).1.view digest).mp
  rcases (tidy.tight ready digest before).resolve_right (by simp) with
    listed | pended | ⟨other, mem, rfl⟩
  · exact .inl (.inl (records ▸ listed))
  · exact .inl (.inr (.inl pended))
  · rcases mem_set_or mem with stays | here
    · exact .inl (.inr (.inr ⟨other, stays, rfl⟩))
    rw [slot] at here
    cases here
    exact .inr mem_cons_self

lemma unmapPtr_tidy (within : RecordsWithin sys.cfg (recordsOf abs r.stores)) (ptr : Nat) :
    Tidy sys abs (unmapPtr sys r ptr) := by
  unfold unmapPtr
  split
  · exact tidy
  split
  · exact tidy
  rename_i mapped found
  obtain ⟨at_, _⟩ := mem_of_join found
  split
  · exact tidy.users ready at_ (mapped.users - 1)
  have gone := released_continues laws sound ready at_
  refine ⟨?_, ?_, fun _ => ?_⟩
  · rw [dropAllIfFree_only]
    exact tidy.pending
  · rw [dropAllIfFree_only]
    exact tidy.layer
  refine dropAllIfFree_tight laws gone.sound (gone.ready ready) ?_
    (released_tightBut laws sound ready tidy at_)
  rw [gone.records_eq laws sound]
  exact within

omit tidy

lemma Continues.unmapPtr_tidy (within : RecordsWithin sys.cfg (recordsOf abs r.stores))
    {r' : State σ} (before : Continues sys abs False 0 r r' ∧ Tidy sys abs r') (ptr : Nat) :
    Continues sys abs False 0 r (unmapPtr sys r' ptr) ∧ Tidy sys abs (unmapPtr sys r' ptr) := by
  obtain ⟨done, tidy⟩ := before
  have readyAfter := done.ready ready
  refine ⟨done.then (unmapPtr_continues laws done.sound readyAfter ptr),
    Registry.unmapPtr_tidy laws done.sound readyAfter tidy ?_ ptr⟩
  rw [done.records_eq laws sound]
  exact within

include tidy

variable (within : RecordsWithin sys.cfg (recordsOf abs r.stores))
include within

lemma foldl_unmapPtr_tidy (ptrs : List Nat) : Tidy sys abs (ptrs.foldl (unmapPtr sys) r) :=
  (foldlRecOn (motive := fun r' => Continues sys abs False 0 r r' ∧ Tidy sys abs r') ptrs _
    ⟨sound.continues, tidy⟩ fun _ before ptr _ =>
      Continues.unmapPtr_tidy laws sound ready within before ptr).2

lemma mapLayersLocked_tidy (entry : Entry) : Tidy sys abs (mapLayersLocked sys r entry).2 :=
  (mapLayersLocked_keeps (fun r' => Continues sys abs False 0 r r' ∧ Tidy sys abs r')
    (fun _ digest len before =>
      ⟨before.1.then (mapBlob_continues laws before.1.sound (before.1.ready ready) digest len),
        mapBlob_tidy laws before.1.sound (before.1.ready ready) before.2 digest len⟩)
    (fun _ ptr before => Continues.unmapPtr_tidy laws sound ready within before ptr)
    ⟨sound.continues, tidy⟩ entry).2

omit within tidy laws sound ready

/-! ### Removing and rewriting -/

include laws sound

lemma registryRemove_tidy (tidy : Tidy sys abs r) (within : Within sys.cfg abs r.stores) (entry : Entry)
    (withinAfter : RecordsWithin sys.cfg (recordsOf abs (registryRemove sys r entry).2.stores)) :
    Tidy sys abs (registryRemove sys r entry).2 := by
  obtain ⟨start, ready⟩ := ensureReady_continues laws sound
  obtain ⟨tidyStart, withinStart⟩ := ensureReady_tidy laws sound tidy within
  revert withinAfter
  unfold registryRemove
  generalize ensureReady sys r = r' at start ready tidyStart withinStart
  dsimp only
  split
  · exact fun _ => tidyStart
  rename_i p others stores
  split
  · exact fun _ => tidyStart
  rename_i key record resolved
  split
  · exact fun _ => tidyStart
  have good := start.sound.stores.good p (primary_mem stores)
  have after := laws.recDel key good
  split
  · rename_i result
    rw [result] at after
    have done := tidyStart.staging ready stores (by rw [after.view]; rfl) (by rw [after.view])
      r'.stage tidyStart.layer
    rw [setPrimary_eq (show ({ r' with stage := r'.stage } : State σ).stores = _ from stores)]
      at done
    exact fun _ => done
  rename_i p' result
  obtain ⟨_, _, removed⟩ := recDel_continues laws start.sound ready stores result
  rw [result] at after
  have freed := dropAllIfFree_continues laws removed.sound ready record.digests
  have records : recordsOf abs (p' :: others) =
      update (recordsOf abs r'.stores) (abs.recName key) none := by
    rw [stores, recordsOf, after.view]
    rfl
  have held : ∀ digest, HeldBy abs (p' :: others) digest → HeldBy abs r'.stores digest := by
    intro digest held
    rw [stores]
    refine HeldBy.replace [] others held fun has => ?_
    rw [after.view] at has
    exact has
  intro withinAfter
  refine ⟨?_, ?_, fun _ => dropAllIfFree_tight laws removed.sound ready
    ((congrArg (RecordsWithin sys.cfg) (freed.records_eq laws removed.sound)).mp
      withinAfter) fun digest isHeld => ?_⟩
  · rw [dropAllIfFree_only]
    exact tidyStart.pending
  · rw [dropAllIfFree_only]
    exact tidyStart.layer
  rcases (tidyStart.tight ready digest (held digest isHeld)).resolve_right (by simp) with
    ⟨name, bytes, listing, found, decoded, mem⟩ | pended | mapped
  · by_cases same : name = abs.recName key
    · -- The record removed is the one that was resolved.
      subst same
      have isRecord := (resolve_reads resolved).2.1
      rw [withinStart.readMeta laws start.sound.stores.good found decoded] at isRecord
      cases isRecord
      exact .inr mem
    · refine .inl (.inl ⟨name, bytes, listing, ?_, decoded, mem⟩)
      rw [records, update_of_ne same]
      exact found
  · exact .inl (.inr (.inl pended))
  · exact .inl (.inr (.inr mapped))

lemma rewrite_tidy (ready : r.ready = true) (tidy : Tidy sys abs r)
    (within : RecordsWithin sys.cfg (recordsOf abs r.stores)) {want key : Key}
    {record changed : Meta} (resolved : resolve sys r want = .ok (key, record))
    (layers : changed.layers = record.layers) :
    Tidy sys abs (writeMeta sys r key changed).2 := by
  obtain ⟨only, held, done, failed⟩ := writeMeta_spec laws sound.stores.good key changed rfl
  refine tidy.frame ready (by rw [only]) (by rw [only]; exact fun slot mem => ⟨slot, mem, rfl⟩)
    (by rw [only]; exact tidy.layer) held ?_
  intro digest listed
  cases result : (writeMeta sys r key changed).1 with
  | error e =>
    rw [failed e result]
    exact listed
  | ok _ =>
    obtain ⟨bytes, encoded, records⟩ := done result
    obtain ⟨name, old, oldRecord, found, decoded, mem⟩ := listed
    rw [records]
    by_cases same : name = abs.recName key
    · subst same
      refine ⟨abs.recName key, bytes, changed, update_self .., registryRecordDecode_encode encoded, ?_⟩
      have isRecord := (resolve_reads resolved).2.1
      rw [within.readMeta laws sound.stores.good found decoded] at isRecord
      cases isRecord
      rw [Meta.digests, layers]
      exact mem
    · refine ⟨name, old, oldRecord, ?_, decoded, mem⟩
      rw [update_of_ne same]
      exact found

lemma registryLinkLayer_tidy (tidy : Tidy sys abs r)
    (within : Within sys.cfg abs r.stores) (ref : Bytes) (layer : Nat) (digest : Digest) :
    Tidy sys abs (registryLinkLayer sys r ref layer digest).2 := by
  unfold registryLinkLayer
  split
  · exact tidy
  split
  · exact tidy
  rename_i inside
  obtain ⟨start, ready⟩ := ensureReady_continues laws sound
  obtain ⟨tidyStart, withinStart⟩ := ensureReady_tidy laws sound tidy within
  dsimp only
  split
  · exact tidyStart
  refine ⟨pendingAdd_ok tidyStart.pending _ (Nat.lt_of_not_le inside) _ _, ?_, fun _ => ?_⟩
  · rw [pendingAdd, dropAllIfFree_only]
    exact tidyStart.layer
  · exact pendingAdd_tight laws start.sound ready withinStart tidyStart.pending _ layer _
      fun other held => .inl ((tidyStart.tight ready other held).resolve_right (by simp))

omit laws sound

/-! ### Restarts and runs -/

lemma forgotten_tidy {r : State σ} (ready : r.ready = false) (stage : r.stage = none)
    (pending : r.pending = List.replicate (maxPending sys.cfg) none) :
    Tidy sys abs r := by
  refine ⟨?_, fun _ active => ?_, fun isReady => ?_⟩
  · rw [pending]
    refine ⟨length_replicate, ?_, ?_⟩
    · exact fun layer mem => nomatch eq_of_mem_replicate mem
    · refine pairwise_replicate.mpr (.inr fun x y isX => ?_)
      cases isX
  · rw [stage] at active
    cases active
  · rw [ready] at isReady
    cases isReady

/-- The loose account of a state does not ask about the resident images. -/
lemma Sound.withResident {r : State σ} (sound : Sound sys abs False r)
    (resident : List Resident) : Sound sys abs False { r with resident } :=
  ⟨⟨sound.stores.good, nofun, nofun⟩, nofun, nofun, sound.handles, sound.stage, sound.busy,
    sound.unready⟩

/-- `RegistryAddResident` changes the resident images and nothing else. -/
lemma registryAddResident_eq (sys : System σ) (r : State σ) (ref : Bytes) (ptr : Nat) (data : Bytes)
    (created : UInt64) (allocated : Bool) :
    ∃ resident, (registryAddResident sys r ref ptr data created allocated).2 = { r with resident } := by
  unfold registryAddResident
  split
  · exact ⟨r.resident, rfl⟩
  split
  · exact ⟨r.resident, rfl⟩
  split
  · exact ⟨r.resident, rfl⟩
  split
  · exact ⟨_, rfl⟩
  split
  · exact ⟨r.resident, rfl⟩
  · exact ⟨_, rfl⟩

/-- A request that changes resident images changes nothing else. -/
lemma serve_residents (sys : System σ) (r : State σ) {req : Request}
    (changes : changesResidents req = true) :
    ∃ resident, (serve sys r req).2 = { r with resident } := by
  cases req with
  | addResident ref ptr data created allocated =>
    exact registryAddResident_eq sys r ref ptr data created allocated
  | clearResident => exact ⟨[], rfl⟩
  | _ => cases changes

include laws sound

/-- Every request leads from a sound state to a sound state, also one that changes resident images. -/
lemma serve_loose (req : Request) : Sound sys abs False (serve sys r req).2 := by
  cases fixed : changesResidents req with
  | false => exact (serve_operates laws sound ⟨fixed, nofun⟩).sound
  | true =>
    obtain ⟨resident, same⟩ := serve_residents sys r fixed
    rw [same]
    exact sound.withResident resident

omit laws sound

/-- A request within the limits: the stores are within the limits of a listing before and after it. -/
def Fits (sys : System σ) (abs : Reading σ ν) (r : State σ) (req : Request) : Prop :=
  Within sys.cfg abs r.stores ∧ Within sys.cfg abs (serve sys r req).2.stores

include laws

/-- Every request leaves nothing behind. -/
lemma serve_tidy {r : State σ} (sound : Sound sys abs False r) (tidy : Tidy sys abs r)
    {req : Request} (fits : Fits sys abs r req)
    : Tidy sys abs (serve sys r req).2 := by
  obtain ⟨within, withinAfter⟩ := fits
  obtain ⟨start, ready⟩ := ensureReady_continues laws sound
  obtain ⟨tidyStart, withinStart⟩ := ensureReady_tidy laws sound tidy within
  cases req with
  | write plain state buf =>
    exact writeLayerLocked_tidy laws start.sound ready tidyStart state plain buf withinStart
      withinAfter.records
  | commit ref count created now =>
    revert withinAfter
    simp only [serve, registryCommit]
    split
    · exact fun _ => tidy
    · exact fun withinAfter => commitLocked_tidy laws start.sound ready tidyStart _ count created
        now withinStart withinAfter.records
  | remove entry => exact registryRemove_tidy laws sound tidy within entry withinAfter.records
  | mapLayers entry =>
    exact mapLayersLocked_tidy laws start.sound ready tidyStart withinStart entry
  | unmapLayers ptrs =>
    cases isReady : r.ready with
    | true => exact foldl_unmapPtr_tidy laws sound isReady tidy within.records ptrs
    | false =>
      simp only [serve]
      rw [registryUnmapLayers_unready sound isReady]
      exact tidy
  | metaRead entry => exact tidyStart
  | setSignature entry keyId signature =>
    simp only [serve, registryMetaSetSignature]
    split
    · exact tidyStart
    split
    · exact tidyStart
    rename_i resolved _
    exact rewrite_tidy laws start.sound ready tidyStart withinStart resolved rfl
  | markSeeded ref =>
    simp only [serve, registryMarkSeeded]
    split
    · exact tidy
    split
    · exact tidyStart
    split
    · exact tidyStart
    rename_i resolved _
    exact rewrite_tidy laws start.sound ready tidyStart withinStart resolved rfl
  | linkLayer ref layer digest =>
    exact registryLinkLayer_tidy laws sound tidy within ref layer digest
  | addResident ref ptr data created allocated =>
    obtain ⟨_, same⟩ := @serve_residents _ sys r (.addResident ref ptr data created allocated) rfl
    rw [same]
    exact ⟨tidy.pending, tidy.layer, tidy.tight⟩
  | clearResident => exact ⟨tidy.pending, tidy.layer, tidy.tight⟩
  | init => exact tidyStart
  | deinit =>
    simp only [serve, registryDeinit]
    split
    · exact tidy
    · exact forgotten_tidy rfl rfl rfl
  | powerCycle => exact forgotten_tidy rfl rfl rfl

lemma exec_tidy {r : State σ} (sound : Sound sys abs False r) (tidy : Tidy sys abs r)
    {reqs : List Request} (fits : (registryMachine sys).Obeys (Fits sys abs) r reqs) :
    Sound sys abs False ((registryMachine sys).exec r reqs) ∧
      Tidy sys abs ((registryMachine sys).exec r reqs) :=
  (registryMachine sys).exec_invariant
    (fun r => Sound sys abs False r ∧ Tidy sys abs r)
    (fun _ _ ⟨sound, tidy⟩ fits =>
      ⟨serve_loose laws sound _, serve_tidy laws sound tidy fits⟩)
    ⟨sound, tidy⟩ fits

end WantedEngine.Registry
