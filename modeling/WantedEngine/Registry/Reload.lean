import WantedEngine.Registry.Digested
import WantedEngine.Registry.RecordLimit
/-!
# Loading again after a restart

A layer may be linked to a blob that only a resident image holds (`RegistryLinkLayer`): the record is
stored, the bytes are not. After a restart with other resident images the entry loads again exactly
when each of its layers is among them or is on a store that its reclaim leaves it on
(`reload_iff`), whatever was mapped before.
-/
namespace WantedEngine.Registry

open Foundation Page List

structure FirmwareImage where
  ref : Bytes
  ptr : Nat
  data : Bytes
  created : UInt64
  /-- What the allocator of the hash answers. -/
  allocated : Bool

def FirmwareImage.register (image : FirmwareImage) : Request :=
  .addResident image.ref image.ptr image.data image.created image.allocated

variable {σ ν : Type} {sys : System σ} {abs : Reading σ ν}

/-- The registry after a reset, with another set of resident images registered. -/
def rebooted (sys : System σ) (r : State σ) (firmware : List FirmwareImage) : State σ :=
  (registryMachine sys).exec r (.powerCycle :: .clearResident :: firmware.map FirmwareImage.register)

/-- Registering images changes the resident images alone. -/
lemma exec_register (sys : System σ) (r : State σ) (firmware : List FirmwareImage) :
    ∃ resident, (registryMachine sys).exec r (firmware.map FirmwareImage.register) =
      { r with resident } := by
  induction firmware generalizing r with
  | nil => exact ⟨r.resident, rfl⟩
  | cons image rest ih =>
    obtain ⟨first, eq⟩ := registryAddResident_eq sys r image.ref image.ptr image.data image.created
      image.allocated
    obtain ⟨resident, done⟩ := ih { r with resident := first }
    refine ⟨resident, ?_⟩
    rw [map_cons, Machine.exec_cons]
    have next : (registryMachine sys).next r image.register = { r with resident := first } := eq
    rw [next, done]

lemma rebooted_eq (sys : System σ) (r : State σ) (firmware : List FirmwareImage) :
    ∃ resident, rebooted sys r firmware = { powerCycle sys r with resident } := by
  obtain ⟨resident, eq⟩ := exec_register sys { powerCycle sys r with resident := [] } firmware
  exact ⟨resident, eq⟩

/-! ### What can be mapped -/

/-- A digest is mapped, resident or held by a store. -/
def Available (abs : Reading σ ν) (r : State σ) (digest : Digest) : Prop :=
  (∃ slot, some slot ∈ r.maps ∧ slot.digest = digest) ∨ Present abs r.resident r.stores digest

def freeSlots (maps : List (Option MapSlot)) : Nat := maps.countP Option.isNone

/-- Stores that map whatever they hold and have not mapped. -/
def MapsHeld (sys : System σ) (abs : Reading σ ν) : Prop :=
  ∀ s digest len, abs.good s → ((abs.view s).blobs digest).isSome →
    ¬ abs.busy s digest → succeeded (sys.ops.blobMap s digest len).1 = true

/-- A slot that is filled was free, or was filled before. -/
lemma freeSlots_set (maps : List (Option MapSlot)) (pos : Nat) (value : Option MapSlot) :
    freeSlots maps ≤ freeSlots (maps.set pos value) + 1 := by
  unfold freeSlots
  induction maps generalizing pos with
  | nil => exact Nat.zero_le _
  | cons slot rest ih =>
    cases pos with
    | zero =>
      rw [set_cons_zero, countP_cons, countP_cons]
      split <;> split <;> omega
    | succ pos =>
      have rest' := ih pos
      rw [set_cons_succ, countP_cons, countP_cons]
      omega

lemma exists_free {maps : List (Option MapSlot)} (free : 0 < freeSlots maps) :
    ∃ pos, maps.findIdx? (fun slot => slot.isNone) = some pos := by
  obtain ⟨slot, mem, isNone⟩ := countP_pos_iff.mp free
  cases found : maps.findIdx? (fun slot => slot.isNone) with
  | some pos => exact ⟨pos, rfl⟩
  | none =>
    have filled := findIdx?_eq_none_iff.mp found slot mem
    rw [isNone] at filled
    cases filled

variable [DecidableEq ν] {r : State σ} {record : Meta}

lemma mapBlob_iff (laws : Contract sys.ops abs) (faultFree : MapsHeld sys abs)
    (sound : Sound sys abs False r) (ready : r.ready = true) (free : 0 < freeSlots r.maps)
    (digest : Digest) (len : Nat) :
    (∃ map, (mapBlob sys r digest len).1 = .ok map) ↔ Available abs r digest := by
  unfold mapBlob
  cases search : r.maps.findIdx? (fun slot => slot.any fun mapped => mapped.digest = digest) with
  | some pos =>
    obtain ⟨slot, at_, has⟩ := findIdx?_slot search
    cases slot with
    | none => cases has
    | some mapped =>
      dsimp only
      rw [at_]
      have isDigest : mapped.digest = digest := by simpa using has
      exact ⟨fun _ => Or.inl ⟨mapped, mem_of_getElem? at_, isDigest⟩, fun _ => ⟨_, rfl⟩⟩
  | none =>
    have unmapped : ¬ ∃ slot, some slot ∈ r.maps ∧ slot.digest = digest := by
      rintro ⟨slot, mem, same⟩
      have other := findIdx?_eq_none_iff.mp search _ mem
      simp [same] at other
    obtain ⟨pos, isFree⟩ := exists_free free
    rw [isFree, Available, or_iff_right unmapped, ← blobPresent_iff laws sound.stores.good, blobPresent]
    cases residentByDigest r digest with
    | some image => simp
    | none =>
      cases holding : storeHolding sys r.stores digest with
      | none => simp
      | some found =>
        obtain ⟨_, store⟩ := found
        obtain ⟨-, good, notBusy, _, held⟩ := sound.holding laws ready search holding
        have done := faultFree store digest len good (Option.isSome_of_eq_some held) notBusy
        dsimp only
        cases result : sys.ops.blobMap store digest len with
        | mk rc store' =>
          rw [result] at done
          cases rc with
          | error e => cases done
          | ok map => simp

omit [DecidableEq ν] in
lemma mapBlob_freeSlots (sys : System σ) (r : State σ) (digest : Digest) (len : Nat) :
    freeSlots r.maps ≤ freeSlots (mapBlob sys r digest len).2.maps + 1 := by
  unfold mapBlob
  split
  · split
    · exact Nat.le_succ _
    · exact freeSlots_set _ _ _
  split
  · exact Nat.le_succ _
  · exact freeSlots_set _ _ _
  · exact Nat.le_succ _
  · exact Nat.le_succ _
  split
  · exact Nat.le_succ _
  · exact freeSlots_set _ _ _

variable (laws : Contract sys.ops abs)
include laws

lemma mapBlob_available {r : State σ} (sound : Sound sys abs False r) (ready : r.ready = true)
    {digest : Digest} {len : Nat} {map : BlobMap} (done : (mapBlob sys r digest len).1 = .ok map)
    (other : Digest) :
    Available abs (mapBlob sys r digest len).2 other ↔ Available abs r other := by
  -- a slot filled with a digest that was available, where it was free or had that digest
  have slots : ∀ (pos : Nat) (slot : MapSlot) (stores : List σ),
      (∀ old, r.maps[pos]? = some (some old) → old.digest = slot.digest) →
      Available abs r slot.digest →
      (HeldBy abs stores other ↔ HeldBy abs r.stores other) →
      ((∃ found, some found ∈ r.maps.set pos (some slot) ∧ found.digest = other) ∨
          Present abs r.resident stores other ↔ Available abs r other) := by
    intro pos slot stores replaced available sameHeld
    have present : Present abs r.resident stores other ↔
        Present abs r.resident r.stores other := or_congr_right sameHeld
    rw [present]
    constructor
    · rintro (⟨found, mem, same⟩ | isPresent)
      · rcases mem_or_eq_of_mem_set mem with before | new
        · exact .inl ⟨found, before, same⟩
        cases new
        rw [← same]
        exact available
      · exact .inr isPresent
    rintro (⟨found, mem, same⟩ | isPresent)
    · have kept : some found ∈ r.maps.set pos (some slot) ∨
          r.maps[pos]? = some (some found) := mem_set_or mem
      rcases kept with stays | here
      · exact .inl ⟨found, stays, same⟩
      obtain ⟨inside, -⟩ := List.getElem?_eq_some_iff.mp here
      refine .inl ⟨slot, List.mem_set inside _, ?_⟩
      rw [← replaced found here, same]
    · exact .inr isPresent
  unfold mapBlob at done ⊢
  split at done
  · rename_i pos search
    split at done
    · cases done
    rename_i mapped found
    obtain ⟨at_, mem⟩ := mem_of_join found
    refine slots pos _ _ ?_ (.inl ⟨mapped, mem, rfl⟩) Iff.rfl
    intro old here
    rw [at_] at here
    cases here
    rfl
  rename_i unmapped
  split at done
  · cases done
  · rename_i image pos isImage search
    exact slots pos _ _ (fun _ here => nomatch here.symm.trans (getElem?_free search))
      (.inr (.inl ⟨image, mem_of_find?_eq_some isImage, rfl⟩)) Iff.rfl
  · cases done
  · cases done
  rename_i store pos noImage holding search
  obtain ⟨found, good, notBusy, _, held⟩ := sound.holding laws ready unmapped holding
  obtain ⟨-, view, -, -⟩ := laws.blobMap len good held notBusy
  split at done
  · cases done
  rename_i result
  rw [result] at view
  exact slots pos _ _ (fun _ here => nomatch here.symm.trans (getElem?_free search))
    (.inr (.inr ⟨store, mem_of_getElem? found, Option.isSome_of_eq_some held⟩))
    (heldBy_set found view other)

lemma mapAll_iff (faultFree : MapsHeld sys abs) (sound : Sound sys abs False r)
    (ready : r.ready = true) (mapped : List BlobMap) (layers : List Layer)
    (free : layers.length ≤ freeSlots r.maps) :
    (∃ maps, (mapAll sys r mapped layers).1 = .ok maps) ↔
      ∀ layer ∈ layers, Available abs r layer.digest := by
  induction layers generalizing r mapped with
  | nil => exact ⟨fun _ => nofun, fun _ => ⟨mapped, rfl⟩⟩
  | cons layer rest ih =>
    rw [length_cons] at free
    have first := mapBlob_continues laws sound ready layer.digest layer.len.toNat
    have iff :=
      mapBlob_iff laws faultFree sound ready (Nat.lt_of_lt_of_le (Nat.succ_pos _) free)
      layer.digest layer.len.toNat
    have slots := mapBlob_freeSlots sys r layer.digest layer.len.toNat
    have stays := @mapBlob_available _ _ _ _ _ laws _ sound ready layer.digest layer.len.toNat
    rw [forall_mem_cons, ← iff]
    unfold mapAll
    cases result : mapBlob sys r layer.digest layer.len.toNat with
    | mk rc after =>
      rw [result] at first slots stays
      cases rc with
      | error e =>
        constructor
        · rintro ⟨maps, done⟩
          cases done
        · rintro ⟨⟨map, done⟩, -⟩
          cases done
      | ok map =>
        rw [ih first.sound (first.ready ready) (mapped ++ [map]) (by omega)]
        constructor
        · intro all
          exact ⟨⟨map, rfl⟩, fun other mem => (stays rfl other.digest).mp (all other mem)⟩
        · rintro ⟨-, all⟩ other mem
          exact (stays rfl other.digest).mpr (all other mem)

omit laws

/-! ### After a restart -/

def atReclaim (sys : System σ) (r : State σ) : State σ :=
  { startStores sys r with seq := startSeq sys (startStores sys r) }

/-- A digest is that of a resident image, or of a blob on a store that the reclaim of the start does
not free. -/
def Survives (sys : System σ) (abs : Reading σ ν) (r : State σ) (digest : Digest) : Prop :=
  (∃ image ∈ r.resident, image.digest = digest) ∨
    ∃ store ∈ (startStores sys r).stores, ((abs.view store).blobs digest).isSome ∧
      ∀ refs, listedDigests sys (atReclaim sys r) = some refs → digest ∉ reclaimedIn sys refs store

/-- What the stores hold once the registry is started. -/
lemma heldBy_ensureReady (laws : Contract sys.ops abs) (sound : Sound sys abs False r)
    (unready : r.ready = false) (digest : Digest) :
    HeldBy abs (ensureReady sys r).stores digest ↔
      ∃ store ∈ (startStores sys r).stores, ((abs.view store).blobs digest).isSome ∧
        ∀ refs, listedDigests sys (atReclaim sys r) = some refs →
          digest ∉ reclaimedIn sys refs store := by
  obtain ⟨start, idle⟩ := startStores_continues laws sound unready
  have same : (ensureReady sys r).stores = (reclaim sys (atReclaim sys r)).stores := by
    simp [ensureReady, unready, atReclaim]
  rw [same, reclaim]
  cases listing : listedDigests sys (atReclaim sys r) with
  | none =>
    constructor
    · rintro ⟨store, mem, has⟩
      exact ⟨store, mem, has, by simp⟩
    · rintro ⟨store, mem, has, -⟩
      exact ⟨store, mem, has⟩
  | some refs =>
    have held := heldBy_map_iff (fun store mem => reclaimStore_becomes laws
      (start.sound.stores.good store mem) (idle store mem).2 refs) digest
    simpa [atReclaim] using held

omit [DecidableEq ν] in
lemma bytes_eq_of_digests {maps maps' : List BlobMap}
    (same : maps'.map (fun map => sys.sha256 map.bytes) = maps.map (fun map => sys.sha256 map.bytes))
    (collisionFree : ∀ map ∈ maps, ∀ map' ∈ maps',
      sys.sha256 map'.bytes = sys.sha256 map.bytes → map'.bytes = map.bytes) :
    maps'.map BlobMap.bytes = maps.map BlobMap.bytes := by
  induction maps generalizing maps' with
  | nil =>
    have empty := map_eq_nil_iff.mp same
    rw [empty]
  | cons map rest ih =>
    cases maps' with
    | nil => cases same
    | cons map' rest' =>
      obtain ⟨first, later⟩ := List.cons.inj same
      rw [map_cons, map_cons,
        collisionFree map mem_cons_self map' mem_cons_self first,
        ih later fun map isMap map' isMap' =>
          collisionFree map (mem_cons_of_mem _ isMap) map' (mem_cons_of_mem _ isMap')]

/-- What a load of an entry maps, topmost layer first, has the digests that the record lists. -/
def LoadsWhole (sys : System σ) (r : State σ) (entry : Entry) : Prop :=
  ∀ key maps, (registryMapLayers sys r entry).1 = .ok (key, maps) →
    ∃ record, readMeta sys (ensureReady sys r) key = .ok record ∧
      maps.map (fun map => sys.sha256 map.bytes) = record.digests.reverse

include laws

variable {entry : Entry}

lemma registryMapLayers_installed (sound : Sound sys abs False r)
    (versioned : (keyFromEntry entry).version ≠ [])
    (installed : entryOf sys.cfg (recordsOf abs r.stores)
      (abs.recName (keyFromEntry entry)) = some record) :
    registryMapLayers sys r entry =
      match mapAll sys (ensureReady sys r) [] record.layers.reverse with
      | (.error e, r) => (.error e, r)
      | (.ok maps, r) => (.ok (keyFromEntry entry, maps), r) := by
  obtain ⟨start, -⟩ := ensureReady_continues laws sound
  rw [← start.records_eq laws sound] at installed
  have read := (readMeta_of_entryOf laws start.sound.stores.good installed).1
  have resolved : resolve sys (ensureReady sys r) (keyFromEntry entry) =
      .ok (keyFromEntry entry, record) := by
    rw [resolve, if_pos versioned, read]
    rfl
  rewrite [registryMapLayers, mapLayersLocked, resolved]
  rfl

lemma registryMapLayers_digests (sound : Sound sys abs False r)
    (digested : Digested sys abs r) (versioned : (keyFromEntry entry).version ≠ [])
    (installed : entryOf sys.cfg (recordsOf abs r.stores)
      (abs.recName (keyFromEntry entry)) = some record) {key : Key} {maps : List BlobMap}
    (load : (registryMapLayers sys r entry).1 = .ok (key, maps)) :
    keyFromEntry entry = key ∧
      maps.map (fun map => sys.sha256 map.bytes) = record.layers.reverse.map Layer.digest := by
  obtain ⟨start, ready⟩ := ensureReady_continues laws sound
  have startMaps : MapsDigested sys (ensureReady sys r).maps := by
    rw [ensureReady_only]
    exact digested.maps
  have whole := @mapAll_digested _ _ _ _ _ laws _ start.sound ready
    (digested.of_continues laws sound start startMaps) [] record.layers.reverse maps
  rw [registryMapLayers_installed laws sound versioned installed] at load
  cases result : mapAll sys (ensureReady sys r) [] record.layers.reverse with
  | mk rc after =>
    rw [result] at load whole
    cases rc with
    | error e => cases load
    | ok found =>
      cases load
      exact ⟨rfl, whole rfl⟩

lemma load_unready_iff (faultFree : MapsHeld sys abs) (sound : Sound sys abs False r)
    (unready : r.ready = false) (empty : r.maps = List.replicate (maxMaps sys.cfg) none)
    (versioned : (keyFromEntry entry).version ≠ [])
    (installed : entryOf sys.cfg (recordsOf abs r.stores)
      (abs.recName (keyFromEntry entry)) = some record) :
    (∃ maps, (registryMapLayers sys r entry).1 = .ok (keyFromEntry entry, maps)) ↔
      ∀ digest ∈ record.digests, Survives sys abs r digest := by
  obtain ⟨start, ready⟩ := ensureReady_continues laws sound
  have slots : (ensureReady sys r).maps = List.replicate (maxMaps sys.cfg) none :=
    (congrArg State.maps (ensureReady_only r)).trans empty
  have enough : record.layers.reverse.length ≤ freeSlots (ensureReady sys r).maps := by
    have few : record.layers.length ≤ sys.cfg.maxLayers := by
      rw [entryOf, Option.bind_eq_some_iff] at installed
      obtain ⟨bytes, -, decoded⟩ := installed
      split at decoded
      · exact registryRecordDecode_layers decoded
      · cases decoded
    rw [slots, freeSlots, countP_replicate, length_reverse]
    calc record.layers.length ≤ 1 * sys.cfg.maxLayers := by rwa [Nat.one_mul]
      _ ≤ (sys.cfg.maxWapps + 1) * sys.cfg.maxLayers :=
        Nat.mul_le_mul_right _ (Nat.le_add_left 1 _)
  have survives : ∀ digest, Available abs (ensureReady sys r) digest ↔ Survives sys abs r digest := by
    intro digest
    have unmapped : ¬ ∃ slot, some slot ∈ (ensureReady sys r).maps ∧ slot.digest = digest := by
      rintro ⟨slot, mem, -⟩
      rw [slots] at mem
      cases eq_of_mem_replicate mem
    rw [Available, or_iff_right unmapped, Present, start.resident,
      heldBy_ensureReady laws sound unready]
    rfl
  have layers : (∀ layer ∈ record.layers.reverse,
      Available abs (ensureReady sys r) layer.digest) ↔
      ∀ digest ∈ record.digests, Survives sys abs r digest := by
    simp only [mem_reverse, Meta.digests, forall_mem_map, survives]
  rw [← layers, ← mapAll_iff laws faultFree start.sound ready [] record.layers.reverse enough,
    registryMapLayers_installed laws sound versioned installed]
  cases mapAll sys (ensureReady sys r) [] record.layers.reverse with
  | mk rc after =>
    cases rc with
    | error e => simp
    | ok maps => exact ⟨fun _ => ⟨maps, rfl⟩, fun _ => ⟨maps, rfl⟩⟩

/-- In every run, whatever a load resolves an entry to, it maps the content that the record names. -/
theorem loads_whole (sound : Sound sys abs False r) (digested : Digested sys abs r)
    (reqs : List Request) :
    LoadsWhole sys ((registryMachine sys).exec r reqs) entry := by
  intro key maps load
  obtain ⟨sound, digested⟩ := exec_digested laws sound digested reqs
  obtain ⟨start, ready⟩ := ensureReady_continues laws sound
  have started := serve_digested laws sound digested .init
  rw [registryMapLayers, mapLayersLocked] at load
  split at load
  · cases load
  rename_i record resolved
  have whole := @mapAll_digested _ _ _ _ _ laws _ start.sound ready started []
    record.layers.reverse maps
  split at load
  · cases load
  rename_i result
  cases load
  refine ⟨record, (resolve_reads resolved).2.1, ?_⟩
  rw [Meta.digests, ← map_reverse]
  exact whole (by rw [result])

omit laws

/-- For every registry and every installed entry that a load by its name and version returns: after a
restart with any set of resident images, on stores that map what they hold, the load returns the same
bytes again iff every layer of the entry survives the restart. -/
theorem reload_iff (laws : Contract sys.ops abs) (faultFree : MapsHeld sys abs)
    {r : State σ} (sound : Sound sys abs False r) (digested : Digested sys abs r)
    (entry : Entry) (versioned : (keyFromEntry entry).version ≠ []) (record : Meta)
    (installed : entryOf sys.cfg (recordsOf abs r.stores)
      (abs.recName (keyFromEntry entry)) = some record)
    (key : Key) (maps : List BlobMap) (loaded : State σ)
    (load : registryMapLayers sys r entry = (.ok (key, maps), loaded))
    (firmware : List FirmwareImage)
    (collisionFree : ∀ maps', (registryMapLayers sys (rebooted sys loaded firmware) entry).1 =
      .ok (key, maps') → ∀ map ∈ maps, ∀ map' ∈ maps',
        sys.sha256 map'.bytes = sys.sha256 map.bytes → map'.bytes = map.bytes) :
    (∃ maps', (registryMapLayers sys (rebooted sys loaded firmware) entry).1 = .ok (key, maps') ∧
        maps'.map BlobMap.bytes = maps.map BlobMap.bytes) ↔
      ∀ digest ∈ record.digests, Survives sys abs (rebooted sys loaded firmware) digest := by
  have isLoaded : (serve sys r (.mapLayers entry)).2 = loaded := congrArg Prod.snd load
  have soundLoaded := serve_loose laws sound (.mapLayers entry)
  have digestedLoaded := serve_digested laws sound digested (.mapLayers entry)
  rw [isLoaded] at soundLoaded digestedLoaded
  obtain ⟨isKey, before⟩ := registryMapLayers_digests laws sound digested versioned installed
    (congrArg Prod.fst load)
  -- the registry after the restart: the stores as they were, and nothing mapped
  have again : Sound sys abs False (rebooted sys loaded firmware) ∧
      Digested sys abs (rebooted sys loaded firmware) :=
    exec_digested laws soundLoaded digestedLoaded
      (.powerCycle :: .clearResident :: firmware.map FirmwareImage.register)
  obtain ⟨_, isRebooted⟩ := rebooted_eq sys loaded firmware
  have records : recordsOf abs (rebooted sys loaded firmware).stores = recordsOf abs r.stores := by
    obtain ⟨start, ready⟩ := ensureReady_continues laws sound
    have mapping := start.then (mapLayersLocked_continues laws start.sound ready entry)
    have same : (mapLayersLocked sys (ensureReady sys r) entry).2 = loaded := isLoaded
    rw [same] at mapping
    have stores : (rebooted sys loaded firmware).stores = loaded.stores := by
      rw [isRebooted]
      rfl
    rw [stores]
    exact mapping.records_eq laws sound
  have installedAgain : entryOf sys.cfg
      (recordsOf abs (rebooted sys loaded firmware).stores)
      (abs.recName (keyFromEntry entry)) = some record := by
    rw [records]
    exact installed
  rw [← load_unready_iff laws faultFree again.1 (by rw [isRebooted]; rfl)
    (by rw [isRebooted]; rfl) versioned installedAgain, isKey]
  constructor
  · rintro ⟨maps', done, -⟩
    exact ⟨maps', done⟩
  rintro ⟨maps', done⟩
  have after := (registryMapLayers_digests laws again.1 again.2 versioned installedAgain done).2
  exact ⟨maps', done, bytes_eq_of_digests (after.trans before.symm) (collisionFree maps' done)⟩

/-! ### On the page store -/

lemma sample_mapsHeld : MapsHeld sample wide := by
  intro s digest len _ has _
  obtain ⟨_, loaded⟩ := blobAt_isSome.mp has
  show succeeded (Page.blobMap wideConfig sampleHost s digest len).1 = true
  rw [Page.blobMap, loaded]
  rfl

lemma sampleRegistry_digested {resident : List Resident}
    (whole : ∀ image ∈ resident, sampleSha256 image.data = image.digest) :
    Digested sample wide (sampleRegistry resident) := by
  refine ⟨?_, whole, fun slot mem => nomatch eq_of_mem_replicate mem⟩
  intro store mem digest bytes held
  rw [mem_singleton.mp mem] at held
  have isBlob : (emptyStore.disk.blobAt wideConfig digest).isSome := Option.isSome_of_eq_some held
  obtain ⟨_, loaded⟩ := blobAt_isSome.mp isBlob
  cases loaded

/-- The entry `app:1`. -/
def appEntry : Entry := ⟨ascii "app", ascii "1"⟩

def loadedBytes (result : Rc (Key × List BlobMap)) : Option (List Bytes) :=
  result.toOption.map fun found => found.2.map BlobMap.bytes

theorem loads_whole_app : LoadsWhole sample (sampleAfter [] (installOf (ascii "app:1"))) appEntry :=
  loads_whole sampleContract (sampleRegistry_sound False []) (sampleRegistry_digested (forall_mem_nil _)) _

/-- The registry after `app:1` was installed and loaded. -/
def loadedApp : State PageStore :=
  (registryMapLayers sample (sampleAfter []
    (installOf (ascii "app:1"))) appEntry).2

def otherFirmware : List FirmwareImage := [⟨ascii "fw:2", 0, [9], 0, true⟩]

/-- An entry whose layer was written meets the theorem's conditions: it loads again after a restart
with another resident image. -/
theorem reload_app : ∃ maps, (registryMapLayers sample (rebooted sample loadedApp otherFirmware)
      appEntry).1 = .ok (⟨ascii "app", ascii "1"⟩, maps) ∧ maps.map BlobMap.bytes = [[7]] := by
  obtain ⟨sound, digested⟩ := exec_digested sampleContract (sampleRegistry_sound False [])
    (sampleRegistry_digested nofun) (installOf (ascii "app:1"))
  have digests : (entryOf sample.cfg (recordsOf wide
      (sampleAfter [] (installOf (ascii "app:1"))).stores)
      (wide.recName (keyFromEntry appEntry))).map Meta.digests =
        some [sampleSha256 [7]] := by decide +kernel
  obtain ⟨record, installed, isDigests⟩ := Option.map_eq_some_iff.mp digests
  have load : registryMapLayers sample (sampleAfter []
      (installOf (ascii "app:1"))) appEntry =
      (.ok (⟨ascii "app", ascii "1"⟩, [⟨6, [7], sampleSha256 [7]⟩]), loadedApp) :=
    Prod.ext (by decide +kernel) (by rw [loadedApp])
  have after : (registryMapLayers sample (rebooted sample loadedApp otherFirmware)
      appEntry).1 = .ok (⟨ascii "app", ascii "1"⟩, [⟨7, [7], sampleSha256 [7]⟩]) := by decide +kernel
  have kept : ∃ store ∈ (startStores sample (rebooted sample loadedApp otherFirmware)).stores,
      ((wide.view store).blobs (sampleSha256 [7])).isSome ∧
        ∀ refs ∈ listedDigests sample (atReclaim sample
          (rebooted sample loadedApp otherFirmware)),
          sampleSha256 [7] ∉ reclaimedIn sample refs store := by decide +kernel
  refine (reload_iff sampleContract sample_mapsHeld sound digested appEntry (by decide) record installed _ _
    loadedApp load otherFirmware ?_).mpr ?_
  · intro maps' done map isMap map' isMap' _
    cases after.symm.trans done
    rw [mem_singleton.mp isMap, mem_singleton.mp isMap']
  · intro digest mem
    rw [isDigests] at mem
    rw [mem_singleton.mp mem]
    exact .inr kept

/-- The firmware carries `fw:1`; the layer of `app:1` is linked to its digest, committed and loaded. -/
def linkedApp : State PageStore :=
  (registryMachine sample).exec
    (sampleRegistry [⟨⟨ascii "fw", ascii "1"⟩, 0, [9], 0, sampleSha256 [9]⟩])
    [.linkLayer (ascii "app:1") 0 (sampleSha256 [9]), .commit (ascii "app:1") 1 none none]

/-- After a restart with firmware that does not carry the image the entry no longer loads. -/
theorem reload_linked_fails : loadedBytes (registryMapLayers sample linkedApp appEntry).1 = some [[9]] ∧
    loadedBytes (registryMapLayers sample (rebooted sample
      (registryMapLayers sample linkedApp appEntry).2 []) appEntry).1 = none := by
  decide +kernel

end WantedEngine.Registry
