import WantedEngine.Registry.Leaks
import WantedEngine.Registry.PageContract
import WantedEngine.Registry.PageFrame
import Mathlib.Data.List.Dedup
/-!
# What the registry keeps and what it frees

The two halves of the registry's garbage collection over whole runs. A blob that a record lists,
that is pending or that is mapped is present, as long as every record is published under a key
that a listing of the store shows: `dropAllIfFree` and `reclaim` free what the listing lacks, and
the file stores list no name that starts with a dot or an underscore. A blob that is held is in
use, as long as the records list no more digests than a listing holds: a listing that is cut
short frees nothing.
-/
namespace WantedEngine.Registry

open Foundation Page List

variable {σ ν : Type} [DecidableEq ν] (sys : System σ) (abs : Reading σ ν)

variable {sys abs} in
lemma exec_fixed {strict : Prop} (laws : Contract sys.ops abs) {r : State σ}
    (sound : Sound sys abs strict r) {reqs : List Request}
    (allowed : (registryMachine sys).Obeys (Allowed abs strict) r reqs) :
    Sound sys abs strict ((registryMachine sys).exec r reqs) ∧
      ((registryMachine sys).exec r reqs).resident = r.resident :=
  (registryMachine sys).exec_invariant
    (fun r' => Sound sys abs strict r' ∧ r'.resident = r.resident)
    (fun _ _ ⟨sound, same⟩ allowed =>
      have step := serve_operates laws sound allowed
      ⟨step.sound, step.resident.trans same⟩)
    ⟨sound, rfl⟩ allowed

/-! ### A registry over the page store -/

def digestsOn (cfg : Config) (s : PageStore) : List Digest :=
  s.disk.entries.entries.flatMap fun file =>
    match registryRecordDecode cfg file.2 with
    | none => []
    | some record => record.digests

variable {pages : PageConfig} {cfg : Config}

/-- They are what the records list. -/
lemma lists_iff_digestsOn {s : PageStore} {others : List PageStore} {digest : Digest} :
    Lists cfg (recordsOf (pageReading pages) (s :: others)) digest ↔ digest ∈ digestsOn cfg s := by
  unfold digestsOn
  rw [mem_flatMap]
  constructor
  · rintro ⟨_, bytes, record, found, decoded, mem⟩
    obtain ⟨file, rfl, found⟩ := Option.bind_eq_some_iff.mp found
    refine ⟨⟨file, bytes⟩, AList.mem_lookup_iff.mp found, ?_⟩
    simpa only [decoded] using mem
  · rintro ⟨⟨file, bytes⟩, mem, listed⟩
    split at listed
    · cases listed
    · rename_i record decoded
      exact ⟨some file, bytes, record, AList.mem_lookup_iff.mpr mem, decoded, listed⟩

/-- A page store holds no more than `REGISTRY_MAX_ENTRIES` records and `MAX_BLOBS` blobs. -/
def Limited (s : PageStore) : Prop :=
  s.disk.entries.keys.length ≤ registryMaxEntries ∧
    (blobDigests s.disk.blobs).length ≤ maxBlobs

instance (s : PageStore) : Decidable (Limited s) := inferInstanceAs (Decidable (_ ∧ _))

instance (cfg : Config) (pages : PageConfig) (stores : List PageStore) (digest : Digest) :
    Decidable (Lists cfg (recordsOf (pageReading pages) stores) digest) :=
  match stores with
  | [] => isFalse fun ⟨_, _, _, found, _⟩ => nomatch found
  | _ :: _ => decidable_of_iff _ lists_iff_digestsOn.symm

instance (pages : PageConfig) (stores : List PageStore) (digest : Digest) :
    Decidable (HeldBy (pageReading pages) stores digest) :=
  inferInstanceAs (Decidable (∃ store ∈ stores, (store.disk.blobAt pages digest).isSome = true))

instance (pages : PageConfig) (resident : List Resident) (stores : List PageStore)
    (digest : Digest) : Decidable (Present (pageReading pages) resident stores digest) :=
  inferInstanceAs (Decidable (_ ∨ HeldBy (pageReading pages) stores digest))

instance (sys : System PageStore) (pages : PageConfig) (r : State PageStore) (digest : Digest) :
    Decidable (InUse sys (pageReading pages) r digest) :=
  decidable_of_iff
    (Lists sys.cfg (recordsOf (pageReading pages) r.stores) digest ∨
      (∃ slot ∈ r.pending, slot.any (·.digest = digest) = true) ∨
      ∃ slot ∈ r.maps, slot.any (·.digest = digest) = true)
    (by simp [InUse, Option.any_eq_true])

instance (key : Key) : Decidable (Listable key) :=
  decidable_of_iff
    ((match regFilesKeyName key with
      | .error _ => false
      | .ok file => decide (visible file = true ∧ (47 : UInt8) ∉ file ∧
          regFilesParseKey file = some key)) = true)
    (by
      unfold Listable
      cases regFilesKeyName key <;> simp)

/-- Whether a request to the registry over the page store is allowed can be evaluated. -/
instance (pages : PageConfig) (r : State PageStore) (req : Request) :
    Decidable (Allowed (pageReading pages) True r req) :=
  decidable_of_iff
    (changesResidents req = false ∧
      (publishes r req).all (fun key => decide (Listable key)) = true)
    (by simp [Allowed, pageReading, Option.all_eq_true])

/-- A digest of the bytes themselves, for runs that are evaluated. -/
def sampleSha256 (data : Bytes) : Digest := ⟨(data ++ List.replicate 32 0).take 32, by simp⟩

def wideConfig : PageConfig where
  unit := 1
  units := 60
  scattered := true
  walk := fun name => if (47 : UInt8) ∈ name then none else some name
  unit_pos := by decide
  units_le := by decide
  fits := by decide
  walk_direct := sampleConfig.walk_direct

/-- A build of sixteen layers over the page store on that partition. -/
def sample : System PageStore where
  cfg := ⟨16, by decide, by decide, 2, Nat.zero_lt_two⟩
  ops := pageOps wideConfig sampleHost
  sha256 := sampleSha256

abbrev wide : Reading PageStore (Option Bytes) := pageReading wideConfig

def emptyStore : PageStore := Page.init wideConfig sampleHost (registryPageStore sampleDisk)

lemma emptyStore_records (name : Option Bytes) : recordsOf wide [emptyStore] name = none := by
  cases name with
  | none => rfl
  | some file => rfl

/-- The empty store is in order, and its registry is sound. -/
lemma emptyStore_sound (strict : Prop) (resident : List Resident) :
    StoresSound sample wide strict resident [emptyStore] := by
  have few : ∀ unit, blobsOn wideConfig (registryPageStore sampleDisk).disk.blobs unit < 255 :=
    fun _ => show (0 : Nat) < 255 by decide
  obtain ⟨ok, _⟩ := init_ok sampleHost (s := registryPageStore sampleDisk) (BlobsOk.empty _) few
  refine ⟨forall_mem_singleton.mpr ok, fun _ name isSome => ?_, fun _ digest listed => ?_⟩
  · rw [emptyStore_records] at isSome
    cases isSome
  obtain ⟨name, _, _, found, _⟩ := listed
  rw [emptyStore_records] at found
  cases found

def sampleRegistry (resident : List Resident) : State PageStore :=
  booted sample [emptyStore] resident

abbrev sampleAfter (resident : List Resident) (reqs : List Request) : State PageStore :=
  (registryMachine sample).exec (sampleRegistry resident) reqs

lemma sampleContract : Contract sample.ops wide := pageContract fun _ => rfl

lemma sampleRegistry_sound (strict : Prop) (resident : List Resident) :
    Sound sample wide strict (sampleRegistry resident) :=
  booted_sound (emptyStore_sound strict resident)

/-- An image of one layer is written as version 1 of a name, mapped and released. -/
def writeAndRelease (name : Bytes) : List Request :=
  [.write true (.start (name ++ ascii ":1") 0 true) [7], .write true (.finish none) [],
    .mapLayers ⟨name, ascii "1"⟩, .unmapLayers [6]]

/-! ### Nothing in use is freed -/

/-- In every run whose records are published under keys that a listing shows, whatever is
listed, pending or mapped is present. -/
theorem used_blobs_present (laws : Contract sys.ops abs) (stores : List σ)
    (resident : List Resident) (sound : StoresSound sys abs True resident stores)
    (reqs : List Request)
    (allowed : (registryMachine sys).Obeys (Allowed abs True) (booted sys stores resident) reqs) :
    ∀ digest, InUse sys abs ((registryMachine sys).exec (booted sys stores resident) reqs) digest →
      Present abs resident
        ((registryMachine sys).exec (booted sys stores resident) reqs).stores digest := by
  intro digest inUse
  have run := exec_fixed laws (booted_sound sound) allowed
  have present := run.1.present inUse
  rwa [run.2] at present

/-- The run of a listable name meets the theorem's conditions: its blob, listed at the end, is
there. -/
theorem used_blobs_present_app : InUse sample wide
      (sampleAfter [] (writeAndRelease (ascii "app")))
      (sampleSha256 [7]) ∧
    Present wide []
      (sampleAfter [] (writeAndRelease (ascii "app"))).stores
      (sampleSha256 [7]) := by
  have listed : InUse sample wide
      (sampleAfter [] (writeAndRelease (ascii "app")))
      (sampleSha256 [7]) :=
    by decide +kernel
  exact ⟨listed, used_blobs_present sample wide sampleContract
    [emptyStore] [] (emptyStore_sound True []) _ (by decide +kernel) _ listed⟩

/-- The record of `_app:1` is on the store and lists a blob that the release of its mapping
freed: no listing names the record. -/
theorem used_blob_dropped : (∀ req ∈ writeAndRelease (ascii "_app"), changesResidents req = false) ∧
    InUse sample wide
      (sampleAfter [] (writeAndRelease (ascii "_app")))
      (sampleSha256 [7]) ∧
    ¬ Present wide []
      (sampleAfter [] (writeAndRelease (ascii "_app"))).stores
      (sampleSha256 [7]) := by
  decide +kernel

/-! ### Nothing is left behind -/

/-- In every run that keeps within the limits of a listing, each blob the stores of a started
registry hold is listed, pending or mapped, and after the reclaim of a start each is listed. -/
theorem held_blobs_used (laws : Contract sys.ops abs) (stores : List σ)
    (resident : List Resident) (good : ∀ store ∈ stores, abs.good store)
    (within : Within sys.cfg abs stores) (reqs : List Request)
    (fits : (registryMachine sys).Obeys (Fits sys abs) (booted sys stores resident) reqs) :
    (((registryMachine sys).exec (booted sys stores resident) reqs).ready = true →
      ∀ digest,
        HeldBy abs ((registryMachine sys).exec (booted sys stores resident) reqs).stores digest →
        InUse sys abs ((registryMachine sys).exec (booted sys stores resident) reqs) digest) ∧
    (((registryMachine sys).exec (booted sys stores resident) reqs).ready = false →
      ∀ digest,
        HeldBy abs (ensureReady sys
          ((registryMachine sys).exec (booted sys stores resident) reqs)).stores digest →
        Lists sys.cfg (recordsOf abs (ensureReady sys
          ((registryMachine sys).exec (booted sys stores resident) reqs)).stores) digest) := by
  have sound : Sound sys abs False (booted sys stores resident) :=
    booted_sound ⟨good, nofun, nofun⟩
  obtain ⟨soundAfter, tidy⟩ := exec_tidy laws sound (forgotten_tidy rfl rfl rfl) fits
  have withinAfter :=
    (registryMachine sys).exec_invariant (fun r => Within sys.cfg abs r.stores)
      (fun _ _ _ fits => fits.2) within fits
  refine ⟨fun ready digest held => ?_, fun unready digest held =>
    ensureReady_listed laws soundAfter unready withinAfter held⟩
  exact (tidy.tight ready digest held).resolve_right (by simp)

/-- What the limits of a listing ask of one page store, as a test. -/
def Brief (cfg : Config) (stores : List PageStore) : Prop :=
  stores.length = 1 ∧ ∀ s ∈ stores, Limited s ∧
    (∀ file ∈ s.disk.entries.entries, file.2.length ≤ registryRecordMax) ∧
    (digestsOn cfg s).dedup.length ≤ maxBlobs

instance (cfg : Config) (stores : List PageStore) : Decidable (Brief cfg stores) :=
  inferInstanceAs (Decidable (_ ∧ ∀ s ∈ stores, _ ∧ _ ∧ _))

/-- A store that passes the test is within the limits. -/
lemma within_of_brief {stores : List PageStore}
    (brief : Brief cfg stores) : Within cfg (pageReading pages) stores := by
  obtain ⟨one, each⟩ := brief
  obtain ⟨s, rfl⟩ := length_eq_one_iff.mp one
  obtain ⟨limited, readable, listed⟩ := each s (mem_singleton.mpr rfl)
  refine ⟨⟨⟨s.disk.entries.keys.map some, by simpa using limited.1, ?_⟩, ?_, ?_⟩, ?_⟩
  · intro name isSome
    obtain ⟨bytes, found⟩ := Option.isSome_iff_exists.mp isSome
    obtain ⟨file, rfl, there⟩ := Option.bind_eq_some_iff.mp found
    have known : file ∈ s.disk.entries :=
      AList.lookup_isSome.mp (Option.isSome_iff_exists.mpr ⟨bytes, there⟩)
    exact mem_map_of_mem (AList.mem_keys.mp known)
  · intro name bytes found
    obtain ⟨file, rfl, there⟩ := Option.bind_eq_some_iff.mp found
    exact readable ⟨file, bytes⟩ (AList.mem_lookup_iff.mp there)
  · exact ⟨_, listed, fun digest lists => mem_dedup.mpr (lists_iff_digestsOn.mp lists)⟩
  · refine forall_mem_singleton.mpr ⟨blobDigests s.disk.blobs, limited.2, fun digest held => ?_⟩
    obtain ⟨_, loaded⟩ := blobAt_isSome.mp held
    exact mem_blobDigests_of_load loaded

/-- The written image is removed, the device reset, and the image written again. -/
def writeAndRemove : List Request :=
  writeAndRelease (ascii "app") ++ [.remove ⟨ascii "app", ascii "1"⟩, .powerCycle] ++
    writeAndRelease (ascii "app")

def crowdRef (image : Nat) : Bytes := ascii "b:" ++ [UInt8.ofNat (65 + image)]

def crowdResident (image : Nat) : Resident :=
  ⟨⟨ascii "a", [UInt8.ofNat (65 + image)]⟩, 0, [UInt8.ofNat (100 + image)], 0,
    sampleSha256 [UInt8.ofNat (100 + image)]⟩

/-- Three images of sixteen layers, one of the sixteen resident images, and two of one layer, of
which the last is removed. -/
def crowdedRun : List Request :=
  ((List.range 3).flatMap fun image => ((List.range 16).flatMap fun layer =>
      [.write false (.start (crowdRef image) layer true) [UInt8.ofNat (16 * image + layer + 1)],
        .write false (.finish none) []]) ++ [.commit (crowdRef image) 16 none none]) ++
  ((List.range 16).map fun layer => .linkLayer (crowdRef 3) layer (crowdResident layer).digest) ++
  [.commit (crowdRef 3) 16 none none,
    .write true (.start (crowdRef 4) 0 true) [200], .write true (.finish none) [],
    .write true (.start (crowdRef 5) 0 true) [201], .write true (.finish none) [],
    .remove ⟨ascii "b", ascii "F"⟩]

/-- A run with a removal and a reset meets the theorem's conditions, and a blob is held at its
end. -/
theorem held_blobs_used_app : HeldBy wide
      (sampleAfter [] writeAndRemove).stores
      (sampleSha256 [7]) ∧
    InUse sample wide
      (sampleAfter [] writeAndRemove)
      (sampleSha256 [7]) := by
  have tested : (registryMachine sample).Obeys
      (fun r req => Brief sample.cfg r.stores ∧ Brief sample.cfg (serve sample r req).2.stores)
      (sampleRegistry []) writeAndRemove := by decide +kernel
  have fits : (registryMachine sample).Obeys (Fits sample wide) (sampleRegistry []) writeAndRemove :=
    tested.mono fun _ _ ⟨before, after⟩ => ⟨within_of_brief before, within_of_brief after⟩
  have held : HeldBy wide
      (sampleAfter [] writeAndRemove).stores
      (sampleSha256 [7]) := by decide +kernel
  exact ⟨held, (held_blobs_used sample wide sampleContract
    [emptyStore] [] (emptyStore_sound False []).good (within_of_brief (by decide +kernel))
    writeAndRemove fits).1 (by decide +kernel) _ held⟩

/-- The store holds at most 64 blobs and records throughout, but the records list 65 digests:
the blob of the removed image is left behind, neither listed nor pending nor mapped. -/
theorem held_blob_left : (registryMachine sample).Obeys
      (fun r req => changesResidents req = false ∧ ∀ s ∈ r.stores, Limited s)
      (sampleRegistry ((List.range 16).map crowdResident)) crowdedRun ∧
    HeldBy wide
      ((registryMachine sample).exec
        (sampleRegistry ((List.range 16).map crowdResident)) crowdedRun).stores
      (sampleSha256 [201]) ∧
    ¬ InUse sample wide
      ((registryMachine sample).exec (sampleRegistry ((List.range 16).map crowdResident)) crowdedRun)
      (sampleSha256 [201]) := by
  exact ⟨by decide +kernel, by decide +kernel, by decide +kernel⟩

end WantedEngine.Registry
