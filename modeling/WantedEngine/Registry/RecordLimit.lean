import WantedEngine.Registry.Changes
import WantedEngine.Registry.Retention
import Mathlib.Data.Set.Card
/-!
# The number of records

`REGISTRY_MAX_ENTRIES` bounds what the registry enumerates, so a commit of a new entry is refused
once that many are listed (`commitLocked`). The test is made only when the entry cannot be read,
and a resident image is read as an entry; and it counts the records that a listing shows. In every
run whose commits, once the limit is reached, meet neither exception, the limit holds
(`record_limit_holds`). An install over a resident image passes it (`record_limit_passed`).
-/
namespace WantedEngine.Registry

open Foundation Page

def recordNames {ν : Type} (records : ν → Option Bytes) : Set ν := {name | (records name).isSome}

/-- Records that are no more than a limit have their names in a list that is no longer. -/
lemma cover_of_encard {ν : Type} {records : ν → Option Bytes} {limit : Nat}
    (few : (recordNames records).encard ≤ limit) :
    ∃ names : List ν, (∀ name, (records name).isSome → name ∈ names) ∧ names.length ≤ limit := by
  have finite := Set.finite_of_encard_le_coe few
  refine ⟨finite.toFinset.toList, ?_, ?_⟩
  · intro name isSome
    rw [Finset.mem_toList, Set.Finite.mem_toFinset]
    exact isSome
  · rw [Finset.length_toList]
    rw [finite.encard_eq_coe_toFinset_card] at few
    exact_mod_cast few

section Runs

variable {σ ν : Type} [DecidableEq ν] {sys : System σ} {abs : Reading σ ν}

/-- What is published leaves the limit to hold: there is room, or the entry has a record, or it has
no resident image and every record is one that a listing shows. -/
def LimitTested (abs : Reading σ ν) (r : State σ) (req : Request) : Prop :=
  ∀ key, publishes r req = some key →
    (recordNames (recordsOf abs r.stores)).encard < registryMaxEntries ∨
    abs.recName key ∈ recordNames (recordsOf abs r.stores) ∨
    ((∀ image ∈ r.resident, image.key ≠ key) ∧
      ∀ name ∈ recordNames (recordsOf abs r.stores),
        ∃ other, abs.listable other ∧ abs.recName other = name)

/-- A record put adds at most its own name. -/
lemma recordNames_put (records : ν → Option Bytes) (name : ν) (bytes : Bytes) :
    recordNames (Function.update records name (some bytes)) = insert name (recordNames records) := by
  ext other
  by_cases same : other = name
  · simp [recordNames, same]
  · simp [recordNames, same]

lemma recordNames_removed (records : ν → Option Bytes) (name : ν) :
    recordNames (Function.update records name none) ⊆ recordNames records := by
  intro other
  by_cases same : other = name
  · simp [recordNames, same]
  · simp [recordNames, same]

variable {req : Request}

lemma Committed.within_limit {r : State σ} {key : Key} {record : Meta}
    {start : UInt32} {records' : ν → Option Bytes}
    (commit : Committed sys abs (recordsOf abs r.stores) r.resident start key record records')
    (published : publishes r req = some key) (tested : LimitTested abs r req)
    (limit : (recordNames (recordsOf abs r.stores)).encard ≤ registryMaxEntries) :
    (recordNames records').encard ≤ registryMaxEntries := by
  obtain ⟨_, -, put⟩ := commit.put
  rw [put, recordNames_put]
  have add : ∀ names : Set ν, names.encard < registryMaxEntries →
      (insert (abs.recName key) names).encard ≤ registryMaxEntries :=
    fun names room => (Set.encard_insert_le _ _).trans (Order.add_one_le_of_lt room)
  by_cases recorded : abs.recName key ∈ recordNames (recordsOf abs r.stores)
  · rw [Set.insert_eq_of_mem recorded]
    exact limit
  rcases tested key published with few | isRecorded | ⟨noImage, listed⟩
  · exact add _ few
  · exact absurd isRecorded recorded
  -- the registry counted: what it listed is every record
  rcases commit.room with isRecorded | ⟨image, isImage, same⟩ | ⟨keys, few, all⟩
  · exact absurd isRecorded recorded
  · exact absurd same (noImage image isImage)
  apply add
  have covered : recordNames (recordsOf abs r.stores) ⊆ {name | name ∈ keys.map abs.recName} := by
    intro name isName
    obtain ⟨other, listable, rfl⟩ := listed name isName
    exact List.mem_map_of_mem (all other listable isName)
  calc (recordNames (recordsOf abs r.stores)).encard
      ≤ {name | name ∈ keys.map abs.recName}.encard := Set.encard_le_encard covered
    _ = ((keys.map abs.recName).toFinset : Set ν).encard := by rw [List.coe_toFinset]
    _ = (keys.map abs.recName).toFinset.card := Set.encard_coe_eq_coe_finsetCard _
    _ ≤ (keys.length : ℕ∞) := by
      have most := (keys.map abs.recName).toFinset_card_le
      rw [List.length_map] at most
      exact_mod_cast most
    _ < registryMaxEntries := by exact_mod_cast few

lemma serve_within_limit (laws : Contract sys.ops abs) {r : State σ} (sound : Sound sys abs False r)
    (limit : (recordNames (recordsOf abs r.stores)).encard ≤ registryMaxEntries)
    (tested : LimitTested abs r req) :
    (recordNames (recordsOf abs (serve sys r req).2.stores)).encard ≤ registryMaxEntries := by
  have changes := serve_changes laws sound req
  cases changes with
  | kept same =>
    rw [same]
    exact limit
  | removed entry key record _ _ _ _ gone =>
    rw [gone]
    exact (Set.encard_le_encard (recordNames_removed _ _)).trans limit
  | rewritten key old changed bytes _ installed _ _ _ put =>
    have recorded : abs.recName key ∈ recordNames (recordsOf abs r.stores) :=
      entryOf_isSome installed
    rw [put, recordNames_put, Set.insert_eq_of_mem recorded]
    exact limit
  | committed key record published _ commit => exact commit.within_limit published tested limit

/-- In every run whose commits are tested, the primary store never holds more records than the
registry enumerates. -/
theorem record_limit_holds (laws : Contract sys.ops abs) {r : State σ} (sound : Sound sys abs False r)
    (limit : (recordNames (recordsOf abs r.stores)).encard ≤ registryMaxEntries)
    (reqs : List Request)
    (tested : (registryMachine sys).Obeys (LimitTested abs) r reqs) :
    (recordNames (recordsOf abs ((registryMachine sys).exec r reqs).stores)).encard ≤
      registryMaxEntries := by
  have run := (registryMachine sys).exec_invariant
      (fun r => Sound sys abs False r ∧
        (recordNames (recordsOf abs r.stores)).encard ≤ registryMaxEntries)
      (fun _ req before tested => ⟨serve_loose laws before.1 req,
        serve_within_limit laws before.1 before.2 tested⟩)
      ⟨sound, limit⟩ tested
  exact run.2

end Runs

/-! ### On the page store -/

lemma pageRecords_encard (pages : PageConfig) (s : PageStore) (others : List PageStore) :
    (recordNames (recordsOf (pageReading pages) (s :: others))).encard = s.disk.entries.keys.length := by
  have names : recordNames (recordsOf (pageReading pages) (s :: others)) =
      some '' (s.disk.entries.keys.toFinset : Set Bytes) := by
    ext name
    cases name with
    | none => simp [recordNames, recordsOf, pageReading]
    | some file =>
      simp [recordNames, recordsOf, pageReading, AList.lookup_isSome, AList.mem_keys]
  have once : s.disk.entries.keys.Nodup := s.disk.entries.nodupKeys
  rw [names, (Option.some_injective _).encard_image, Set.encard_coe_eq_coe_finsetCard,
    List.toFinset_card_of_nodup once]

/-- An image of one layer is installed under a reference. -/
def installOf (ref : Bytes) : List Request :=
  [.write true (.start ref 0 true) [7], .write true (.finish none) []]

def fillingRun : List Request :=
  (List.range 50).flatMap fun image =>
    installOf (ascii "b:" ++ [UInt8.ofNat (65 + image / 10), UInt8.ofNat (48 + image % 10)])

def fullRun : List Request := fillingRun ++ installOf (ascii "app:1")

/-- The resident image of `app:1`. -/
def firmwareApp : Resident := ⟨⟨ascii "app", ascii "1"⟩, 0, [1], 0, sampleSha256 [1]⟩

/-- An install over a resident image meets the theorem's conditions while there is room. -/
theorem record_limit_holds_app : (recordNames (recordsOf wide
      (sampleAfter [firmwareApp] (installOf (ascii "app:1"))).stores)).encard ≤ registryMaxEntries := by
  have empty : (recordNames (recordsOf wide [emptyStore])).encard = 0 := by
    rw [pageRecords_encard]
    decide +kernel
  have limit : (recordNames (recordsOf wide [emptyStore])).encard ≤ registryMaxEntries := by
    rw [empty]
    exact zero_le
  have roomy : (registryMachine sample).Obeys
      (fun r _ => ∃ s ∈ r.stores.head?, s.disk.entries.keys.length < registryMaxEntries)
      (sampleRegistry [firmwareApp]) (installOf (ascii "app:1")) := by decide +kernel
  have sound := sampleRegistry_sound False [firmwareApp]
  refine record_limit_holds sampleContract sound limit _ (roomy.mono ?_)
  intro r req few key _
  obtain ⟨s, isHead, few⟩ := few
  left
  cases stores : r.stores with
  | nil =>
    rw [stores] at isHead
    cases isHead
  | cons head others =>
    rw [stores] at isHead
    cases isHead
    rw [pageRecords_encard]
    exact_mod_cast few

/-- Fifty images are installed and `app:1` is resident: its install is not counted, and the store
holds fifty-one records. -/
theorem record_limit_passed : ¬ (recordNames (recordsOf wide
      (sampleAfter [firmwareApp] fullRun).stores)).encard ≤ registryMaxEntries := by
  have many : ((sampleAfter [firmwareApp]
      fullRun).stores.map fun s => s.disk.entries.keys.length) = [51] := by decide +kernel
  cases stores : (sampleAfter [firmwareApp] fullRun).stores with
  | nil =>
    rw [stores] at many
    cases many
  | cons s others =>
    rw [stores] at many
    have count : s.disk.entries.keys.length = 51 := (List.cons.inj many).1
    rw [pageRecords_encard, count]
    decide

end WantedEngine.Registry
