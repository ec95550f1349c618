import WantedEngine.Registry.Retention
import Mathlib.Data.List.TakeWhile
/-!
# Entries that a listing returns

`RegistryRead` copies the key of each entry into a `reg_entry_t`, whose fields are a byte shorter
than those of a key, and every operation on an entry turns it back into a key and resolves that.
The two agree for the keys that fit the shorter fields, and, where the version is empty, for the
entry that a reference without a version finds.
-/
namespace WantedEngine.Registry

open Foundation Page List

variable {σ : Type} (sys : System σ)

/-- `reg_entry_t` as `RegistryRead` fills it. -/
structure ListedEntry where
  entry : Entry
  /-- The total length of the layers. -/
  size : UInt32
  deriving DecidableEq

def entryOfKey (key : Key) : Entry :=
  ⟨(cString key.name).take (wappMaxNameLen - 1), (cString key.version).take (wappMaxVersionLen - 1)⟩

def readable (r : State σ) (keys : List Key) : List (Key × Meta) :=
  keys.filterMap fun key => (readMeta sys r key).toOption.map fun record => (key, record)

/-- `RegistryRead` with room for `len` entries: the total, and the entries that fit. -/
def registryRead (r : State σ) (len : Nat) : Rc Nat × List ListedEntry × State σ :=
  let r := ensureReady sys r
  match listKeys sys r with
  | .error e => (.error e, [], r)
  | .ok keys =>
    let found := readable sys r keys
    (.ok found.length,
      (found.take len).map fun entry => ⟨entryOfKey entry.1, entry.2.size⟩, r)

/-- The stored or resident entry that each entry of a listing is read from. -/
def readFrom (r : State σ) : List (Key × Meta) :=
  match listKeys sys (ensureReady sys r) with
  | .error _ => []
  | .ok keys => readable sys (ensureReady sys r) keys

/-- The four operations on an entry, on a registry that is started, are operations on the stored
or resident entry `key` with its record. -/
structure ActsOn (r : State σ) (entry : Entry) (key : Key) (record : Meta) : Prop where
  /-- `RegistryMetaRead` returns its record. -/
  metaRead : registryMetaRead sys r entry = (.ok record, r)
  /-- `RegistryLoad` maps its layers, topmost first, and names it. -/
  load : registryMapLayers sys r entry =
    (match mapAll sys r [] record.layers.reverse with
      | (.error e, r) => (.error e, r)
      | (.ok maps, r) => (.ok (key, maps), r))
  /-- `RegistryMetaSetSignature` signs its record, and refuses a resident image. -/
  setSignature : ∀ keyId signature, registryMetaSetSignature sys r entry keyId signature =
    if residentOnly sys r key then (.error .eperm, r)
    else writeMeta sys r key { record with keyId, signature, flags := record.flags ||| metaSigned }
  /-- `RegistryRemove` removes its record, and refuses an image of the firmware. -/
  remove : registryRemove sys r entry =
    match r.stores with
    | [] => (.error .enodev, r)
    | p :: others =>
      if record.has metaSeeded then (.error .eperm, r)
      else
        match sys.ops.recDel p key with
        | (.error e, p) => (.error e, { r with stores := p :: others })
        | (.ok (), p) =>
          (.ok (), dropAllIfFree sys { r with stores := p :: others } record.digests)

variable {sys} {key : Key} {record : Meta} {r : State σ}

/-- What the entry resolves to is what the operations act on. -/
lemma ActsOn.of_resolve (ready : r.ready = true) {entry : Entry}
    (resolved : resolve sys r (keyFromEntry entry) = .ok (key, record)) :
    ActsOn sys r entry key record := by
  have started : ensureReady sys r = r := by rw [ensureReady, if_pos ready]
  refine ⟨?_, ?_, ?_, ?_⟩
  · rewrite [registryMetaRead, started, resolved]
    rfl
  · rewrite [registryMapLayers, started, mapLayersLocked, resolved]
    rfl
  · intro keyId signature
    rw [registryMetaSetSignature, started, resolved]
  · rewrite [registryRemove, started, resolved]
    rfl

/-- A key that fits the fields of an entry: texts of at most fourteen bytes. -/
def FitsEntry (key : Key) : Prop :=
  0 ∉ key.name ∧ 0 ∉ key.version ∧ key.name.length < wappMaxNameLen ∧
    key.version.length < wappMaxVersionLen

instance decidableFitsEntry (key : Key) : Decidable (FitsEntry key) :=
  inferInstanceAs (Decidable (_ ∧ _ ∧ _ ∧ _))

/-- A text that fits a field is copied whole. -/
lemma cString_take_of_fits {text : Bytes} {room : Nat} (noNul : 0 ∉ text)
    (short : text.length ≤ room) : (cString text).take room = text := by
  have whole : cString text = text := by
    rw [cString, takeWhile_eq_self_iff]
    intro byte mem
    have differs : byte ≠ 0 := fun zero => noNul (zero ▸ mem)
    simpa using differs
  rw [whole, take_of_length_le short]

/-- A key that fits is shown whole. -/
lemma entryOfKey_of_fits {key : Key} (fits : FitsEntry key) :
    entryOfKey key = ⟨key.name, key.version⟩ := by
  obtain ⟨noNulName, noNulVersion, shortName, shortVersion⟩ := fits
  have name := cString_take_of_fits noNulName (Nat.le_sub_one_of_lt shortName)
  have version := cString_take_of_fits noNulVersion (Nat.le_sub_one_of_lt shortVersion)
  rw [entryOfKey, name, version]

lemma keyFromEntry_entryOfKey (fits : FitsEntry key) : keyFromEntry (entryOfKey key) = key := by
  obtain ⟨noNulName, noNulVersion, shortName, shortVersion⟩ := fits
  have name : (entryOfKey key).name = key.name :=
    cString_take_of_fits noNulName (Nat.le_sub_one_of_lt shortName)
  have version : (entryOfKey key).version = key.version :=
    cString_take_of_fits noNulVersion (Nat.le_sub_one_of_lt shortVersion)
  have wholeName : (cString key.name).take (registryKeyNameLen - 1) = key.name :=
    cString_take_of_fits noNulName (Nat.le_of_lt shortName)
  have wholeVersion : (cString key.version).take (registryKeyNameLen - 1) = key.version :=
    cString_take_of_fits noNulVersion (Nat.le_of_lt shortVersion)
  rw [keyFromEntry, name, version, wholeName, wholeVersion]

variable {keys : List Key}

lemma mem_readable :
    (key, record) ∈ readable sys r keys ↔ key ∈ keys ∧ readMeta sys r key = .ok record := by
  rw [readable, mem_filterMap]
  constructor
  · rintro ⟨other, mem, found⟩
    cases read : readMeta sys r other with
    | error e =>
      rw [read] at found
      cases found
    | ok candidate =>
      rw [read] at found
      cases found
      exact ⟨mem, read⟩
  · rintro ⟨mem, read⟩
    exact ⟨key, mem, by rw [read]; rfl⟩

lemma resolve_bare_of_newest (listed : listKeys sys r = .ok keys)
    (bare : key.version = []) (isRead : (key, record) ∈ readable sys r keys)
    (newest : ∀ other ∈ readable sys r keys, other.1.name = key.name →
      other.2.installSeq ≤ record.installSeq) : resolve sys r key = .ok (key, record) := by
  obtain ⟨mem, read⟩ := mem_readable.mp isRead
  have sorted := (listKeys_spec listed).choose_spec.2.1
  have self : key = ⟨key.name, []⟩ := by rw [← bare]
  rcases resolve_bare_or listed key.name with ⟨found, other, resolved⟩ | ⟨-, none_⟩
  case inr => exact absurd read (none_ key mem rfl record)
  obtain ⟨among, named, otherRead, most⟩ := resolve_bare_max listed sorted resolved
  rw [← self] at resolved
  by_cases same : key = found
  · subst same
    rw [read] at otherRead
    cases otherRead
    exact resolved
  -- no key of the name sorts before the one without a version
  have least := UInt32.le_iff_toNat_le.mp
    (newest (found, other) (mem_readable.mpr ⟨among, otherRead⟩) named)
  rcases most key record mem rfl read same with less | ⟨-, before⟩
  · exact absurd less (Nat.not_lt.mpr least)
  · rw [keyBefore_asymm (keyBefore_of_bare bare named.symm same)] at before
    cases before

/-- The listed entries can be told apart by the operations on entries: the key fits the fields of
an entry, and an entry without a version is the newest of its name. -/
def Addressable (entries : List (Key × Meta)) (key : Key) (record : Meta) : Prop :=
  FitsEntry key ∧ (key.version = [] → ∀ other ∈ entries, other.1.name = key.name →
    other.2.installSeq ≤ record.installSeq)

/-- For every registry and every entry that a listing returns: if the key it was read from fits
the fields of an entry and, when it has no version, no listed entry of its name is newer, the
operations on the entry act on exactly the stored or resident entry it was read from. -/
theorem listed_entry_acts (r : State σ) (len i : Nat) (item : ListedEntry)
    (listed : (registryRead sys r len).2.1[i]? = some item) :
    ∃ key record, (readFrom sys r)[i]? = some (key, record) ∧
      item = ⟨entryOfKey key, record.size⟩ ∧
      (Addressable (readFrom sys r) key record →
        ActsOn sys (registryRead sys r len).2.2 item.entry key record) := by
  have after : (registryRead sys r len).2.2 = ensureReady sys r := by
    unfold registryRead
    dsimp only
    split <;> rfl
  have ready : (ensureReady sys r).ready = true := by
    unfold ensureReady
    split
    · assumption
    · rfl
  rw [after]
  unfold registryRead at listed
  unfold readFrom
  dsimp only at listed
  cases found : listKeys sys (ensureReady sys r) with
  | error e =>
    rw [found] at listed
    cases listed
  | ok keys =>
    rw [found] at listed
    rw [getElem?_map, Option.map_eq_some_iff] at listed
    obtain ⟨⟨key, record⟩, at_, rfl⟩ := listed
    have pos : (readable sys (ensureReady sys r) keys)[i]? = some (key, record) := by
      rw [getElem?_take] at at_
      split at at_
      · exact at_
      · cases at_
    have isRead := mem_of_getElem? pos
    refine ⟨key, record, pos, rfl, fun addressable => ActsOn.of_resolve ready ?_⟩
    rw [keyFromEntry_entryOfKey addressable.1]
    by_cases bare : key.version = []
    · exact resolve_bare_of_newest found bare isRead (addressable.2 bare)
    · rw [resolve, if_pos bare, (mem_readable.mp isRead).2]
      rfl

/-- A registry with the resident image `app` on which `app:1` was installed. -/
def overlaidRegistry : State PageStore :=
  (registryMachine sample).exec
    (sampleRegistry [⟨⟨ascii "app", []⟩, 0, [1], 0, sampleSha256 [1]⟩])
    (writeAndRelease (ascii "app"))

/-- The listed entry `app:1` is acted on as what it was read from. -/
theorem listed_entry_acts_app :
    (registryRead sample overlaidRegistry 8).2.1[1]? = some ⟨⟨ascii "app", ascii "1"⟩, 1⟩ ∧
    ∃ record, ActsOn sample (registryRead sample overlaidRegistry 8).2.2
      ⟨ascii "app", ascii "1"⟩ ⟨ascii "app", ascii "1"⟩ record := by
  have listed : (registryRead sample overlaidRegistry 8).2.1[1]? =
      some ⟨⟨ascii "app", ascii "1"⟩, 1⟩ := by decide +kernel
  refine ⟨listed, ?_⟩
  obtain ⟨key, record, pos, -, acts⟩ := listed_entry_acts overlaidRegistry 8 1 _ listed
  have read : (readFrom sample overlaidRegistry)[1]?.map Prod.fst =
      some ⟨ascii "app", ascii "1"⟩ := by decide +kernel
  rw [pos, Option.map_some, Option.some.injEq] at read
  obtain rfl : key = ⟨ascii "app", ascii "1"⟩ := read
  exact ⟨record, acts ⟨by decide, fun bare => by cases bare⟩⟩

/-- The first entry of the listing is the resident image, but its record and its bytes are those
of the newer `app:1`. -/
theorem bare_entry_takes_newest : (registryRead sample overlaidRegistry 8).2.1.map (·.entry) =
      [⟨ascii "app", []⟩, ⟨ascii "app", ascii "1"⟩] ∧
    (readFrom sample overlaidRegistry)[0]?.map (fun entry => (entry.1, entry.2.digests)) =
      some (⟨ascii "app", []⟩, [sampleSha256 [1]]) ∧
    (registryMetaRead sample overlaidRegistry ⟨ascii "app", []⟩).1.map (·.digests) =
      .ok [sampleSha256 [7]] := by
  decide +kernel

end WantedEngine.Registry
