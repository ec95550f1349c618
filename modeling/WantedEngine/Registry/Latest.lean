import WantedEngine.Foundation.Recency
import WantedEngine.Registry.RecordLimit
import WantedEngine.Registry.ReadBack
/-!
# A bare name takes the last commit

What a reference without a version should find is said without sequences: the installed entries
are kept in order of their last commit (`recencyOf`), a commit moves its entry to the end, a
removal takes it out, and a bare name means the last entry of that name. The registry has no such
list; it compares the sequences of the records, which it takes from the records themselves after
each start. In every run on listable keys the two agree (`bare_name_takes_latest`), as long as a
record without a sequence does not tie with a resident image. An entry that no listing shows is
not found by its bare name (`bare_name_not_found`).
-/
namespace WantedEngine.Registry

open Foundation Page List Function Option

section Order

variable {σ : Type} (sys : System σ)

/-- The entry of a name that was committed last. -/
def latestOf (order : List Key) (name : Bytes) : Option Key :=
  latest (fun key => key.name = name) order

/-- The entry that a reference means. -/
def meant (order : List Key) (want : Key) : Key :=
  if want.version ≠ [] then want else (latestOf order want.name).getD want

/-- The installed entries in order of their last commit, after an answered request. -/
def advance (order : List Key) (r : State σ) (req : Request) (answer : Answer) : List Key :=
  if answer.succeeds = true then
    match publishes r req with
    | some key => touch key order
    | none =>
      match req with
      | .remove entry => order.erase (meant order (keyFromEntry entry))
      | _ => order
  else order

/-- The registry together with the order of the commits. -/
def recencyMachine : Machine (State σ × List Key) Request Answer :=
  ⟨fun s req =>
    let (answer, r) := serve sys s.1 req
    (answer, r, advance s.2 s.1 req answer)⟩

/-- The installed entries in order of their last commit, after a run. -/
def recencyOf (r : State σ) (order : List Key) (reqs : List Request) : List Key :=
  ((recencyMachine sys).exec (r, order) reqs).2

/-- Keeping the order changes nothing in the registry. -/
lemma recencyMachine_exec (r : State σ) (order : List Key) (reqs : List Request) :
    (recencyMachine sys).exec (r, order) reqs =
      ((registryMachine sys).exec r reqs, recencyOf sys r order reqs) := by
  have first : ((recencyMachine sys).exec (r, order) reqs).1 = (registryMachine sys).exec r reqs := by
    induction reqs generalizing r order with
    | nil => rfl
    | cons req rest ih => exact ih _ _
  rw [← first]
  rfl

end Order

variable {σ ν : Type} [DecidableEq ν] {sys : System σ} {abs : Reading σ ν}

/-! ### Ages -/

/-- The sequence of an installed entry. -/
def sequenceOf (cfg : Config) (abs : Reading σ ν) (records : ν → Option Bytes) (key : Key) : Nat :=
  ((entryOf cfg records (abs.recName key)).map fun record => record.installSeq.toNat).getD 0

/-- An entry is older than another: its sequence is smaller, or the two tie and it comes later in
sort order. -/
def Older (cfg : Config) (abs : Reading σ ν) (records : ν → Option Bytes) (a b : Key) : Prop :=
  sequenceOf cfg abs records a < sequenceOf cfg abs records b ∨
    sequenceOf cfg abs records a = sequenceOf cfg abs records b ∧
      keyBefore b a = true

/-- The order lists the installed entries, each before those it is older than. -/
structure Aged (cfg : Config) (abs : Reading σ ν) (records : ν → Option Bytes)
    (order : List Key) : Prop where
  /-- Every record has the name of a key that a listing shows. -/
  named : ∀ name, (records name).isSome → ∃ key, abs.listable key ∧ abs.recName key = name
  /-- The installed entries are listed. -/
  installed : ∀ key, key ∈ order ↔
    abs.listable key ∧ (entryOf cfg records (abs.recName key)).isSome
  once : order.Nodup
  aged : order.Pairwise (Older cfg abs records)

variable {cfg : Config} {records : ν → Option Bytes} {name : Bytes} {r : State σ}
  {order : List Key} {key : Key} {record : Meta}

lemma listable_inj (laws : Contract sys.ops abs)
    (good : ∀ store ∈ r.stores, abs.good store) {a b : Key} (listableA : abs.listable a)
    (listableB : abs.listable b) (same : abs.recName a = abs.recName b)
    (recorded : (recordsOf abs r.stores (abs.recName a)).isSome) : a = b := by
  have some_ : r.stores ≠ [] := by
    intro empty
    rw [empty] at recorded
    cases recorded
  obtain ⟨_, -, complete, -, once, -⟩ := primaryList_spec laws good some_
  exact inj_on_of_nodup_map once (complete a listableA recorded)
    (complete b listableB (same ▸ recorded)) same

omit [DecidableEq ν] in
lemma Aged.congr {records' : ν → Option Bytes} (known : Aged cfg abs records order)
    (recorded : ∀ name, (records' name).isSome = (records name).isSome)
    (sequences : ∀ name, (entryOf cfg records' name).map (·.installSeq) =
      (entryOf cfg records name).map (·.installSeq)) : Aged cfg abs records' order := by
  have same : ∀ key, sequenceOf cfg abs records' key = sequenceOf cfg abs records key := by
    intro key
    have eq := congrArg (Option.map UInt32.toNat) (sequences (abs.recName key))
    rw [Option.map_map, Option.map_map] at eq
    exact congrArg (Option.getD · 0) eq
  refine ⟨?_, ?_, known.once, ?_⟩
  · intro name isSome
    exact known.named name (recorded name ▸ isSome)
  · intro key
    have isSome := congrArg Option.isSome (sequences (abs.recName key))
    rw [Option.isSome_map, Option.isSome_map] at isSome
    rw [known.installed key, isSome]
  · refine known.aged.imp ?_
    intro a b older
    rw [Older, same, same]
    exact older

/-- A change of one entry's record leaves the entries and the ages of the others. -/
lemma Aged.others (known : Aged cfg abs records order) (apart : ∀ key', abs.listable key' → key' ≠ key →
      abs.recName key' ≠ abs.recName key) (value : Option Bytes) :
    (∀ key', abs.listable key' → key' ≠ key →
      entryOf cfg (update records (abs.recName key) value) (abs.recName key') =
        entryOf cfg records (abs.recName key')) ∧
    (∀ key' ∈ order.erase key,
      sequenceOf cfg abs (update records (abs.recName key) value) key' =
        sequenceOf cfg abs records key') ∧
    (order.erase key).Pairwise (Older cfg abs (update records (abs.recName key) value)) := by
  have entry : ∀ key', abs.listable key' → key' ≠ key →
      entryOf cfg (update records (abs.recName key) value) (abs.recName key') =
        entryOf cfg records (abs.recName key') := by
    intro key' listable differ
    rw [entryOf, update_of_ne (apart key' listable differ), ← entryOf]
  have same : ∀ key' ∈ order.erase key,
      sequenceOf cfg abs (update records (abs.recName key) value) key' =
        sequenceOf cfg abs records key' := by
    intro key' mem
    obtain ⟨differ, isOld⟩ := known.once.mem_erase_iff.mp mem
    rw [sequenceOf, entry key' ((known.installed key').mp isOld).1 differ, ← sequenceOf]
  refine ⟨entry, same, (known.aged.sublist erase_sublist).imp_of_mem ?_⟩
  intro a b memberA memberB older
  rw [Older, same a memberA, same b memberB]
  exact older

variable (laws : Contract sys.ops abs)
include laws

lemma Aged.remove (good : ∀ store ∈ r.stores, abs.good store)
    (known : Aged sys.cfg abs (recordsOf abs r.stores) order)
    (listable : abs.listable key)
    (recorded : (recordsOf abs r.stores (abs.recName key)).isSome) :
    Aged sys.cfg abs
      (Function.update (recordsOf abs r.stores) (abs.recName key) none)
      (order.erase key) := by
  obtain ⟨entry, -, aged⟩ := known.others (fun key' listable' differ same =>
    differ (listable_inj laws good listable listable' same.symm recorded).symm) none
  refine ⟨?_, ?_, known.once.erase key, aged⟩
  · intro name isSome
    exact known.named name (recordNames_removed _ _ isSome)
  intro key'
  rw [known.once.mem_erase_iff, known.installed key']
  constructor
  · rintro ⟨differ, listable', isEntry⟩
    rw [entry key' listable' differ]
    exact ⟨listable', isEntry⟩
  rintro ⟨listable', isEntry⟩
  have differ : key' ≠ key := by
    rintro rfl
    rw [entryOf, update_self] at isEntry
    cases isEntry
  rw [entry key' listable' differ] at isEntry
  exact ⟨differ, listable', isEntry⟩

lemma Aged.commit {after : State σ} (good : ∀ store ∈ after.stores, abs.good store)
    (known : Aged sys.cfg abs records order) {bytes : Bytes}
    (listable : abs.listable key)
    (encoded : registryRecordEncode sys.cfg record = some bytes)
    (put : recordsOf abs after.stores = Function.update records (abs.recName key) (some bytes))
    (newest : ∀ other old, abs.listable other →
      entryOf sys.cfg records (abs.recName other) = some old →
        old.installSeq.toNat < record.installSeq.toNat) :
    Aged sys.cfg abs (recordsOf abs after.stores) (touch key order) := by
  have found : recordsOf abs after.stores (abs.recName key) = some bytes := by
    rw [put, update_self]
  have isEntry := entryOf_of_encode encoded found
  obtain ⟨entry, same, aged⟩ := known.others (fun key' listable' differ same =>
    differ (listable_inj laws good listable listable' same.symm
      (isSome_of_eq_some found)).symm) (some bytes)
  rw [← put] at entry same aged
  refine ⟨?_, ?_, touch_nodup known.once, touch_pairwise aged ?_⟩
  · intro name isSome
    by_cases isKey : name = abs.recName key
    · exact ⟨key, listable, isKey.symm⟩
    · rw [put, update_of_ne isKey] at isSome
      exact known.named name isSome
  · intro key'
    rw [mem_touch]
    by_cases isKey : key' = key
    · rw [isKey, isEntry]
      simp [listable]
    rw [known.installed key', or_iff_right isKey]
    refine and_congr_right ?_
    intro listable'
    rw [entry key' listable' isKey]
  · intro other mem
    left
    rw [same other mem]
    obtain ⟨-, isOld⟩ := known.once.mem_erase_iff.mp mem
    obtain ⟨listable', isSome⟩ := (known.installed other).mp isOld
    obtain ⟨old, read⟩ := isSome_iff_exists.mp isSome
    rw [sequenceOf, sequenceOf, read, isEntry]
    exact newest other old listable' read

/-! ### Resolution -/

variable (good : ∀ store ∈ r.stores, abs.good store) (some_ : r.stores ≠ []) (named : ∀ name, (recordsOf abs r.stores name).isSome → ∃ key, abs.listable key ∧ abs.recName key = name)
include good some_ named

lemma primaryList_all : ∃ stored, primaryList sys r = .ok stored ∧ stored.Nodup ∧
      (∀ key, key ∈ stored ↔ abs.listable key ∧ (recordsOf abs r.stores (abs.recName key)).isSome) ∧
      ∀ names : List ν, (∀ name, (recordsOf abs r.stores name).isSome → name ∈ names) →
        stored.length ≤ names.length := by
  obtain ⟨stored, listed, complete, present, once, short⟩ := primaryList_spec laws good some_
  refine ⟨stored, listed, once.of_map _, ?_, short⟩
  intro key
  constructor
  · -- a key of the listing is the listable key of its record
    intro mem
    obtain ⟨other, listable, same⟩ := named _ (present key mem)
    have isOther := complete other listable (same ▸ present key mem)
    have eq := inj_on_of_nodup_map once isOther mem same
    exact ⟨eq ▸ listable, present key mem⟩
  · intro recorded
    exact complete key recorded.1 recorded.2

omit named

lemma listKeys_all (few : (recordNames (recordsOf abs r.stores)).encard ≤ registryMaxEntries)
    (named : ∀ name, (recordsOf abs r.stores name).isSome →
      ∃ key, abs.listable key ∧ abs.recName key = name) :
    ∃ keys, listKeys sys r = .ok keys ∧ SortedKeys keys ∧
      ∀ key, key ∈ keys ↔
        (abs.listable key ∧ (recordsOf abs r.stores (abs.recName key)).isSome) ∨
          ∃ image ∈ r.resident, image.key = key := by
  obtain ⟨stored, listed, -, recorded, short⟩ := primaryList_all laws good some_ named
  have ok : listKeys sys r =
      .ok (sortKeys (addResidentKeys r.resident (stored.take registryMaxEntries))) := by
    rw [listKeys, listed]
  obtain ⟨_, listed', sorted, members, -⟩ := listKeys_spec ok
  rw [listed] at listed'
  cases listed'
  obtain ⟨names, cover, length⟩ := cover_of_encard few
  have within := Nat.le_trans (short names cover) length
  refine ⟨_, ok, sorted, ?_⟩
  intro key
  rw [members key, take_of_length_le within, recorded key]

omit some_ good laws

/-- The state of a registry whose listings are complete: no more records than are enumerated, and
resident images under keys that a listing shows. -/
structure Orderly (abs : Reading σ ν) (r : State σ) : Prop where
  /-- The store has no more records than the registry enumerates. -/
  few : (recordNames (recordsOf abs r.stores)).encard ≤ registryMaxEntries
  /-- The resident images have keys that a listing shows. -/
  residents : ∀ image ∈ r.resident, abs.listable image.key

include laws

lemma Orderly.start (sound : Sound sys abs False r) (orderly : Orderly abs r)
    : Orderly abs (ensureReady sys r) := by
  obtain ⟨start, -⟩ := ensureReady_continues laws sound
  refine ⟨?_, ?_⟩
  · rw [start.records_eq laws sound]
    exact orderly.few
  · rw [start.resident]
    exact orderly.residents

/-- An entry that is found and has a record is the latest of its name. -/
lemma latestOf_of_resolve (good : ∀ store ∈ r.stores, abs.good store) (some_ : r.stores ≠ [])
    (orderly : Orderly abs r)
    (known : Aged sys.cfg abs (recordsOf abs r.stores) order)
    (resolved : resolve sys r ⟨name, []⟩ = .ok (key, record))
    (installed : entryOf sys.cfg (recordsOf abs r.stores) (abs.recName key) =
      some record) : abs.listable key ∧ latestOf order name = some key := by
  obtain ⟨keys, listed, sorted, members⟩ :=
    listKeys_all laws good some_ orderly.few known.named
  obtain ⟨mem, named, -, newest⟩ := resolve_bare_max listed sorted resolved
  have listable : abs.listable key := by
    rcases (members key).mp mem with stored | ⟨image, isImage, rfl⟩
    · exact stored.1
    · exact orderly.residents image isImage
  have isKnown := (known.installed key).mpr ⟨listable, isSome_of_eq_some installed⟩
  refine ⟨listable, latest_of_newest known.aged isKnown (by simpa using named) ?_⟩
  intro other isOther otherNamed differ older
  obtain ⟨otherListable, isEntry⟩ := (known.installed other).mp isOther
  obtain ⟨old, found⟩ := isSome_iff_exists.mp isEntry
  have among := (members other).mpr (.inl ⟨otherListable, entryOf_isSome found⟩)
  have read := (readMeta_of_entryOf laws good found).1
  have first := newest other old among (by simpa using otherNamed) read differ
  rw [Older, sequenceOf, sequenceOf, installed, found] at older
  simp only [map_some, getD_some] at older
  rcases first with less | ⟨_, isBefore⟩
  · omega
  rcases older with less | ⟨-, isAfter⟩
  · omega
  · rw [keyBefore_asymm isBefore] at isAfter
    cases isAfter

omit laws

/-- A resident image that its reference is read as. -/
def Shown (sys : System σ) (r : State σ) (name : Bytes) (image : Resident) : Prop :=
  image ∈ r.resident ∧ image.key.name = name ∧ residentOnly sys r image.key = true

/-- What a bare name should resolve to: the entry of the name that was committed last; where none
is installed, the first in sort order of the resident images. -/
structure TakesLatest (sys : System σ) (abs : Reading σ ν) (r : State σ) (order : List Key)
    (name : Bytes) : Prop where
  /-- An installed entry of the name is found before any resident image: the one that was
  committed last, with its record. -/
  installed : ∀ key, latestOf order name = some key → ∃ record,
    entryOf sys.cfg (recordsOf abs r.stores) (abs.recName key) = some record ∧
      resolve sys r ⟨name, []⟩ = .ok (key, record)
  /-- Among installed entries of one sequence the first in sort order is found. -/
  tie : ∀ key other, latestOf order name = some key → other ∈ order → other.name = name →
    other ≠ key →
    sequenceOf sys.cfg abs (recordsOf abs r.stores) other =
      sequenceOf sys.cfg abs (recordsOf abs r.stores) key → keyBefore key other = true
  /-- Without an installed entry of the name a resident image is found, the first in sort order;
  without one of those, nothing. -/
  resident : latestOf order name = none →
    (resolve sys r ⟨name, []⟩ = .error .enoent ∧ ∀ image, ¬ Shown sys r name image) ∨
      ∃ key image, resolve sys r ⟨name, []⟩ = .ok (key, residentMeta image) ∧
        residentFind r key = some image ∧ Shown sys r name image ∧
        ∀ other, Shown sys r name other → other.key ≠ key → keyBefore key other.key = true

/-- An entry without a sequence comes before the resident images of its name. -/
def SortsFirst (sys : System σ) (abs : Reading σ ν) (r : State σ) (order : List Key)
    (name : Bytes) : Prop :=
  ∀ key, latestOf order name = some key →
    sequenceOf sys.cfg abs (recordsOf abs r.stores) key = 0 →
    ∀ image, Shown sys r name image → keyBefore key image.key = true

variable {req : Request} {image : Resident}

/-- A resident image that is shown is read as itself. -/
lemma Shown.read (shown : Shown sys r name image) : ∃ found, residentFind r image.key = some found ∧
      readMeta sys r image.key = .ok (residentMeta found) := by
  have only := shown.2.2
  rw [residentOnly, Bool.and_eq_true] at only
  obtain ⟨found, isFound⟩ := isSome_iff_exists.mp only.1
  refine ⟨found, isFound, ?_⟩
  rw [readMeta]
  cases got : primaryGet sys r image.key with
  | ok bytes =>
    rw [got] at only
    cases only.2
  | error e =>
    rw [isFound]

lemma shown_of_find (found : residentFind r key = some image)
    (named : key.name = name) (only : residentOnly sys r key = true) :
    Shown sys r name image ∧ image.key = key := by
  have same : image.key = key := by simpa using find?_some found
  exact ⟨⟨mem_of_find?_eq_some found, same ▸ named, same ▸ only⟩, same⟩

include laws

lemma takesLatest_of_aged (good : ∀ store ∈ r.stores, abs.good store) (some_ : r.stores ≠ [])
    (orderly : Orderly abs r)
    (known : Aged sys.cfg abs (recordsOf abs r.stores) order)
    (first : SortsFirst sys abs r order name) : TakesLatest sys abs r order name := by
  obtain ⟨keys, listed, sorted, members⟩ :=
    listKeys_all laws good some_ orderly.few known.named
  have shownKey : ∀ image, Shown sys r name image → image.key ∈ keys :=
    fun image shown => (members image.key).mpr (.inr ⟨image, shown.1, rfl⟩)
  refine ⟨?_, ?_, ?_⟩
  · intro key isLatest
    have isKnown := mem_of_latest isLatest
    have named : key.name = name := by simpa using (latest_eq_some isLatest).1
    obtain ⟨listable, isEntry⟩ := (known.installed key).mp isKnown
    obtain ⟨record, installed⟩ := isSome_iff_exists.mp isEntry
    have read := (readMeta_of_entryOf laws good installed).1
    have among := (members key).mpr (.inl ⟨listable, entryOf_isSome installed⟩)
    rcases resolve_bare_or listed name with ⟨found, other, resolved⟩ | ⟨-, none_⟩
    case inr => exact absurd read (none_ key among named record)
    obtain ⟨-, foundNamed, foundRead, newest⟩ := resolve_bare_max listed sorted resolved
    rcases readMeta_entryOf laws good foundRead with isInstalled | ⟨image, isFound, rfl, only⟩
    · have latest' := (latestOf_of_resolve laws good some_ orderly known resolved isInstalled).2
      rw [isLatest] at latest'
      cases latest'
      exact ⟨other, isInstalled, resolved⟩
    -- the resident image would come before the entry, which has no sequence either
    obtain ⟨shown, same⟩ := shown_of_find isFound foundNamed only
    have notResident := (readMeta_of_entryOf laws good installed).2
    have differ : key ≠ found := by
      rintro rfl
      rw [notResident] at only
      cases only
    have zero : (residentMeta image).installSeq.toNat = 0 := rfl
    rcases newest key record among named read differ with less | ⟨none_, isBefore⟩
    · rw [zero] at less
      cases less
    have unsequenced : sequenceOf sys.cfg abs (recordsOf abs r.stores) key = 0 := by
      rw [sequenceOf, installed]
      exact none_.trans zero
    have isFirst := first key isLatest unsequenced image shown
    rw [same, keyBefore_asymm isBefore] at isFirst
    cases isFirst
  · intro key other isLatest isOther named differ same
    obtain ⟨-, before, _, split, none_⟩ := latest_eq_some isLatest
    have early : other ∈ before := by
      rw [split, mem_append, mem_cons] at isOther
      rcases isOther with early | isKey | late
      · exact early
      · exact absurd isKey differ
      · have failed := none_ other late
        simp [named] at failed
    have aged := known.aged
    rw [split, pairwise_append] at aged
    rcases aged.2.2 other early key mem_cons_self with less | ⟨-, isBefore⟩
    · rw [same] at less
      exact absurd less (Nat.lt_irrefl _)
    · exact isBefore
  · intro none_
    rcases resolve_bare_or listed name with ⟨found, record, resolved⟩ | ⟨missing, unread⟩
    · right
      obtain ⟨-, foundNamed, foundRead, newest⟩ := resolve_bare_max listed sorted resolved
      rcases readMeta_entryOf laws good foundRead with isInstalled | ⟨image, isFound, rfl, only⟩
      · have isLatest := (latestOf_of_resolve laws good some_ orderly known resolved isInstalled).2
        rw [none_] at isLatest
        cases isLatest
      refine ⟨found, image, resolved, isFound, (shown_of_find isFound foundNamed only).1, ?_⟩
      intro other shown differ
      obtain ⟨_, -, read⟩ := shown.read
      rcases newest other.key _ (shownKey other shown) shown.2.1 read differ with
        less | ⟨-, isBefore⟩
      · exact absurd less (Nat.not_lt_zero _)
      · exact isBefore
    · left
      refine ⟨missing, ?_⟩
      intro image shown
      obtain ⟨found, -, read⟩ := shown.read
      exact unread image.key (shownKey image shown) shown.2.1 _ read

/-! ### Runs -/

lemma serve_ne_nil (sound : Sound sys abs False r) (some_ : r.stores ≠ []) (req : Request)
    : (serve sys r req).2.stores ≠ [] := by
  cases fixed : changesResidents req with
  | false =>
    obtain ⟨_, -, steps⟩ := (serve_operates laws sound ⟨fixed, nofun⟩).steps
    exact steps.ne_nil some_
  | true =>
    obtain ⟨_, same⟩ := serve_residents sys r fixed
    rw [same]
    exact some_

omit laws

/-- The next sequence does not wrap. -/
def Unwrapped (sys : System σ) (abs : Reading σ ν) (r : State σ) : Prop :=
  r.seq.toNat + 1 < 2 ^ 32 ∧
    ∀ name old, entryOf sys.cfg (recordsOf abs r.stores) name = some old →
      old.installSeq.toNat + 1 < 2 ^ 32

/-- A request of a run whose entries can all be listed. -/
structure Steady (sys : System σ) (abs : Reading σ ν) (r : State σ) (req : Request) : Prop where
  /-- The listings of the registry are complete. -/
  orderly : Orderly abs r
  /-- What is published has a key that a listing shows, and the sequence does not wrap. -/
  published : ∀ key, publishes r req = some key → abs.listable key ∧ Unwrapped sys abs r
  /-- What is removed by name and version has a key that a listing shows. -/
  removed : ∀ entry, req = .remove entry → (keyFromEntry entry).version ≠ [] →
    abs.listable (keyFromEntry entry)

/-- A commit that does not wrap takes a sequence above those of all the entries. -/
lemma Committed.newest_toNat {records' : ν → Option Bytes}
    (commit : Committed sys abs (recordsOf abs r.stores) r.resident r.seq key record
      records') (few : (recordNames (recordsOf abs r.stores)).encard ≤ registryMaxEntries)
    (unwrapped : Unwrapped sys abs r) :
    ∀ other old, abs.listable other →
      entryOf sys.cfg (recordsOf abs r.stores) (abs.recName other) = some old →
        old.installSeq.toNat < record.installSeq.toNat := by
  intro other old listable installed
  obtain ⟨seq, next, source, newest⟩ := commit.newest
  obtain ⟨names, cover, length⟩ := cover_of_encard few
  have most := newest names length cover other old listable installed
  have small : seq.toNat + 1 < 2 ^ 32 := by
    rcases source with rfl | rfl | ⟨name, known, isKnown, rfl⟩
    · exact unwrapped.1
    · decide
    · exact unwrapped.2 name known isKnown
  have exact_ : record.installSeq.toNat = seq.toNat + 1 := by
    rw [next]
    exact Nat.mod_eq_of_lt small
  have le := UInt32.le_iff_toNat_le.mp most
  omega

lemma serve_aged (laws : Contract sys.ops abs) (sound : Sound sys abs False r)
    (some_ : r.stores ≠ []) (known : Aged sys.cfg abs (recordsOf abs r.stores) order)
    (steady : Steady sys abs r req) :
    Aged sys.cfg abs (recordsOf abs (serve sys r req).2.stores)
      (advance order r req (serve sys r req).1) := by
  have changes := serve_changes laws sound req
  have after := (serve_loose laws sound req).stores.good
  generalize answered : (serve sys r req).1 = answer at changes
  cases changes with
  | kept same refused =>
    have unchanged : advance order r req answer = order := by
      unfold advance
      split
      · rename_i succeeds
        obtain ⟨quiet, notRemoval⟩ := refused succeeds
        rw [quiet]
        cases req <;> first | rfl | cases notRemoval
      · rfl
    rw [unchanged, same]
    exact known
  | removed entry key record isRemoval succeeds resolved installed gone =>
    subst isRemoval
    obtain ⟨start, -⟩ := ensureReady_continues laws sound
    have records := start.records_eq laws sound
    -- the entry meant is the one that was resolved
    have isMeant : abs.listable key ∧ meant order (keyFromEntry entry) = key := by
      by_cases versioned : (keyFromEntry entry).version ≠ []
      · rw [meant, if_pos versioned, (resolve_reads resolved).2.2 versioned]
        exact ⟨steady.removed entry rfl versioned, rfl⟩
      have bare : keyFromEntry entry = ⟨(keyFromEntry entry).name, []⟩ := by
        rw [← not_not.mp versioned]
      rw [bare] at resolved
      have found := latestOf_of_resolve laws start.sound.stores.good
        (start.steps.ne_nil some_) (steady.orderly.start laws sound) (records ▸ known)
        resolved (records ▸ installed)
      rw [meant, if_neg versioned, found.2]
      exact ⟨found.1, rfl⟩
    have erased : advance order r (.remove entry) answer = order.erase key := by
      rw [advance, if_pos succeeds, ← isMeant.2]
      rfl
    have recorded := entryOf_isSome installed
    rw [erased, gone]
    exact known.remove laws sound.stores.good isMeant.1 recorded
  | rewritten key old changed bytes quiet installed sequence_eq _ encoded put =>
    have unchanged : advance order r req answer = order := by
      unfold advance
      rw [quiet.1]
      have notRemoval := quiet.2
      cases req <;> first | exact ite_self _ | cases notRemoval
    rw [unchanged]
    have found : recordsOf abs (serve sys r req).2.stores (abs.recName key) =
        some bytes := by rw [put, update_self]
    have recorded := entryOf_isSome installed
    refine known.congr ?_ ?_
    · intro name
      by_cases same : name = abs.recName key
      · rw [same, found, recorded]
        rfl
      · rw [put, update_of_ne same]
    · intro name
      by_cases same : name = abs.recName key
      · rw [same, entryOf_of_encode encoded found, installed, map_some, map_some, sequence_eq]
      · rw [entryOf, put, update_of_ne same, ← entryOf]
  | committed key record published succeeds commit =>
    obtain ⟨listable, unwrapped⟩ := steady.published key published
    obtain ⟨bytes, encoded, put⟩ := commit.put
    have moved : advance order r req answer = touch key order := by
      unfold advance
      simp only [if_pos succeeds, published]
    rw [moved]
    exact known.commit laws after listable encoded put
      (commit.newest_toNat steady.orderly.few unwrapped)

/-- In every run on keys that a listing shows, from an order of the entries by sequence, a bare name
resolves to the entry of the name that was committed last. -/
theorem bare_name_takes_latest (laws : Contract sys.ops abs) {r : State σ}
    (sound : Sound sys abs False r) (some_ : r.stores ≠ []) {order : List Key}
    (known : Aged sys.cfg abs (recordsOf abs r.stores) order)
    (reqs : List Request)
    (steady : (registryMachine sys).Obeys (Steady sys abs) r reqs)
    (orderly : Orderly abs ((registryMachine sys).exec r reqs)) (name : Bytes)
    (first : SortsFirst sys abs (ensureReady sys ((registryMachine sys).exec r reqs))
      (recencyOf sys r order reqs) name) :
    TakesLatest sys abs (ensureReady sys ((registryMachine sys).exec r reqs))
      (recencyOf sys r order reqs) name := by
  have obeyed : (recencyMachine sys).Obeys (fun s req => Steady sys abs s.1 req) (r, order) reqs := by
    clear known orderly first sound some_
    induction reqs generalizing r order with
    | nil => trivial
    | cons req rest ih => exact ⟨steady.1, ih steady.2⟩
  have run := (recencyMachine sys).exec_invariant
    (fun s => Sound sys abs False s.1 ∧ s.1.stores ≠ [] ∧
      Aged sys.cfg abs (recordsOf abs s.1.stores) s.2)
    (fun s req before steady => ⟨serve_loose laws before.1 req,
      serve_ne_nil laws before.1 before.2.1 req,
      serve_aged laws before.1 before.2.1 before.2.2 steady⟩)
    (s := (r, order)) ⟨sound, some_, known⟩ obeyed
  rw [recencyMachine_exec] at run
  obtain ⟨soundAfter, someAfter, knownAfter⟩ := run
  obtain ⟨start, -⟩ := ensureReady_continues laws soundAfter
  have records := start.records_eq laws soundAfter
  exact takesLatest_of_aged laws start.sound.stores.good (start.steps.ne_nil someAfter)
    (orderly.start laws soundAfter) (records ▸ knownAfter) first

/-! ### On the page store -/

/-- The resident image of `app:0`. -/
def oldFirmwareApp : Resident := ⟨⟨ascii "app", ascii "0"⟩, 0, [1], 0, sampleSha256 [1]⟩

/-- Two versions are installed, the higher one first, the device is reset, the later one is
replaced and a third is installed and removed by its bare name. -/
def versionsRun : List Request :=
  installOf (ascii "app:2") ++ installOf (ascii "app:1") ++ [.powerCycle] ++
    installOf (ascii "app:1") ++ installOf (ascii "app:3") ++ [.remove ⟨ascii "app", []⟩]

def removedRef : Request → Option Key
  | .remove entry => some (keyFromEntry entry)
  | _ => none

/-- What a request of the run must meet, as a test. -/
def PageSteady (r : State PageStore) (req : Request) : Prop :=
  (∃ s ∈ r.stores.head?, s.disk.entries.keys.length ≤ registryMaxEntries ∧
    ∀ file ∈ s.disk.entries.entries, ∀ record ∈ registryRecordDecode sample.cfg file.2,
      record.installSeq.toNat + 1 < 2 ^ 32) ∧
  (∀ image ∈ r.resident, Listable image.key) ∧ r.seq.toNat + 1 < 2 ^ 32 ∧
  (∀ key ∈ publishes r req, Listable key) ∧ ∀ key ∈ removedRef req, key.version = []

instance (r : State PageStore) (req : Request) : Decidable (PageSteady r req) :=
  inferInstanceAs (Decidable (_ ∧ _ ∧ _ ∧ _ ∧ _))

/-- A request that passes the test meets the theorem's condition. -/
lemma steady_of_page {r : State PageStore} (passed : PageSteady r req) : Steady sample wide r req := by
  obtain ⟨⟨s, isHead, few, sequences⟩, residents, seq, published, removed⟩ := passed
  cases stores : r.stores with
  | nil =>
    rw [stores] at isHead
    cases isHead
  | cons head others =>
    rw [stores] at isHead
    cases isHead
    refine ⟨⟨?_, residents⟩, ?_, ?_⟩
    · rw [stores, pageRecords_encard]
      exact_mod_cast few
    · intro key isKey
      refine ⟨published key isKey, seq, ?_⟩
      intro name old installed
      rw [stores, entryOf, bind_eq_some_iff] at installed
      obtain ⟨bytes, found, decoded⟩ := installed
      split at decoded
      · have onDisk : ∃ file, name = some file ∧ s.disk.entries.lookup file = some bytes := by
          cases name with
          | none => cases found
          | some file => exact ⟨file, rfl, found⟩
        obtain ⟨file, -, isFile⟩ := onDisk
        exact sequences ⟨file, bytes⟩ (AList.mem_lookup_iff.mp isFile) old decoded
      · cases decoded
    · intro entry isRemoval versioned
      subst isRemoval
      exact absurd (removed _ rfl) versioned

lemma emptyStore_aged : Aged sample.cfg wide (recordsOf wide [emptyStore]) [] := by
  refine ⟨?_, ?_, nodup_nil, List.Pairwise.nil⟩
  · intro name isSome
    rw [emptyStore_records] at isSome
    cases isSome
  · intro key
    simp [entryOf, emptyStore_records]

/-- The run meets the theorem's conditions: `app` is `app:1`, committed after `app:2` and again
after the reset, and not `app:3`, which was removed, or the resident image. -/
theorem bare_name_takes_latest_app :
    latestOf (recencyOf sample (sampleRegistry [oldFirmwareApp]) [] versionsRun)
      (ascii "app") = some ⟨ascii "app", ascii "1"⟩ ∧
    TakesLatest sample wide
      (ensureReady sample ((registryMachine sample).exec (sampleRegistry [oldFirmwareApp]) versionsRun))
      (recencyOf sample (sampleRegistry [oldFirmwareApp]) [] versionsRun) (ascii "app") := by
  have sound := sampleRegistry_sound False [oldFirmwareApp]
  have passed : (registryMachine sample).Obeys PageSteady
      (sampleRegistry [oldFirmwareApp]) versionsRun := by decide +kernel
  have last : PageSteady ((registryMachine sample).exec
      (sampleRegistry [oldFirmwareApp]) versionsRun) .init := by decide +kernel
  have isLatest : latestOf (recencyOf sample (sampleRegistry [oldFirmwareApp]) [] versionsRun)
      (ascii "app") = some ⟨ascii "app", ascii "1"⟩ := by decide +kernel
  have sequenced : sequenceOf sample.cfg wide
      (recordsOf wide (ensureReady sample
        (sampleAfter [oldFirmwareApp]
          versionsRun)).stores) ⟨ascii "app", ascii "1"⟩ = 3 := by decide +kernel
  refine ⟨isLatest, bare_name_takes_latest sampleContract sound (cons_ne_nil _ _) emptyStore_aged
    versionsRun (passed.mono fun _ _ => steady_of_page) (steady_of_page last).orderly _ ?_⟩
  intro key isKey zero
  rw [isLatest] at isKey
  cases isKey
  rw [sequenced] at zero
  cases zero

/-- `_app:1` is installed and found by its version, but its bare name finds nothing: no listing
names its record. -/
theorem bare_name_not_found :
    latestOf (recencyOf sample (sampleRegistry []) [] (installOf (ascii "_app:1")))
      (ascii "_app") = some ⟨ascii "_app", ascii "1"⟩ ∧
    succeeded (resolve sample (ensureReady sample ((registryMachine sample).exec
      (sampleRegistry []) (installOf (ascii "_app:1")))) ⟨ascii "_app", ascii "1"⟩) = true ∧
    succeeded (resolve sample (ensureReady sample ((registryMachine sample).exec
      (sampleRegistry []) (installOf (ascii "_app:1")))) ⟨ascii "_app", []⟩) = false := by
  decide +kernel

end WantedEngine.Registry
