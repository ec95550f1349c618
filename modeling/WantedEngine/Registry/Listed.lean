import WantedEngine.Registry.InstallRef
import WantedEngine.Registry.RecordLimit
/-!
# Installed entries and listings

An install that succeeds should be listed by `RegistryRead`, at once and after a restart. What a
listing shows of the records depends on the store: the page store skips the files whose names start
with an underscore, the file store skips none (`Shows`). And it is cut after
`REGISTRY_MAX_ENTRIES` records, in the order in which the host names the files of a directory, so
that an entry is sure to be listed only when there are fewer others (`stays_listed_iff`).
-/
namespace WantedEngine.Registry

open Foundation Page List Function List

section Listings

variable {σ ν : Type} {dec : DecidableEq ν} {sys : System σ} {abs : Reading σ ν}

/-- `RegistryRead` lists the entry of a key, under its name and version. -/
def ListedAs (sys : System σ) (r : State σ) (key : Key) : Prop :=
  ∃ pos record, (readFrom sys r)[pos]? = some (key, record) ∧
    ∀ len, pos < len →
      (registryRead sys r len).2.1[pos]? = some ⟨⟨key.name, key.version⟩, record.size⟩

/-- Stores with the same content, which the host may list in another order. -/
def SameContent (abs : Reading σ ν) : List σ → List σ → Prop :=
  List.Forall₂ fun s s' => abs.Becomes s s' (abs.view s)

/-- The entry of a key is listed, now and after a restart, in whatever order the host names the
files of the stores. -/
def StaysListed (sys : System σ) (abs : Reading σ ν) (r : State σ) (key : Key) : Prop :=
  ∀ stores, SameContent abs r.stores stores →
    ListedAs sys { r with stores } key ∧ ListedAs sys (powerCycle sys { r with stores }) key

def shownOthers (abs : Reading σ ν) (records : ν → Option Bytes) (key : Key) : Set Key :=
  {other | other ≠ key ∧ abs.listable other ∧ (records (abs.recName other)).isSome}

/-- What a listing of a store shows, beyond its contract: only listable keys, of which no two share
a record, and in an order in which any key may be the last or the first. -/
structure Shows (ops : StoreOps σ) (abs : Reading σ ν) : Prop where
  /-- Every key of a listing is listable. -/
  only : ∀ {s keys}, ops.recList s = .ok keys → ∀ key ∈ keys, abs.listable key
  /-- Two listable keys have two records. -/
  apart : ∀ {a b}, abs.listable a → abs.listable b →
    abs.recName a = abs.recName b → a = b
  /-- The host may name the file of a key after all others. -/
  last : ∀ {s} key, abs.good s → ∃ s' front count, abs.Becomes s s' (abs.view s) ∧
    ops.recList s' = .ok (front ++ List.replicate count key) ∧ key ∉ front
  /-- It may name it before all others. -/
  first : ∀ {s} key, abs.good s → ∃ s' back count, abs.Becomes s s' (abs.view s) ∧
    ops.recList s' = .ok (List.replicate count key ++ back) ∧ key ∉ back

/-! ### What `RegistryRead` returns -/

variable {r : State σ} {key : Key} {stored : List Key} {stores : List σ} {req : Request}

/-- A key that fits the fields of an entry is listed when it is among the keys and is read. -/
lemma listedAs_iff (fits : FitsEntry key) :
    ListedAs sys r key ↔ ∃ record, (key, record) ∈ readFrom sys r := by
  constructor
  · rintro ⟨pos, record, isAt, -⟩
    exact ⟨record, mem_of_getElem? isAt⟩
  rintro ⟨record, mem⟩
  obtain ⟨pos, isAt⟩ := getElem?_of_mem mem
  refine ⟨pos, record, isAt, fun len room => ?_⟩
  unfold readFrom at isAt
  unfold registryRead
  dsimp only
  cases found : listKeys sys (ensureReady sys r) with
  | error e =>
    rw [found] at isAt
    cases isAt
  | ok keys =>
    rw [found] at isAt
    rw [getElem?_map, getElem?_take_of_lt room, isAt, Option.map_some, entryOfKey_of_fits fits]

lemma listedAs_read (fits : FitsEntry key) {record : Meta}
    (read : readMeta sys (ensureReady sys r) key = .ok record)
    (listed : primaryList sys (ensureReady sys r) = .ok stored) :
    ListedAs sys r key ↔ key ∈ stored.take registryMaxEntries ∨
      ∃ image ∈ (ensureReady sys r).resident, image.key = key := by
  have found : listKeys sys (ensureReady sys r) =
      .ok (sortKeys (addResidentKeys (ensureReady sys r).resident
        (stored.take registryMaxEntries))) := by
    rw [listKeys, listed]
  rw [listedAs_iff fits, readFrom, found]
  constructor
  · rintro ⟨_, mem⟩
    have among := (mem_readable.mp mem).1
    rwa [(sortKeys_perm _).mem_iff, mem_addResidentKeys] at among
  · intro among
    refine ⟨record, mem_readable.mpr ⟨?_, read⟩⟩
    rwa [(sortKeys_perm _).mem_iff, mem_addResidentKeys]

lemma listedAs_installed (laws : Contract sys.ops abs) (sound : Sound sys abs False r)
    (fits : FitsEntry key) {record : Meta}
    (installed : entryOf sys.cfg (recordsOf abs r.stores) (abs.recName key) =
      some record) (listed : primaryList sys (ensureReady sys r) = .ok stored) :
    ListedAs sys r key ↔
      key ∈ stored.take registryMaxEntries ∨ ∃ image ∈ r.resident, image.key = key := by
  obtain ⟨start, -⟩ := ensureReady_continues laws sound
  rw [← start.records_eq laws sound] at installed
  have read := (readMeta_of_entryOf laws start.sound.stores.good installed).1
  rw [listedAs_read fits read listed, start.resident]

/-! ### Counting the records that a listing shows -/

lemma encard_of_nodup {keys : List Key} (once : keys.Nodup) :
    {key | key ∈ keys}.encard = keys.length := by
  rw [← coe_toFinset, Set.encard_coe_eq_coe_finsetCard, toFinset_card_of_nodup once]

variable (laws : Contract sys.ops abs)
include laws

lemma mem_take_of_room (shows : Shows sys.ops abs)
    (good : ∀ store ∈ r.stores, abs.good store) (listable : abs.listable key)
    (present : (recordsOf abs r.stores (abs.recName key)).isSome)
    (room : (shownOthers abs (recordsOf abs r.stores) key).encard < registryMaxEntries)
    (listed : primaryList sys r = .ok stored) : key ∈ stored.take registryMaxEntries := by
  cases stores : r.stores with
  | nil =>
    rw [stores] at present
    cases present
  | cons p others =>
    have some_ : r.stores ≠ [] := by
      rw [stores]
      exact cons_ne_nil _ _
    obtain ⟨_, found, complete, exists_, apart, -⟩ := primaryList_spec laws good some_
    rw [listed] at found
    cases found
    have once : stored.Nodup := .of_map _ apart
    have mem := complete key listable present
    have recList : sys.ops.recList p = .ok stored := by
      rw [primaryList, stores] at listed
      exact listed
    have within : {other | other ∈ stored.erase key} ⊆
        shownOthers abs (recordsOf abs r.stores) key := by
      intro other isOther
      obtain ⟨differs, isKey⟩ := once.mem_erase_iff.mp isOther
      exact ⟨differs, shows.only recList other isKey, exists_ other isKey⟩
    have few : ((stored.erase key).length : ℕ∞) < registryMaxEntries := by
      rw [← encard_of_nodup (once.erase key)]
      exact (Set.encard_le_encard within).trans_lt room
    have short : stored.length ≤ registryMaxEntries := by
      have fewer : (stored.erase key).length < registryMaxEntries := by exact_mod_cast few
      rw [length_erase_of_mem mem] at fewer
      omega
    rwa [take_of_length_le short]

lemma notMem_take_of_full (good : ∀ store ∈ r.stores, abs.good store)
    (full : ¬ (shownOthers abs (recordsOf abs r.stores) key).encard < registryMaxEntries)
    {front : List Key} {count : Nat}
    (listed : primaryList sys r = .ok (front ++ replicate count key)) (absent : key ∉ front)
    (some_ : r.stores ≠ []) :
    key ∉ (front ++ replicate count key).take registryMaxEntries := by
  obtain ⟨_, found, complete, -⟩ := primaryList_spec laws good some_
  rw [listed] at found
  cases found
  have within : shownOthers abs (recordsOf abs r.stores) key ⊆ {other | other ∈ front} := by
    rintro other ⟨differs, listable, present⟩
    rcases mem_append.mp (complete other listable present) with inFront | isKey
    · exact inFront
    · exact absurd (eq_of_mem_replicate isKey) differs
  have most : {other | other ∈ front}.encard ≤ front.length := by
    rw [← coe_toFinset]
    exact_mod_cast toFinset_card_le front
  have long : registryMaxEntries ≤ front.length := by
    have enough := (not_lt.mp full).trans ((Set.encard_le_encard within).trans most)
    exact_mod_cast enough
  rw [take_append_of_le_length long]
  exact fun mem => absent (mem_of_mem_take mem)

omit laws

/-! ### Stores with the same content -/

lemma SameContent.refl (good : ∀ store ∈ stores, abs.good store) : SameContent abs stores stores := by
  unfold SameContent
  rw [List.forall₂_same]
  exact fun store isStore => ⟨good store isStore, rfl, fun _ busy => busy⟩

lemma SameContent.records_eq {stores' : List σ} (same : SameContent abs stores stores') :
    recordsOf abs stores' = recordsOf abs stores := by
  cases same with
  | nil => rfl
  | cons first rest => exact congrArg View.records first.view

lemma SameContent.good {stores' : List σ} (same : SameContent abs stores stores') :
    ∀ store ∈ stores', abs.good store := by
  induction same with
  | nil => exact fun store mem => nomatch mem
  | cons first rest ih => exact forall_mem_cons.mpr ⟨first.good, ih⟩

lemma SameContent.sound (sound : Sound sys abs False r)
    (same : SameContent abs r.stores stores) : Sound sys abs False { r with stores } := by
  refine ⟨⟨same.good, nofun, nofun⟩, nofun, nofun, sound.handles, ?_, ?_, sound.unready⟩
  · intro ready p head
    unfold SameContent at same
    cases before : r.stores with
    | nil =>
      rw [before, List.forall₂_nil_left_iff] at same
      rw [same] at head
      cases head
    | cons first others =>
      rw [before, List.forall₂_cons_left_iff] at same
      obtain ⟨_, _, becomes, -, rfl⟩ := same
      cases head
      rw [becomes.view]
      exact sound.stage ready first (by rw [before]; rfl)
  · intro ready pos store found digest busy
    have isPlace : pos < r.stores.length := by
      rw [List.Forall₂.length_eq same]
      exact (List.getElem?_eq_some_iff.mp found).1
    have becomes := List.Forall₂.get same isPlace (List.getElem?_eq_some_iff.mp found).1
    have isStore : stores.get ⟨pos, (List.getElem?_eq_some_iff.mp found).1⟩ = store :=
      (List.getElem?_eq_some_iff.mp found).2
    rw [isStore] at becomes
    exact sound.busy ready pos _ (getElem?_eq_getElem isPlace) digest (becomes.busy digest busy)

/-! ### Installs -/

/-- An install reports success: a request publishes the key of a reference that the driver accepts. -/
structure Installs (sys : System σ) (r : State σ) (ref : Bytes) (key : Key) (req : Request) : Prop where
  accepted : validInstallRef ref = true
  parsed : parseRef ref = .ok key
  published : publishes r req = some key
  done : (serve sys r req).1.succeeds = true

include laws

/-- A request that publishes leaves the resident images, and the registry is started when it
succeeds. -/
lemma serve_publishes (sound : Sound sys abs False r) (published : publishes r req = some key) :
    (serve sys r req).2.resident = r.resident ∧ (serve sys r req).2.ready = true := by
  obtain ⟨start, ready⟩ := ensureReady_continues laws sound
  cases req with
  | write plain state buf =>
    obtain ⟨_, -, done⟩ := writeLayerLocked_continues laws start.sound ready state plain buf (by simp)
    exact ⟨done.resident.trans start.resident, done.ready ready⟩
  | commit ref count created now =>
    cases parsed : parseRef ref with
    | error e =>
      rw [publishes, parsed] at published
      cases published
    | ok other =>
      have once : ContinuesOnce sys abs False (ensureReady sys r)
          (commitLocked sys (ensureReady sys r) other count created now).2 :=
        commitLocked_continues laws start.sound ready (by simp) count created now
      obtain ⟨_, -, done⟩ := once
      have served : (serve sys r (.commit ref count created now)).2 =
          (commitLocked sys (ensureReady sys r) other count created now).2 := by
        simp only [serve, registryCommit, parsed]
        rfl
      rw [served]
      exact ⟨done.resident.trans start.resident, done.ready ready⟩
  | _ => cases published

lemma Installs.installed (sound : Sound sys abs False r)
    {ref : Bytes} (install : Installs sys r ref key req) :
    ∃ record bytes, entryOf sys.cfg (recordsOf abs (serve sys r req).2.stores)
        (abs.recName key) = some record ∧
      recordsOf abs (serve sys r req).2.stores =
        Function.update (recordsOf abs r.stores) (abs.recName key) (some bytes) := by
  have changes := serve_changes laws sound req
  cases changes with
  | kept same refused =>
    have quiet := (refused install.done).1
    rw [install.published] at quiet
    cases quiet
  | removed entry other record isRemoval =>
    rw [isRemoval] at install
    cases install.published
  | rewritten other old changed bytes quiet =>
    rw [install.published] at quiet
    cases quiet.1
  | committed other record published done commit =>
    rw [install.published, Option.some.injEq] at published
    subst published
    obtain ⟨bytes, encoded, put⟩ := commit.put
    refine ⟨record, bytes, entryOf_of_encode encoded ?_, put⟩
    rw [put, update_self]

omit laws

lemma shownOthers_update (shows : Shows sys.ops abs) {records : ν → Option Bytes}
    (listable : abs.listable key) (bytes : Bytes) :
    shownOthers abs (Function.update records (abs.recName key) (some bytes)) key =
      shownOthers abs records key := by
  ext other
  refine and_congr_right fun differs => and_congr_right fun isListable => ?_
  have named : abs.recName other ≠ abs.recName key :=
    fun same => differs (shows.apart isListable listable same)
  rw [update_of_ne named]

/-- An installed entry stays listed iff it has a resident image, or a listing shows its
key and the store has fewer others than the registry enumerates. -/
lemma stays_listed_iff (laws : Contract sys.ops abs) (shows : Shows sys.ops abs)
    (sound : Sound sys abs False r) {ref : Bytes} (install : Installs sys r ref key req) :
    StaysListed sys abs (serve sys r req).2 key ↔
      (∃ image ∈ r.resident, image.key = key) ∨
        (abs.listable key ∧
          (shownOthers abs (recordsOf abs r.stores) key).encard < registryMaxEntries) := by
  have fits := (accepted_of_parse install.accepted install.parsed).1.fits
  obtain ⟨resident, ready⟩ := serve_publishes laws sound install.published
  obtain ⟨_, _, installed, put⟩ := install.installed laws sound
  have after := serve_loose laws sound req
  generalize (serve sys r req).2 = r' at resident ready installed put after
  have stored : r'.stores ≠ [] := by
    intro empty
    rw [empty] at installed
    cases installed
  have present : (recordsOf abs r'.stores (abs.recName key)).isSome := by
    rw [put, update_self]
    rfl
  -- any sound registry with these records and images lists the key when there is room
  have lists : ∀ again : State σ, Sound sys abs False again →
      recordsOf abs again.stores = recordsOf abs r'.stores → again.resident = r'.resident →
      ((∃ image ∈ r.resident, image.key = key) ∨ (abs.listable key ∧
        (shownOthers abs (recordsOf abs r.stores) key).encard < registryMaxEntries)) →
      ListedAs sys again key := by
    intro again soundAgain records residents condition
    obtain ⟨start, -⟩ := ensureReady_continues laws soundAgain
    have started := (start.records_eq laws soundAgain).trans records
    have some_ : (ensureReady sys again).stores ≠ [] := by
      intro empty
      rw [← started, empty] at present
      cases present
    obtain ⟨_, listed, -⟩ := primaryList_spec laws start.sound.stores.good some_
    rw [listedAs_installed laws soundAgain fits (records ▸ installed) listed, residents, resident]
    rcases condition with image | ⟨listable, room⟩
    · exact .inr image
    refine .inl (mem_take_of_room laws shows start.sound.stores.good listable ?_ ?_ listed)
    · rw [started]
      exact present
    · rwa [started, put, shownOthers_update shows listable]
  constructor
  · intro stays
    by_contra neither
    rw [not_or, not_and] at neither
    obtain ⟨noImage, unlistable⟩ := neither
    cases stores : r'.stores with
    | nil => exact stored stores
    | cons p others =>
      -- the host may name the file of the key after all others
      have good := after.stores.good p (primary_mem stores)
      obtain ⟨last, front, count, becomes, recList, absent⟩ := shows.last key good
      have same : SameContent abs r'.stores (last :: others) := by
        rw [stores]
        refine .cons becomes (SameContent.refl fun store isStore => ?_)
        exact after.stores.good store (by rw [stores]; exact mem_cons_of_mem _ isStore)
      have sameSound := same.sound after
      have started : ensureReady sys { r' with stores := last :: others } =
          { r' with stores := last :: others } := by rw [ensureReady, if_pos ready]
      have listed : primaryList sys { r' with stores := last :: others } =
          .ok (front ++ replicate count key) := recList
      have isListed := (stays _ same).1
      rw [listedAs_installed laws sameSound fits (same.records_eq ▸ installed)
        (started.symm ▸ listed), resident] at isListed
      have mem := isListed.resolve_right noImage
      have listable := shows.only recList key (mem_of_mem_take mem)
      refine notMem_take_of_full laws sameSound.stores.good ?_ listed absent (cons_ne_nil _ _) mem
      rw [same.records_eq, put, shownOthers_update shows listable]
      exact unlistable listable
  · intro condition stores same
    have sameSound := same.sound after
    exact ⟨lists _ sameSound same.records_eq rfl condition,
      lists _ (powerCycle_operates sameSound).sound same.records_eq rfl condition⟩

end Listings

/-! ### What the two stores show -/

/-- The files of a directory with those that pass a test named last. -/
def namedLast (files : Files) (test : Bytes → Bool) : Files :=
  ⟨files.entries.filter (fun file => !test file.1) ++ files.entries.filter (fun file => test file.1),
    (perm_nodupKeys (perm_append_comm.trans (filter_append_perm _ _))).mpr
      files.nodupKeys⟩

variable (files : Files)

lemma namedLast_keys (test : Bytes → Bool) : (namedLast files test).keys =
      files.keys.filter (fun name => !test name) ++ files.keys.filter test := by
  simp only [namedLast, AList.keys, keys, map_append, filter_map]
  rfl

lemma listing_last (shown : Bytes → Bool) (key : Key) : ∃ front count,
      ((namedLast files fun name => regFilesParseKey name = some key).keys.filter shown).filterMap
        regFilesParseKey = front ++ replicate count key ∧ key ∉ front := by
  rw [namedLast_keys, filter_append, filterMap_append]
  refine ⟨_, _, congrArg _ (eq_replicate_iff.mpr ⟨rfl, ?_⟩), ?_⟩
  · intro other mem
    obtain ⟨name, isName, parsed⟩ := mem_filterMap.mp mem
    have isKey := (mem_filter.mp (mem_filter.mp isName).1).2
    rw [decide_eq_true_eq, parsed] at isKey
    exact Option.some.inj isKey
  · intro mem
    obtain ⟨name, isName, parsed⟩ := mem_filterMap.mp mem
    have notKey := (mem_filter.mp (mem_filter.mp isName).1).2
    simp [parsed] at notKey

lemma listing_first (shown : Bytes → Bool) (key : Key) : ∃ back count,
      ((namedLast files fun name => regFilesParseKey name ≠ some key).keys.filter shown).filterMap
        regFilesParseKey = replicate count key ++ back ∧ key ∉ back := by
  rw [namedLast_keys, filter_append, filterMap_append]
  refine ⟨_, _, congrArg (· ++ _) (eq_replicate_iff.mpr ⟨rfl, ?_⟩), ?_⟩
  · intro other mem
    obtain ⟨name, isName, parsed⟩ := mem_filterMap.mp mem
    have isKey := (mem_filter.mp (mem_filter.mp isName).1).2
    simpa [parsed] using isKey
  · intro mem
    obtain ⟨name, isName, parsed⟩ := mem_filterMap.mp mem
    have notKey := (mem_filter.mp (mem_filter.mp isName).1).2
    simp [parsed] at notKey

lemma namedLast_bind (test : Bytes → Bool) (name : Option Bytes) :
    name.bind (namedLast files test).lookup = name.bind files.lookup := by
  cases name with
  | none => rfl
  | some file => exact AList.perm_lookup (perm_append_comm.trans (filter_append_perm _ _))

lemma page_reordered {pages : PageConfig} {s : PageStore} (good : PageOk pages s)
    (test : Bytes → Bool) :
    (pageReading pages).Becomes s
      { s with disk := { s.disk with entries := namedLast s.disk.entries test } }
      ((pageReading pages).view s) := by
  refine ⟨good.of_same rfl rfl rfl rfl, ?_, fun _ busy => busy⟩
  simp only [pageReading, namedLast_bind]
  rfl

lemma file_reordered {files : Posix.FileConfig} (s : Posix.FileStore) (test : Bytes → Bool) :
    (Posix.fileReading files).Becomes s { s with entries := namedLast s.entries test }
      ((Posix.fileReading files).view s) := by
  refine Posix.becomes_of_view ?_
  simp only [Posix.fileReading, namedLast_bind]
  rfl

lemma parsed_apart {recName : Key → Option Bytes} {a b : Key} {fileA fileB : Bytes}
    (parsedA : regFilesParseKey fileA = some a) (parsedB : regFilesParseKey fileB = some b)
    (nameA : recName a = some fileA) (nameB : recName b = some fileB)
    (same : recName a = recName b) : a = b := by
  have files := nameA.symm.trans (same.trans nameB)
  rw [Option.some.inj files, parsedB] at parsedA
  exact (Option.some.inj parsedA).symm

lemma pageShows (pages : PageConfig) (host : Page.Host) :
    Shows (pageOps pages host) (pageReading pages) where
  only := fun {s keys} listed key mem => by
    cases listed
    obtain ⟨file, isFile, parsed⟩ := mem_filterMap.mp mem
    have shown := (mem_filter.mp isFile).2
    rw [decide_eq_true_eq] at shown
    have spec : Listable key ∧ recordName pages key = some file :=
      listable_of_parse shown.1 shown.2 parsed
    exact spec.1
  apart := by
    rintro _ _ ⟨_, -, shownA, directA, parsedA⟩ ⟨_, -, shownB, directB, parsedB⟩ same
    exact parsed_apart parsedA parsedB (listable_of_parse shownA directA parsedA).2
      (listable_of_parse shownB directB parsedB).2 same
  last := fun {s} key good => by
    obtain ⟨front, count, listed, absent⟩ :=
      listing_last s.disk.entries (fun name => visible name ∧ (47 : UInt8) ∉ name) key
    exact ⟨_, front, count, page_reordered good _, congrArg Except.ok listed, absent⟩
  first := fun {s} key good => by
    obtain ⟨back, count, listed, absent⟩ :=
      listing_first s.disk.entries (fun name => visible name ∧ (47 : UInt8) ∉ name) key
    exact ⟨_, back, count, page_reordered good _, congrArg Except.ok listed, absent⟩

lemma fileShows (files : Posix.FileConfig) (host : Posix.Host) :
    Shows (Posix.fileOps files host) (Posix.fileReading files) where
  only := fun {s keys} listed key mem => by
    cases listed
    obtain ⟨file, isFile, parsed⟩ := mem_filterMap.mp mem
    have direct := (mem_filter.mp isFile).2
    rw [decide_eq_true_eq] at direct
    exact ⟨file, parsed, direct⟩
  apart := by
    rintro a _ ⟨_, parsedA, directA⟩ ⟨_, parsedB, directB⟩ same
    exact parsed_apart parsedA parsedB (Posix.recordName_of_parse directA parsedA)
      (Posix.recordName_of_parse directB parsedB) same
  last := fun {s} key good => by
    obtain ⟨front, count, listed, absent⟩ :=
      listing_last s.entries (fun name => (47 : UInt8) ∉ name) key
    exact ⟨_, front, count, file_reordered s _, congrArg Except.ok listed, absent⟩
  first := fun {s} key good => by
    obtain ⟨back, count, listed, absent⟩ :=
      listing_first s.entries (fun name => (47 : UInt8) ∉ name) key
    exact ⟨_, back, count, file_reordered s _, congrArg Except.ok listed, absent⟩

/-! ### Installs on the two stores -/

/-- For every reference the driver accepts and every install of it that succeeds: on the page store
the entry stays listed iff it has a resident image, or its name starts with no underscore
and fewer other records are listed than the registry enumerates; on the file store, iff it
has a resident image or fewer other records are listed. And two accepted references that differ
have two record files on either store. -/
theorem install_listed_iff (cfg : Config) (sha256 : Bytes → Digest) :
    (∀ (pages : PageConfig) (host : Page.Host), (∀ call, host.deletes call = none) →
      ∀ r, Sound ⟨cfg, pageOps pages host, sha256⟩ (pageReading pages) False r →
      ∀ ref key req, Installs ⟨cfg, pageOps pages host, sha256⟩ r ref key req →
        (StaysListed ⟨cfg, pageOps pages host, sha256⟩ (pageReading pages)
            (serve ⟨cfg, pageOps pages host, sha256⟩ r req).2 key ↔
          (∃ image ∈ r.resident, image.key = key) ∨
            (key.name.head? ≠ some 95 ∧
              (shownOthers (pageReading pages) (recordsOf (pageReading pages) r.stores) key).encard <
                registryMaxEntries))) ∧
    (∀ (files : Posix.FileConfig) (host : Posix.Host), (∀ call, host.deletes call = none) →
      ∀ r, Sound ⟨cfg, Posix.fileOps files host, sha256⟩ (Posix.fileReading files) False r →
      ∀ ref key req, Installs ⟨cfg, Posix.fileOps files host, sha256⟩ r ref key req →
        (StaysListed ⟨cfg, Posix.fileOps files host, sha256⟩ (Posix.fileReading files)
            (serve ⟨cfg, Posix.fileOps files host, sha256⟩ r req).2 key ↔
          (∃ image ∈ r.resident, image.key = key) ∨
            (shownOthers (Posix.fileReading files)
              (recordsOf (Posix.fileReading files) r.stores) key).encard < registryMaxEntries)) ∧
    ∀ a b, validInstallRef a = true → validInstallRef b = true → cString a ≠ cString b →
      ∀ keyA keyB, parseRef a = .ok keyA → parseRef b = .ok keyB →
        (∀ pages, recordFile pages keyA ≠ recordFile pages keyB) ∧
          ∀ files, Posix.recPath files keyA ≠ Posix.recPath files keyB := by
  refine ⟨?_, ?_, ?_⟩
  · intro pages host reliable r sound ref key req install
    have accepted := (accepted_of_parse install.accepted install.parsed).1
    rw [stays_listed_iff (pageContract reliable) (pageShows pages host) sound install]
    exact or_congr_right (and_congr_left' (page_listable_iff accepted))
  · intro files host reliable r sound ref key req install
    have accepted := (accepted_of_parse install.accepted install.parsed).1
    rw [stays_listed_iff (Posix.fileContract reliable) (fileShows files host) sound install]
    exact or_congr_right (and_iff_right (posix_listable accepted))
  intro a b validA validB differ keyA keyB parsedA parsedB
  obtain ⟨acceptedA, textA⟩ := accepted_of_parse validA parsedA
  obtain ⟨acceptedB, textB⟩ := accepted_of_parse validB parsedB
  have apart : recordText keyA ≠ recordText keyB := by
    intro same
    have keys := recordText_injective acceptedA acceptedB same
    exact differ (textA.trans ((congrArg refText keys).trans textB.symm))
  constructor
  · intro pages same
    rw [page_recordFile acceptedA, page_recordFile acceptedB, Except.ok.injEq] at same
    exact apart same
  · intro files same
    rw [posix_recPath acceptedA, posix_recPath acceptedB, Except.ok.injEq] at same
    exact apart same

lemma shownOthers_le {σ ν : Type} {ops : StoreOps σ} {abs : Reading σ ν}
    (shows : Shows ops abs) (records : ν → Option Bytes) (key : Key) :
    (shownOthers abs records key).encard ≤ (recordNames records).encard := by
  apply Set.encard_le_encard_of_injOn
  · exact fun other isOther => isOther.2.2
  · exact fun a isA b isB same => shows.apart isA.2.1 isB.2.1 same

/-- A registry over the empty page store to which the one layer of a reference was written. -/
def writtenRegistry (ref : Bytes) : State PageStore :=
  (serve sample (sampleRegistry []) (.write true (.start ref 0 true) [7])).2

/-- The install of `app:1` meets the condition, and stays listed. -/
theorem install_listed_app : Installs sample (writtenRegistry (ascii "app:1")) (ascii "app:1")
      ⟨ascii "app", ascii "1"⟩ (.write true (.finish none) []) ∧
    StaysListed sample wide
      (serve sample (writtenRegistry (ascii "app:1")) (.write true (.finish none) [])).2
      ⟨ascii "app", ascii "1"⟩ := by
  have install : Installs sample (writtenRegistry (ascii "app:1")) (ascii "app:1")
      ⟨ascii "app", ascii "1"⟩ (.write true (.finish none) []) :=
    ⟨by decide, by decide, by decide +kernel, by decide +kernel⟩
  have sound : Sound sample wide False (writtenRegistry (ascii "app:1")) :=
    serve_loose sampleContract (sampleRegistry_sound False []) _
  refine ⟨install, ((install_listed_iff sample.cfg sampleSha256).1 wideConfig sampleHost
    (fun _ => rfl) _ sound _ _ _ install).mpr (.inr ⟨by decide, ?_⟩)⟩
  apply (shownOthers_le (pageShows wideConfig sampleHost) _ _).trans_lt
  have stores : ∃ s, (writtenRegistry (ascii "app:1")).stores = [s] ∧ s.disk.entries.keys = [] := by
    have one : (writtenRegistry (ascii "app:1")).stores.length = 1 ∧
        ∀ s ∈ (writtenRegistry (ascii "app:1")).stores, s.disk.entries.keys = [] := by
      decide +kernel
    obtain ⟨s, only⟩ := length_eq_one_iff.mp one.1
    exact ⟨s, only, one.2 s (by rw [only]; exact mem_singleton_self s)⟩
  obtain ⟨s, only, empty⟩ := stores
  rw [only, pageRecords_encard, empty]
  decide

/-- The install of `_app:1` succeeds and its record is on the store, but `RegistryRead` lists
nothing, neither at once nor after a restart. -/
theorem install_unlisted : Installs sample (writtenRegistry (ascii "_app:1")) (ascii "_app:1")
      ⟨ascii "_app", ascii "1"⟩ (.write true (.finish none) []) ∧
    (serve sample (writtenRegistry (ascii "_app:1"))
      (.write true (.finish none) [])).2.stores.map (·.disk.entries.keys) = [[ascii "_app@1.rec"]] ∧
    (registryRead sample (serve sample (writtenRegistry (ascii "_app:1"))
      (.write true (.finish none) [])).2 50).1.toOption = some 0 ∧
    (registryRead sample (powerCycle sample
      (serve sample (writtenRegistry (ascii "_app:1"))
        (.write true (.finish none) [])).2) 50).1.toOption = some 0 := by
  refine ⟨⟨by decide, by decide, by decide +kernel, by decide +kernel⟩, ?_⟩
  decide +kernel

end WantedEngine.Registry
