import WantedEngine.Registry.Routes
/-!
# Images by their bare name

The registry driver finds an image that is opened for reading or unlinked in a table of its own,
which it fills from `RegistryRead` and searches from the front (`matchesRef`), so that a name without
a version takes the entry that sorts first. `RegistryLoad` of the name takes the newest install. The
two are the same entry iff the newest install of the name is what the listing shows first
under it (`bare_name_same_entry_iff`); after an update from `app:1` to `app:2` it is not
(`bare_name_unlinks_older`).
-/
namespace WantedEngine.Registry

open Foundation Page List

variable {σ : Type} (sys : System σ)

def maxRegEntries : Nat := 50

/-- `refreshEntries`: the entry table of the driver. -/
def refreshEntries (r : State σ) : Rc (List ListedEntry) × State σ :=
  let (rc, entries, r) := registryRead sys r maxRegEntries
  (rc.map fun _ => entries, r)

/-- `matchesRef`: a reference without a version matches any version. -/
def matchesRef (entry : Entry) (path : Bytes) : Bool :=
  entry.name = path.takeWhile (· ≠ 58) ∧
    (58 ∉ path ∨ entry.version = (path.dropWhile (· ≠ 58)).drop 1)

/-- The search of the table that an open for reading and an unlink make. -/
def findImage (r : State σ) (path : Bytes) : Rc ListedEntry × State σ :=
  match refreshEntries sys r with
  | (.error e, r) => (.error e, r)
  | (.ok entries, r) =>
    match entries.find? fun item => matchesRef item.entry path with
    | none => (.error .enoent, r)
    | some item => (.ok item, r)

/-- `openImage` for reading: the descriptor, and the entry it holds when it is that of an image. -/
def openImageRead (p : ControlPlane σ) (path : Bytes) :
    Rc (Nat × Option ListedEntry) × ControlPlane σ :=
  if path = [] then
    match refreshEntries sys p.registry with
    | (.error e, r) => (.error e, ⟨p.fds, r⟩)
    | (.ok _, r) =>
      let (rc, fds) := allocFd p.fds .reading
      (rc.map fun fd => (fd, none), ⟨fds, r⟩)
  else
    match findImage sys p.registry path with
    | (.error e, r) => (.error e, ⟨p.fds, r⟩)
    | (.ok item, r) =>
      let (rc, fds) := allocFd p.fds .reading
      (rc.map fun fd => (fd, some item), ⟨fds, r⟩)

/-- `_Unlink`. -/
def regUnlink (p : ControlPlane σ) (path : Bytes) : Rc Unit × ControlPlane σ :=
  match takeSegment (path.dropWhile (· = 47)) regDirImages with
  | none => (.error .eperm, p)
  | some ref =>
    match findImage sys p.registry ref with
    | (.error e, r) => (.error e, ⟨p.fds, r⟩)
    | (.ok item, r) =>
      let (rc, r) := registryRemove sys r item.entry
      (rc, ⟨p.fds, r⟩)

variable {sys}

/-! ### What a search of the table finds -/

/-- A name without a version, as the fields of an entry hold it. -/
structure BareName (name : Bytes) : Prop where
  nonempty : name ≠ []
  bare : (58 : UInt8) ∉ name
  /-- It is a C string. -/
  terminated : (0 : UInt8) ∉ name
  /-- It fits with its NUL. -/
  short : name.length < wappMaxNameLen

variable {name : Bytes} {r : State σ}

variable (isBare : BareName name)
include isBare

/-- A bare name matches the entries that show it. -/
lemma matchesRef_bare (entry : Entry) : matchesRef entry name = decide (entry.name = name) := by
  rw [matchesRef, (takeWhile_of_unseparated isBare.bare).1]
  simp [isBare.bare]

lemma BareName.fits : FitsEntry ⟨name, []⟩ :=
  ⟨isBare.terminated, nofun, isBare.short, Nat.zero_lt_succ _⟩

lemma keyFromEntry_bare : keyFromEntry ⟨name, []⟩ = ⟨name, []⟩ := by
  have back := keyFromEntry_entryOfKey isBare.fits
  rw [entryOfKey_of_fits isBare.fits] at back
  exact back

omit isBare

/-- The key of an entry of the listing is shown under the name. -/
def ShownAs (name : Bytes) (entry : Key × Meta) : Prop := (entryOfKey entry.1).name = name

/-- Whether an entry is shown under the name is decided by evaluation. -/
instance decidableShownAs (name : Bytes) (entry : Key × Meta) : Decidable (ShownAs name entry) :=
  inferInstanceAs (Decidable (_ = _))

/-- The listing as the table of the driver has it. -/
def shownItem (entry : Key × Meta) : ListedEntry := ⟨entryOfKey entry.1, entry.2.size⟩

/-- A search for a bare name gives the first entry shown under it, of those that the table holds. -/
lemma findImage_bare {r : State σ} {name : Bytes} (isBare : BareName name) : findImage sys r name =
      (match listKeys sys (ensureReady sys r) with
        | .error e => .error e
        | .ok _ =>
          match ((readFrom sys r).take maxRegEntries).find? fun entry => ShownAs name entry with
          | none => .error .enoent
          | some entry => .ok (shownItem entry), ensureReady sys r) := by
  unfold findImage refreshEntries registryRead readFrom
  dsimp only
  cases listed : listKeys sys (ensureReady sys r) with
  | error e => rfl
  | ok keys =>
    dsimp only [Except.map]
    have same : (fun entry : Key × Meta => matchesRef (entryOfKey entry.1) name) =
        fun entry => decide (ShownAs name entry) :=
      funext fun entry => matchesRef_bare isBare (entryOfKey entry.1)
    rw [find?_map]
    show (match Option.map shownItem (((readable sys (ensureReady sys r) keys).take
      maxRegEntries).find? fun entry => matchesRef (entryOfKey entry.1) name) with
      | none => _
      | some item => _) = _
    rw [same]
    cases ((readable sys (ensureReady sys r) keys).take maxRegEntries).find?
      fun entry => decide (ShownAs name entry) <;> rfl

lemma readable_sorted {r : State σ} {keys : List Key} (sorted : SortedKeys keys) :
    (readable sys r keys).Pairwise fun earlier later => keyBefore later.1 earlier.1 = false := by
  have order : ((readable sys r keys).map Prod.fst).Sublist keys := by
    induction keys with
    | nil => exact List.Sublist.refl _
    | cons key rest ih =>
      rw [readable, filterMap_cons]
      have later := ih (pairwise_cons.mp sorted).2
      cases read : readMeta sys r key with
      | error e => exact later.cons key
      | ok record => exact later.cons_cons key
  exact pairwise_map.mp (sorted.sublist order)

lemma not_lt_of_begins {short long : Bytes} (begins : short <+: long) : ¬ long < short := by
  obtain ⟨_, rfl⟩ := begins
  induction short with
  | nil => exact not_lt_nil _
  | cons char short ih =>
    rw [cons_append, cons_lt_cons_iff]
    rintro (less | ⟨-, less⟩)
    · exact Std.lt_irrefl less
    · exact ih less

/-- What an entry shows begins the texts of its key, so a key with just these texts does not come
after it. -/
lemma keyBefore_shown {key other : Key} (name : (entryOfKey other).name = key.name)
    (version : (entryOfKey other).version = key.version) : keyBefore other key = false := by
  have begins : ∀ text room, (cString text).take room <+: text := fun text room =>
    (List.take_prefix _ _).trans (List.takeWhile_prefix _)
  have notName : ¬ other.name < key.name :=
    name ▸ not_lt_of_begins (begins other.name (wappMaxNameLen - 1))
  have notVersion : ¬ other.version < key.version :=
    version ▸ not_lt_of_begins (begins other.version (wappMaxVersionLen - 1))
  simp [keyBefore, notName, notVersion]

lemma fitsEntry_of_shown {key : Key} (name : (entryOfKey key).name = key.name)
    (version : (entryOfKey key).version = key.version) : FitsEntry key := by
  have whole : ∀ {text : Bytes} {room : Nat}, (cString text).take room = text →
      (0 : UInt8) ∉ text ∧ text.length ≤ room := by
    intro text room shown
    constructor
    · intro zero
      rw [← shown] at zero
      have passed := mem_takeWhile_imp (mem_of_mem_take zero)
      simp at passed
    · have length := congrArg List.length shown
      rw [length_take] at length
      omega
  obtain ⟨noNulName, shortName⟩ := whole name
  obtain ⟨noNulVersion, shortVersion⟩ := whole version
  exact ⟨noNulName, noNulVersion, Nat.lt_of_le_of_lt shortName (by decide),
    Nat.lt_of_le_of_lt shortVersion (by decide)⟩

/-! ### The newest entry of a name -/

/-- The entry is the newest of the name among those listed, and the first in sort order of those that
tie with it. -/
structure Newest (entries : List (Key × Meta)) (name : Bytes) (newest : Key × Meta) : Prop where
  listed : newest ∈ entries
  named : newest.1.name = name
  newer : ∀ other ∈ entries, other.1.name = name → other.1 ≠ newest.1 →
    sequence other < sequence newest ∨
      (sequence other = sequence newest ∧ keyBefore newest.1 other.1 = true)

/-- The newest entry of the name is what the listing shows first under the name: it is among the
entries that the driver's table holds, its key fits the fields of an entry, and nothing shown under
the name sorts before it. Without an entry of the name nothing is shown under it. -/
structure NewestSortsFirst (entries : List (Key × Meta)) (name : Bytes) : Prop where
  first : ∀ newest, Newest entries name newest → newest ∈ entries.take maxRegEntries ∧
    FitsEntry newest.1 ∧ ∀ other ∈ entries, ShownAs name other → keyBefore other.1 newest.1 = false
  unnamed : (∀ entry ∈ entries, entry.1.name ≠ name) →
    ∀ entry ∈ entries.take maxRegEntries, ¬ ShownAs name entry

/-- A bare name resolves to the newest entry, and is not found when no entry has the name. -/
lemma resolve_newest {keys : List Key} (listed : listKeys sys r = .ok keys) (name : Bytes) :
    (∃ newest, resolve sys r ⟨name, []⟩ = .ok newest ∧ Newest (readable sys r keys) name newest) ∨
      (resolve sys r ⟨name, []⟩ = .error .enoent ∧
        ∀ entry ∈ readable sys r keys, entry.1.name ≠ name) := by
  have sorted := (listKeys_spec listed).choose_spec.2.1
  rcases resolve_bare_or listed name with ⟨key, record, resolved⟩ | ⟨resolved, none_⟩
  · obtain ⟨mem, named, read, most⟩ := resolve_bare_max listed sorted resolved
    refine .inl ⟨(key, record), resolved, mem_readable.mpr ⟨mem, read⟩, named, ?_⟩
    rintro ⟨other, old⟩ isListed otherNamed differs
    obtain ⟨isKey, otherRead⟩ := mem_readable.mp isListed
    exact most other old isKey otherNamed otherRead differs
  · refine .inr ⟨resolved, ?_⟩
    rintro ⟨key, record⟩ isListed named
    obtain ⟨isKey, read⟩ := mem_readable.mp isListed
    exact none_ key isKey named record read

variable {a b : Key × Meta}

lemma readable_inj {keys : List Key} (isA : a ∈ readable sys r keys)
    (isB : b ∈ readable sys r keys) (same : a.1 = b.1) : a = b := by
  have readA := (mem_readable.mp isA).2
  have readB := (mem_readable.mp isB).2
  rw [same, readB] at readA
  exact Prod.ext same (Except.ok.inj readA).symm

lemma Newest.eq {keys : List Key} (first : Newest (readable sys r keys) name a)
    (second : Newest (readable sys r keys) name b) : a = b := by
  refine readable_inj first.listed second.listed ?_
  by_contra differ
  rcases first.newer b second.listed second.named (Ne.symm differ) with _ | ⟨_, before⟩
  · rcases second.newer a first.listed first.named differ with more | ⟨_, -⟩
    · omega
    · omega
  · rcases second.newer a first.listed first.named differ with more | ⟨-, after⟩
    · omega
    · rw [keyBefore_asymm before] at after
      cases after

lemma find_newest_iff {keys : List Key} (sorted : SortedKeys keys) (isBare : BareName name)
    {newest : Key × Meta} (isNewest : Newest (readable sys r keys) name newest) :
    ((((readable sys r keys).take maxRegEntries).find? fun entry => ShownAs name entry).map
        shownItem = some ⟨⟨newest.1.name, newest.1.version⟩, newest.2.size⟩) ↔
      newest ∈ (readable sys r keys).take maxRegEntries ∧ FitsEntry newest.1 ∧
        ∀ other ∈ readable sys r keys, ShownAs name other → keyBefore other.1 newest.1 = false := by
  have order := @readable_sorted σ sys r keys sorted
  constructor
  · intro found
    obtain ⟨first, isFirst, shown⟩ := Option.map_eq_some_iff.mp found
    obtain ⟨isShown, front, back, split, passed⟩ := find?_eq_some_iff_append.mp isFirst
    have whole : readable sys r keys =
        front ++ first :: (back ++ (readable sys r keys).drop maxRegEntries) := by
      rw [← cons_append, ← append_assoc, ← split, take_append_drop]
    have entry : entryOfKey first.1 = ⟨newest.1.name, newest.1.version⟩ :=
      congrArg ListedEntry.entry shown
    have nameShown : (entryOfKey first.1).name = newest.1.name := by rw [entry]
    have versionShown : (entryOfKey first.1).version = newest.1.version := by rw [entry]
    have behind_ : ∀ other ∈ readable sys r keys, ShownAs name other →
        other = first ∨ keyBefore other.1 first.1 = false := by
      intro other mem isOther
      rw [whole] at mem order
      rcases mem_append.mp mem with early | late
      · have fails := passed other early
        rw [decide_eq_true isOther] at fails
        cases fails
      · rcases mem_cons.mp late with same | later
        · exact .inl same
        · exact .inr ((pairwise_cons.mp (pairwise_append.mp order).2.1).1 other later)
    -- the newest key is shown whole, so an entry that shows the same texts is the newest itself
    have newestShown : ShownAs name newest := by
      rw [ShownAs, entryOfKey, isNewest.named]
      exact cString_take_of_fits isBare.terminated (Nat.le_sub_one_of_lt isBare.short)
    have sameKey : first.1 = newest.1 := by
      rcases behind_ newest isNewest.listed newestShown with same | notBefore
      · rw [same]
      by_contra differ
      have after := keyBefore_shown nameShown versionShown
      rcases keyBefore_total differ with before | before
      · rw [after] at before
        cases before
      · rw [notBefore] at before
        cases before
    have isListed : first ∈ readable sys r keys := by
      rw [whole]
      exact mem_append_right _ mem_cons_self
    obtain rfl := readable_inj isListed isNewest.listed sameKey
    refine ⟨?_, fitsEntry_of_shown nameShown versionShown, ?_⟩
    · rw [split]
      exact mem_append_right _ mem_cons_self
    intro other mem isOther
    rcases behind_ other mem isOther with same | notBefore
    · rw [same]
      exact keyBefore_irrefl _
    · exact notBefore
  · rintro ⟨inTable, fits, sortsFirst⟩
    have shown := entryOfKey_of_fits fits
    have isShown : ShownAs name newest := by
      rw [ShownAs, shown]
      exact isNewest.named
    cases found : ((readable sys r keys).take maxRegEntries).find? fun entry => ShownAs name entry with
    | none =>
      have fails := find?_eq_none.mp found newest inTable
      exact absurd (decide_eq_true isShown) fails
    | some first =>
      obtain ⟨firstShown, front, back, split, passed⟩ := find?_eq_some_iff_append.mp found
      have firstIn := mem_of_find?_eq_some found
      have firstListed := mem_of_mem_take firstIn
      have sameKey : first.1 = newest.1 := by
        by_contra differ
        have notBefore := sortsFirst first firstListed (of_decide_eq_true firstShown)
        rcases keyBefore_total differ with before | before
        · rw [notBefore] at before
          cases before
        -- the newest would stand before what was found
        have pos : newest ∈ first :: back := by
          rw [split, mem_append] at inTable
          refine inTable.resolve_left fun early => ?_
          have fails := passed newest early
          rw [decide_eq_true isShown] at fails
          cases fails
        rcases mem_cons.mp pos with same | later
        · exact differ (congrArg Prod.fst same).symm
        have cut := order.sublist (take_sublist maxRegEntries _)
        rw [split] at cut
        have sorts := (pairwise_cons.mp (pairwise_append.mp cut).2.1).1 newest later
        rw [sorts] at before
        cases before
      rw [readable_inj firstListed isNewest.listed sameKey, Option.map_some, shownItem, shown]

/-! ### Opening, unlinking and loading -/

/-- Opening the name for reading and unlinking it take the entry that a load of the name takes. -/
structure TakesLoaded (sys : System σ) (r : State σ) (name : Bytes) : Prop where
  /-- The descriptor holds the entry that `RegistryLoad` resolves the name to, under its own name and
  version, and the open fails as the load does. -/
  opens : ∀ fds, RegFd.free ∈ fds → (openImageRead sys ⟨fds, r⟩ name).1.map Prod.snd =
    (resolve sys (ensureReady sys r) (keyFromEntry ⟨name, []⟩)).map fun found =>
      some ⟨⟨found.1.name, found.1.version⟩, found.2.size⟩
  /-- The unlink does what `RegistryRemove` of the name does, which resolves the name in the same
  way. -/
  unlinks : ∀ fds, regUnlink sys ⟨fds, r⟩ (imagePath name) =
    ((registryRemove sys r ⟨name, []⟩).1, ⟨fds, (registryRemove sys r ⟨name, []⟩).2⟩)

/-- The open of a bare name holds what the search of the table finds. -/
lemma openImageRead_bare (isBare : BareName name) {fds : List RegFd} (free : RegFd.free ∈ fds) :
    (openImageRead sys ⟨fds, r⟩ name).1.map Prod.snd = (findImage sys r name).1.map some := by
  obtain ⟨_, -, allocated⟩ :=
    (allocFd_cases _ .reading).resolve_left fun full => full.1 free
  rw [openImageRead, if_neg isBare.nonempty]
  cases findImage sys r name with
  | mk rc after =>
    cases rc with
    | error e => rfl
    | ok item =>
      rewrite [allocated]
      rfl

lemma regUnlink_bare (r : State σ) (name : Bytes) (fds : List RegFd) :
    regUnlink sys ⟨fds, r⟩ (imagePath name) =
      match findImage sys r name with
      | (.error e, after) => (.error e, ⟨fds, after⟩)
      | (.ok item, after) =>
        ((registryRemove sys after item.entry).1, ⟨fds, (registryRemove sys after item.entry).2⟩) :=
  rfl

lemma registryRemove_congr {a b : Entry} (same : resolve sys (ensureReady sys r) (keyFromEntry a) =
      resolve sys (ensureReady sys r) (keyFromEntry b)) :
    registryRemove sys r a = registryRemove sys r b := by
  simp only [registryRemove, same]

lemma ensureReady_idem (r : State σ) : ensureReady sys (ensureReady sys r) = ensureReady sys r := by
  have ready : (ensureReady sys r).ready = true := by
    unfold ensureReady
    split
    · assumption
    · rfl
  rw [ensureReady, if_pos ready]

lemma registryRemove_error {entry : Entry} {e : Errno}
    (listed : (∃ keys, listKeys sys (ensureReady sys r) = .ok keys) ∨
      listKeys sys (ensureReady sys r) = .error e)
    (resolved : resolve sys (ensureReady sys r) (keyFromEntry entry) = .error e) :
    registryRemove sys r entry = (.error e, ensureReady sys r) := by
  rw [registryRemove]
  cases stores : (ensureReady sys r).stores with
  | nil =>
    have noList : listKeys sys (ensureReady sys r) = .error .enodev := by
      rw [listKeys, primaryList, stores]
    rw [noList] at listed
    rcases listed with ⟨keys, found⟩ | same
    · cases found
    · cases same
      rfl
  | cons primary others =>
    rw [resolved]

/-- For every registry and every bare name: opening `reg/images/<name>` for reading and unlinking it
act on the entry that `RegistryLoad` of the name loads, iff the newest install of the name
is what the listing shows first under the name. -/
theorem bare_name_same_entry_iff (r : State σ) {name : Bytes} (isBare : BareName name) :
    TakesLoaded sys r name ↔ NewestSortsFirst (readFrom sys r) name := by
  have search := @findImage_bare σ sys r name isBare
  have bare := keyFromEntry_bare isBare
  cases listed : listKeys sys (ensureReady sys r) with
  | error e =>
    have empty : readFrom sys r = [] := by rw [readFrom, listed]
    have resolved : resolve sys (ensureReady sys r) (keyFromEntry ⟨name, []⟩) = .error e := by
      rw [bare, resolve, if_neg (not_not_intro rfl), listed]
    rw [listed] at search
    constructor
    · intro _
      rw [empty]
      refine ⟨fun newest isNewest => ?_, fun _ entry mem => ?_⟩
      · cases isNewest.listed
      · cases mem
    · intro _
      refine ⟨fun fds free => ?_, fun fds => ?_⟩
      · rw [openImageRead_bare isBare free, search, resolved]
        rfl
      · rw [regUnlink_bare, search, registryRemove_error (.inr listed) resolved]
  | ok keys =>
    have sorted := (listKeys_spec listed).choose_spec.2.1
    have entries : readFrom sys r = readable sys (ensureReady sys r) keys := by
      rw [readFrom, listed]
    rw [listed, entries] at search
    rw [entries]
    rcases resolve_newest listed name with ⟨newest, resolved, isNewest⟩ | ⟨resolved, none_⟩
    · rw [← bare] at resolved
      have found := find_newest_iff (r := ensureReady sys r) sorted isBare isNewest
      constructor
      · intro takes
        have opened := takes.opens [.free] (mem_singleton_self _)
        rw [openImageRead_bare isBare (mem_singleton_self _), search, resolved] at opened
        refine ⟨fun other isOther => ?_, fun none_ => absurd isNewest.named
          (none_ newest isNewest.listed)⟩
        rw [isOther.eq isNewest, ← found]
        cases first : ((readable sys (ensureReady sys r) keys).take maxRegEntries).find?
            fun entry => ShownAs name entry with
        | none =>
          rw [first] at opened
          cases opened
        | some entry =>
          rw [first] at opened
          exact Except.ok.inj opened
      · intro sortsFirst
        have item := found.mpr (sortsFirst.first newest isNewest)
        obtain ⟨first, isFirst, shown⟩ := Option.map_eq_some_iff.mp item
        rw [isFirst] at search
        dsimp only at search
        rw [shown] at search
        refine ⟨fun fds free => ?_, fun fds => ?_⟩
        · rw [openImageRead_bare isBare free, search, resolved]
          rfl
        obtain ⟨-, fits, -⟩ := sortsFirst.first newest isNewest
        have sameRemoval : registryRemove sys (ensureReady sys r)
            ⟨newest.1.name, newest.1.version⟩ = registryRemove sys r ⟨name, []⟩ := by
          have started : registryRemove sys (ensureReady sys r) ⟨name, []⟩ =
              registryRemove sys r ⟨name, []⟩ := by
            unfold registryRemove
            rw [ensureReady_idem]
          rw [← started]
          apply registryRemove_congr
          rw [ensureReady_idem, resolved]
          have key : keyFromEntry ⟨newest.1.name, newest.1.version⟩ = newest.1 := by
            rw [← entryOfKey_of_fits fits, keyFromEntry_entryOfKey fits]
          rw [key]
          exact resolve_full (bare ▸ resolved)
        rw [regUnlink_bare, search]
        dsimp only
        rw [sameRemoval]
    · rw [← bare] at resolved
      constructor
      · intro takes
        have opened := takes.opens [.free] (mem_singleton_self _)
        rw [openImageRead_bare isBare (mem_singleton_self _), search, resolved] at opened
        refine ⟨fun newest isNewest => absurd isNewest.named (none_ newest isNewest.listed),
          fun _ entry inTable isShown => ?_⟩
        cases first : ((readable sys (ensureReady sys r) keys).take maxRegEntries).find?
            fun entry => ShownAs name entry with
        | none => exact absurd (decide_eq_true isShown) (find?_eq_none.mp first entry inTable)
        | some entry =>
          rw [first] at opened
          cases opened
      · intro sortsFirst
        have missing : ((readable sys (ensureReady sys r) keys).take maxRegEntries).find?
            (fun entry => ShownAs name entry) = none := by
          refine find?_eq_none.mpr fun entry inTable isShown => ?_
          exact sortsFirst.unnamed none_ entry inTable (of_decide_eq_true isShown)
        rw [missing] at search
        refine ⟨fun fds free => ?_, fun fds => ?_⟩
        · rw [openImageRead_bare isBare free, search, resolved]
          rfl
        · rw [regUnlink_bare, search, registryRemove_error (.inl ⟨keys, listed⟩) resolved]

/-- A registry on which two versions of `app` were installed, one after the other. -/
def versionsOfApp (first second : Bytes) : State PageStore :=
  sampleAfter [] (installOf first ++ installOf second)

/-- When `app:1` was installed after `app:2`, the bare name is the same entry to all three. -/
theorem bare_name_same_entry_app :
    TakesLoaded sample (versionsOfApp (ascii "app:2") (ascii "app:1")) (ascii "app") := by
  have order : ∀ newest ∈ readFrom sample (versionsOfApp (ascii "app:2") (ascii "app:1")),
      (∃ other ∈ readFrom sample (versionsOfApp (ascii "app:2") (ascii "app:1")),
        other.1.name = ascii "app" ∧ other.1 ≠ newest.1 ∧ sequence newest < sequence other) ∨
      (newest ∈ (readFrom sample (versionsOfApp (ascii "app:2") (ascii "app:1"))).take maxRegEntries ∧
        FitsEntry newest.1 ∧
        ∀ other ∈ readFrom sample (versionsOfApp (ascii "app:2") (ascii "app:1")),
          ShownAs (ascii "app") other → keyBefore other.1 newest.1 = false) := by decide +kernel
  have named : ∃ entry ∈ readFrom sample (versionsOfApp (ascii "app:2") (ascii "app:1")),
      entry.1.name = ascii "app" := by decide +kernel
  refine Iff.mpr (bare_name_same_entry_iff _ ⟨by decide, by decide, by decide, by decide⟩) ⟨?_, ?_⟩
  · intro newest isNewest
    rcases order newest isNewest.listed with ⟨other, isOther, otherNamed, differs, _⟩ | first
    · rcases isNewest.newer other isOther otherNamed differs with _ | ⟨_, -⟩
      · omega
      · omega
    · exact first
  · intro none_
    obtain ⟨entry, mem, isNamed⟩ := named
    exact absurd isNamed (none_ entry mem)

/-- After `app:1` and `app:2` were installed in this order, a load of `app` loads `app:2`, the open
of `app` for reading holds `app:1`, and the unlink of `app` removes `app:1`. -/
theorem bare_name_unlinks_older :
    (registryMapLayers sample (versionsOfApp (ascii "app:1") (ascii "app:2"))
        ⟨ascii "app", []⟩).1.map Prod.fst = .ok ⟨ascii "app", ascii "2"⟩ ∧
    (openImageRead sample ⟨[.free], versionsOfApp (ascii "app:1") (ascii "app:2")⟩
        (ascii "app")).1 = .ok (0, some ⟨⟨ascii "app", ascii "1"⟩, 1⟩) ∧
    (registryRead sample (regUnlink sample
        ⟨[], versionsOfApp (ascii "app:1") (ascii "app:2")⟩ (imagePath (ascii "app"))).2.registry
        maxRegEntries).2.1 = [⟨⟨ascii "app", ascii "2"⟩, 1⟩] := by
  decide +kernel

end WantedEngine.Registry
