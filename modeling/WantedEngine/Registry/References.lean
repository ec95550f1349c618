import WantedEngine.Lifecycle.Supervisor
import WantedEngine.Registry.Lookup
/-!
# References to images

A start takes an image reference `<name>[:<tag>]` from its control line, from the launch config or
from the supervisor's path, and copies the two parts into the fields of a `reg_entry_t`, which hold
fourteen bytes each. What does not fit is cut and not refused (`reference_exact_iff`). The supervisor
of a reference without a tag is also looked up in a listing, for its version to be compared with that
of the bundled image (`prefers_bundled_iff`). Versions are ordered by `versionNewer_orders`.

An `unsigned long` has any number of bits: `version.c` is built for targets of 32 and of 64.
-/
namespace WantedEngine.Registry

open Foundation Page List

variable {σ : Type} (sys : System σ)

/-! ### The parts of a reference -/

def isBlank (c : UInt8) : Bool := c = 32 ∨ c = 9

/-- The image of a control write that starts a wapp, empty when it names none. -/
def startLine (buf : Bytes) : Rc Bytes :=
  if wappsLineMax ≤ buf.length then .error .emsgsize
  else
    let line := cString (buf.reverse.dropWhile fun c => isBlank c || c = 10 || c = 13).reverse
    if line.take 5 = ascii "start" ∧ (line.drop 5).head?.all isBlank then
      let image := (line.drop 5).dropWhile isBlank
      if wappMaxImageRefLen ≤ image.length then .error .einval else .ok image
    else .error .einval

/-- The `image` field of a launch config, as `parseWappParams` copies it. -/
def configImage (image : Bytes) : Bytes := (cString image).take (wappMaxImageRefLen - 1)

/-- The reference of a supervisor path, when `supervisorIsRegistryRef` finds one. -/
def supervisorRef (path : Bytes) : Option Bytes :=
  if path.take 9 = ascii "registry:" ∧ path.drop 9 ≠ [] then some (path.drop 9) else none

/-- The entry that `startWapp` and `loadSupervisorFromRegistry` hand to `RegistryLoad`. -/
def entryOfRef (ref : Bytes) : Entry :=
  if 58 ∈ ref then
    ⟨(ref.takeWhile (· ≠ 58)).take (wappMaxNameLen - 1),
      ((ref.dropWhile (· ≠ 58)).drop 1).take (wappMaxVersionLen - 1)⟩
  else ⟨ref.take (wappMaxNameLen - 1), []⟩

/-- The name and the version that are written in a reference. -/
def written (ref : Bytes) : Entry := ⟨ref.takeWhile (· ≠ 58), (ref.dropWhile (· ≠ 58)).drop 1⟩

/-- How a reference reaches `RegistryLoad`. -/
inductive Handed : Bytes → Entry → Prop where
  /-- By a control write. -/
  | start {buf ref : Bytes} (line : startLine buf = .ok ref) (named : ref ≠ []) :
    Handed ref (entryOfRef ref)
  /-- By a launch config. -/
  | cfg (image : Bytes) : Handed (cString image) (entryOfRef (configImage image))
  /-- By the path of the supervisor. -/
  | supervisor {path ref : Bytes} (isRef : supervisorRef path = some ref) :
    Handed ref (entryOfRef ref)

/-- Both parts of a reference fit their fields. -/
def PartsFit (ref : Bytes) : Prop :=
  (written ref).name.length < wappMaxNameLen ∧ (written ref).version.length < wappMaxVersionLen

/-- The parts are copied as far as they fit. -/
lemma entryOfRef_eq (ref : Bytes) :
    entryOfRef ref = ⟨(written ref).name.take 14, (written ref).version.take 14⟩ := by
  unfold entryOfRef written
  split
  · rfl
  rename_i whole
  obtain ⟨name, version⟩ := takeWhile_of_unseparated whole
  rw [name, version]
  rfl

lemma fits_of_entryOfRef {text ref : Bytes} (same : entryOfRef text = written ref) : PartsFit ref := by
  rw [PartsFit, ← same, entryOfRef_eq]
  exact ⟨Nat.lt_succ_of_le (length_take_le _ _), Nat.lt_succ_of_le (length_take_le _ _)⟩

lemma entryOfRef_of_fits {ref : Bytes} (fits : PartsFit ref) : entryOfRef ref = written ref := by
  rw [entryOfRef_eq, take_of_length_le (Nat.le_of_lt_succ fits.1),
    take_of_length_le (Nat.le_of_lt_succ fits.2)]

lemma PartsFit.length {ref : Bytes} (fits : PartsFit ref) : ref.length ≤ wappMaxImageRefLen - 1 := by
  have parts := congrArg List.length (takeWhile_append_dropWhile (p := (· ≠ 58)) (l := ref))
  have rest : (ref.dropWhile (· ≠ 58)).length ≤ (written ref).version.length + 1 := by
    show _ ≤ ((ref.dropWhile (· ≠ 58)).drop 1).length + 1
    rw [length_drop]
    omega
  have name : (ref.takeWhile (· ≠ 58)).length < 15 := fits.1
  have version : (written ref).version.length < 15 := fits.2
  rw [length_append] at parts
  show _ ≤ 30
  omega

/-- For every reference that a start takes, in whatever way: the entry that is to be loaded is the one
written in it iff both parts fit, and what a load of it returns then has that name and, if one
is written, that version. -/
theorem reference_exact_iff {ref : Bytes} {entry : Entry} (handed : Handed ref entry)
    (terminated : (0 : UInt8) ∉ ref) :
    (entry = written ref ↔ PartsFit ref) ∧
    (PartsFit ref → ∀ r key maps r', registryMapLayers sys r entry = (.ok (key, maps), r') →
      key.name = (written ref).name ∧
      ((written ref).version ≠ [] → key.version = (written ref).version)) := by
  have exact_ : entry = written ref ↔ PartsFit ref := by
    cases handed with
    | start line named | supervisor isRef => exact ⟨fits_of_entryOfRef, entryOfRef_of_fits⟩
    | cfg image =>
      refine ⟨fits_of_entryOfRef, fun fits => ?_⟩
      rw [configImage, take_of_length_le fits.length]
      exact entryOfRef_of_fits fits
  refine ⟨exact_, fun fits r key maps r' loaded => ?_⟩
  have isKey : keyFromEntry (written ref) = ⟨(written ref).name, (written ref).version⟩ := by
    have name : 0 ∉ (written ref).name :=
      fun inside => terminated ((List.takeWhile_prefix _).subset inside)
    have version : 0 ∉ (written ref).version := fun inside =>
      terminated ((dropWhile_suffix _).subset (mem_of_mem_drop inside))
    exact congrArg₂ Key.mk (cString_take_of_fits name (Nat.le_of_lt fits.1))
      (cString_take_of_fits version (Nat.le_of_lt fits.2))
  unfold registryMapLayers mapLayersLocked at loaded
  rw [exact_.mpr fits, isKey] at loaded
  split at loaded
  · cases loaded
  rename_i resolved
  split at loaded
  · cases loaded
  cases loaded
  obtain ⟨named, -, versioned⟩ := resolve_reads resolved
  exact ⟨named, fun tagged => congrArg Key.version (versioned tagged)⟩

/-- The reference of `start app:1` fits, and is loaded as it is written. -/
theorem reference_exact_app : entryOfRef (ascii "app:1") = written (ascii "app:1") :=
  (reference_exact_iff sample (.start (show startLine (ascii "start app:1\n") =
    .ok (ascii "app:1") by decide) (by decide)) (by decide)).1.mpr ⟨by decide, by decide⟩

/-- `start` of an image with a name of fifteen bytes is accepted and loads the image whose name is the
first fourteen of them. -/
theorem reference_cut : startLine (ascii "start abcdefghijklmno") = .ok (ascii "abcdefghijklmno") ∧
    entryOfRef (ascii "abcdefghijklmno") = ⟨ascii "abcdefghijklmn", []⟩ := by
  decide

/-! ### The bundled supervisor -/

def isDigit (c : UInt8) : Bool := 48 ≤ c ∧ c ≤ 57

/-- The parts that the loop of `parse` reads, at most so many, and what is left of the text. A part is
wrapped to the machine's word after each digit. -/
def parseParts (wrap : Nat → Nat) : Nat → Bytes → List Nat × Bytes
  | 0, text => ([], text)
  | more + 1, text =>
    let digits := text.takeWhile isDigit
    let rest := text.dropWhile isDigit
    if digits = [] then ([], text)
    else
      let part := digits.foldl (fun part c => wrap (part * 10 + (c - 48).toNat)) 0
      if rest.head? = some 46 then (parseParts wrap more (rest.drop 1)).map (part :: ·) id
      else ([part], rest)

/-- `parse`: the parts of a version, and whether a suffix follows. -/
def parseVersion (wrap : Nat → Nat) (text : Bytes) : List Nat × Bool :=
  let start := if text.head? = some 118 ∨ text.head? = some 86 then text.drop 1 else text
  (parseParts wrap 3 start).map id fun rest => rest.head? = some 45 ∨ rest.head? = some 43

/-- `VersionNewer`, where an `unsigned long` has so many bits. -/
def versionNewer (bits : Nat) (a b : Bytes) : Bool :=
  let (partsA, pastA) := parseVersion (· % 2 ^ bits) a
  let (partsB, pastB) := parseVersion (· % 2 ^ bits) b
  if partsA = [] then false
  else if partsB = [] then true
  else
    match [0, 1, 2].find? fun i => partsA.getD i 0 ≠ partsB.getD i 0 with
    | some i => partsB.getD i 0 < partsA.getD i 0
    | none => pastA && !pastB

/-! ### The order of versions -/

/-- The version as it is written: its numbers by value. -/
def writtenVersion (text : Bytes) : List Nat × Bool := parseVersion id text

/-- What versions are ordered by: nothing where no number is read, and else three numbers, a missing
one zero, and the suffix. -/
def versionRank (version : List Nat × Bool) : List Nat :=
  if version.1 = [] then []
  else [version.1.getD 0 0, version.1.getD 1 0, version.1.getD 2 0, version.2.toNat]

/-- The numbers of a version are below the range of the word. -/
def FitsWord (bits : Nat) (text : Bytes) : Prop := ∀ part ∈ (writtenVersion text).1, part < 2 ^ bits

/-- `VersionNewer` is the order of what was read. -/
lemma versionNewer_iff (bits : Nat) (a b : Bytes) : versionNewer bits a b = true ↔
    versionRank (parseVersion (· % 2 ^ bits) b) < versionRank (parseVersion (· % 2 ^ bits) a) := by
  unfold versionNewer versionRank
  generalize parseVersion (· % 2 ^ bits) a = va, parseVersion (· % 2 ^ bits) b = vb
  obtain ⟨partsA, pastA⟩ := va
  obtain ⟨partsB, pastB⟩ := vb
  dsimp only
  split_ifs with noneA noneB
  · simp
  · simp
  · simp
  -- The first part that differs decides.
  simp only [find?_cons, find?_nil, cons_lt_cons_iff]
  by_cases first : partsB.getD 0 0 = partsA.getD 0 0
  · by_cases second : partsB.getD 1 0 = partsA.getD 1 0
    · by_cases third : partsB.getD 2 0 = partsA.getD 2 0
      · simp only [first, second, third]
        cases pastA <;> cases pastB <;> simp
      · simp [-getD_eq_getElem?_getD, first, second, third, Ne.symm third]
    · simp [-getD_eq_getElem?_getD, first, second, Ne.symm second]
  · simp [-getD_eq_getElem?_getD, first, Ne.symm first]

/-- Wrapping after each digit wraps the number that is written. -/
lemma parseParts_wrapped (bits more : Nat) (text : Bytes) :
    parseParts (· % 2 ^ bits) more text = (parseParts id more text).map (·.map (· % 2 ^ bits)) id := by
  induction more generalizing text with
  | zero => rfl
  | succ more ih =>
    have first := foldl_wraps 10 (2 ^ bits) (fun c : UInt8 => (c - 48).toNat) (text.takeWhile isDigit) 0
    rw [Nat.zero_mod] at first
    simp only [parseParts, first, ih]
    split_ifs <;> rfl

/-- What is read of a version is what is written, each number wrapped. -/
lemma parseVersion_wrapped (bits : Nat) (text : Bytes) :
    parseVersion (· % 2 ^ bits) text = (writtenVersion text).map (·.map (· % 2 ^ bits)) id := by
  rw [writtenVersion, parseVersion, parseVersion, parseParts_wrapped]
  rfl

/-- The numbers of a version that fit the word are read by value. -/
lemma parseVersion_fits {bits : Nat} {text : Bytes} (fits : FitsWord bits text) :
    parseVersion (· % 2 ^ bits) text = writtenVersion text := by
  rw [parseVersion_wrapped]
  refine Prod.ext ?_ rfl
  exact (map_congr_left fun part mem => Nat.mod_eq_of_lt (fits part mem)).trans (map_id _)

/-- At most so many parts are read. -/
lemma parseParts_length (wrap : Nat → Nat) (more : Nat) (text : Bytes) :
    (parseParts wrap more text).1.length ≤ more := by
  induction more generalizing text with
  | zero => exact Nat.zero_le _
  | succ more ih =>
    rw [parseParts]
    dsimp only
    split_ifs
    · exact Nat.zero_le _
    · exact Nat.succ_le_succ (ih _)
    · exact Nat.succ_le_succ (Nat.zero_le _)

/-- Every number can be written. -/
lemma exists_digits (n : Nat) : ∃ digits : Bytes, digits ≠ [] ∧ (∀ c ∈ digits, isDigit c = true) ∧
    digits.foldl (fun part c => part * 10 + (c - 48).toNat) 0 = n := by
  have table : ∀ digit : Fin 10, isDigit (UInt8.ofNat (48 + digit.val)) = true ∧
      (UInt8.ofNat (48 + digit.val) - 48).toNat = digit.val := by decide
  induction n using Nat.strong_induction_on with
  | _ n ih =>
    obtain ⟨isDigit, value⟩ := table ⟨n % 10, Nat.mod_lt _ (by decide)⟩
    by_cases small : n < 10
    · refine ⟨[UInt8.ofNat (48 + n % 10)], by simp, forall_mem_singleton.mpr isDigit, ?_⟩
      rw [foldl_cons, foldl_nil, value, Nat.zero_mul, Nat.zero_add]
      exact Nat.mod_eq_of_lt small
    · obtain ⟨digits, -, all, front⟩ := ih (n / 10) (by omega)
      refine ⟨digits ++ [UInt8.ofNat (48 + n % 10)], by simp,
        forall_mem_append.mpr ⟨all, forall_mem_singleton.mpr isDigit⟩, ?_⟩
      rw [foldl_append, front, foldl_cons, foldl_nil, value]
      exact Nat.div_add_mod' n 10

/-- A number in front of other text is read as the first part. -/
lemma parseParts_digits {digits rest : Bytes} (some_ : digits ≠ [])
    (all : ∀ c ∈ digits, isDigit c = true) (ends : ∀ c ∈ rest.head?, isDigit c = false) (more : Nat) :
    parseParts id (more + 1) (digits ++ rest) =
      if rest.head? = some 46 then (parseParts id more (rest.drop 1)).map
        (digits.foldl (fun part c => part * 10 + (c - 48).toNat) 0 :: ·) id
      else ([digits.foldl (fun part c => part * 10 + (c - 48).toNat) 0], rest) := by
  have stops : rest.takeWhile isDigit = [] ∧ rest.dropWhile isDigit = rest := by
    cases rest with
    | nil => exact ⟨rfl, rfl⟩
    | cons c rest => simp [ends c rfl]
  have front : (digits ++ rest).takeWhile isDigit = digits := by
    rw [takeWhile_append_of_pos all, stops.1, append_nil]
  have back : (digits ++ rest).dropWhile isDigit = rest := by
    rw [dropWhile_append_of_pos all, stops.2]
  rw [parseParts, front, back]
  simp only [if_neg some_, id]

/-- Every three numbers, with or without a suffix, are a version. -/
lemma exists_version (first second third : Nat) (past : Bool) :
    ∃ text, writtenVersion text = ([first, second, third], past) := by
  obtain ⟨a, someA, allA, rfl⟩ := exists_digits first
  obtain ⟨b, someB, allB, rfl⟩ := exists_digits second
  obtain ⟨c, someC, allC, rfl⟩ := exists_digits third
  refine ⟨a ++ 46 :: (b ++ 46 :: (c ++ if past then [45] else [])), ?_⟩
  have plain : ∀ {rest : Bytes}, ¬ ((a ++ rest).head? = some 118 ∨ (a ++ rest).head? = some 86) := by
    intro rest
    cases a with
    | nil => exact absurd rfl someA
    | cons digit a =>
      have isDigit := allA digit mem_cons_self
      rintro (start | start) <;> cases start <;> cases isDigit
  have dot : ∀ {rest : Bytes}, ∀ c ∈ ((46 : UInt8) :: rest).head?, isDigit c = false := by
    rintro rest c ⟨⟩
    rfl
  rw [writtenVersion, parseVersion, if_neg plain, parseParts_digits someA allA dot, if_pos head?_cons,
    drop_one, tail_cons, parseParts_digits someB allB dot, if_pos head?_cons, drop_one, tail_cons,
    parseParts_digits someC allC (by cases past <;> simp [isDigit])]
  cases past <;> rfl

/-- No version is newer than itself. -/
lemma versionNewer_self (bits : Nat) (a : Bytes) : versionNewer bits a a = false := by
  rw [← Bool.not_eq_true, versionNewer_iff]
  exact List.lt_irrefl _

/-- Two versions are compared by the values of their numbers, both ways. -/
def ByValue (bits : Nat) (a b : Bytes) : Prop :=
  (versionNewer bits a b = true ↔ versionRank (writtenVersion b) < versionRank (writtenVersion a)) ∧
    (versionNewer bits b a = true ↔ versionRank (writtenVersion a) < versionRank (writtenVersion b))

/-- A version that is compared by value with every version of small numbers has small numbers: else the
version with the numbers as they are read compares as its equal. -/
lemma fitsWord_of_byValue {bits : Nat} {a : Bytes}
    (byValue : ∀ other, FitsWord bits other → ByValue bits a other) : FitsWord bits a := by
  intro part mem
  obtain ⟨other, written⟩ := exists_version ((writtenVersion a).1.getD 0 0 % 2 ^ bits)
    ((writtenVersion a).1.getD 1 0 % 2 ^ bits) ((writtenVersion a).1.getD 2 0 % 2 ^ bits)
    (writtenVersion a).2
  have fits : FitsWord bits other := by
    intro part mem
    rw [written] at mem
    have positive := Nat.two_pow_pos bits
    simp only [mem_cons, not_mem_nil, or_false] at mem
    rcases mem with rfl | rfl | rfl <;> exact Nat.mod_lt _ positive
  have some_ : (writtenVersion a).1 ≠ [] := ne_nil_of_mem mem
  have read (i : Nat) : ((writtenVersion a).1.map (· % 2 ^ bits)).getD i 0 =
      (writtenVersion a).1.getD i 0 % 2 ^ bits :=
    (congrArg (getD _ i) (Nat.zero_mod _).symm).trans (getD_map ..)
  have same : versionRank (parseVersion (· % 2 ^ bits) a) = versionRank (writtenVersion other) := by
    rw [parseVersion_wrapped, written]
    simp only [versionRank, Prod.map_fst, map_eq_nil_iff, if_neg some_, read]
    rfl
  obtain ⟨newer, older⟩ := byValue other fits
  rw [versionNewer_iff, parseVersion_fits fits, same] at newer older
  have equal : versionRank (writtenVersion a) = versionRank (writtenVersion other) :=
    List.le_antisymm (fun less => List.lt_irrefl _ (newer.mpr less))
      fun less => List.lt_irrefl _ (older.mpr less)
  rw [written, versionRank, if_neg some_] at equal
  injection equal with first equal
  injection equal with second equal
  injection equal with third equal
  obtain ⟨i, bound, rfl⟩ := getElem_of_mem mem
  have few := parseParts_length id 3 (if a.head? = some 118 ∨ a.head? = some 86 then a.drop 1 else a)
  have small : (writtenVersion a).1.getD i 0 < 2 ^ bits := by
    have near : i < 3 := Nat.lt_of_lt_of_le bound few
    obtain rfl | rfl | rfl : i = 0 ∨ i = 1 ∨ i = 2 := by omega
    · exact first ▸ Nat.mod_lt _ (Nat.two_pow_pos bits)
    · exact second ▸ Nat.mod_lt _ (Nat.two_pow_pos bits)
    · exact third ▸ Nat.mod_lt _ (Nat.two_pow_pos bits)
  rwa [getD_eq_getElem _ _ bound] at small

/-- For every width of the word and all texts: `VersionNewer` is irreflexive, transitive and asymmetric;
and it compares a version by value with every version whose numbers are below the word's range exactly
when the numbers of this version are. -/
theorem versionNewer_orders (bits : Nat) (a b c : Bytes) : versionNewer bits a a = false ∧
      (versionNewer bits a b = true → versionNewer bits b c = true → versionNewer bits a c = true) ∧
      (versionNewer bits a b = true → versionNewer bits b a = false) ∧
      ((∀ other, FitsWord bits other → ByValue bits a other) ↔ FitsWord bits a) := by
  refine ⟨versionNewer_self bits a, ?_, ?_, fitsWord_of_byValue, fun fits other otherFits => ?_⟩
  · rw [versionNewer_iff, versionNewer_iff, versionNewer_iff]
    exact fun newer than => List.lt_trans than newer
  · rw [← Bool.not_eq_true, versionNewer_iff, versionNewer_iff]
    exact fun newer => List.lt_asymm newer
  · rw [ByValue, versionNewer_iff, versionNewer_iff, parseVersion_fits fits, parseVersion_fits otherFits]
    exact ⟨Iff.rfl, Iff.rfl⟩

/-- `v1.10-x` is newer than `1.9`, on a machine of 32 bits. -/
theorem versionNewer_orders_ten : versionNewer 32 (ascii "v1.10-x") (ascii "1.9") = true :=
  (((versionNewer_orders 32 (ascii "v1.10-x") [] []).2.2.2.mpr (by unfold FitsWord; decide)
    (ascii "1.9") (by unfold FitsWord; decide)).1).mpr (by decide)

/-- Where an `unsigned long` has 64 bits, a number of 2^64 is read as zero. -/
theorem versionNewer_wraps : writtenVersion (ascii "18446744073709551616") = ([2 ^ 64], false) ∧
      writtenVersion (ascii "1") = ([1], false) ∧
      versionNewer 64 (ascii "18446744073709551616") (ascii "1") = false := by
  decide +kernel

/-! ### Which supervisor image runs -/

/-- `installedSupervisorVersion`: the version of the first entry of the name, of the first
`CONFIG_WANTED_MAX_WAPPS` that a listing shows. -/
def installedSupervisorVersion (r : State σ) (ref : Bytes) : Option Bytes :=
  if 58 ∈ ref then none
  else
    ((registryRead sys r sys.cfg.maxWapps).2.1.find? fun item =>
      item.entry.name = ref.take wappMaxNameLen).map fun item => item.entry.version

/-- `bundledSupervisorIsNewer` when the bundled image may be preferred. -/
def bundledSupervisorIsNewer (bits : Nat) (bundled path : Bytes) (r : State σ) : Bool :=
  ((supervisorRef path).bind (installedSupervisorVersion sys r)).any (versionNewer bits bundled)

/-- Whether `loadSupervisorImage` runs the bundled image in place of a configured one that loads. -/
def runsBundled (bits : Nat) (bundled path : Bytes) (r : State σ) (sup : Lifecycle.Supervisor) : Bool :=
  (Lifecycle.loadSupervisorImage ⟨true, bundledSupervisorIsNewer sys bits bundled path r, true, true⟩
    sup).ranBuiltin

/-- The version of the entry that the listing shows first under a name, of those it has room for. -/
def firstListed (r : State σ) (ref : Bytes) : Option Bytes :=
  (((readFrom sys r).take sys.cfg.maxWapps).find? fun entry =>
    ShownAs (ref.take wappMaxNameLen) entry).map fun entry => (entryOfKey entry.1).version

variable {sys}

/-- The bundled image runs iff it is newer than the version that is listed first. -/
lemma runsBundled_iff (bits : Nat) (bundled : Bytes) {path ref : Bytes}
    (isRef : supervisorRef path = some ref) (bare : (58 : UInt8) ∉ ref) (r : State σ)
    {sup : Lifecycle.Supervisor} (unpinned : sup.pinBuiltin = false) :
    runsBundled sys bits bundled path r sup = (firstListed sys r ref).any (versionNewer bits bundled) := by
  have listed : (registryRead sys r sys.cfg.maxWapps).2.1 =
      ((readFrom sys r).take sys.cfg.maxWapps).map shownItem := by
    unfold registryRead readFrom
    dsimp only
    cases listKeys sys (ensureReady sys r) with
    | error e => simp
    | ok keys => rfl
  have newer : bundledSupervisorIsNewer sys bits bundled path r =
      (firstListed sys r ref).any (versionNewer bits bundled) := by
    rw [bundledSupervisorIsNewer, isRef, Option.bind_some, installedSupervisorVersion, if_neg bare, listed,
      find?_map, Option.map_map]
    rfl
  rw [runsBundled, newer]
  cases firstListed sys r ref |>.any (versionNewer bits bundled) <;>
    simp [Lifecycle.loadSupervisorImage, Lifecycle.supervisorImage, unpinned]

/-- A reference without a tag loads the newest install of its name. -/
lemma loads_newest {ref : Bytes} (bare : (58 : UInt8) ∉ ref) {r : State σ} {key : Key}
    (loaded : (registryMapLayers sys r (entryOfRef ref)).1.map Prod.fst = .ok key) :
    ∃ record, Newest (readFrom sys r) (keyFromEntry (entryOfRef ref)).name (key, record) := by
  have isBare : keyFromEntry (entryOfRef ref) = ⟨(keyFromEntry (entryOfRef ref)).name, []⟩ := by
    rw [entryOfRef, if_neg bare]
    rfl
  rw [registryMapLayers, mapLayersLocked, isBare] at loaded
  cases listed : listKeys sys (ensureReady sys r) with
  | error e => simp [resolve, listed, Except.map] at loaded
  | ok keys =>
    rw [readFrom, listed]
    obtain ⟨⟨newest, record⟩, resolved, isNewest⟩ | ⟨resolved, -⟩ :=
      resolve_newest listed (keyFromEntry (entryOfRef ref)).name
    · rw [resolved] at loaded
      dsimp only at loaded
      split at loaded
      · cases loaded
      · cases loaded
        exact ⟨record, isNewest⟩
    · rw [resolved] at loaded
      cases loaded

/-- For every registry and every supervisor reference without a tag that loads: the newest install of the
name is loaded, and the bundled image is run instead of it iff it is newer, iff it is
newer than both or than neither of the newest install and the entry that is listed first. So it is for
every bundled version iff none of these two is newer than the other. -/
theorem prefers_bundled_iff (bits : Nat) {path ref : Bytes} (isRef : supervisorRef path = some ref)
    (bare : (58 : UInt8) ∉ ref) {r : State σ} {newest : Key}
    (loaded : (registryMapLayers sys r (entryOfRef ref)).1.map Prod.fst = .ok newest)
    {sup : Lifecycle.Supervisor} (unpinned : sup.pinBuiltin = false) :
    (∃ record, Newest (readFrom sys r) (keyFromEntry (entryOfRef ref)).name (newest, record)) ∧
    (∀ bundled, runsBundled sys bits bundled path r sup = versionNewer bits bundled newest.version ↔
      (firstListed sys r ref = none → versionNewer bits bundled newest.version = false) ∧
      ∀ first ∈ firstListed sys r ref,
        versionNewer bits bundled first = versionNewer bits bundled newest.version) ∧
    ((∀ bundled, runsBundled sys bits bundled path r sup = versionNewer bits bundled newest.version) ↔
      (firstListed sys r ref = none → ∀ bundled, versionNewer bits bundled newest.version = false) ∧
      ∀ first ∈ firstListed sys r ref, versionNewer bits first newest.version = false ∧
        versionNewer bits newest.version first = false) := by
  refine ⟨loads_newest bare loaded, fun bundled => ?_, ?_⟩
  · rw [runsBundled_iff bits bundled isRef bare r unpinned]
    cases firstListed sys r ref <;> simp [@eq_comm _ false]
  simp only [runsBundled_iff bits _ isRef bare r unpinned]
  cases firstListed sys r ref with
  | none => simp [@eq_comm _ false]
  | some first =>
    simp only [Option.any_some, reduceCtorEq, false_imp_iff, true_and, Option.mem_some_iff, forall_eq']
    constructor
    · -- each of the two is taken as the bundled version
      intro agrees
      rw [← agrees first, agrees newest.version, versionNewer_self, versionNewer_self]
      exact ⟨rfl, rfl⟩
    · rintro ⟨notNewer, notOlder⟩ bundled
      rw [← Bool.not_eq_true, versionNewer_iff] at notNewer notOlder
      rw [Bool.eq_iff_iff, versionNewer_iff, versionNewer_iff, List.le_antisymm notNewer notOlder]

/-- The engine before its first load. -/
def firstSupervisor : Lifecycle.Supervisor := ⟨none, none, false, false, false, 0, 0⟩

/-- With `app:3` installed before `app:1`, the bundled version 2 is run: `app:1` is both listed first
and loaded. -/
theorem prefers_bundled_app : runsBundled sample 64 (ascii "2") (ascii "registry:app")
      (versionsOfApp (ascii "app:3") (ascii "app:1")) firstSupervisor = true := by
  have loaded : (registryMapLayers sample (versionsOfApp (ascii "app:3") (ascii "app:1"))
      (entryOfRef (ascii "app"))).1.map Prod.fst = .ok ⟨ascii "app", ascii "1"⟩ := by decide +kernel
  have unpinned : firstSupervisor.pinBuiltin = false := rfl
  exact (((prefers_bundled_iff 64 (by decide) (by decide) loaded unpinned).2.1 (ascii "2")).mpr
    (by decide +kernel)).trans (by decide)

/-- With `app:1` installed before `app:3`, the bundled version 2 is run although `app:3` would be
loaded. -/
theorem older_bundled_preferred :
    (registryMapLayers sample (versionsOfApp (ascii "app:1") (ascii "app:3"))
      (entryOfRef (ascii "app"))).1.map Prod.fst = .ok ⟨ascii "app", ascii "3"⟩ ∧
    versionNewer 64 (ascii "2") (ascii "3") = false ∧
    runsBundled sample 64 (ascii "2") (ascii "registry:app")
      (versionsOfApp (ascii "app:1") (ascii "app:3")) firstSupervisor = true := by
  decide +kernel


end WantedEngine.Registry
