import WantedEngine.Registry.FileStore
import WantedEngine.Registry.ReadBack
/-!
# References that can be installed

An image is installed through a path that names its reference, `<name>` or `<name>:<tag>`, and the
driver refuses a reference outside the grammar before it names a file (`validInstallRef` of
`vfs-wanted-registry.c`). An accepted reference splits into a key whose record file parses back as
the key (`regFilesParseKey_recordText`), so that two accepted references have two files
(`recordText_injective`).
-/
namespace WantedEngine.Registry

open List

def isAlnum (char : UInt8) : Bool :=
  (65 ≤ char ∧ char ≤ 90) ∨ (97 ≤ char ∧ char ≤ 122) ∨ (48 ≤ char ∧ char ≤ 57) ∨ char = 95

def isRefChar (char : UInt8) : Bool := isAlnum char || char = 46 || char = 45

/-- `validRefComponent`: a name or a tag, shorter than `maxlen`. -/
def validRefComponent (text : Bytes) (maxlen : Nat) : Bool :=
  match text with
  | [] => false
  | first :: rest => text.length < maxlen && isAlnum first && rest.all isRefChar

/-- `validInstallRef`: `<name>` or `<name>:<tag>`, with no further separator. -/
def validInstallRef (ref : Bytes) : Bool :=
  let text := cString ref
  if 58 ∉ text then validRefComponent text wappMaxNameLen
  else
    let tag := (text.dropWhile (· ≠ 58)).drop 1
    if 58 ∈ tag then false
    else
      validRefComponent (text.takeWhile (· ≠ 58)) wappMaxNameLen &&
        validRefComponent tag wappMaxVersionLen

/-- The key of an accepted reference: its version is empty or of the same grammar as its name. -/
structure Accepted (key : Key) : Prop where
  name : validRefComponent key.name wappMaxNameLen = true
  version : key.version = [] ∨ validRefComponent key.version wappMaxVersionLen = true

def refText (key : Key) : Bytes :=
  if key.version = [] then key.name else key.name ++ 58 :: key.version

def recordText (key : Key) : Bytes :=
  key.name ++ registryVersionSeparator :: (key.version ++ registryRecExt)

/-! ### The characters of a component -/

variable {char : UInt8}

/-- A character of a component ends no string and separates nothing. -/
lemma isRefChar_plain (isChar : isRefChar char = true) :
    char ≠ 0 ∧ char ≠ 47 ∧ char ≠ 58 ∧ char ≠ registryVersionSeparator := by
  refine ⟨?_, ?_, ?_, ?_⟩
  all_goals
    rintro rfl
    exact absurd isChar (by decide)

lemma validRefComponent_spec {text : Bytes} {maxlen : Nat}
    (valid : validRefComponent text maxlen = true) :
    text ≠ [] ∧ text.length < maxlen ∧ (∀ char ∈ text, isRefChar char = true) ∧
      ∀ first, text.head? = some first → isAlnum first = true := by
  cases text with
  | nil => cases valid
  | cons first rest =>
    simp only [validRefComponent, Bool.and_eq_true, decide_eq_true_eq, all_eq_true] at valid
    obtain ⟨⟨short, start⟩, follow⟩ := valid
    refine ⟨cons_ne_nil _ _, short, ?_, ?_⟩
    · exact forall_mem_cons.mpr ⟨by simp [isRefChar, start], follow⟩
    intro char isFirst
    cases isFirst
    exact start

variable {key : Key}

variable (accepted : Accepted key)
include accepted

lemma Accepted.name_plain (mem : char ∈ key.name) :
    char ≠ 0 ∧ char ≠ 47 ∧ char ≠ 58 ∧ char ≠ registryVersionSeparator :=
  isRefChar_plain ((validRefComponent_spec accepted.name).2.2.1 char mem)

lemma Accepted.version_plain (mem : char ∈ key.version) :
    char ≠ 0 ∧ char ≠ 47 ∧ char ≠ 58 ∧ char ≠ registryVersionSeparator := by
  rcases accepted.version with empty | valid
  · rw [empty] at mem
    cases mem
  · exact isRefChar_plain ((validRefComponent_spec valid).2.2.1 char mem)

lemma Accepted.version_length : key.version.length < wappMaxVersionLen := by
  rcases accepted.version with empty | valid
  · rw [empty]
    decide
  · exact (validRefComponent_spec valid).2.1

lemma Accepted.fits : FitsEntry key :=
  ⟨fun zero => (accepted.name_plain zero).1 rfl, fun zero => (accepted.version_plain zero).1 rfl,
    (validRefComponent_spec accepted.name).2.1, accepted.version_length⟩

omit accepted

/-! ### Accepted references and their keys -/

lemma takeWhile_of_unseparated {text : Bytes} (whole : (58 : UInt8) ∉ text) :
    text.takeWhile (· ≠ 58) = text ∧ (text.dropWhile (· ≠ 58)).drop 1 = [] := by
  have all : ∀ char ∈ text, (decide (char ≠ 58)) = true :=
    fun char mem => decide_eq_true fun same => whole (same ▸ mem)
  refine ⟨takeWhile_eq_self_iff.mpr all, ?_⟩
  rw [dropWhile_eq_nil_iff.mpr all]
  rfl

lemma accepted_of_validInstallRef {ref : Bytes} (valid : validInstallRef ref = true) :
    ∃ key, parseRef ref = .ok key ∧ Accepted key ∧ cString ref = refText key := by
  have split : Accepted ⟨(cString ref).takeWhile (· ≠ 58), ((cString ref).dropWhile (· ≠ 58)).drop 1⟩ ∧
      cString ref = refText ⟨(cString ref).takeWhile (· ≠ 58),
        ((cString ref).dropWhile (· ≠ 58)).drop 1⟩ := by
    unfold validInstallRef at valid
    dsimp only at valid
    by_cases separated : (58 : UInt8) ∈ cString ref
    · rw [if_neg (not_not.mpr separated)] at valid
      split at valid
      · cases valid
      rw [Bool.and_eq_true] at valid
      refine ⟨⟨valid.1, .inr valid.2⟩, ?_⟩
      rw [refText, if_neg (validRefComponent_spec valid.2).1]
      exact (takeWhile_ne_append separated).symm
    · rw [if_pos separated] at valid
      obtain ⟨name, version⟩ := takeWhile_of_unseparated separated
      rw [name, version]
      exact ⟨⟨valid, .inl rfl⟩, rfl⟩
  obtain ⟨accepted, text⟩ := split
  refine ⟨_, ?_, accepted, text⟩
  obtain ⟨some, short, -⟩ := validRefComponent_spec accepted.name
  have shortVersion := accepted.version_length
  have nonempty : cString ref ≠ [] := by
    intro empty
    rw [empty] at some
    exact some rfl
  have lengths : ¬ (((cString ref).takeWhile (· ≠ 58)).length = 0 ∨
      registryKeyNameLen ≤ ((cString ref).takeWhile (· ≠ 58)).length ∨
      registryKeyNameLen ≤ (((cString ref).dropWhile (· ≠ 58)).drop 1).length) := by
    have positive := length_pos_of_ne_nil some
    unfold wappMaxNameLen at short
    unfold wappMaxVersionLen at shortVersion
    unfold registryKeyNameLen
    dsimp only at positive short shortVersion
    omega
  unfold parseRef
  rw [if_neg nonempty, if_neg lengths]

lemma accepted_of_parse {ref : Bytes} {key : Key} (valid : validInstallRef ref = true)
    (parsed : parseRef ref = .ok key) : Accepted key ∧ cString ref = refText key := by
  obtain ⟨_, isParsed, spec⟩ := accepted_of_validInstallRef valid
  rw [parsed] at isParsed
  cases isParsed
  exact spec

/-! ### The record files of accepted keys -/

lemma regFilesParseKey_recordText (accepted : Accepted key) :
    regFilesParseKey (recordText key) = some key := by
  obtain ⟨nonempty, short, -⟩ := validRefComponent_spec accepted.name
  have shortVersion := accepted.version_length
  have text : recordText key =
      (key.name ++ registryVersionSeparator :: key.version) ++ registryRecExt := by
    simp [recordText]
  have length : (recordText key).length - registryRecExt.length =
      (key.name ++ registryVersionSeparator :: key.version).length := by
    rw [text, length_append, Nat.add_sub_cancel]
  have stem : (recordText key).take ((recordText key).length - registryRecExt.length) =
      key.name ++ registryVersionSeparator :: key.version := by
    rw [length, text, take_left]
  have tail : (recordText key).drop ((recordText key).length - registryRecExt.length) =
      registryRecExt := by
    rw [length, text, drop_left]
  have long : registryRecExt.length < (recordText key).length := by
    rw [text, length_append, length_append, length_cons]
    omega
  have separated : registryVersionSeparator ∈ recordText key := by simp [recordText]
  have before : ∀ char ∈ key.name, decide (char ≠ registryVersionSeparator) = true :=
    fun char mem => decide_eq_true (accepted.name_plain mem).2.2.2
  have name : (key.name ++ registryVersionSeparator :: key.version).takeWhile
      (· ≠ registryVersionSeparator) = key.name := by
    rw [takeWhile_append_of_pos before]
    simp
  have version : ((key.name ++ registryVersionSeparator :: key.version).dropWhile
      (· ≠ registryVersionSeparator)).drop 1 = key.version := by
    rw [dropWhile_append_of_pos before]
    simp
  have shape : ¬ ((recordText key).length ≤ registryRecExt.length ∨
      (recordText key).drop ((recordText key).length - registryRecExt.length) ≠ registryRecExt ∨
      registryVersionSeparator ∉ recordText key) := by
    simp [tail, separated, long]
  have fits : ¬ (key.name = [] ∨ registryKeyNameLen ≤ key.name.length ∨
      registryKeyNameLen ≤ key.version.length) := by
    unfold wappMaxNameLen at short
    unfold wappMaxVersionLen at shortVersion
    unfold registryKeyNameLen
    simp only [nonempty, false_or]
    omega
  unfold regFilesParseKey
  rw [if_neg shape, stem, name, version, if_neg fits]

lemma recordText_injective {a b : Key} (acceptedA : Accepted a) (acceptedB : Accepted b)
    (same : recordText a = recordText b) : a = b := by
  have parsed := regFilesParseKey_recordText acceptedA
  rw [same, regFilesParseKey_recordText acceptedB] at parsed
  exact (Option.some.inj parsed).symm

include accepted

lemma recordText_direct : (47 : UInt8) ∉ recordText key := by
  intro slash
  rw [recordText, mem_append, mem_cons, mem_append] at slash
  rcases slash with inName | separator | inVersion | inExt
  · exact (accepted.name_plain inName).2.1 rfl
  · exact absurd separator (by decide)
  · exact (accepted.version_plain inVersion).2.1 rfl
  · exact absurd inExt (by decide)

lemma page_recordFile {pages : Page.PageConfig} : Page.recordFile pages key = .ok (recordText key) := by
  have name := regFilesKeyName_of_parse (regFilesParseKey_recordText accepted)
  unfold Page.recordFile
  rw [name]
  dsimp only
  rw [pages.walk_direct _ (recordText_direct accepted)]

lemma posix_recPath {files : Posix.FileConfig} : Posix.recPath files key = .ok (recordText key) := by
  have named : Posix.recordName files key = some (recordText key) :=
    Posix.recordName_of_parse (recordText_direct accepted) (regFilesParseKey_recordText accepted)
  unfold Posix.recordName at named
  split at named
  · cases named
  rename_i found
  cases named
  exact found

lemma posix_listable : Posix.Listable key :=
  ⟨recordText key, regFilesParseKey_recordText accepted, recordText_direct accepted⟩

lemma page_listable_iff : Page.Listable key ↔ key.name.head? ≠ some 95 := by
  obtain ⟨nonempty, -, -, start⟩ := validRefComponent_spec accepted.name
  obtain ⟨first, _, name⟩ := exists_cons_of_ne_nil nonempty
  have head : (recordText key).head? = some first := by
    rw [recordText, name]
    rfl
  have named := regFilesKeyName_of_parse (regFilesParseKey_recordText accepted)
  have noDot : first ≠ 46 := by
    intro dot
    have alnum := start first (by rw [name]; rfl)
    rw [dot] at alnum
    exact absurd alnum (by decide)
  have shown : visible (recordText key) = true ↔ first ≠ 95 := by
    simp [visible, head, noDot]
  rw [name, head?_cons, Ne, Option.some.injEq, ← Ne, ← shown]
  constructor
  · rintro ⟨_, isName, isVisible, -⟩
    rw [named] at isName
    cases isName
    exact isVisible
  · exact fun isVisible => ⟨_, named, isVisible, recordText_direct accepted,
      regFilesParseKey_recordText accepted⟩

end WantedEngine.Registry
