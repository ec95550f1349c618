import WantedEngine.Registry.Entries
import Mathlib.Data.List.AList
/-!
# Small records, one file each

The stores keep their records as files of a directory (`registry-files.h`). An entry record is
named after its key, `<name>@<version>.rec`; a blob record after the hexadecimal digits of its
digest (`registry-record.c`). A listing skips the names that start with a dot or an underscore,
so that it passes over files that are being put. A put replaces a file whole or not at all.
-/
namespace WantedEngine.Registry

open List Function AList

/-- The files of a directory by name, in the order a listing walks them. -/
abbrev Files := AList fun _ : Bytes => Bytes

/-- `RegFilesGet`: the content of a file of at most `cap` bytes. -/
def regFilesGet (files : Files) (name : Bytes) (cap : Nat) : Rc Bytes :=
  match files.lookup name with
  | none => .error .enoent
  | some content => if content.length ≤ cap then .ok content else .error .emsgsize

section

variable (pos : Rc Bytes) (files : Files) {content : Bytes}

/-- The content of the file that is found, if any is. -/
lemma regFilesGet_found (cap : Nat) (found : (match pos with
      | .error _ => none
      | .ok file => some file).bind files.lookup = some content) :
    (match pos with
      | .error e => Except.error e
      | .ok file => regFilesGet files file cap) =
      if content.length ≤ cap then .ok content else .error .emsgsize := by
  cases pos with
  | error e => cases found
  | ok file =>
    have present : files.lookup file = some content := found
    show regFilesGet files file cap = _
    rw [regFilesGet, present]

lemma regFilesGet_missing (cap : Nat) (missing : (match pos with
      | .error _ => none
      | .ok file => some file).bind files.lookup = none) :
    ∃ e, (match pos with
      | .error e => Except.error e
      | .ok file => regFilesGet files file cap) = .error e := by
  cases pos with
  | error e => exact ⟨e, rfl⟩
  | ok file =>
    have absent : files.lookup file = none := missing
    refine ⟨.enoent, ?_⟩
    show regFilesGet files file cap = _
    rw [regFilesGet, absent]

end

/-- A name that a listing does not skip: it starts with neither `.` nor `_`. -/
def visible (name : Bytes) : Bool := name.head? ≠ some 46 ∧ name.head? ≠ some 95

/-- The names `RegFilesList` visits. A name with a slash lies in another directory. -/
def regFilesNames (files : Files) : List Bytes :=
  files.keys.filter fun name => visible name ∧ (47 : UInt8) ∉ name

/-! ### The names of entry records -/

def registryRecExt : Bytes := ascii ".rec"

def registryVersionSeparator : UInt8 := 64

/-- `RegFilesKeyName` into the buffer of its callers, `REGISTRY_KEY_NAME_LEN * 2 + 8` bytes. -/
def regFilesKeyName (key : Key) : Rc Bytes :=
  let file := key.name ++ registryVersionSeparator :: (key.version ++ registryRecExt)
  if registryKeyNameLen * 2 + 8 ≤ file.length then .error .enametoolong else .ok file

/-- `RegFilesParseKey`: the key of a file name. -/
def regFilesParseKey (file : Bytes) : Option Key :=
  let stem := file.take (file.length - registryRecExt.length)
  if file.length ≤ registryRecExt.length ∨ file.drop (file.length - registryRecExt.length) ≠
      registryRecExt ∨ registryVersionSeparator ∉ file then none
  else
    let name := stem.takeWhile (· ≠ registryVersionSeparator)
    let version := (stem.dropWhile (· ≠ registryVersionSeparator)).drop 1
    if name = [] ∨ registryKeyNameLen ≤ name.length ∨ registryKeyNameLen ≤ version.length then
      none
    else some ⟨name, version⟩

lemma takeWhile_ne_append {value : UInt8} {bytes : Bytes} (mem : value ∈ bytes) :
    bytes.takeWhile (· ≠ value) ++ value :: (bytes.dropWhile (· ≠ value)).drop 1 = bytes := by
  induction bytes with
  | nil => cases mem
  | cons first rest ih =>
    by_cases same : first = value
    · simp [same]
    have later := ih ((mem_cons.mp mem).resolve_left (Ne.symm same))
    simp only [decide_not, drop_one] at later
    simp [same, later]

lemma regFilesKeyName_of_parse {file : Bytes} {key : Key}
    (parsed : regFilesParseKey file = some key) : regFilesKeyName key = .ok file := by
  unfold regFilesParseKey at parsed
  dsimp only at parsed
  split at parsed
  · cases parsed
  rename_i shape
  push Not at shape
  split at parsed
  · cases parsed
  rename_i lengths
  push Not at lengths
  cases parsed
  obtain ⟨-, ext, separated⟩ := shape
  have whole := take_append_drop (file.length - registryRecExt.length) file
  rw [← whole, ext, mem_append] at separated
  -- the extension has no separator
  have stem := takeWhile_ne_append (separated.resolve_right (by decide))
  rw [ext, ← stem, append_assoc, cons_append] at whole
  unfold regFilesKeyName
  rw [whole, if_neg]
  have total := congrArg List.length whole
  simp only [length_append, length_cons] at total
  have ext : registryRecExt.length = 4 := rfl
  omega

/-! ### The names of blob records -/

/-- `hexValue`: lower case digits only. -/
def hexValue (char : UInt8) : Option Nat :=
  if 48 ≤ char ∧ char ≤ 57 then some (char.toNat - 48)
  else if 97 ≤ char ∧ char ≤ 102 then some (char.toNat - 87)
  else none

def registryDigestToHex (digest : Digest) : Bytes :=
  digest.val.flatMap fun byte => [hexDigit (byte.toNat / 16), hexDigit (byte.toNat % 16)]

def hexBytes : Bytes → Option Bytes
  | [] => some []
  | [_] => none
  | high :: low :: rest =>
    match hexValue high, hexValue low, hexBytes rest with
    | some high, some low, some bytes => some ((high * 16 + low).toUInt8 :: bytes)
    | _, _, _ => none

def registryDigestFromHex (name : Bytes) : Option Digest :=
  match hexBytes name with
  | none => none
  | some bytes => if exact : bytes.length = 32 then some ⟨bytes, exact⟩ else none

variable {value : Nat}

/-- A digit has its value. -/
lemma hexValue_hexDigit (small : value < 16) : hexValue (hexDigit value) = some value := by
  have table : ∀ value : Fin 16, hexValue (hexDigit value) = some value.val := by decide
  exact table ⟨value, small⟩

lemma hexDigit_hexValue {char : UInt8} (read : hexValue char = some value) :
    value < 16 ∧ hexDigit value = char := by
  have table : ∀ char : Fin 256, (hexValue (.ofFin char)).all fun value =>
      value < 16 ∧ hexDigit value = .ofFin char := by decide +kernel
  have entry := table char.toFin
  rw [UInt8.ofFin_toFin, read, Option.all_some, decide_eq_true_eq] at entry
  exact entry

lemma hexBytes_digits (bytes : Bytes) :
    hexBytes (bytes.flatMap fun byte => [hexDigit (byte.toNat / 16), hexDigit (byte.toNat % 16)])
      = some bytes := by
  induction bytes with
  | nil => rfl
  | cons byte rest ih =>
    have small := byte.toNat_lt
    have joined : (byte.toNat / 16 * 16 + byte.toNat % 16).toUInt8 = byte := by
      rw [Nat.div_add_mod']
      exact UInt8.ofNat_toNat
    rw [flatMap_cons, cons_append, cons_append, nil_append, hexBytes,
      hexValue_hexDigit (by omega), hexValue_hexDigit (by omega), ih]
    dsimp only
    rw [joined]

lemma digits_hexBytes : ∀ {name bytes : Bytes}, hexBytes name = some bytes →
    (bytes.flatMap fun byte => [hexDigit (byte.toNat / 16), hexDigit (byte.toNat % 16)]) = name
  | [], bytes, read => by
    cases read
    rfl
  | [_], bytes, read => by cases read
  | high :: low :: rest, bytes, read => by
    rw [hexBytes] at read
    split at read
    · rename_i upper lower others readHigh readLow readRest
      cases read
      obtain ⟨_, digitHigh⟩ := hexDigit_hexValue readHigh
      obtain ⟨_, digitLow⟩ := hexDigit_hexValue readLow
      have value : (upper * 16 + lower).toUInt8.toNat = upper * 16 + lower := by
        simp only [UInt8.toNat_ofNat']
        omega
      rw [flatMap_cons, digits_hexBytes readRest, value,
        show (upper * 16 + lower) / 16 = upper by omega,
        show (upper * 16 + lower) % 16 = lower by omega, digitHigh, digitLow]
      rfl
    · cases read

@[simp] lemma registryDigestFromHex_toHex (digest : Digest) :
    registryDigestFromHex (registryDigestToHex digest) = some digest := by
  unfold registryDigestFromHex registryDigestToHex
  rw [hexBytes_digits]
  simp [digest.property]

variable {digest : Digest} {files : Files}

lemma registryDigestToHex_of_fromHex {name : Bytes}
    (read : registryDigestFromHex name = some digest) : registryDigestToHex digest = name := by
  unfold registryDigestFromHex at read
  split at read
  · cases read
  rename_i parsed
  split at read
  · cases read
    exact digits_hexBytes parsed
  · cases read

lemma registryDigestToHex_injective {a b : Digest}
    (same : registryDigestToHex a = registryDigestToHex b) : a = b := by
  have read := registryDigestFromHex_toHex a
  rw [same, registryDigestFromHex_toHex] at read
  exact (Option.some.inj read).symm

lemma hexDigit_plain (small : value < 16) :
    hexDigit value ≠ 46 ∧ hexDigit value ≠ 47 ∧ hexDigit value ≠ 95 := by
  have table : ∀ value : Fin 16, hexDigit value ≠ 46 ∧ hexDigit value ≠ 47 ∧
      hexDigit value ≠ 95 := by decide
  exact table ⟨value, small⟩

lemma registryDigestToHex_listed (digest : Digest) :
    visible (registryDigestToHex digest) ∧ (47 : UInt8) ∉ registryDigestToHex digest := by
  have plain : ∀ char ∈ registryDigestToHex digest, char ≠ 46 ∧ char ≠ 47 ∧ char ≠ 95 := by
    intro char mem
    simp only [registryDigestToHex, mem_flatMap, mem_cons, not_mem_nil, or_false] at mem
    obtain ⟨byte, _, rfl | rfl⟩ := mem
    · exact hexDigit_plain (Nat.div_lt_of_lt_mul byte.toNat_lt)
    · exact hexDigit_plain (Nat.mod_lt _ (by decide))
  refine ⟨?_, fun slash => (plain _ slash).2.1 rfl⟩
  unfold visible
  rw [decide_eq_true_eq]
  constructor
  · exact fun dot => (plain _ (mem_of_mem_head? dot)).1 rfl
  · exact fun underscore => (plain _ (mem_of_mem_head? underscore)).2.2 rfl

/-! ### Listings of blob records -/

/-- The digests a listing of blob records names. -/
def blobDigests (files : Files) : List Digest :=
  (regFilesNames files).filterMap registryDigestFromHex

/-- A digest is named when its file is there. -/
lemma mem_blobDigests : digest ∈ blobDigests files ↔ registryDigestToHex digest ∈ files := by
  unfold blobDigests regFilesNames
  simp only [mem_filterMap, mem_filter, decide_eq_true_eq]
  constructor
  · rintro ⟨_, ⟨mem, _⟩, read⟩
    rw [registryDigestToHex_of_fromHex read]
    exact mem
  · intro mem
    exact ⟨_, ⟨mem, registryDigestToHex_listed digest⟩, registryDigestFromHex_toHex digest⟩

lemma blobDigests_nodup (files : Files) : (blobDigests files).Nodup := by
  refine List.Nodup.filterMap ?_ (files.keys_nodup.filter _)
  intro a b digest readA readB
  rw [← registryDigestToHex_of_fromHex readA, ← registryDigestToHex_of_fromHex readB]

lemma blobDigests_insert (absent : registryDigestToHex digest ∉ files) :
    blobDigests (files.insert (registryDigestToHex digest) content) = digest :: blobDigests files := by
  have listed := registryDigestToHex_listed digest
  have keys : (files.insert (registryDigestToHex digest) content).keys =
      registryDigestToHex digest :: files.keys := by
    rw [AList.keys, entries_insert_of_notMem absent]
    rfl
  unfold blobDigests regFilesNames
  rw [keys, filter_cons_of_pos (by simp [listed]),
    filterMap_cons_some (registryDigestFromHex_toHex digest)]

lemma mem_blobDigests_erase {other : Digest} :
    other ∈ blobDigests (files.erase (registryDigestToHex digest)) ↔
      other ≠ digest ∧ other ∈ blobDigests files := by
  rw [mem_blobDigests, mem_blobDigests, mem_erase]
  constructor
  · exact fun ⟨ne, mem⟩ => ⟨fun same => ne (congrArg _ same), mem⟩
  · exact fun ⟨ne, mem⟩ => ⟨fun same => ne (registryDigestToHex_injective same), mem⟩

lemma blobDigests_erase_perm (mem : digest ∈ blobDigests files) :
    (blobDigests files).Perm (digest :: blobDigests (files.erase (registryDigestToHex digest))) := by
  have absent : digest ∉ blobDigests (files.erase (registryDigestToHex digest)) :=
    fun left => (mem_blobDigests_erase.mp left).1 rfl
  refine (perm_ext_iff_of_nodup (blobDigests_nodup files)
    (nodup_cons.mpr ⟨absent, blobDigests_nodup _⟩)).mpr fun other => ?_
  rw [mem_cons, mem_blobDigests_erase]
  by_cases same : other = digest
  · simp [same, mem]
  · simp [same]

/-! ### What a directory reads as -/

variable {α : Type} [DecidableEq α] (pos : α → Option Bytes) {self : α} {file : Bytes}

lemma lookup_insert_update (content : Bytes) (here : pos self = some file)
    (apart : ∀ other, pos other = some file → other = self) :
    (fun other => (pos other).bind (files.insert file content).lookup) =
      Function.update (fun other => (pos other).bind files.lookup) self (some content) := by
  funext other
  by_cases same : other = self
  · rw [same, update_self, here]
    exact lookup_insert _
  rw [update_of_ne same]
  cases isPlace : pos other with
  | none => rfl
  | some name =>
    exact lookup_insert_ne fun eq => same (apart other (eq ▸ isPlace))

lemma lookup_erase_update (here : pos self = some file)
    (apart : ∀ other, pos other = some file → other = self) :
    (fun other => (pos other).bind (files.erase file).lookup) =
      Function.update (fun other => (pos other).bind files.lookup) self none := by
  funext other
  by_cases same : other = self
  · rw [same, update_self, here]
    exact lookup_erase _ _
  rw [update_of_ne same]
  cases isPlace : pos other with
  | none => rfl
  | some name => exact lookup_erase_ne fun eq => same (apart other (eq ▸ isPlace))

lemma parsed_spec (files : Files) (shown : Bytes → Bool) {record : Key → Option Bytes}
    (named : ∀ {file key}, shown file = true → regFilesParseKey file = some key →
      record key = some file) :
    ((((files.keys.filter shown).filterMap regFilesParseKey).map record).Nodup ∧
      ∀ key ∈ (files.keys.filter shown).filterMap regFilesParseKey,
        ((record key).bind files.lookup).isSome = true) ∧
      ∀ {file key}, shown file = true → regFilesParseKey file = some key →
        ((record key).bind files.lookup).isSome = true →
        key ∈ (files.keys.filter shown).filterMap regFilesParseKey := by
  refine ⟨⟨?_, fun key mem => ?_⟩, fun {file key} isShown parsed present => ?_⟩
  · -- Files that parse are named apart, and each is the file of its key.
    have names : ∀ names : List Bytes, ((names.filter shown).filterMap regFilesParseKey).map record =
        ((names.filter shown).filter fun file => (regFilesParseKey file).isSome).map some := by
      intro names
      induction names with
      | nil => rfl
      | cons file rest ih =>
        cases isShown : shown file with
        | false => simpa [isShown] using ih
        | true =>
          cases parsed : regFilesParseKey file with
          | none => simpa [isShown, parsed] using ih
          | some key => simpa [isShown, parsed, named isShown parsed] using ih
    rw [names]
    exact ((files.keys_nodup.filter _).filter _).map fun _ _ same => Option.some.inj same
  · obtain ⟨file, mem, parsed⟩ := mem_filterMap.mp mem
    obtain ⟨present, isShown⟩ := mem_filter.mp mem
    rw [named isShown parsed]
    exact lookup_isSome.mpr present
  · rw [named isShown parsed] at present
    exact mem_filterMap.mpr ⟨file, mem_filter.mpr ⟨lookup_isSome.mp present, isShown⟩, parsed⟩

end WantedEngine.Registry
