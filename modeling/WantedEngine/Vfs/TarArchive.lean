import WantedEngine.Foundation.Overlay
import WantedEngine.Vfs.PathText
import WantedEngine.Vfs.TarLookup
import Mathlib.Data.List.TakeWhile
/-!
# Archives and their members

What a well-formed ustar archive is, and the item of an overlay that each of its members stands for.
A member's path is the list of its components here, where the index of `vfs-tarfs.c` has a text; an
entry of the index covers a path iff its item decides it (`covers_iff_decides`).
-/
namespace WantedEngine.Vfs

open Foundation Foundation.Overlay List

/-! ### Well-formed archives -/

def octalValue (digits : Bytes) : Nat :=
  digits.foldl (fun value digit => value * 8 + digitValue digit) 0

/-- A ustar header of a member with so much data: a name that leaves room for a NUL, one of the
types of ustar, and a size below 4 GiB in octal digits, ended by a NUL or a blank. -/
structure UstarHeader (header : Bytes) (size : Nat) : Prop where
  name : nameField header ≠ [] ∧ (nameField header).length < 100
  type : typeflag header = 0 ∨ 48 ≤ typeflag header ∧ typeflag header ≤ 55
  digits : ∃ digits ending rest, field header 124 12 = digits ++ ending :: rest ∧
    (∀ digit ∈ digits, isOctal digit = true) ∧ (ending = 0 ∨ ending = 32) ∧
    octalValue digits = size
  small : size < 2 ^ 32

/-- From an offset on, an archive has members with these headers, each with its data in whole blocks
behind it, and then two blocks of zeros. -/
inductive Archive (bytes : Bytes) : Nat → List Bytes → Prop where
  | ending {off : Nat} (inside : off + 2 * tarBlockSize ≤ bytes.length)
      (first : isZeroBlock (headerAt bytes off) = true)
      (second : isZeroBlock (headerAt bytes (off + tarBlockSize)) = true) : Archive bytes off []
  | member {off size : Nat} {rest : List Bytes} (ustar : UstarHeader (headerAt bytes off) size)
      (later : Archive bytes (nextOff off size) rest) :
      Archive bytes off (headerAt bytes off :: rest)

/-- The path of a member, without a `./` or `/` before it. -/
def memberName (header : Bytes) : Bytes :=
  let text := if prefixField header = [] then nameField header else joinedName header
  text.drop (leadLength text)

def components (path : Bytes) : List Bytes := path.splitOn slash

/-- The mark before the name that a whiteout deletes. -/
def whiteoutMark : Bytes := ascii ".wh."

/-- What a regular file at a path stands for. -/
def markedItem (path : List Bytes) : Item Bytes :=
  let name := path.getLastD []
  if name = opaqueName then .clearing path.dropLast
  else if whiteoutMark <+: name ∧ whiteoutMark ≠ name then
    .whiteout (path.dropLast ++ [name.drop whiteoutMark.length])
  else .file path

/-- The item of a member. Directories and links are none. -/
def memberItem (header : Bytes) : Option (Item Bytes) :=
  if isRegular header then some (markedItem (components (memberName header))) else none

def layerItems (headers : List Bytes) : List (Item Bytes) := headers.filterMap memberItem

/-- The components of a regular member are proper names. The name of the opaque mark is for that
mark alone: it names no directory, and no whiteout deletes it. -/
def WellNamed (header : Bytes) : Prop :=
  isRegular header = true →
    (∀ name ∈ components (memberName header), ProperName name) ∧
      opaqueName ∉ (components (memberName header)).dropLast ∧
      (components (memberName header)).getLastD [] ≠ whiteoutMark ++ opaqueName

instance (header : Bytes) : Decidable (WellNamed header) :=
  inferInstanceAs (Decidable (_ → (∀ _ ∈ _, _) ∧ _ ∧ _))

/-! ### Components of a path -/

section

variable {path dir : Bytes}

/-- A path has a component. -/
lemma components_ne_nil (path : Bytes) : components path ≠ [] := by
  exact splitOnP_ne_nil _ _

lemma components_inj {first second : Bytes} (same : components first = components second) :
    first = second := by
  calc
    first = [slash].intercalate (components first) := (intercalate_splitOn slash).symm
    _ = [slash].intercalate (components second) := by rw [same]
    _ = second := intercalate_splitOn slash

lemma components_intercalate {names : List Bytes} (free : ∀ name ∈ names, slash ∉ name)
    (some_ : names ≠ []) : components ([slash].intercalate names) = names :=
  splitOn_intercalate slash free some_

lemma components_of_free (free : slash ∉ path) : components path = [path] := by
  have text : [slash].intercalate [path] = path := by simp
  have back : components ([slash].intercalate [path]) = [path] :=
    components_intercalate (by simpa using free) (by simp)
  rw [text] at back
  exact back

lemma components_append (dir rest : Bytes) :
    components (dir ++ slash :: rest) = components dir ++ components rest :=
  splitOn_append_cons_self dir rest

lemma above_components_iff :
    Above (components dir) (components path) ↔ ∃ rest, path = dir ++ slash :: rest := by
  constructor
  · rintro ⟨⟨rest, same⟩, different⟩
    have some_ : rest ≠ [] := by
      rintro rfl
      rw [append_nil] at same
      exact different same
    have free : ∀ name ∈ rest, slash ∉ name := by
      intro name member
      apply slash_not_mem_component path
      change name ∈ components path
      rw [← same]
      exact mem_append_right _ member
    refine ⟨[slash].intercalate rest, components_inj ?_⟩
    rw [components_append, components_intercalate free some_, same]
  · rintro ⟨rest, rfl⟩
    rw [components_append]
    refine ⟨prefix_append _ _, ?_⟩
    intro same
    exact components_ne_nil rest (append_right_eq_self.mp same.symm)

lemma basename_cases (path : Bytes) : slash ∉ path ∧ pathBasename path = path ∨
      ∃ dir name, path = dir ++ slash :: name ∧ slash ∉ name ∧ pathBasename path = name := by
  have split : path.reverse.takeWhile (· ≠ slash) ++ path.reverse.dropWhile (· ≠ slash) =
      path.reverse := takeWhile_append_dropWhile
  have free : slash ∉ pathBasename path := by
    rw [pathBasename, mem_reverse]
    intro member
    have other := mem_takeWhile_imp member
    simp at other
  cases behind : path.reverse.dropWhile (· ≠ slash) with
  | nil =>
    left
    rw [behind, append_nil] at split
    have whole : pathBasename path = path := by rw [pathBasename, split, reverse_reverse]
    rw [whole] at free
    exact ⟨free, whole⟩
  | cons byte rest =>
    right
    have stops : byte = slash := by
      have first := head?_dropWhile_not (fun byte : UInt8 => decide (byte ≠ slash)) path.reverse
      rw [behind] at first
      simpa using first
    refine ⟨rest.reverse, pathBasename path, ?_, free, rfl⟩
    rw [behind, stops] at split
    calc
      path = path.reverse.reverse := (reverse_reverse path).symm
      _ = (path.reverse.takeWhile (· ≠ slash) ++ slash :: rest).reverse := by rw [split]
      _ = rest.reverse ++ slash :: pathBasename path := by
        rw [pathBasename, reverse_append, reverse_cons, append_assoc]
        rfl

lemma components_eq (path : Bytes) :
    components path = (components path).dropLast ++ [pathBasename path] := by
  obtain ⟨free, base⟩ | ⟨_, _, rfl, free, base⟩ := basename_cases path
  · rw [base, components_of_free free]
    rfl
  · rw [base, components_append, components_of_free free, dropLast_concat]

lemma getLastD_components (path : Bytes) : (components path).getLastD [] = pathBasename path := by
  rw [components_eq path, getLastD_concat]

lemma components_makeWhiteoutTarget (path : Bytes) : components (makeWhiteoutTarget path) =
      (components path).dropLast ++ [(pathBasename path).drop 4] := by
  obtain ⟨free, base⟩ | ⟨dir, name, rfl, free, base⟩ := basename_cases path
  · have rest : slash ∉ path.drop 4 := fun member => free (mem_of_mem_drop member)
    rw [makeWhiteoutTarget, base, Nat.sub_self, take_zero, nil_append,
      components_of_free rest, components_of_free free]
    rfl
  have rest : slash ∉ name.drop 4 := fun member => free (mem_of_mem_drop member)
  have front : (dir ++ slash :: name).take ((dir ++ slash :: name).length - name.length) =
      dir ++ [slash] := by
    have length : (dir ++ slash :: name).length - name.length = (dir ++ [slash]).length := by
      simp only [length_append, length_cons, length_nil]
      omega
    rw [length, append_cons dir slash name, take_left]
  rw [makeWhiteoutTarget, base, front, append_assoc, singleton_append,
    components_append, components_of_free rest, components_append, components_of_free free,
    dropLast_concat]

end

/-! ### Entries as items -/

/-- The item that an entry of the index stands for. -/
def entryItem (path : Bytes) : EntryLayer → Item Bytes
  | .layer _ => .file (components path)
  | .whiteout => .whiteout (components path)
  | .opq => .clearing (components path).dropLast

def Fitting (path : Bytes) (layer : EntryLayer) : Prop :=
  (entryItem path layer).place opaqueName = components path

/-- An entry covers a path iff its item decides the path. -/
lemma covers_iff_decides {entry : TarEntry} (fitting : Fitting entry.path entry.layer) (path : Bytes) :
    Covers entry path ↔ (entryItem entry.path entry.layer).Decides (components path) := by
  cases kind : entry.layer with
  | layer number =>
    simp only [Covers, kind, reduceCtorEq, and_false, or_false, exists_false, entryItem, Item.Decides]
    exact ⟨fun same => by rw [same], components_inj⟩
  | whiteout =>
    simp only [Covers, kind, reduceCtorEq, and_false, or_false, false_or, and_true, entryItem,
      Item.Decides]
    constructor
    · rintro (rfl | ⟨dir, rest, same, rfl⟩)
      · exact prefix_refl _
      · exact (above_components_iff.mpr ⟨rest, same⟩).1
    · intro begins
      by_cases same : components entry.path = components path
      · exact .inl (components_inj same)
      · obtain ⟨rest, beneath⟩ := above_components_iff.mp ⟨begins, same⟩
        exact .inr ⟨entry.path, rest, beneath, rfl⟩
  | opq =>
    rw [kind] at fitting
    have pos : (components entry.path).dropLast ++ [opaqueName] = components entry.path := fitting
    have unslashed : components opaqueName = [opaqueName] := by decide
    have reach : ∀ dir : Bytes,
        components (dir ++ [slash] ++ opaqueName) = components dir ++ [opaqueName] := by
      intro dir
      rw [append_assoc, singleton_append, components_append, unslashed]
    simp only [Covers, kind, reduceCtorEq, and_false, false_or, and_true, entryItem, Item.Decides]
    constructor
    · rintro (rfl | same | ⟨dir, rest, beneath, same⟩)
      · refine ⟨List.dropLast_prefix _, ?_⟩
        intro all
        rw [all] at pos
        exact absurd (append_right_eq_self.mp pos) (by simp)
      · rw [same, unslashed]
        exact ⟨List.nil_prefix, (components_ne_nil path).symm⟩
      · rw [same, reach, dropLast_concat]
        exact above_components_iff.mpr ⟨rest, beneath⟩
    · intro above
      right
      by_cases root : (components entry.path).dropLast = []
      · left
        apply components_inj
        rw [unslashed, ← pos, root]
        rfl
      right
      -- the directory as a text
      have free : ∀ name ∈ (components entry.path).dropLast, slash ∉ name :=
        fun name member => slash_not_mem_component entry.path name (mem_of_mem_dropLast member)
      have text := components_intercalate free root
      rw [← text] at above
      obtain ⟨rest, beneath⟩ := above_components_iff.mp above
      refine ⟨_, rest, beneath, components_inj ?_⟩
      rw [reach, text, pos]

lemma isWhiteoutPath_iff {path : Bytes} (notOpaque : pathBasename path ≠ opaqueName) :
    isWhiteoutPath path = true ↔
      whiteoutMark <+: pathBasename path ∧ whiteoutMark ≠ pathBasename path := by
  have length : whiteoutMark.length = 4 := by decide
  have begins : (pathBasename path).take 4 = ascii ".wh." ↔ whiteoutMark <+: pathBasename path := by
    rw [prefix_iff_eq_take, length]
    exact eq_comm
  simp only [isWhiteoutPath, isOpaquePath, notOpaque, decide_false, Bool.false_eq_true,
    not_false_eq_true, true_and, decide_eq_true_eq, begins]
  refine and_congr_right ?_
  intro front
  constructor
  · intro longer same
    rw [← same, length] at longer
    exact Nat.lt_irrefl _ longer
  · intro different
    have bound := front.length_le
    by_contra short
    exact different (front.eq_of_length (by omega))

lemma classify_item {host : TarHost} {layerIdx : Nat} {path : TarPath} {c after : TarCtx}
    {found : Draft} (ok : classify host layerIdx path c = .ok (found, after)) :
    entryItem found.path found.layer = markedItem (components path.text) ∧
      Fitting found.path found.layer ∧ found.path.length ≤ path.text.length := by
  have length : whiteoutMark.length = 4 := by decide
  rw [classify] at ok
  split_ifs at ok with terminated opaque_ white
  · obtain ⟨rfl, -⟩ := Prod.mk.inj (Except.ok.inj ok)
    have base : pathBasename path.text = opaqueName := by
      rw [isOpaquePath, decide_eq_true_eq] at opaque_
      exact opaque_
    have parts := components_eq path.text
    rw [base] at parts
    refine ⟨?_, parts.symm, Nat.le_refl _⟩
    rw [markedItem, getLastD_components, if_pos base]
    rfl
  all_goals
    have base : pathBasename path.text ≠ opaqueName := by
      rw [isOpaquePath, decide_eq_true_eq] at opaque_
      exact opaque_
    rw [isWhiteoutPath_iff base] at white
  · obtain ⟨_, -, ok⟩ := bind_eq_ok ok
    obtain ⟨_, -, ok⟩ := bind_eq_ok ok
    obtain ⟨rfl, -⟩ := Prod.mk.inj (Except.ok.inj ok)
    refine ⟨?_, rfl, ?_⟩
    · rw [markedItem, getLastD_components, if_neg base, if_pos white, length]
      exact congrArg Item.whiteout (components_makeWhiteoutTarget path.text)
    have bound : (pathBasename path.text).length ≤ path.text.length := by
      have whole : path.text.reverse.length = path.text.length := length_reverse
      rw [pathBasename, length_reverse, ← whole]
      exact (takeWhile_sublist _).length_le
    rw [makeWhiteoutTarget, length_append, length_take, length_drop]
    omega
  · obtain ⟨rfl, -⟩ := Prod.mk.inj (Except.ok.inj ok)
    refine ⟨?_, rfl, Nat.le_refl _⟩
    rw [markedItem, getLastD_components, if_neg base, if_neg white]
    rfl

lemma memberItem_unmarked {header : Bytes} {item : Item Bytes} (named : WellNamed header)
    (stands : memberItem header = some item) : item.Unmarked opaqueName := by
  rw [memberItem] at stands
  split at stands
  · rename_i regular
    obtain rfl := Option.some.inj stands
    obtain ⟨-, above, last⟩ := named regular
    have parts := components_eq (memberName header)
    rw [getLastD_components] at last
    rw [markedItem, getLastD_components]
    split
    · trivial
    rename_i base
    split
    · rename_i white
      rw [Item.Unmarked, mem_append, mem_singleton]
      rintro (inDir | same)
      · exact above inDir
      apply last
      rw [same]
      exact (prefix_append_drop white.1)
    · rw [Item.Unmarked, parts, mem_append, mem_singleton]
      rintro (inDir | same)
      · exact above inDir
      · exact base same.symm
  · cases stands

end WantedEngine.Vfs
