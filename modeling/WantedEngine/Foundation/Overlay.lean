import Mathlib.Data.List.Infix
/-!
# Layers over one another

Layers of a tree of files, each with files, whiteouts of a path and clearings of a directory, the
newest layer first. `merged` applies them to an empty tree, the oldest first.

A scan goes the other way. It reads the newest layer first and keeps an item only if nothing it has
kept decides the item's place, so what it keeps is less than what it has read. `Summary` says what
it keeps all the same: every decision about a path that has no file above it, and every file of the
merged tree (`Summary.file_iff_merged`).
-/
namespace WantedEngine.Foundation.Overlay

open List

universe u

variable {α : Type u}

/-- An entry of a layer. -/
inductive Item (α : Type u) where
  | file (path : List α)
  /-- The older path, and what is beneath it, is deleted. -/
  | whiteout (path : List α)
  /-- The older content of a directory is hidden. -/
  | clearing (dir : List α)
  deriving DecidableEq

def Above (dir path : List α) : Prop := dir <+: path ∧ dir ≠ path

/-- An item of a newer layer hides an older path. -/
def Item.Hides : Item α → List α → Prop
  | .file own, path => own <+: path
  | .whiteout gone, path => gone <+: path
  | .clearing dir, path => Above dir path

/-- An item of a newer layer hides an older path, and not because a file takes the place of a
directory. -/
def Item.Decides : Item α → List α → Prop
  | .file own, path => own = path
  | .whiteout gone, path => gone <+: path
  | .clearing dir, path => Above dir path

/-- The place an item takes; a clearing takes that of its mark in the directory. -/
def Item.place (mark : α) : Item α → List α
  | .file path => path
  | .whiteout path => path
  | .clearing dir => dir ++ [mark]

/-- The mark of a clearing names neither a file nor a deleted path, nor a directory of one. -/
def Item.Unmarked (mark : α) : Item α → Prop
  | .file path => mark ∉ path
  | .whiteout path => mark ∉ path
  | .clearing _ => True

section

variable [DecidableEq α]

instance (dir path : List α) : Decidable (Above dir path) :=
  inferInstanceAs (Decidable (dir <+: path ∧ dir ≠ path))

instance (item : Item α) (path : List α) : Decidable (item.Hides path) :=
  match item with
  | .file own => inferInstanceAs (Decidable (own <+: path))
  | .whiteout gone => inferInstanceAs (Decidable (gone <+: path))
  | .clearing dir => inferInstanceAs (Decidable (Above dir path))

/-- A layer over an older tree: its files, and of the older tree what it does not hide. -/
def apply (layer : List (Item α)) (older : List α → Option Nat) (path : List α) : Option Nat :=
  if .file path ∈ layer then some 0
  else if ∃ item ∈ layer, item.Hides path then none
  else (older path).map (· + 1)

/-- The tree of the layers, newest first: the number of the layer that a file comes from. -/
def merged : List (List (Item α)) → List α → Option Nat
  | [] => fun _ => none
  | layer :: older => apply layer (merged older)

variable {path : List α} {layers : List (List (Item α))} {dir middle path : List α}

/-- Where a file of the merged tree comes from: no newer layer hides its path. -/
lemma merged_eq_some_iff {number : Nat} : merged layers path = some number ↔
      (∃ layer, layers[number]? = some layer ∧ .file path ∈ layer) ∧
        ∀ item ∈ (layers.take number).flatten, ¬ item.Hides path := by
  induction layers generalizing number with
  | nil => simp [merged]
  | cons layer older ih =>
    rw [merged, apply]
    cases number with
    | zero =>
      split
      · rename_i own
        simp [own]
      rename_i other
      split
      · simp [other]
      · simp [other]
    | succ number =>
      have number_eq : (merged older path).map (· + 1) = some (number + 1) ↔
          merged older path = some number := by simp
      simp only [getElem?_cons_succ, take_succ_cons, flatten_cons, forall_mem_append]
      split
      · -- the file of the newest layer hides the older ones
        rename_i own
        have hides := prefix_refl path
        constructor
        · nofun
        · rintro ⟨-, here, -⟩
          exact absurd hides (here _ own)
      split
      · rename_i hidden
        obtain ⟨item, mem, hides⟩ := hidden
        constructor
        · nofun
        · rintro ⟨-, here, -⟩
          exact absurd hides (here item mem)
      · rename_i clear
        have here : ∀ item ∈ layer, ¬ item.Hides path :=
          fun item mem hides => clear ⟨item, mem, hides⟩
        rw [number_eq, ih, and_iff_right here]

end

/-- What decides a path hides it. -/
lemma Item.Decides.hides {item : Item α} (decides : item.Decides path) : item.Hides path := by
  cases item with
  | file own =>
    obtain rfl : own = path := decides
    exact prefix_refl own
  | whiteout gone => exact decides
  | clearing dir => exact decides

/-- What hides a path decides it, or is a file above it. -/
lemma Item.Hides.decides {item : Item α} (hides : item.Hides path) :
    item.Decides path ∨ ∃ own, item = .file own ∧ Above own path := by
  cases item with
  | file own =>
    by_cases same : own = path
    · exact .inl same
    · exact .inr ⟨own, rfl, hides, same⟩
  | whiteout gone => exact .inl hides
  | clearing dir => exact .inl hides

/-- A directory above one that a path begins with is above the path. -/
lemma Above.trans_prefix (above : Above dir middle) (begins : middle <+: path) : Above dir path := by
  refine ⟨above.1.trans begins, ?_⟩
  rintro rfl
  exact above.2 (above.1.eq_of_length_le begins.length_le)

/-- A directory that a path begins with, above which another path lies. -/
lemma Above.of_prefix (begins : dir <+: middle) (above : Above middle path) : Above dir path := by
  refine ⟨begins.trans above.1, ?_⟩
  rintro rfl
  exact above.2 (above.1.eq_of_length_le begins.length_le)

/-- What decides the place of an item decides the paths that the item decides, unless it is a file
above them. -/
lemma Item.Decides.trans {mark : α} {item other : Item α} (unmarked : item.Unmarked mark)
    (place : item.Decides (other.place mark)) (decides : other.Decides path) :
    item.Decides path ∨ ∃ own, item = .file own ∧ Above own path := by
  cases other with
  | file own =>
    obtain rfl : own = path := decides
    exact .inl place
  | whiteout gone =>
    have begins := decides
    cases item with
    | file own =>
      obtain rfl : own = gone := place
      have hides : (Item.file own).Hides path := begins
      exact hides.decides
    | whiteout above => exact .inl (List.IsPrefix.trans place begins)
    | clearing dir => exact .inl (Above.trans_prefix place begins)
  | clearing dir =>
    have beneath := decides
    -- what begins the place of a mark is the place itself, or begins the directory
    have shorter : ∀ {first : List α}, first <+: dir ++ [mark] → mark ∉ first → first <+: dir := by
      intro first begins free
      obtain rfl | within := prefix_concat_iff.mp begins
      · exact absurd (mem_append_right dir (mem_singleton_self mark)) free
      · exact within
    cases item with
    | file own =>
      obtain rfl : own = dir ++ [mark] := place
      exact absurd (mem_append_right dir (mem_singleton_self mark)) unmarked
    | whiteout gone =>
      have begins := shorter place unmarked
      exact .inl (begins.trans beneath.1)
    | clearing above =>
      obtain ⟨begins, different⟩ : Above above (dir ++ [mark]) := place
      obtain same | within := prefix_concat_iff.mp begins
      · exact absurd same different
      · exact .inl (Above.of_prefix within beneath)

/-! ### Scanning from the newest layer -/

/-- What a scan has kept of the layers it has read, newest first. -/
structure Summary (before : List (List (Item α))) (kept : Nat → Item α → Prop) : Prop where
  /-- What is kept was read. -/
  read : ∀ number item, kept number item → ∃ layer, before[number]? = some layer ∧ item ∈ layer
  /-- What was read and decides a path without a file above it is kept, or something is that decides
  the path too. -/
  decided : ∀ path, (∀ own, .file own ∈ before.flatten → ¬ Above own path) →
    ∀ item ∈ before.flatten, item.Decides path → ∃ number other, kept number other ∧
      other.Decides path
  /-- The files kept are those that no newer layer decides. -/
  files : ∀ number path, kept number (.file path) ↔
    (∃ layer, before[number]? = some layer ∧ .file path ∈ layer) ∧
      ∀ item ∈ (before.take number).flatten, ¬ item.Decides path

/-- Nothing is kept of no layers. -/
lemma Summary.nil {kept : Nat → Item α → Prop} (nothing : ∀ number item, ¬ kept number item) :
    Summary [] kept where
  read number item held := absurd held (nothing number item)
  decided _ _ _ mem := absurd mem not_mem_nil
  files number path := by
    constructor
    · intro held
      exact absurd held (nothing number _)
    · rintro ⟨⟨layer, found, -⟩, -⟩
      cases found

variable {mark : α} {before : List (List (Item α))} {layer : List (Item α)}
  {kept next : Nat → Item α → Prop}

variable (summary : Summary before kept)
include summary

/-- What is kept was read in one of the layers. -/
lemma Summary.mem_flatten {number : Nat} {item : Item α} (held : kept number item)
    : item ∈ before.flatten := by
  obtain ⟨layer, found, mem⟩ := summary.read number item held
  exact List.mem_flatten.mpr ⟨layer, List.mem_of_getElem? found, mem⟩

/-- A path without a file above it is decided by what is kept iff it was decided by what was
read. -/
lemma Summary.decided_iff (flat : ∀ own, .file own ∈ before.flatten → ¬ Above own path) :
    (∃ number item, kept number item ∧ item.Decides path) ↔
      ∃ item ∈ before.flatten, item.Decides path := by
  constructor
  · rintro ⟨number, item, held, decides⟩
    exact ⟨item, summary.mem_flatten held, decides⟩
  · rintro ⟨item, mem, decides⟩
    exact summary.decided path flat item mem decides

/-- Reading one more layer, older than those before: its items are kept unless something kept
decides their places. -/
lemma Summary.snoc (unmarked : ∀ item ∈ before.flatten, item.Unmarked mark)
    (flat : ∀ own path, .file own ∈ before.flatten → .file path ∈ layer → ¬ Above own path)
    (step : ∀ number item, next number item ↔ kept number item ∨ number = before.length ∧
      item ∈ layer ∧ ¬ ∃ number other, kept number other ∧ other.Decides (item.place mark)) :
    Summary (before ++ [layer]) next where
  read number item held := by
    obtain earlier | ⟨rfl, mem, -⟩ := (step number item).mp held
    · obtain ⟨source, found, mem⟩ := summary.read number item earlier
      refine ⟨source, ?_, mem⟩
      rw [List.getElem?_append_left (List.getElem?_eq_some_iff.mp found).1]
      exact found
    · exact ⟨layer, getElem?_concat_length, mem⟩
  decided path clear item mem decides := by
    have clearBefore : ∀ own, .file own ∈ before.flatten → ¬ Above own path := by
      intro own listed
      apply clear
      rw [flatten_append]
      exact mem_append_left _ listed
    rw [flatten_append, flatten_singleton, mem_append] at mem
    cases mem with
    | inl earlier =>
      obtain ⟨number, other, held, same⟩ := summary.decided path clearBefore item earlier decides
      exact ⟨number, other, (step number other).mpr (.inl held), same⟩
    | inr here =>
      by_cases covered : ∃ number other, kept number other ∧ other.Decides (item.place mark)
      · -- what covers the item decides the path, for no file lies above the path
        obtain ⟨number, other, held, place⟩ := covered
        have listed := summary.mem_flatten held
        obtain same | ⟨own, rfl, above⟩ := place.trans (unmarked other listed) decides
        · exact ⟨number, other, (step number other).mpr (.inl held), same⟩
        · exact absurd above (clearBefore own listed)
      · exact ⟨before.length, item, (step _ item).mpr (.inr ⟨rfl, here, covered⟩), decides⟩
  files number path := by
    rw [step, summary.files]
    by_cases earlier : number < before.length
    · -- an earlier layer: nothing changes
      have notLast := Nat.ne_of_lt earlier
      rw [getElem?_append_left earlier, take_append_of_le_length (Nat.le_of_lt earlier)]
      simp [notLast]
    have outside := getElem?_eq_none (Nat.le_of_not_lt earlier)
    by_cases last : number = before.length
    · obtain rfl := last
      have decided : .file path ∈ layer →
          ((¬ ∃ number other, kept number other ∧ other.Decides path) ↔
            ∀ item ∈ before.flatten, ¬ item.Decides path) := by
        intro mem
        rw [summary.decided_iff fun own listed => flat own path listed mem]
        simp
      rw [outside, getElem?_concat_length, take_left]
      simp only [Option.some.injEq, reduceCtorEq, false_and, exists_false,
        true_and, false_or, exists_eq_left']
      exact and_congr_right decided
    · have beyond : (before ++ [layer])[number]? = none := by
        apply getElem?_eq_none
        rw [length_append, length_singleton]
        omega
      rw [outside, beyond]
      simp [last]

omit summary

/-- No file of a layer lies above a file of an older layer. -/
def Flat (layers : List (List (Item α))) : Prop :=
  layers.Pairwise fun newer older =>
    ∀ own path, .file own ∈ newer → .file path ∈ older → ¬ Above own path

/-- The files of newer layers are not above those of the last. -/
lemma Flat.not_above (flat : Flat (before ++ [layer])) {own path : List α}
    (newer : .file own ∈ before.flatten) (older : .file path ∈ layer) : ¬ Above own path := by
  obtain ⟨source, listed, mem⟩ := mem_flatten.mp newer
  have apart := (pairwise_append.mp flat).2.2 source listed layer (mem_singleton_self _)
  exact apart own path mem older

/-- The files kept of all layers are those of the merged tree. -/
lemma Summary.file_iff_merged [DecidableEq α]
    (summary : Summary layers kept) (flat : Flat layers) (number : Nat) (path : List α) :
    kept number (.file path) ↔ merged layers path = some number := by
  rw [summary.files, merged_eq_some_iff]
  refine and_congr_right ?_
  rintro ⟨layer, found, mem⟩
  constructor
  · intro undecided item earlier hides
    obtain decides | ⟨own, rfl, above⟩ := hides.decides
    · exact undecided item earlier decides
    -- a file above would lie in a newer layer
    obtain ⟨_, listed, own_mem⟩ := List.mem_flatten.mp earlier
    obtain ⟨place, _, source_eq⟩ := List.mem_take_iff_getElem.mp listed
    have bound : place < number ∧ place < layers.length := by omega
    obtain ⟨inRange, same⟩ := List.getElem?_eq_some_iff.mp found
    have apart := List.pairwise_iff_getElem.mp flat place number bound.2 inRange bound.1
    rw [source_eq, same] at apart
    exact apart own path own_mem mem above
  · intro clear item earlier decides
    exact clear item earlier decides.hides

end WantedEngine.Foundation.Overlay
