import Mathlib.Algebra.GroupWithZero.Nat
import Mathlib.Algebra.Order.BigOperators.Group.List
/-!
# Filling a buffer from the front of a list

A list of items is packed into a buffer of fixed room: item after item, up to the first that does
not fit behind those before it. An item that is not shown is tested for its fit like any other
but takes no room. How far the packing gets is a question about the sizes alone (`Fits`), and
with it which items are shown (`fill_eq`) and when a buffer that is not full means that
nothing is left (`exhaustive_iff_settled`): of one list of shown items, when they all fit or the
sizes of the first ones add up to the room (`settled_iff_sums`).
-/
namespace WantedEngine.Foundation.Packing

open List

universe u

variable {α : Type u} (size : α → Nat) (shown : α → Bool) (room : Nat)

/-- The room that the shown ones among some items take. -/
def load (items : List α) : Nat := ((items.filter shown).map size).sum

/-- Pack items behind what is used: the shown ones that fit, and what is used after them. -/
def fill : Nat → List α → List α × Nat
  | used, [] => ([], used)
  | used, item :: rest =>
    if room < used + size item then ([], used)
    else if shown item then
      let (packed, after) := fill (used + size item) rest
      (item :: packed, after)
    else fill used rest

/-- Each item fits behind what is used and the shown ones before it. -/
def Fits (used : Nat) (items : List α) : Prop :=
  ∀ before item, before ++ [item] <+: items → used + load size shown before + size item ≤ room

variable {size shown room}

@[simp] lemma load_nil : load size shown [] = 0 := rfl

/-- The load with one more item in front. -/
lemma load_cons (item : α) (rest : List α) : load size shown (item :: rest) =
      (if shown item then size item else 0) + load size shown rest := by
  cases isShown : shown item <;> simp [load, isShown]

/-- The load of two lists in a row. -/
lemma load_append (first second : List α) :
    load size shown (first ++ second) = load size shown first + load size shown second := by
  simp [load]

/-- With one more item in front: it fits, and the others fit behind it. -/
lemma fits_cons {used : Nat} {item : α} {rest : List α} :
    Fits size shown room used (item :: rest) ↔ used + size item ≤ room ∧
      Fits size shown room (used + if shown item then size item else 0) rest := by
  constructor
  · intro fits
    refine ⟨by simpa using fits [] item (by simp), fun before next isPrefix => ?_⟩
    have behind := fits (item :: before) next (by simpa using isPrefix)
    rw [load_cons] at behind
    omega
  · rintro ⟨first, fits⟩ before next isPrefix
    cases before with
    | nil =>
      obtain ⟨rfl, -⟩ := cons_prefix_cons.mp isPrefix
      exact first
    | cons head before =>
      obtain ⟨rfl, tail⟩ := cons_prefix_cons.mp isPrefix
      have behind := fits before next tail
      rw [load_cons]
      omega

variable {items packed left : List α} {used : Nat}

/-- Items that fit are packed whole, and the others behind them. -/
lemma fill_append (fits : Fits size shown room used packed) (left : List α) :
    fill size shown room used (packed ++ left) =
      (packed.filter shown ++ (fill size shown room (used + load size shown packed) left).1,
        (fill size shown room (used + load size shown packed) left).2) := by
  induction packed generalizing used with
  | nil => rfl
  | cons item rest ih =>
    obtain ⟨first, fits⟩ := fits_cons.mp fits
    have packs := ih fits
    rw [cons_append, fill, if_neg (Nat.not_lt.mpr first), load_cons, filter_cons, ← Nat.add_assoc]
    cases isShown : shown item with
    | false =>
      rw [isShown, if_neg Bool.false_ne_true, Nat.add_zero] at packs
      exact packs
    | true =>
      rw [isShown, if_pos rfl] at packs
      simp only [if_true, packs, cons_append]

/-- Nothing is packed of items that are not shown, or of which the first does not fit. -/
lemma fill_rest (ends : (∀ item ∈ left, shown item = false) ∨
    ∀ item ∈ left.head?, room < used + size item) : fill size shown room used left = ([], used) := by
  induction left with
  | nil => rfl
  | cons item rest ih =>
    rw [fill]
    split
    · rfl
    rename_i fits
    rcases ends with hidden | misfit
    · rw [if_neg (by simp [hidden item mem_cons_self])]
      exact ih (.inl fun other mem => hidden other (mem_cons_of_mem _ mem))
    · exact absurd (misfit item rfl) fits

/-- What the packing shows and uses, by the items before those of which nothing is packed. -/
lemma fill_eq (fits : Fits size shown room used packed) (ends : (∀ item ∈ left, shown item = false) ∨
      ∀ item ∈ left.head?, room < used + load size shown packed + size item) :
    fill size shown room used (packed ++ left) =
      (packed.filter shown, used + load size shown packed) := by
  rw [fill_append fits, fill_rest ends, append_nil]

variable (size shown room) in
/-- A list begins with items that fit, up to the first that does not. -/
lemma exists_split (used : Nat) (items : List α) :
    ∃ packed left, items = packed ++ left ∧ Fits size shown room used packed ∧
      ∀ item ∈ left.head?, room < used + load size shown packed + size item := by
  induction items generalizing used with
  | nil => exact ⟨[], [], rfl, by simp [Fits], by simp⟩
  | cons item rest ih =>
    by_cases fits : used + size item ≤ room
    · obtain ⟨packed, left, rfl, behind, misfit⟩ := ih (used + if shown item then size item else 0)
      refine ⟨item :: packed, left, rfl, fits_cons.mpr ⟨fits, behind⟩, ?_⟩
      rwa [load_cons, ← Nat.add_assoc]
    · exact ⟨[], item :: rest, rfl, by simp [Fits], by simpa using fits⟩

variable (size shown room) in
/-- The packing uses no less than what was used. -/
lemma le_fill (used : Nat) (items : List α) : used ≤ (fill size shown room used items).2 := by
  induction items generalizing used with
  | nil => exact Nat.le_refl _
  | cons item rest ih =>
    unfold fill
    split
    · exact Nat.le_refl _
    split
    · exact Nat.le_trans (Nat.le_add_right _ _) (ih _)
    · exact ih used

variable (size shown) in
/-- The packing never uses more than the room. -/
lemma fill_le {used : Nat} (items : List α) (inside : used ≤ room) :
    (fill size shown room used items).2 ≤ room := by
  induction items generalizing used with
  | nil => exact inside
  | cons item rest ih =>
    unfold fill
    split
    · exact inside
    split
    · exact ih (by omega)
    · exact ih inside

variable (size shown) in
/-- Packing behind what is used is packing into the room that is left. -/
lemma fill_shift {base : Nat} (inside : base ≤ room) (used : Nat) (items : List α) :
    fill size shown room (base + used) items =
      ((fill size shown (room - base) used items).1,
        base + (fill size shown (room - base) used items).2) := by
  induction items generalizing used with
  | nil => rfl
  | cons item rest ih =>
    have same : room < base + used + size item ↔ room - base < used + size item := by omega
    simp only [fill, same]
    split
    · rfl
    split
    · rw [Nat.add_assoc, ih]
    · exact ih used

variable (size shown room) in
/-- Pack two lists one after the other. The second is left alone when the first fills the
buffer, and begun even when an item of the first did not fit. -/
def fillTwice (first second : List α) : List α × Nat :=
  let (packed, used) := fill size shown room 0 first
  if used = room then (packed, used)
  else
    let (more, after) := fill size shown room used second
    (packed ++ more, after)

/-- The packing of two lists uses the room that what it shows takes, and no more than there is. -/
lemma fillTwice_uses {first second packed : List α} {used : Nat}
    (filled : (packed, used) = fillTwice size shown room first second) :
    (packed.map size).sum = used ∧ used ≤ room := by
  obtain ⟨begun, left, rfl, fits, misfit⟩ := exists_split size shown room 0 first
  have inside := fill_le size shown (begun ++ left) room.zero_le
  rw [fill_eq fits (.inr misfit)] at inside
  rw [fillTwice, fill_eq fits (.inr misfit)] at filled
  dsimp only at filled inside
  split at filled
  · cases filled
    exact ⟨(Nat.zero_add _).symm, inside⟩
  obtain ⟨more, rest, rfl, fits, misfit⟩ := exists_split size shown room (0 + load size shown begun) second
  have within := fill_le size shown (more ++ rest) inside
  rw [fill_eq fits (.inr misfit)] at filled within
  cases filled
  exact ⟨by simp [load], within⟩

variable (size shown room) in
/-- The sizes of two lists fill the buffer or leave nothing. Items of the first that fit take the
whole room. Or they are all that is shown of it, or all up to one that does not fit, and the items of
the second that fit behind them take the rest of the room or, with those of the first, are all that is
shown. -/
def Settled (first second : List α) : Prop :=
  ∃ packed left, first = packed ++ left ∧ Fits size shown room 0 packed ∧
    (load size shown packed = room ∨
      ((∀ item ∈ left, shown item = false) ∨
        ∀ item ∈ left.head?, room < load size shown packed + size item) ∧
      ∃ more rest, second = more ++ rest ∧ Fits size shown room (load size shown packed) more ∧
        (load size shown packed + load size shown more = room ∨
          ∀ item ∈ left ++ rest, shown item = false))

/-- With nothing before it, a list of items that take room is packed as on its own. -/
lemma fillTwice_nil {second : List α} (positive : ∀ item ∈ second, 0 < size item) :
    fillTwice size shown room [] second = fill size shown room 0 second := by
  unfold fillTwice
  rw [fill]
  dsimp only
  split
  · rename_i none
    cases second with
    | nil => rfl
    | cons item rest =>
      have takes := positive item mem_cons_self
      rw [fill, if_pos (by omega)]
  · rw [nil_append]

/-- Two beginnings of two lists make up all that is shown when nothing behind them is. -/
lemma append_filter_eq_iff (packed left more rest : List α) : packed.filter shown ++ more.filter shown =
        (packed ++ left).filter shown ++ (more ++ rest).filter shown ↔
      ∀ item ∈ left ++ rest, shown item = false := by
  have hidden : (∀ item ∈ left ++ rest, shown item = false) ↔
      left.filter shown = [] ∧ rest.filter shown = [] := by
    simp [or_imp, forall_and]
  rw [hidden, filter_append, filter_append]
  constructor
  · intro same
    have lengths := congrArg List.length same
    simp only [length_append] at lengths
    exact ⟨length_eq_zero_iff.mp (by omega), length_eq_zero_iff.mp (by omega)⟩
  · rintro ⟨noneLeft, noneRest⟩
    rw [noneLeft, noneRest, append_nil, append_nil]

/-- A buffer that the packing of two lists does not fill means that nothing is left, iff
their sizes fill the buffer or leave nothing. -/
lemma exhaustive_iff_settled (first second : List α) :
    ((fillTwice size shown room first second).2 < room →
        (fillTwice size shown room first second).1 = first.filter shown ++ second.filter shown) ↔
      Settled size shown room first second := by
  constructor
  · intro exhaustive
    obtain ⟨packed, left, rfl, fits, misfit⟩ := exists_split size shown room 0 first
    refine ⟨packed, left, rfl, fits, ?_⟩
    have within := fill_le size shown (packed ++ left) room.zero_le
    unfold fillTwice at exhaustive
    rw [fill_eq fits (.inr misfit)] at exhaustive within
    rw [Nat.zero_add] at misfit
    simp only [Nat.zero_add] at exhaustive within
    by_cases filled : load size shown packed = room
    · exact .inl filled
    rw [if_neg filled] at exhaustive
    obtain ⟨more, rest, rfl, fits, misfitMore⟩ := exists_split size shown room (load size shown packed) second
    have withinMore := fill_le size shown (more ++ rest) within
    rw [fill_eq fits (.inr misfitMore)] at exhaustive withinMore
    refine .inr ⟨.inr misfit, more, rest, rfl, fits, ?_⟩
    rcases Nat.lt_or_eq_of_le withinMore with unfilled | full
    · exact .inr ((append_filter_eq_iff ..).mp (exhaustive unfilled))
    · exact .inl full
  · rintro ⟨packed, left, rfl, fits, settled⟩ unfilled
    have within := fill_le size shown (packed ++ left) room.zero_le
    unfold fillTwice at unfilled ⊢
    rcases settled with full | ⟨ends, more, rest, rfl, fitsMore, settled⟩
    · -- the first list fills the buffer
      have least := le_fill size shown room (0 + load size shown packed) left
      rw [fill_append fits] at unfilled within
      dsimp only at unfilled within
      rw [if_pos (by omega)] at unfilled
      dsimp only at unfilled
      omega
    rw [fill_eq fits (by rwa [Nat.zero_add])] at unfilled ⊢
    simp only [Nat.zero_add] at unfilled ⊢
    split at unfilled
    · rename_i full
      exact absurd full (Nat.ne_of_lt unfilled)
    rename_i filled
    rw [if_neg filled]
    rw [fill_append fitsMore] at unfilled ⊢
    dsimp only at unfilled ⊢
    have least := le_fill size shown room (load size shown packed + load size shown more) rest
    have hidden := settled.resolve_left (by omega)
    rw [fill_rest (.inl fun item mem => hidden item (mem_append_right _ mem)), append_nil]
    exact (append_filter_eq_iff ..).mpr hidden

/-- Shown items that take no more than the room fit. -/
lemma fits_of_load_le (allShown : ∀ item ∈ items, shown item = true)
    (inside : load size shown items ≤ room) : Fits size shown room 0 items := by
  rintro before item ⟨after, rfl⟩
  rw [load_append, load_append, load_cons, if_pos (allShown item (by simp))] at inside
  omega

/-- Of one list of shown items: the buffer is filled or nothing is left iff all items fit or
the sizes of the first ones add up to the room. -/
lemma settled_iff_sums (allShown : ∀ item ∈ items, shown item = true) :
    Settled size shown room [] items ↔
      (items.map size).sum ≤ room ∨ ∃ count, ((items.take count).map size).sum = room := by
  have sums : ∀ {part : List α}, part ⊆ items → load size shown part = (part.map size).sum :=
    fun inside => by rw [load, filter_eq_self.mpr fun item mem => allShown item (inside mem)]
  have first (count : Nat) := sums (take_subset count items)
  have whole := sums (Subset.refl items)
  constructor
  · rintro ⟨packed, left, none, -, settled⟩
    obtain ⟨rfl, rfl⟩ := append_eq_nil_iff.mp none.symm
    rcases settled with full | ⟨-, more, rest, rfl, fits, settled⟩
    · exact .inr ⟨0, full⟩
    rw [load_nil] at fits settled
    have within := fill_le size shown (more ++ []) room.zero_le
    rw [fill_append fits] at within
    rcases settled with full | hidden
    · refine .inr ⟨more.length, ?_⟩
      rw [← first, take_left']
      · simpa using full
      · rfl
    · have noRest : rest = [] := eq_nil_iff_forall_not_mem.mpr fun item mem => by
        simpa [hidden item (by simp [mem])] using allShown item (by simp [mem])
      rw [noRest, append_nil] at whole ⊢
      exact .inl (whole ▸ by simpa [fill] using within)
  · intro sum
    refine ⟨[], [], rfl, by simp [Fits], .inr ⟨.inl (by simp), ?_⟩⟩
    rcases sum with all | ⟨count, full⟩
    · exact ⟨items, [], (append_nil _).symm, fits_of_load_le allShown (whole ▸ all), .inr (by simp)⟩
    · rw [← first] at full
      exact ⟨items.take count, items.drop count, (take_append_drop ..).symm,
        fits_of_load_le (fun item mem => allShown item (mem_of_mem_take mem)) (Nat.le_of_eq full),
        .inl (by simpa using full)⟩

end WantedEngine.Foundation.Packing
