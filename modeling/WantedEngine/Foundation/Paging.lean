import WantedEngine.Foundation.Packing
import Mathlib.Algebra.Order.Group.Nat
import Mathlib.Data.Stream.Init
/-!
# Reading a list page by page

A reader asks for pages of a listing, each with as much room as it likes, and resumes behind the
last item it received, until a page is empty (`Pager.Obtains`). Where the pages are packed from two
lists, the second begun in the room that the first leaves (`Packing.fillTwice`), a page that ends
with an item of the second list loses what was left of the first. When no choice of rooms can do
that, though each has room for the next item, is a question about the sizes alone
(`complete_iff_fits`).
-/
namespace WantedEngine.Foundation

open List

universe u v w

/-- A listing that is read in pages. -/
structure Pager (σ : Type u) (α : Type v) where
  /-- The page of so much room that a reader gets at a position. -/
  page : σ → Nat → List α
  /-- The position behind the last item of that page. -/
  resume : σ → Nat → σ

namespace Pager

variable {σ : Type u} {α : Type v} (p : Pager σ α)

/-- The position of a reader after some calls. -/
def at_ (start : σ) (rooms : Stream' Nat) : Nat → σ
  | 0 => start
  | calls + 1 => at_ (p.resume start rooms.head) rooms.tail calls

/-- The items that a reader obtains up to the first empty page. -/
inductive Obtains : σ → Stream' Nat → List α → Prop where
  /-- The page is empty. -/
  | done {start : σ} {rooms : Stream' Nat} (empty : p.page start rooms.head = []) :
      Obtains start rooms []
  /-- The page is not empty, and the reader goes on behind it. -/
  | more {start : σ} {rooms : Stream' Nat} {later : List α}
      (some : p.page start rooms.head ≠ [])
      (rest : Obtains (p.resume start rooms.head) rooms.tail later) :
      Obtains start rooms (p.page start rooms.head ++ later)

variable {p} {rooms : Stream' Nat} {start : σ}

/-- A reader obtains one list of items. -/
lemma Obtains.unique {items others : List α} (obtained : p.Obtains start rooms items)
    (obtained' : p.Obtains start rooms others) :
    items = others := by
  induction obtained generalizing others with
  | done empty =>
    cases obtained' with
    | done => rfl
    | more some => exact absurd empty some
  | more some rest ih =>
    cases obtained' with
    | done empty => exact absurd empty some
    | more _ rest' => rw [ih rest']

/-- A pager that another one follows: from each position in order, the pages of both show the same,
and both resume at positions that belong together. -/
structure Follows {τ : Type w} {β : Type v} (p : Pager σ α) (q : Pager τ β) (inOrder : σ → Prop)
    (position : σ → τ) (show_ : α → β) : Prop where
  page : ∀ start room, inOrder start →
    (p.page start room).map show_ = q.page (position start) room
  resume : ∀ start room, inOrder start →
    position (p.resume start room) = q.resume (position start) room
  keeps : ∀ start room, inOrder start → inOrder (p.resume start room)

section Follows

variable {τ : Type w} {β : Type v} {q : Pager τ β} {inOrder : σ → Prop} {position : σ → τ}
  {show_ : α → β}

variable (follows : Follows p q inOrder position show_)
include follows

/-- The positions belong together along all calls. -/
lemma Follows.at_ (ordered : inOrder start) (rooms : Stream' Nat) (calls : Nat) :
    position (p.at_ start rooms calls) = q.at_ (position start) rooms calls := by
  induction calls generalizing start rooms with
  | zero => rfl
  | succ calls ih =>
    rw [Pager.at_, Pager.at_, ih (follows.keeps _ _ ordered), follows.resume _ _ ordered]

/-- What a reader obtains shows what a reader of the other pager obtains. -/
lemma Follows.obtains (ordered : inOrder start) {items : List α}
    (obtained : p.Obtains start rooms items) :
    q.Obtains (position start) rooms (items.map show_) := by
  induction obtained with
  | done empty =>
    apply Obtains.done
    rw [← follows.page _ _ ordered, empty, map_nil]
  | more some rest ih =>
    rw [map_append, follows.page _ _ ordered]
    refine Obtains.more ?_ ?_
    · rw [← follows.page _ _ ordered, ne_eq, map_eq_nil_iff]
      exact some
    · rw [← follows.resume _ _ ordered]
      exact ih (follows.keeps _ _ ordered)

/-- A reader obtains something when a reader of the other pager does. -/
lemma Follows.exists_obtains {pos : τ} {shown : List β} (obtained : q.Obtains pos rooms shown) :
    ∀ {start : σ}, inOrder start → position start = pos →
      ∃ items, p.Obtains start rooms items ∧ items.map show_ = shown := by
  induction obtained with
  | done empty =>
    rintro start ordered rfl
    rw [← follows.page _ _ ordered, map_eq_nil_iff] at empty
    exact ⟨[], .done empty, rfl⟩
  | more some rest ih =>
    rintro start ordered rfl
    rw [← follows.page _ _ ordered, ne_eq, map_eq_nil_iff] at some
    obtain ⟨items, obtained, shows⟩ :=
      ih (follows.keeps _ _ ordered) (follows.resume _ _ ordered)
    refine ⟨_, .more some obtained, ?_⟩
    rw [map_append, shows, follows.page _ _ ordered]

end Follows

end Pager

namespace Packing

variable {α : Type u} (size : α → Nat) (shown : α → Bool)

variable {rooms : Stream' Nat} {next : α} {hidden : List α}

/-! ### What is left behind a page -/

/-- The items behind the last one that a packing shows, if it shows any. -/
def behind (room : Nat) : Nat → List α → Option (List α)
  | _, [] => none
  | used, item :: rest =>
    if room < used + size item then none
    else if shown item then some ((behind room (used + size item) rest).getD rest)
    else behind room used rest

/-- The two lists that a reader has before it, the second behind the first. -/
abbrev Remaining (α : Type u) := List α × List α

/-- The items that come. -/
def upcoming (r : Remaining α) : List α := r.1.filter shown ++ r.2.filter shown

/-- What is left when the reader resumes behind the last item of a page: behind one of the second
list, only that list is left. -/
def resume (r : Remaining α) (room : Nat) : Remaining α :=
  let used := (fill size shown room 0 r.1).2
  let second := if used = room then none else behind size shown room used r.2
  match second with
  | some rest => ([], rest)
  | none => ((behind size shown room 0 r.1).getD r.1, r.2)

def twoLists : Pager (Remaining α) α where
  page r room := (fillTwice size shown room r.1 r.2).1
  resume := resume size shown

/-- Each page has room for the next item. -/
def Adequate (r : Remaining α) (rooms : Stream' Nat) : Prop :=
  ∀ call item, (upcoming shown ((twoLists size shown).at_ r rooms call)).head? = some item →
    size item ≤ rooms.get call

/-- However a reader chooses its rooms, with each for the next item, it obtains all items. -/
def Complete (r : Remaining α) : Prop :=
  ∀ rooms, Adequate size shown r rooms → (twoLists size shown).Obtains r rooms (upcoming shown r)

/-- No item that is not shown is larger than the shown item that comes next. -/
def NextFits : List α → Prop
  | [] => True
  | item :: rest =>
    (shown item = false → ∀ next, (rest.filter shown).head? = some next → size item ≤ size next) ∧
      NextFits rest

/-- No shown item of the first list, the first of them apart, is larger than the first item of the
second list. -/
def SecondFits (first second : List α) : Prop :=
  ∀ next, second.head? = some next → ∀ item ∈ (first.filter shown).tail, size item ≤ size next

variable {size shown} {room used : Nat} {items rest first second : List α} {r : Remaining α}

/-- A packing that leaves nothing behind a shown item shows none and uses nothing. -/
lemma fill_of_behind_none (none_ : behind size shown room used items = none) :
    fill size shown room used items = ([], used) := by
  fun_induction behind size shown room used items with
  | case1 => rfl
  | case2 used item rest misfit => rw [fill, if_pos misfit]
  | case3 => cases none_
  | case4 used item rest fits hidden ih =>
    rw [fill, if_neg fits, if_neg hidden]
    exact ih none_

/-- A packing shows the shown items up to what it leaves behind the last of them, and in its room
nothing of that can be shown. -/
lemma fill_of_behind_some (left : behind size shown room used items = some rest) :
    ∃ before last, items = before ++ last :: rest ∧ shown last = true ∧
      (fill size shown room used items).1 = (before ++ [last]).filter shown ∧
      behind size shown room (fill size shown room used items).2 rest = none := by
  fun_induction behind size shown room used items generalizing rest with
  | case1 => cases left
  | case2 => cases left
  | case3 used item tail fits isShown ih =>
    rw [fill, if_neg fits, if_pos isShown]
    cases later : behind size shown room (used + size item) tail with
    | none =>
      rw [later] at left
      cases left
      rw [fill_of_behind_none later]
      exact ⟨[], item, rfl, isShown, by simp [isShown], later⟩
    | some deeper =>
      rw [later] at left
      cases left
      obtain ⟨before, last, split, lastShown, packed, full⟩ := ih later
      exact ⟨item :: before, last, by rw [split]; rfl, lastShown, by simp [isShown, packed], full⟩
  | case4 used item tail fits hidden ih =>
    rw [fill, if_neg fits, if_neg hidden]
    obtain ⟨before, last, split, lastShown, packed, full⟩ := ih left
    exact ⟨item :: before, last, by rw [split]; rfl, lastShown, by simp [hidden, packed], full⟩

/-- Behind what is used, a packing leaves what it leaves in the room that is left. -/
lemma behind_shift {base : Nat} (inside : base ≤ room) (used : Nat) (items : List α) :
    behind size shown room (base + used) items = behind size shown (room - base) used items := by
  induction items generalizing used with
  | nil => rfl
  | cons item rest ih =>
    have same : room < base + (used + size item) ↔ room - base < used + size item := by omega
    simp only [behind, Nat.add_assoc, same, ih]

/-- What a packing shows and what it leaves behind that make up the list. -/
lemma fill_append_behind (left : behind size shown room used items = some rest) :
    (fill size shown room used items).1 ++ rest.filter shown = items.filter shown ∧
      (fill size shown room used items).1 ≠ [] := by
  obtain ⟨_, _, rfl, lastShown, packed, -⟩ := fill_of_behind_some left
  rw [packed]
  exact ⟨by simp [lastShown], by simp [lastShown]⟩

/-- What a packing shows comes first among the shown items. -/
lemma fill_sublist : (fill size shown room used items).1.Sublist (items.filter shown) := by
  cases left : behind size shown room used items with
  | none =>
    rw [fill_of_behind_none left]
    exact nil_sublist _
  | some rest =>
    rw [← (fill_append_behind left).1]
    exact sublist_append_left _ _

variable (size shown) in
/-- A page and what comes behind it, whichever list it ends in. -/
lemma page_cases (r : Remaining α) (room : Nat) :
    ((twoLists size shown).page r room = (fill size shown room 0 r.1).1 ∧
        (twoLists size shown).resume r room = ((behind size shown room 0 r.1).getD r.1, r.2) ∧
        ((fill size shown room 0 r.1).2 = room ∨
          behind size shown room (fill size shown room 0 r.1).2 r.2 = none)) ∨
      ∃ rest, (fill size shown room 0 r.1).2 ≠ room ∧
        behind size shown room (fill size shown room 0 r.1).2 r.2 = some rest ∧
        (twoLists size shown).resume r room = ([], rest) ∧
        (twoLists size shown).page r room ++ rest.filter shown =
          (fill size shown room 0 r.1).1 ++ r.2.filter shown ∧
        (twoLists size shown).page r room ≠ [] := by
  show ((fillTwice size shown room r.1 r.2).1 = _ ∧ resume size shown r room = _ ∧ _) ∨
    ∃ rest, _ ∧ _ ∧ resume size shown r room = _ ∧
      (fillTwice size shown room r.1 r.2).1 ++ _ = _ ∧ (fillTwice size shown room r.1 r.2).1 ≠ []
  unfold resume fillTwice
  dsimp only
  by_cases filled : (fill size shown room 0 r.1).2 = room
  · rw [if_pos filled, if_pos filled]
    exact .inl ⟨rfl, rfl, .inl filled⟩
  rw [if_neg filled, if_neg filled]
  cases second : behind size shown room (fill size shown room 0 r.1).2 r.2 with
  | none =>
    rw [fill_of_behind_none second]
    exact .inl ⟨append_nil _, rfl, .inr rfl⟩
  | some rest =>
    obtain ⟨whole, some⟩ := fill_append_behind second
    refine .inr ⟨rest, filled, rfl, rfl, ?_, ?_⟩
    · rw [append_assoc, whole]
    · exact fun empty => some (append_eq_nil_iff.mp empty).2

variable (positive : ∀ item, 0 < size item)
include positive

/-- No item fits into a full page. -/
lemma behind_full (items : List α) : behind size shown room room items = none := by
  cases items with
  | nil => rfl
  | cons item rest =>
    have takes := positive item
    rw [behind, if_pos (by omega)]

/-- In the second list a reader resumes behind the last item shown. -/
lemma resume_second (items : List α) (room : Nat) :
    resume size shown ([], items) room = ([], (behind size shown room 0 items).getD items) := by
  rcases page_cases size shown ([], items) room with
    ⟨-, resumed, ended⟩ | ⟨rest, -, second, resumed, -⟩
  · have none_ : behind size shown room 0 items = none := by
      rcases ended with full | none_
      · have none_left := full
        rw [← none_left]
        exact behind_full positive items
      · exact none_
    rw [none_]
    exact resumed
  · have some_ : behind size shown room 0 items = some rest := second
    rw [some_]
    exact resumed

omit positive

variable (size shown) in
/-- No item comes twice: a page and what comes behind it are among what came before. -/
lemma page_append_sublist (r : Remaining α) (room : Nat) : ((twoLists size shown).page r room ++
      upcoming shown ((twoLists size shown).resume r room)).Sublist (upcoming shown r) := by
  rcases page_cases size shown r room with
    ⟨page, resumed, -⟩ | ⟨rest, -, -, resumed, page, -⟩
  · rw [page, resumed, upcoming, ← append_assoc]
    apply List.Sublist.append_right
    cases left : behind size shown room 0 r.1 with
    | none =>
      rw [fill_of_behind_none left]
      exact List.Sublist.refl _
    | some rest =>
      rw [Option.getD_some, (fill_append_behind left).1]
  · rw [resumed, upcoming, filter_nil, nil_append, page]
    exact fill_sublist.append_right _

lemma page_eq_nil (nothing : upcoming shown r = []) (room : Nat) :
    (twoLists size shown).page r room = [] := by
  have few := page_append_sublist size shown r room
  rw [nothing, sublist_nil, append_eq_nil_iff] at few
  exact few.1

/-! ### Reading to the end -/

/-- What comes along the calls is among what came at first. -/
lemma upcoming_at_sublist (r : Remaining α) (rooms : Stream' Nat) (calls : Nat) :
    (upcoming shown ((twoLists size shown).at_ r rooms calls)).Sublist (upcoming shown r) := by
  induction calls generalizing r rooms with
  | zero => exact List.Sublist.refl _
  | succ calls ih =>
    exact (ih _ _).trans
      ((sublist_append_right _ _).trans (page_append_sublist size shown r rooms.head))

/-- A reader obtains items that come, each at most once. -/
lemma obtains_sublist (obtained : (twoLists size shown).Obtains r rooms items) :
    items.Sublist (upcoming shown r) := by
  induction obtained with
  | done => exact nil_sublist _
  | more some rest ih => exact (ih.append_left _).trans (page_append_sublist size shown _ _)

/-- Rooms that take the largest item are adequate. -/
lemma adequate_const (large : ∀ item ∈ upcoming shown r, size item ≤ room) :
    Adequate size shown r (Stream'.const room) := by
  intro call item next
  exact large item ((upcoming_at_sublist r _ call).subset (mem_of_head? next))

/-- Adequate rooms are adequate behind the first page. -/
lemma Adequate.tail (adequate : Adequate size shown r rooms) :
    Adequate size shown ((twoLists size shown).resume r rooms.head) rooms.tail :=
  fun call item next => adequate (call + 1) item next

/-- Where all items are obtained from, a page with room for the next item is not empty, nothing is
lost behind it, and all items are obtained from there. -/
lemma Complete.step (complete : Complete size shown r) (nonempty : upcoming shown r ≠ [])
    (fits : ∀ item, (upcoming shown r).head? = some item → size item ≤ room) :
    (twoLists size shown).page r room ≠ [] ∧
      (twoLists size shown).page r room ++
        upcoming shown ((twoLists size shown).resume r room) = upcoming shown r ∧
      Complete size shown ((twoLists size shown).resume r room) := by
  have goesOn : ∀ rooms, Adequate size shown ((twoLists size shown).resume r room) rooms →
      (twoLists size shown).page r room ≠ [] ∧
        (twoLists size shown).page r room ++
          upcoming shown ((twoLists size shown).resume r room) = upcoming shown r ∧
        (twoLists size shown).Obtains ((twoLists size shown).resume r room) rooms
          (upcoming shown ((twoLists size shown).resume r room)) := by
    intro rooms adequate
    have obtained := complete (Stream'.cons room rooms) fun
      | 0, item, next => fits item next
      | call + 1, item, next => adequate call item next
    generalize whole : upcoming shown r = all at obtained
    cases obtained with
    | done => exact absurd whole nonempty
    | more isPage rest =>
      rename_i later
      have isRest : (twoLists size shown).Obtains ((twoLists size shown).resume r room) rooms later :=
        rest
      have isWhole : upcoming shown r = (twoLists size shown).page r room ++ later := whole
      have fewer := obtains_sublist isRest
      have accounted := (page_append_sublist size shown r room).length_le
      rw [isWhole] at accounted
      simp only [length_append] at accounted
      have same := fewer.eq_of_length_le (by omega)
      rw [← same]
      exact ⟨isPage, rfl, isRest⟩
  obtain ⟨most, isMost⟩ : ∃ most, ∀ item ∈
      upcoming shown ((twoLists size shown).resume r room), size item ≤ most :=
    ⟨_, fun item mem => single_le_sum (fun _ _ => Nat.zero_le _) _ (mem_map_of_mem mem)⟩
  obtain ⟨isPage, whole, -⟩ := goesOn _ (adequate_const isMost)
  exact ⟨isPage, whole, fun rooms adequate => (goesOn rooms adequate).2.2⟩

/-- A page with more room than all items take brings them all. -/
lemma fill_whole (roomy : used + ((items.map size).sum) ≤ room) :
    fill size shown room used items = (items.filter shown, used + load size shown items) := by
  induction items generalizing used with
  | nil => rfl
  | cons item rest ih =>
    rw [map_cons, sum_cons] at roomy
    rw [fill, if_neg (by omega), load_cons, filter_cons]
    cases isShown : shown item with
    | false =>
      rw [if_neg Bool.false_ne_true, ih (by omega)]
      simp
    | true =>
      rw [ih (by omega)]
      simp [Nat.add_assoc]

variable (size shown) in
/-- The shown items take no more than all. -/
lemma load_le_sum (items : List α) : load size shown items ≤ (items.map size).sum :=
  ((filter_sublist.map size)).sum_le_sum fun _ _ => Nat.zero_le _

variable (roomy : (r.1.map size).sum + (r.2.map size).sum < room)
include roomy

/-- Rooms larger than all items together are adequate. -/
lemma adequate_of_room : Adequate size shown r (Stream'.const room) := by
  apply adequate_const
  intro item mem
  have part : item ∈ r.1 ++ r.2 := by
    rw [upcoming, ← filter_append] at mem
    exact mem_of_mem_filter mem
  have within : size item ≤ ((r.1 ++ r.2).map size).sum :=
    single_le_sum (fun _ _ => Nat.zero_le _) _ (mem_map_of_mem part)
  rw [map_append, sum_append] at within
  omega

/-- A reader whose rooms are larger than all items together obtains all. -/
lemma obtains_of_room : (twoLists size shown).Obtains r (Stream'.const room) (upcoming shown r) := by
  have once : (twoLists size shown).page r room = upcoming shown r := by
    show (fillTwice size shown room r.1 r.2).1 = _
    have little := load_le_sum size shown r.1
    unfold fillTwice
    rw [fill_whole (by omega)]
    dsimp only
    rw [if_neg (by omega), fill_whole (by omega)]
    rfl
  by_cases nothing : upcoming shown r = []
  · rw [nothing]
    exact .done (page_eq_nil nothing room)
  have rest : upcoming shown ((twoLists size shown).resume r room) = [] := by
    have few := (page_append_sublist size shown r room).length_le
    rw [once, length_append] at few
    exact length_eq_zero_iff.mp (by omega)
  rw [← once] at nothing ⊢
  rw [← append_nil ((twoLists size shown).page r room)]
  exact .more nothing (.done (page_eq_nil rest room))

omit roomy

/-! ### When nothing is lost -/

/-- The order of sizes goes over to what is left. -/
lemma NextFits.of_append {before : List α} (fits : NextFits size shown (before ++ items)) :
    NextFits size shown items := by
  induction before with
  | nil => exact fits
  | cons item before ih => exact ih fits.2

/-- A packing that shows nothing has no room for the shown item that comes next. -/
lemma no_room_of_behind_none (none_ : behind size shown room used items = none)
    (fits : NextFits size shown items) (isNext : (items.filter shown).head? = some next) :
    room < used + size next := by
  fun_induction behind size shown room used items with
  | case1 => cases isNext
  | case2 used item rest misfit =>
    cases isShown : shown item with
    | true =>
      rw [filter_cons, if_pos isShown] at isNext
      cases isNext
      exact misfit
    | false =>
      rw [filter_cons, isShown] at isNext
      have smaller := fits.1 isShown next isNext
      omega
  | case3 => cases none_
  | case4 used item rest roomy hidden ih =>
    rw [filter_cons, if_neg hidden] at isNext
    exact ih none_ fits.2 isNext

/-- Behind what a packing shows there is no room for the shown item that comes next. -/
lemma no_room_behind (left : behind size shown room used items = some rest)
    (fits : NextFits size shown items) (isNext : (rest.filter shown).head? = some next) :
    room < (fill size shown room used items).2 + size next := by
  obtain ⟨_, _, split, -, -, full⟩ := fill_of_behind_some left
  rw [split] at fits
  exact no_room_of_behind_none full (NextFits.of_append fits).2 isNext

/-- A packing with room for the shown item that comes next shows it. -/
lemma behind_isSome_of_fits (fits : NextFits size shown items)
    (isNext : (items.filter shown).head? = some next) (roomy : used + size next ≤ room) :
    ∃ rest, behind size shown room used items = some rest := by
  cases left : behind size shown room used items with
  | none =>
    have misfit := no_room_of_behind_none left fits isNext
    omega
  | some rest => exact ⟨rest, rfl⟩

variable (left : behind size shown room used items = some rest)
include left

/-- A packing that shows an item has room for the first. -/
lemma head_of_behind_some : ∃ head, items.head? = some head ∧ used + size head ≤ room := by
  cases items with
  | nil => cases left
  | cons item tail =>
    unfold behind at left
    split at left
    · cases left
    · rename_i roomy
      exact ⟨item, rfl, Nat.not_lt.mp roomy⟩

/-- The shown items of what is left behind a packing are not the first. -/
lemma filter_behind_subset : rest.filter shown ⊆ (items.filter shown).tail := by
  obtain ⟨before, _, rfl, lastShown, -⟩ := fill_of_behind_some left
  intro item mem
  rw [filter_append, filter_cons, if_pos lastShown]
  cases before.filter shown with
  | nil => exact mem
  | cons first others =>
    exact mem_append_right _ (mem_cons_of_mem _ mem)

omit left

variable (size) in
/-- Shown items only are in order. -/
lemma nextFits_of_shown (allShown : ∀ item ∈ items, shown item = true) : NextFits size shown items := by
  induction items with
  | nil => trivial
  | cons item rest ih =>
    refine ⟨fun hidden => ?_, ih fun other mem => allShown other (mem_cons_of_mem _ mem)⟩
    rw [allShown item mem_cons_self] at hidden
    cases hidden

include positive

/-- Where the sizes are in order, a page with room for the next item is not empty, loses nothing
and leaves the sizes in order. -/
lemma fits_step (allShown : ∀ item ∈ r.2, shown item = true) (nextFits : NextFits size shown r.1)
    (secondFits : SecondFits size shown r.1 r.2) (isNext : (upcoming shown r).head? = some next)
    (roomy : size next ≤ room) :
    (twoLists size shown).page r room ≠ [] ∧
      (twoLists size shown).page r room ++
        upcoming shown ((twoLists size shown).resume r room) = upcoming shown r ∧
      (∀ item ∈ ((twoLists size shown).resume r room).2, shown item = true) ∧
      NextFits size shown ((twoLists size shown).resume r room).1 ∧
      SecondFits size shown ((twoLists size shown).resume r room).1
        ((twoLists size shown).resume r room).2 := by
  rcases page_cases size shown r room with
    ⟨page, resumed, ended⟩ | ⟨rest, -, second, resumed, page, some⟩
  · -- the page ends in the first list
    cases left : behind size shown room 0 r.1 with
    | none =>
      -- then the next item is of the second list, for which the page has room
      have used := congrArg Prod.snd (fill_of_behind_none left)
      rw [used] at ended
      cases firstNext : (r.1.filter shown).head? with
      | some item =>
        have same : next = item := by
          rw [upcoming, head?_append, firstNext] at isNext
          exact (Option.some.inj isNext).symm
        have misfit := no_room_of_behind_none left nextFits firstNext
        rw [← same] at misfit
        omega
      | none =>
        have secondNext : (r.2.filter shown).head? = some next := by
          rw [upcoming, head?_append, firstNext] at isNext
          exact isNext
        have takes := positive next
        obtain ⟨rest, more⟩ := behind_isSome_of_fits
          (nextFits_of_shown size allShown) secondNext (show 0 + size next ≤ room by omega)
        rw [more] at ended
        rcases ended with full | nothing
        · omega
        · cases nothing
    | some rest =>
      obtain ⟨whole, nonempty⟩ := fill_append_behind left
      rw [left, Option.getD_some] at resumed
      rw [page, resumed, upcoming, ← append_assoc, whole]
      refine ⟨nonempty, rfl, allShown, ?_, ?_⟩
      · obtain ⟨before, last, split, -⟩ := fill_of_behind_some left
        rw [split] at nextFits
        exact nextFits.of_append.2
      · intro head isHead item mem
        exact secondFits head isHead item (filter_behind_subset left (mem_of_mem_tail mem))
  · -- the page ends in the second list, so it has room for the head of it
    have firstDone : (fill size shown room 0 r.1).1 = r.1.filter shown := by
      cases left : behind size shown room 0 r.1 with
      | none =>
        rw [fill_of_behind_none left]
        cases firstNext : (r.1.filter shown).head? with
        | none => exact (head?_eq_none_iff.mp firstNext).symm
        | some item =>
          have misfit := no_room_of_behind_none left nextFits firstNext
          rw [upcoming, head?_append, firstNext] at isNext
          cases isNext
          omega
      | some left_ =>
        obtain ⟨whole, -⟩ := fill_append_behind left
        cases leftNext : (left_.filter shown).head? with
        | none => rw [← whole, head?_eq_none_iff.mp leftNext, append_nil]
        | some item =>
          obtain ⟨head, isHead, _⟩ := head_of_behind_some second
          have misfit := no_room_behind left nextFits leftNext
          have smaller := secondFits head isHead item
            (filter_behind_subset left (mem_of_head? leftNext))
          omega
    rw [resumed]
    refine ⟨some, ?_, ?_, trivial, nofun⟩
    · rw [upcoming, upcoming, filter_nil, nil_append, page, firstDone]
    obtain ⟨before, last, split, -⟩ := fill_of_behind_some second
    intro item mem
    apply allShown
    rw [split]
    exact mem_append_right _ (mem_cons_of_mem _ mem)

/-- Where the sizes are in order, all items are obtained. -/
lemma complete_of_fits (allShown : ∀ item ∈ r.2, shown item = true)
    (nextFits : NextFits size shown r.1) (secondFits : SecondFits size shown r.1 r.2)
    : Complete size shown r := by
  intro rooms adequate
  generalize measure : (upcoming shown r).length = left
  induction left using Nat.strong_induction_on generalizing r rooms with
  | _ left ih =>
    cases isNext : (upcoming shown r).head? with
    | none =>
      have nothing := head?_eq_none_iff.mp isNext
      rw [nothing]
      exact .done (page_eq_nil nothing _)
    | some next =>
      obtain ⟨nonempty, whole, shown', nextFits', secondFits'⟩ :=
        fits_step positive allShown nextFits secondFits isNext (adequate 0 next isNext)
      have taken := length_pos_iff.mpr nonempty
      have accounted := congrArg List.length whole
      rw [length_append] at accounted
      have later := ih _ (by omega) shown' nextFits' secondFits' rooms.tail adequate.tail rfl
      rw [← whole]
      exact .more nonempty later

omit positive

variable (items) in
/-- Items before the first that is shown are tested for their fit only. -/
lemma behind_hidden (areHidden : ∀ item ∈ hidden, ¬ shown item = true)
    (roomy : ∀ item ∈ hidden, used + size item ≤ room) :
    behind size shown room used (hidden ++ items) = behind size shown room used items ∧
      fill size shown room used (hidden ++ items) = fill size shown room used items := by
  induction hidden with
  | nil => exact ⟨rfl, rfl⟩
  | cons item hidden ih =>
    have isHidden := areHidden item mem_cons_self
    have fits := Nat.not_lt.mpr (roomy item mem_cons_self)
    rw [cons_append, behind, fill, if_neg fits, if_neg fits, if_neg isHidden, if_neg isHidden]
    exact ih (fun other mem => areHidden other (mem_cons_of_mem _ mem))
      (fun other mem => roomy other (mem_cons_of_mem _ mem))

variable (items) in
/-- A packing stops at an item without room before the first that is shown. -/
lemma behind_none_of_misfit (areHidden : ∀ item ∈ hidden, ¬ shown item = true) {misfit : α}
    (isHidden : misfit ∈ hidden) (large : room < used + size misfit) :
    behind size shown room used (hidden ++ items) = none := by
  induction hidden with
  | nil => cases isHidden
  | cons item hidden ih =>
    rw [cons_append, behind]
    split
    · rfl
    rename_i fits
    rw [if_neg (areHidden item mem_cons_self)]
    rcases mem_cons.mp isHidden with rfl | later
    · exact absurd large fits
    · exact ih (fun other mem => areHidden other (mem_cons_of_mem _ mem)) later

/-- The packing of items behind some that are not shown, where the first that is shown fits and
nothing fits behind it. -/
lemma fill_one (areHidden : ∀ item ∈ hidden, ¬ shown item = true) (nextShown : shown next = true)
    (small : ∀ item ∈ hidden, size item ≤ room) (roomy : size next ≤ room)
    (full : behind size shown room (size next) rest = none) :
    fill size shown room 0 (hidden ++ next :: rest) = ([next], size next) ∧
      behind size shown room 0 (hidden ++ next :: rest) = some rest := by
  have skipped := behind_hidden (next :: rest) areHidden
    (fun item mem => (Nat.zero_add _).trans_le (small item mem))
  have fits : ¬ room < 0 + size next := by omega
  rw [skipped.1, skipped.2, fill, behind, if_neg fits, if_neg fits, if_pos nextShown,
    if_pos nextShown, Nat.zero_add, full, fill_of_behind_none full]
  exact ⟨rfl, rfl⟩

/-- A packing that shows an item has room for the first that is shown. -/
lemma room_of_behind_some (left : behind size shown room used items = some rest)
    (isNext : (items.filter shown).head? = some next) : used + size next ≤ room := by
  fun_induction behind size shown room used items generalizing rest with
  | case1 => cases left
  | case2 => cases left
  | case3 used item tail roomy isShown =>
    rw [filter_cons, if_pos isShown] at isNext
    cases isNext
    exact Nat.not_lt.mp roomy
  | case4 used item tail roomy isHidden ih =>
    rw [filter_cons, if_neg isHidden] at isNext
    exact ih left isNext

/-- Where all items are obtained from, a page with room for the next item ends in the first list,
not empty, or shows all that the first list has. -/
lemma Complete.page_first (complete : Complete size shown r) (nonempty : upcoming shown r ≠ [])
    (fits : ∀ item, (upcoming shown r).head? = some item → size item ≤ room) :
    (fill size shown room 0 r.1).1 ≠ [] ∧
        ((fill size shown room 0 r.1).2 = room ∨
          behind size shown room (fill size shown room 0 r.1).2 r.2 = none) ∧
        Complete size shown ((behind size shown room 0 r.1).getD r.1, r.2) ∨
      (fill size shown room 0 r.1).1 = r.1.filter shown := by
  obtain ⟨isPage, whole, later⟩ := complete.step nonempty fits
  rcases page_cases size shown r room with
    ⟨page, resumed, ended⟩ | ⟨rest, -, -, resumed, page, -⟩
  · rw [page] at isPage
    rw [resumed] at later
    exact .inl ⟨isPage, ended, later⟩
  · rw [resumed, upcoming, filter_nil, nil_append, page] at whole
    exact .inr (append_cancel_right whole)

/-- Items that are not shown, each no larger than the shown item behind them, are in order. -/
lemma nextFits_append (areHidden : ∀ item ∈ hidden, ¬ shown item = true)
    (nextShown : shown next = true) (small : ∀ item ∈ hidden, size item ≤ size next)
    (fits : NextFits size shown rest) : NextFits size shown (hidden ++ next :: rest) := by
  induction hidden with
  | nil =>
    refine ⟨fun isHidden => ?_, fits⟩
    rw [nextShown] at isHidden
    cases isHidden
  | cons item hidden ih =>
    obtain ⟨-, othersHidden⟩ := forall_mem_cons.mp areHidden
    obtain ⟨itemSmall, othersSmall⟩ := forall_mem_cons.mp small
    refine ⟨fun _ other isOther => ?_, ih othersHidden othersSmall⟩
    change ((hidden ++ next :: rest).filter shown).head? = some other at isOther
    rw [filter_eq_cons_iff.mpr ⟨hidden, rest, rfl, othersHidden, nextShown, rfl⟩] at isOther
    cases isOther
    exact itemSmall

/-- Items of which none is shown are in order. -/
lemma nextFits_of_hidden (hidden : items.filter shown = []) : NextFits size shown items := by
  induction items with
  | nil => trivial
  | cons item rest ih =>
    rw [filter_cons] at hidden
    split at hidden
    · cases hidden
    refine ⟨fun _ next isNext => ?_, ih hidden⟩
    rw [hidden] at isNext
    cases isNext

include positive

variable (allShown : ∀ item ∈ second, shown item = true)
include allShown

/-- Where all items are obtained, the sizes are in order. -/
lemma fits_of_complete (complete : Complete size shown (first, second)) :
    NextFits size shown first ∧ SecondFits size shown first second := by
  generalize measure : first.length = left
  induction left using Nat.strong_induction_on generalizing first with
  | _ left ih =>
    rcases firstFilter : first.filter shown with _ | ⟨next, more⟩
    · refine ⟨nextFits_of_hidden firstFilter, fun head _ item mem => ?_⟩
      rw [firstFilter] at mem
      cases mem
    obtain ⟨hidden, rest, rfl, areHidden, nextShown, rfl⟩ := filter_eq_cons_iff.mp firstFilter
    have comes : upcoming shown (hidden ++ next :: rest, second) =
        next :: (rest.filter shown ++ second.filter shown) := by
      rw [upcoming, firstFilter]
      rfl
    have nonempty : upcoming shown (hidden ++ next :: rest, second) ≠ [] := by
      rw [comes]
      exact cons_ne_nil _ _
    have fits : ∀ room, size next ≤ room → ∀ item,
        (upcoming shown (hidden ++ next :: rest, second)).head? = some item → size item ≤ room := by
      intro room roomy item isItem
      rw [comes] at isItem
      cases isItem
      exact roomy
    -- a page for the next item alone stops at a larger item before it
    have small : ∀ item ∈ hidden, size item ≤ size next := by
      intro item mem
      by_contra large
      have stopped := behind_none_of_misfit (next :: rest) areHidden mem
        (show size next < 0 + size item by omega)
      have empty := congrArg Prod.fst (fill_of_behind_none stopped)
      rcases complete.page_first nonempty (fits _ (Nat.le_refl _)) with ⟨some, -⟩ | all
      · exact some empty
      · rw [firstFilter, empty] at all
        cases all
    -- otherwise it is full with that item
    obtain ⟨one, leaves⟩ :=
      fill_one areHidden nextShown small (Nat.le_refl _) (behind_full positive rest)
    have restComplete : Complete size shown (rest, second) := by
      obtain ⟨-, -, later⟩ := complete.step nonempty (fits _ (Nat.le_refl _))
      rcases page_cases size shown (hidden ++ next :: rest, second) (size next) with
        ⟨-, resumed, -⟩ | ⟨_, unfilled, -⟩
      · rw [resumed, leaves] at later
        exact later
      · exact absurd (congrArg Prod.snd one) unfilled
    obtain ⟨nextFits, secondFits⟩ := ih rest.length (by
      rw [← measure, length_append, length_cons]
      omega) restComplete rfl
    refine ⟨nextFits_append areHidden nextShown small nextFits, ?_⟩
    intro head isHead item mem
    rw [firstFilter] at mem
    by_contra large
    -- a page for the next item and the head of the second list leaves the item behind
    cases restNext : (rest.filter shown).head? with
    | none =>
      rw [head?_eq_none_iff.mp restNext] at mem
      cases mem
    | some follower =>
      have isLarge : size head < size follower := by
        by_contra notLarge
        have isTail : item ∈ (rest.filter shown).tail := by
          obtain ⟨_, isRest⟩ := head?_eq_some_iff.mp restNext
          rw [isRest] at mem ⊢
          rcases mem_cons.mp mem with rfl | later
          · omega
          · exact later
        exact large (secondFits head isHead item isTail)
      have stopped : behind size shown (size next + size head) (size next) rest = none := by
        cases left : behind size shown (size next + size head) (size next) rest with
        | none => rfl
        | some _ =>
          have roomy := room_of_behind_some left restNext
          omega
      obtain ⟨two, -⟩ := fill_one areHidden nextShown
        (fun item mem => (small item mem).trans (Nat.le_add_right _ (size head)))
        (Nat.le_add_right _ _) stopped
      have takes := positive head
      rcases complete.page_first nonempty (fits _ (Nat.le_add_right _ (size head))) with
        ⟨-, ended, -⟩ | all
      · rw [two] at ended
        have headShown : (second.filter shown).head? = some head := by
          rw [filter_eq_self.mpr allShown]
          exact isHead
        obtain ⟨_, more⟩ := behind_isSome_of_fits (nextFits_of_shown size allShown) headShown
          (Nat.le_refl (size next + size head))
        rw [more] at ended
        rcases ended with filled | nothing
        · omega
        · cases nothing
      · rw [firstFilter, two] at all
        rw [(List.cons.inj all).2.symm] at mem
        cases mem

/-- All items are obtained, however the reader chooses its rooms, iff the sizes are in
order. -/
lemma complete_iff_fits : Complete size shown (first, second) ↔
      NextFits size shown first ∧ SecondFits size shown first second :=
  ⟨fits_of_complete positive allShown,
    fun fits => complete_of_fits positive allShown fits.1 fits.2⟩

end Packing

end WantedEngine.Foundation
