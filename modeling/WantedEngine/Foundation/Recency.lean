import Mathlib.Data.List.Nodup
/-!
# Lists kept in order of use

A list without repetitions whose elements are moved to its end when they are used. The latest
element with a property is the last one that has it, and an order in which every element is older
than those behind it finds the same.
-/
namespace WantedEngine.Foundation

open List

variable {α : Type} [DecidableEq α]

/-- Move an element to the end of a list, or append it. -/
def touch (a : α) (order : List α) : List α := order.erase a ++ [a]

/-- The last element with a property. -/
def latest (p : α → Bool) (order : List α) : Option α := order.reverse.find? p

variable {a : α} {order : List α}

/-- What is used is added. -/
lemma mem_touch {b : α} : b ∈ touch a order ↔ b = a ∨ b ∈ order := by
  rw [touch]
  by_cases same : b = a
  · simp [same]
  · simp [same]

/-- An element is used once. -/
lemma touch_nodup (once : order.Nodup) : (touch a order).Nodup := by
  rw [touch, ← concat_eq_append]
  exact Nodup.concat once.not_mem_erase (once.erase a)

/-- What is used last may be newer than all the others. -/
lemma touch_pairwise {older : α → α → Prop} (kept : (order.erase a).Pairwise older)
    (last : ∀ b ∈ order.erase a, older b a) : (touch a order).Pairwise older := by
  rw [touch, pairwise_append]
  refine ⟨kept, pairwise_singleton older a, ?_⟩
  intro b mem c isLast
  rw [mem_singleton] at isLast
  rw [isLast]
  exact last b mem

omit [DecidableEq α] in
/-- There is no latest element only where none has the property. -/
lemma latest_eq_none_iff {p : α → Bool} : latest p order = none ↔ ∀ a ∈ order, p a = false := by
  simp [latest]

omit [DecidableEq α] in
/-- The latest element has the property, and no element with it stands behind it. -/
lemma latest_eq_some {p : α → Bool} (found : latest p order = some a) :
    p a = true ∧ ∃ before after, order = before ++ a :: after ∧ ∀ b ∈ after, p b = false := by
  obtain ⟨holds, front, back, split, none_⟩ := find?_eq_some_iff_append.mp found
  refine ⟨holds, back.reverse, front.reverse, ?_, ?_⟩
  · have whole := congrArg List.reverse split
    rw [reverse_reverse] at whole
    rw [whole]
    simp
  · intro b mem
    have failed := none_ b (mem_reverse.mp mem)
    simpa using failed

omit [DecidableEq α] in
/-- The latest element is an element. -/
lemma mem_of_latest {p : α → Bool} (found : latest p order = some a) :
    a ∈ order := mem_reverse.mp (mem_of_find?_eq_some found)

omit [DecidableEq α] in
/-- An element with the property that is older than no other is the latest. -/
lemma latest_of_newest {older : α → α → Prop} {p : α → Bool} (aged : order.Pairwise older)
    (mem : a ∈ order) (holds : p a = true)
    (newest : ∀ b ∈ order, p b = true → b ≠ a → ¬ older a b) : latest p order = some a := by
  cases found : latest p order with
  | none =>
    have failed := latest_eq_none_iff.mp found a mem
    rw [holds] at failed
    cases failed
  | some b =>
    obtain ⟨holds', before, _, split, none_⟩ := latest_eq_some found
    by_cases same : b = a
    · rw [same]
    -- the element stands before the latest, so it is older
    have early : a ∈ before := by
      rw [split, mem_append, mem_cons] at mem
      rcases mem with early | isLatest | late
      · exact early
      · exact absurd isLatest.symm same
      · rw [none_ a late] at holds
        cases holds
    rw [split, pairwise_append] at aged
    have isOlder := aged.2.2 a early b mem_cons_self
    exact absurd isOlder (newest b (mem_of_latest found) holds' same)

end WantedEngine.Foundation
