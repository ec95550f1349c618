import Mathlib.Data.List.MinMax
/-!
# The first of the heaviest

`List.argmax` keeps the best element so far and replaces it only by a strictly heavier one. What it
returns is heavier than everything before it and at least as heavy as everything after it.
-/
namespace WantedEngine.Foundation

open List

variable {α β : Type} [LinearOrder β] {weight : α → β}

/-- What is found stands behind lighter elements and before none that is heavier. -/
lemma argmax_split {items : List α} {found : α} (best : items.argmax weight = some found) :
    ∃ before after, items = before ++ found :: after ∧ (∀ a ∈ before, weight a < weight found) ∧
      ∀ a ∈ after, weight a ≤ weight found := by
  induction items using List.reverseRecOn generalizing found with
  | nil => cases best
  | append_singleton items last ih =>
    rw [argmax_concat] at best
    cases first : items.argmax weight with
    | none =>
      rw [first] at best
      cases best
      exact ⟨items, [], rfl, by rw [argmax_eq_none.mp first]; nofun, nofun⟩
    | some held =>
      rw [first] at best
      by_cases heavier : weight held < weight last
      · obtain rfl : last = found := by simpa [heavier] using best
        exact ⟨items, [], rfl,
          fun a mem => (le_of_mem_argmax mem first).trans_lt heavier, nofun⟩
      · obtain rfl : held = found := by simpa [heavier] using best
        obtain ⟨before, after, split, lighter, later⟩ := ih first
        exact ⟨before, after ++ [last], by simp [split], lighter,
          forall_mem_append.mpr ⟨later, forall_mem_singleton.mpr (not_lt.mp heavier)⟩⟩

end WantedEngine.Foundation
