import Mathlib.Data.List.Basic
import Mathlib.Data.List.Count
import Mathlib.Data.List.GetD
/-!
# Tables of slots

A table is a list of slots, read with a default outside of it. Each slot holds some resources, and
the resources of the table are those of its slots. Writing one slot exchanges what that slot held
for what is written (`count_flatMap_set`); when no resource is in the table twice, no two slots
hold the same one (`slot_unique`).
-/
namespace WantedEngine.Foundation.Slots

open List

universe u v

variable {α : Type u} {β : Type v} (table : List α)

/-- A slot read after a write. -/
lemma getD_set (pos other : Nat) (value default : α) (within : pos < table.length) :
    (table.set pos value).getD other default =
      if pos = other then value else table.getD other default := by
  rw [getD_eq_getElem?_getD, getElem?_set]
  split
  · simp
  · rfl

variable {pos other : Nat}

/-- A slot beside a write. -/
lemma getD_set_ne (apart : pos ≠ other) (value default : α)
    : (table.set pos value).getD other default = table.getD other default := by
  rw [getD_eq_getElem?_getD, getElem?_set_ne apart, getD_eq_getElem?_getD]

/-- Writing what a slot holds changes nothing. -/
lemma set_getD (pos : Nat) (default : α) : table.set pos (table.getD pos default) = table := by
  by_cases within : pos < table.length
  · rw [getD_eq_getElem _ _ within, set_getElem_self]
  · exact set_eq_of_length_le (Nat.le_of_not_lt within)

/-- A slot that holds something the default does not is in the table. -/
lemma getD_ne (pos : Nat) (default : α) (differs : table.getD pos default ≠ default)
    : pos < table.length := by
  by_contra outside
  exact differs (getD_eq_default _ _ (Nat.le_of_not_lt outside))

/-- What a table yields is what one of its places yields. -/
lemma mem_filterMap_iff (yields : α → Option β) (table : List α) (default : α)
    (nothing : yields default = none) (value : β) :
    value ∈ table.filterMap yields ↔ ∃ pos, yields (table.getD pos default) = some value := by
  rw [mem_filterMap]
  constructor
  · rintro ⟨slot, mem, yielded⟩
    obtain ⟨pos, within, rfl⟩ := mem_iff_getElem.mp mem
    exact ⟨pos, by rwa [getD_eq_getElem _ _ within]⟩
  rintro ⟨pos, yielded⟩
  have within : pos < table.length := by
    apply getD_ne table pos default
    intro same
    rw [same, nothing] at yielded
    cases yielded
  rw [getD_eq_getElem _ _ within] at yielded
  exact ⟨_, getElem_mem within, yielded⟩

variable [DecidableEq β] (holds : α → List β)

/-- Writing a slot exchanges what it held for what is written. -/
lemma count_flatMap_set (table : List α) (pos : Nat) (value default : α)
    (within : pos < table.length) (resource : β) :
    ((table.set pos value).flatMap holds).count resource +
        (holds (table.getD pos default)).count resource =
      (table.flatMap holds).count resource + (holds value).count resource := by
  induction table generalizing pos with
  | nil => cases within
  | cons first rest ih =>
    cases pos with
    | zero => simp; omega
    | succ pos =>
      have := ih pos (by simpa using within)
      simp only [set_cons_succ, flatMap_cons, count_append, getD_cons_succ]
      omega

/-- What a slot holds is in the table. -/
lemma count_le_flatMap (table : List α) (pos : Nat) (default : α) (nothing : holds default = [])
    (resource : β) :
    (holds (table.getD pos default)).count resource ≤ (table.flatMap holds).count resource := by
  by_cases within : pos < table.length
  · have exchanged := count_flatMap_set holds table pos default default within resource
    rw [nothing, count_nil] at exchanged
    omega
  · rw [getD_eq_default _ _ (Nat.le_of_not_lt within), nothing]
    simp

/-- No two slots hold a resource that the table has once. -/
lemma slot_unique (table : List α) (default : α) (nothing : holds default = []) {resource : β}
    (once : (table.flatMap holds).count resource ≤ 1)
    (here : resource ∈ holds (table.getD pos default))
    (there : resource ∈ holds (table.getD other default)) : pos = other := by
  by_contra apart
  have within : pos < table.length := by
    apply getD_ne table pos default
    intro same
    rw [same, nothing] at here
    cases here
  -- emptying one of the two slots leaves the resource with the other
  have emptied := count_flatMap_set holds table pos default default within resource
  have left := count_le_flatMap holds (table.set pos default) other default nothing resource
  rw [getD_set _ _ _ _ _ within, if_neg apart] at left
  rw [nothing, count_nil] at emptied
  have first := count_pos_iff.mpr here
  have second := count_pos_iff.mpr there
  omega

end WantedEngine.Foundation.Slots
