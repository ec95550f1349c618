import Mathlib.Data.List.Infix
/-!
# Texts of separated parts

A text that starts every part with a separator. Parts without the separator can be read back, so a
text is the beginning of another one, up to a border between parts, iff its parts are
the first parts of the other (`led_border_iff`).
-/
namespace WantedEngine.Foundation.Separated

open List

universe u

variable {α : Type u} (sep : α)

def led (parts : List (List α)) : List α := parts.flatMap (sep :: ·)

@[simp] lemma led_nil : led sep [] = [] := rfl

@[simp] lemma led_cons (part : List α) (parts : List (List α)) :
    led sep (part :: parts) = sep :: (part ++ led sep parts) := rfl

/-- The parts of two texts one after the other. -/
lemma led_append (first second : List (List α)) :
    led sep (first ++ second) = led sep first ++ led sep second :=
  flatMap_append

/-- Some parts after a separator are the parts with separators in between. -/
lemma led_eq_intercalate {parts : List (List α)} (some_ : parts ≠ []) :
    led sep parts = sep :: [sep].intercalate parts := by
  induction parts with
  | nil => exact absurd rfl some_
  | cons part parts ih =>
    cases parts with
    | nil => simp
    | cons next rest =>
      rw [led_cons, ih (by simp)]
      simp

/-- A text ends here or a part starts. -/
def Border (text : List α) : Prop := text = [] ∨ text.head? = some sep

/-- A text of parts starts at a border. -/
lemma border_led (parts : List (List α)) : Border sep (led sep parts) := by
  cases parts with
  | nil => exact .inl rfl
  | cons part parts => exact .inr rfl

/-- A part without the separator ends at the first border. -/
lemma part_unique {part other : List α} {rest last : List α} (free : sep ∉ part)
    (otherFree : sep ∉ other) (border : Border sep rest) (otherBorder : Border sep last)
    (same : part ++ rest = other ++ last) : part = other ∧ rest = last := by
  induction part generalizing other with
  | nil =>
    cases other with
    | nil => exact ⟨rfl, same⟩
    | cons head tail =>
      -- the other part would have to go on with a separator
      exfalso
      rw [nil_append] at same
      obtain empty | starts := border
      · rw [empty] at same
        cases same
      rw [same] at starts
      obtain rfl := Option.some.inj starts
      exact otherFree mem_cons_self
  | cons head tail ih =>
    cases other with
    | nil =>
      exfalso
      rw [nil_append] at same
      obtain empty | starts := otherBorder
      · rw [empty] at same
        cases same
      rw [← same] at starts
      obtain rfl := Option.some.inj starts
      exact free mem_cons_self
    | cons otherHead otherTail =>
      rw [cons_append, cons_append, List.cons.injEq] at same
      have tails := ih (fun mem => free (mem_cons_of_mem _ mem))
        (fun mem => otherFree (mem_cons_of_mem _ mem)) same.2
      exact ⟨by rw [same.1, tails.1], tails.2⟩

/-- A text begins another one up to a border iff its parts are the first ones. -/
lemma led_border_iff {parts others : List (List α)} (free : ∀ part ∈ parts, sep ∉ part)
    (otherFree : ∀ part ∈ others, sep ∉ part) :
    (∃ rest, led sep others = led sep parts ++ rest ∧ Border sep rest) ↔ parts <+: others := by
  induction parts generalizing others with
  | nil =>
    constructor
    · intro _
      exact nil_prefix
    · intro _
      exact ⟨led sep others, rfl, border_led sep others⟩
  | cons part parts ih =>
    cases others with
    | nil =>
      constructor
      · rintro ⟨rest, same, -⟩
        cases same
      · intro longer
        exact absurd (prefix_nil.mp longer) (by simp)
    | cons other others =>
      have tails := ih (fun p mem => free p (mem_cons_of_mem _ mem))
          (fun p mem => otherFree p (mem_cons_of_mem _ mem))
      rw [cons_prefix_cons, ← tails]
      constructor
      · rintro ⟨rest, same, border⟩
        rw [led_cons, led_cons, cons_append, List.cons.injEq, append_assoc] at same
        have starts : Border sep (led sep parts ++ rest) := by
          obtain empty | starts := border_led sep parts
          · rw [empty]
            exact border
          right
          rw [head?_append, starts]
          rfl
        have parted := part_unique sep (free part mem_cons_self)
          (otherFree other mem_cons_self) starts (border_led sep others) same.2.symm
        exact ⟨parted.1, rest, parted.2.symm, border⟩
      · rintro ⟨rfl, rest, same, border⟩
        refine ⟨rest, ?_, border⟩
        rw [led_cons, led_cons, same, cons_append, append_assoc]

end WantedEngine.Foundation.Separated
