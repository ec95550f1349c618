import Mathlib.Data.List.Infix
/-!
# Walking directory trees

A path is a list of moves in a directory tree without links: stay, go to the parent, enter a
child. A location is the list of names from the root, and the parent of the root is the root.

Every walk has a normal form (`climb`): some parents of the start, then some children. The
normal form says where the walk ends (`walk_eq_climb`) and whether it ever left the subtree
it started in, so that confinement to a subtree is a question about the path alone, up to
re-entering by the start's own names (`start_isPrefix_walk_iff`).
-/
namespace WantedEngine.Foundation

open List

universe u

/-- One move in a directory tree. -/
inductive Move (α : Type u) where
  | stay
  | up
  | down (name : α)
  deriving DecidableEq

namespace Move

variable {α : Type u}

/-- The location after one move; the root is its own parent. -/
def apply (location : List α) : Move α → List α
  | stay => location
  | up => location.dropLast
  | down name => location ++ [name]

/-- The location after a list of moves. -/
def walk : List α → List (Move α) → List α
  | location, [] => location
  | location, move :: rest => walk (move.apply location) rest

@[simp] lemma walk_nil (location : List α) : walk location [] = location := rfl

@[simp] lemma walk_cons (location : List α) (move : Move α) (rest : List (Move α)) :
    walk location (move :: rest) = walk (move.apply location) rest := rfl

/-- Entering children appends their names. -/
lemma walk_map_down (location names : List α) : walk location (names.map down) = location ++ names := by
  induction names generalizing location with
  | nil => simp
  | cons name rest ih => simp [apply, ih]

/-- One move applied to a normal form: parents of the start, then children. -/
def climbStep (form : Nat × List α) : Move α → Nat × List α
  | stay => form
  | up => if form.2 = [] then (form.1 + 1, []) else (form.1, form.2.dropLast)
  | down name => (form.1, form.2 ++ [name])

/-- The normal form of a list of moves, continued from a normal form. -/
def climbFrom : Nat × List α → List (Move α) → Nat × List α
  | form, [] => form
  | form, move :: rest => climbFrom (climbStep form move) rest

/-- The normal form of a list of moves. -/
def climb (moves : List (Move α)) : Nat × List α := climbFrom (0, []) moves

/-- The location a normal form names from a start. -/
def Names (start : List α) (form : Nat × List α) : List α :=
  start.take (start.length - form.1) ++ form.2

variable (start : List α)

/-- A move from the location of a normal form leads to the location of the moved form. -/
lemma apply_names (form : Nat × List α) (move : Move α) :
    move.apply (Names start form) = Names start (climbStep form move) := by
  obtain ⟨_, children⟩ := form
  cases move with
  | stay => rfl
  | down name => simp [apply, Names, climbStep]
  | up =>
    by_cases none_ : children = []
    · subst none_
      simp only [apply, Names, climbStep, append_nil, if_true, dropLast_eq_take, length_take, take_take]
      congr 1
      omega
    · simp only [climbStep, if_neg none_]
      exact dropLast_append_of_ne_nil none_

/-- A walk ends at the location its normal form names. -/
lemma walk_names (form : Nat × List α) (moves : List (Move α)) :
    walk (Names start form) moves = Names start (climbFrom form moves) := by
  induction moves generalizing form with
  | nil => rfl
  | cons move rest ih => rw [walk_cons, apply_names, ih, climbFrom]

/-- A walk climbs to a parent of its start and descends from there. -/
lemma walk_eq_climb (moves : List (Move α)) :
    walk start moves = start.take (start.length - (climb moves).1) ++ (climb moves).2 := by
  have begun : Names start (0, []) = start := by simp [Names]
  calc walk start moves = walk (Names start (0, [])) moves := by rw [begun]
    _ = Names start (climb moves) := walk_names start (0, []) moves

/-- A walk that never climbs above its start ends beneath it. -/
lemma start_isPrefix_walk_of_climb {start : List α} {moves : List (Move α)}
    (never : (climb moves).1 = 0) : start <+: walk start moves := by
  rw [walk_eq_climb, never, Nat.sub_zero, take_length]
  exact prefix_append _ _

/-- A walk ends beneath its start iff it re-enters the start by its own names after
the last parent it climbed to. -/
lemma start_isPrefix_walk_iff (moves : List (Move α)) : start <+: walk start moves ↔
      start.drop (start.length - (climb moves).1) <+: (climb moves).2 := by
  rw [walk_eq_climb]
  constructor
  · intro beneath
    have split : start.take (start.length - (climb moves).1) ++
        start.drop (start.length - (climb moves).1) <+:
          start.take (start.length - (climb moves).1) ++ (climb moves).2 := by
      rw [take_append_drop]
      exact beneath
    exact (prefix_append_right_inj _).mp split
  · intro reenters
    have joined := (prefix_append_right_inj (start.take (start.length - (climb moves).1))).mpr reenters
    rwa [take_append_drop] at joined

end Move

end WantedEngine.Foundation
