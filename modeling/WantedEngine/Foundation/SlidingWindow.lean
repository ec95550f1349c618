import Mathlib.Algebra.GroupWithZero.Nat
import Mathlib.Algebra.Order.BigOperators.Group.List
import Mathlib.Algebra.Order.Group.Nat
/-!
# Budgets over a sliding window

Amounts are spent at times that do not go back, and no window of a fixed width may see more than a
budget. A ledger of records stands for what was spent as long as it counts at least as much from
every time on that a window reaching the present can start at (`Covers`). It may forget a record
that no such window holds, and it may merge a record into a later one, which only counts more. If
the ledger and a new amount are within the budget, every window with the new amount is
(`within_charge_le`).
-/
namespace WantedEngine.Foundation.SlidingWindow

open List

universe u v

section Totals

variable {α : Type u} (time amount : α → Nat)

/-- What is spent from a time on. -/
def since (start : Nat) (items : List α) : Nat :=
  ((items.filter fun item => start ≤ time item).map amount).sum

/-- What is spent in a window. -/
def within (start width : Nat) (items : List α) : Nat :=
  ((items.filter fun item => start ≤ time item ∧ time item < start + width).map amount).sum

variable {time amount} (start : Nat)

@[simp] lemma since_nil : since time amount start [] = 0 := rfl

/-- What is spent from a time on, with one more item in front. -/
lemma since_cons (item : α) (rest : List α) : since time amount start (item :: rest) =
      (if start ≤ time item then amount item else 0) + since time amount start rest := by
  unfold since
  rw [filter_cons]
  by_cases counts : start ≤ time item
  · rw [if_pos (decide_eq_true counts), if_pos counts, map_cons, sum_cons]
  · rw [if_neg (by simpa using counts), if_neg counts, Nat.zero_add]

/-- Two lists spend together what they spend apart. -/
lemma since_append (first second : List α) : since time amount start (first ++ second) =
      since time amount start first + since time amount start second := by
  unfold since
  rw [filter_append, map_append, sum_append]

/-- Two lists spend in a window together what they spend apart. -/
lemma within_append (start width : Nat) (first second : List α) :
    within time amount start width (first ++ second) =
      within time amount start width first + within time amount start width second := by
  unfold within
  rw [filter_append, map_append, sum_append]

/-- What is spent from a time on is part of all that is spent. -/
lemma since_le_sum (items : List α) : since time amount start items ≤ (items.map amount).sum :=
  (filter_sublist.map amount).sum_le_sum fun _ _ => Nat.zero_le _

/-- What is spent in a window is part of what is spent from its start on. -/
lemma within_le_since (start width : Nat) (items : List α) :
    within time amount start width items ≤ since time amount start items := by
  have part : (items.filter fun item => start ≤ time item ∧ time item < start + width).Sublist
      (items.filter fun item => start ≤ time item) := by
    apply monotone_filter_right
    intro item inside
    exact decide_eq_true (of_decide_eq_true inside).1
  exact (part.map amount).sum_le_sum fun _ _ => Nat.zero_le _

/-- What was spent before a time is not spent from it on. -/
lemma since_eq_zero {start : Nat} {items : List α} (early : ∀ item ∈ items, time item < start) :
    since time amount start items = 0 := by
  have none_ : items.filter (fun item => decide (start ≤ time item)) = [] :=
    filter_eq_nil_iff.mpr fun item mem => by simpa using early item mem
  rw [since, none_]
  rfl

end Totals

section Ledger

variable {α : Type u} {β : Type v} (time amount : α → Nat) (at_ spent : β → Nat) (width : Nat)

/-- A ledger counts at least what was spent, from every time on that a window which reaches the
present can start at. -/
def Covers (now : Nat) (ledger : List α) (history : List β) : Prop :=
  ∀ start, now < start + width → since at_ spent start history ≤ since time amount start ledger

variable {time amount at_ spent width} {now : Nat} {ledger : List α} {history : List β}

/-- A ledger goes on to cover what was spent as time goes on. -/
lemma Covers.mono {later : Nat} (covers : Covers time amount at_ spent width now ledger history)
    (order : now ≤ later) : Covers time amount at_ spent width later ledger history :=
  fun start reaches => covers start (Nat.lt_of_le_of_lt order reaches)

/-- A ledger may forget what no window holds any more. -/
lemma Covers.forget {old : List α}
    (covers : Covers time amount at_ spent width now (old ++ ledger) history)
    (expired : ∀ item ∈ old, time item + width ≤ now) :
    Covers time amount at_ spent width now ledger history := by
  intro start reaches
  have gone : since time amount start old = 0 :=
    since_eq_zero fun item mem => by
      have early := expired item mem
      omega
  have whole := covers start reaches
  rw [since_append, gone, Nat.zero_add] at whole
  exact whole

/-- A ledger may merge a record into a later one. -/
lemma Covers.merge {first second merged : α}
    (covers : Covers time amount at_ spent width now (first :: second :: ledger) history)
    (order : time first ≤ time second) (late : time merged = time second)
    (total : amount merged = amount second + amount first) :
    Covers time amount at_ spent width now (merged :: ledger) history := by
  intro start reaches
  have apart := covers start reaches
  rw [since_cons, since_cons] at apart
  rw [since_cons, late]
  by_cases counts : start ≤ time second
  · rw [if_pos counts] at apart ⊢
    split at apart
    · omega
    · omega
  · rw [if_neg counts] at apart ⊢
    rw [if_neg (by omega), Nat.zero_add] at apart
    exact apart

/-- A ledger with a record of a new amount covers it. -/
lemma Covers.charge {record : α} {item : β}
    (covers : Covers time amount at_ spent width now ledger history)
    (same : at_ item = time record) (enough : spent item ≤ amount record) :
    Covers time amount at_ spent width now (ledger ++ [record]) (history ++ [item]) := by
  intro start reaches
  have before := covers start reaches
  rw [since_append, since_append, since_cons, since_cons, since_nil, same]
  split
  · omega
  · omega

/-- Every window holds no more than the budget. -/
def WithinBudget (at_ spent : β → Nat) (width budget : Nat) (history : List β) : Prop :=
  ∀ start, within at_ spent start width history ≤ budget

/-- A new amount that fits the budget together with the ledger fits it in every window. -/
lemma within_charge_le {budget : Nat} {item : β}
    (covers : Covers time amount at_ spent width now ledger history)
    (before : WithinBudget at_ spent width budget history) (later : now ≤ at_ item)
    (fits : (ledger.map amount).sum + spent item ≤ budget) :
    WithinBudget at_ spent width budget (history ++ [item]) := by
  intro start
  rw [within_append]
  by_cases inside : start ≤ at_ item ∧ at_ item < start + width
  · -- what the window holds besides, the ledger counts
    have one : within at_ spent start width [item] = spent item := by
      simp [within, inside]
    have earlier := calc within at_ spent start width history
        _ ≤ since at_ spent start history := within_le_since ..
        _ ≤ since time amount start ledger := covers start (by omega)
        _ ≤ (ledger.map amount).sum := since_le_sum ..
    omega
  · have none_ : within at_ spent start width [item] = 0 := by
      simp only [within, filter_cons, decide_eq_true_eq, if_neg inside]
      rfl
    rw [none_]
    exact before start

end Ledger

end WantedEngine.Foundation.SlidingWindow
