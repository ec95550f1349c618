import Mathlib.Data.List.Basic
/-!
# Deterministic machines and guarded runs

A machine answers one request at a time: a state and a request give an answer and the next
state. Everything the environment decides (device answers, scheduling, allocation results)
is part of the request, so a run is a list of requests and is replayed by evaluation.

A guard restricts which requests a run may issue in which state. An invariant that holds
at the start and survives every step the guard admits holds in every state of every
guarded run (`Machine.exec_invariant`); that rule is the one induction of this module and
every safety result about runs is an instance of it.
-/
namespace WantedEngine.Foundation

universe u v w

/-- A deterministic machine with states `σ`, requests `ι` and answers `ο`. -/
structure Machine (σ : Type u) (ι : Type v) (ο : Type w) where
  /-- The answer to a request and the state after it. -/
  step : σ → ι → ο × σ

namespace Machine

variable {σ : Type u} {ι : Type v} {ο : Type w} (m : Machine σ ι ο)

/-- The state after one request. -/
def next (s : σ) (i : ι) : σ := (m.step s i).2

/-- The answer to one request. -/
def answer (s : σ) (i : ι) : ο := (m.step s i).1

/-- The state after a list of requests, served in order. -/
def exec : σ → List ι → σ
  | s, [] => s
  | s, i :: rest => exec (m.next s i) rest

/-- Every request of the list meets the guard in the state it is issued in. -/
def Obeys (guard : σ → ι → Prop) : σ → List ι → Prop
  | _, [] => True
  | s, i :: rest => guard s i ∧ Obeys guard (m.next s i) rest

variable (s : σ)

@[simp] lemma exec_nil : m.exec s [] = s := rfl

@[simp] lemma exec_cons (i : ι) (rest : List ι) : m.exec s (i :: rest) = m.exec (m.next s i) rest := rfl

variable (guard : σ → ι → Prop)

@[simp] lemma obeys_nil : m.Obeys guard s [] := trivial

@[simp] lemma obeys_cons (i : ι) (rest : List ι) :
    m.Obeys guard s (i :: rest) ↔ guard s i ∧ m.Obeys guard (m.next s i) rest := Iff.rfl

/-- A run is the run of its first part followed by the run of its second part. -/
@[simp] lemma exec_append (first second : List ι) :
    m.exec s (first ++ second) = m.exec (m.exec s first) second := by
  induction first generalizing s with
  | nil => rfl
  | cons i rest ih => simpa using ih (m.next s i)

/-- A run obeys a guard iff both of its parts do. -/
@[simp] lemma obeys_append (first second : List ι) : m.Obeys guard s (first ++ second) ↔
      m.Obeys guard s first ∧ m.Obeys guard (m.exec s first) second := by
  induction first generalizing s with
  | nil => simp
  | cons i rest ih => simp [ih, and_assoc]

variable {m} in
/-- A run obeys every weaker guard. -/
lemma Obeys.mono {guard weaker : σ → ι → Prop} (weak : ∀ s i, guard s i → weaker s i) {s : σ}
    {reqs : List ι} (obeyed : m.Obeys guard s reqs) : m.Obeys weaker s reqs := by
  induction reqs generalizing s with
  | nil => trivial
  | cons i rest ih => exact ⟨weak s i obeyed.1, ih obeyed.2⟩

instance decidableObeys (guard : σ → ι → Prop) [∀ s i, Decidable (guard s i)] :
    ∀ (s : σ) (reqs : List ι), Decidable (m.Obeys guard s reqs)
  | _, [] => inferInstanceAs (Decidable True)
  | s, i :: rest =>
    haveI := decidableObeys guard (m.next s i) rest
    inferInstanceAs (Decidable (guard s i ∧ m.Obeys guard (m.next s i) rest))

variable {guard : σ → ι → Prop} {s : σ}

/-- What holds at the start and survives every admitted step holds after every guarded
run. -/
lemma exec_invariant (inv : σ → Prop)
    (kept : ∀ s i, inv s → guard s i → inv (m.next s i)) {reqs : List ι}
    (start : inv s) (obeyed : m.Obeys guard s reqs) : inv (m.exec s reqs) := by
  induction reqs generalizing s with
  | nil => exact start
  | cons i rest ih => exact ih (kept s i start obeyed.1) obeyed.2

/-- The invariant rule for runs that no guard restricts. -/
lemma exec_invariant_of_step (inv : σ → Prop) (kept : ∀ s i, inv s → inv (m.next s i))
    (start : inv s) (reqs : List ι) : inv (m.exec s reqs) := by
  induction reqs generalizing s with
  | nil => exact start
  | cons i rest ih => exact ih (kept s i start)

/-- When a step keeps a property iff the guard admits it, the property holds in every state
of a run iff the run obeys the guard. -/
lemma forall_prefix_iff_obeys (inv good : σ → Prop) (kept : ∀ s i, inv s → inv (m.next s i))
    (step : ∀ s i, inv s → good s → (good (m.next s i) ↔ guard s i)) (sound : inv s)
    (start : good s) (reqs : List ι) :
    (∀ first rest, reqs = first ++ rest → good (m.exec s first)) ↔ m.Obeys guard s reqs := by
  induction reqs generalizing s with
  | nil =>
    constructor
    · intro _
      trivial
    intro _ first rest parts
    have empty := (List.nil_eq_append_iff.mp parts).1
    rw [empty]
    exact start
  | cons i reqs ih =>
    constructor
    · intro always
      have next := always [i] reqs rfl
      refine ⟨(step s i sound start).mp next, (ih (kept s i sound) next).mp ?_⟩
      intro first rest parts
      exact always (i :: first) rest (by rw [parts]; rfl)
    rintro ⟨admitted, obeyed⟩ first rest parts
    have next := (step s i sound start).mpr admitted
    cases first with
    | nil => exact start
    | cons other first =>
      rw [List.cons_append, List.cons.injEq] at parts
      rw [← parts.1]
      exact (ih (kept s i sound) next).mpr obeyed first rest parts.2

end Machine

end WantedEngine.Foundation
