import WantedEngine.Foundation.Machine
import WantedEngine.Lifecycle.Supervisor
/-!
# Rollback of a staged supervisor

The run loop shows `WantedSupervisorObserve` once a second what has become of the supervisor. A staged
image is to be given up when `MAX_SUPERVISOR_LAUNCH_FAILURES` starts of it in a row ended before the
healthy span. The tally here counts these starts by what was seen alone. The counter of the source
keeps up with it unless the worker is seen while it is still starting: that observation is taken for
an ordinary exit and clears the counter (`failed_starts_roll_back`, `starting_clears_count`).
-/
namespace WantedEngine.Lifecycle

open Foundation

/-- What the run loop sees of the supervisors' workers; no flag is set for one that is `STARTING`. -/
structure Sighting where
  running : Bool
  failed : Bool
  exited : Bool
  deriving DecidableEq

/-- The supervisor under observation, and what was seen of it. -/
structure Watch where
  sup : Supervisor
  /-- Running observations in a row. -/
  ticks : Nat
  /-- Starts in a row that ended before the healthy span. -/
  ended : Nat
  /-- `SUPERVISOR_ROLLED_BACK` was returned. -/
  rolled : Bool
  deriving DecidableEq

/-- The running observations in a row. -/
def ticksAfter (ticks : Nat) (seen : Sighting) : Nat := if seen.running then ticks + 1 else 0

/-- The starts in a row that ended early: a start that reaches the span begins a new row. -/
def endedAfter (ticks ended : Nat) (seen : Sighting) : Nat :=
  if seen.running then if supervisorHealthyTicks ≤ ticks + 1 then 0 else ended
  else if (seen.failed ∨ seen.exited) ∧ ticks < supervisorHealthyTicks then ended + 1
  else ended

def observe (w : Watch) (seen : Sighting) : Health × Watch :=
  let (health, sup) :=
    wantedSupervisorObserve seen.running seen.failed seen.exited w.sup
  (health,
    { sup, ticks := ticksAfter w.ticks seen, ended := endedAfter w.ticks w.ended seen
      rolled := w.rolled || health = .rolledBack })

def watchMachine : Machine Watch Sighting Health := ⟨observe⟩

/-- A worker is seen starting only when no failure is counted. -/
def StartsUnseen (w : Watch) (seen : Sighting) : Prop :=
  seen = ⟨false, false, false⟩ → w.sup.failures = 0

/-- The image was rolled back, or it is still staged and the source counts every start that ended
early. -/
def Counting (w : Watch) : Prop :=
  w.rolled = true ∨
    supervisorStaged w.sup = true ∧ w.sup.healthyTicks = min w.ticks supervisorHealthyTicks ∧
      w.ended ≤ w.sup.failures ∧ w.sup.failures < maxSupervisorLaunchFailures ∧
      (supervisorHealthyTicks ≤ w.ticks → w.ended = 0)

/-- An ending that is suspect is counted, or the image is rolled back. -/
lemma wantedSupervisorObserve_suspect {sup : Supervisor} {failed exited : Bool}
    (staged : supervisorStaged sup = true)
    (suspect : failed = true ∨ exited = true ∧ sup.healthyTicks < supervisorHealthyTicks) :
    (wantedSupervisorObserve false failed exited sup).1 = .rolledBack ∨
      sup.failures + 1 < maxSupervisorLaunchFailures ∧
        (wantedSupervisorObserve false failed exited sup).2 =
          { sup with healthyTicks := 0, failures := sup.failures + 1 } := by
  have unpinned : sup.pinBuiltin = false := by
    simp only [supervisorStaged, Bool.and_eq_true, Bool.not_eq_true'] at staged
    exact staged.1
  have isSuspect : (failed || (exited && supervisorStaged sup &&
      decide (sup.healthyTicks < supervisorHealthyTicks))) = true := by
    rcases suspect with launch | ⟨left, short⟩
    · rw [launch, Bool.true_or]
    · rw [left, staged, decide_eq_true short, Bool.true_and, Bool.true_and, Bool.or_true]
  unfold wantedSupervisorObserve
  simp only [isSuspect]
  by_cases more : sup.failures + 1 < maxSupervisorLaunchFailures
  · rw [if_pos more]
    exact .inr ⟨more, rfl⟩
  · rw [if_neg more]
    simp [wantedSupervisorRollback, unpinned]

/-- An observation keeps the count. -/
lemma Counting.observe {w : Watch} (counting : Counting w) {seen : Sighting}
    (unseen : StartsUnseen w seen) : Counting (observe w seen).2 := by
  have soon : ¬ supervisorHealthyTicks ≤ 0 := by decide
  rcases counting with rolled | ⟨staged, ticks, ended, _, healthy⟩
  · refine .inl ?_
    show (w.rolled || _) = true
    rw [rolled, Bool.true_or]
  have counted : ∀ (health : Health) sup ended', ended' ≤ w.ended + 1 →
      (health = .rolledBack ∨ w.sup.failures + 1 < maxSupervisorLaunchFailures ∧
        sup = { w.sup with healthyTicks := 0, failures := w.sup.failures + 1 }) →
      Counting ⟨sup, 0, ended', w.rolled || health = .rolledBack⟩ := by
    rintro health sup ended' _ (rfl | ⟨more, rfl⟩)
    · exact .inl (by simp)
    · exact .inr ⟨staged, rfl, by dsimp only; omega, more, fun reached => absurd reached soon⟩
  obtain ⟨running, failed, exited⟩ := seen
  cases running with
  | true =>
    refine .inr ⟨staged, ?_, ?_, ?_, fun reached => if_pos reached⟩
    · show (if w.sup.healthyTicks < supervisorHealthyTicks then _ else _) = min (w.ticks + 1) _
      split <;> omega
    · show (if supervisorHealthyTicks ≤ w.ticks + 1 then 0 else w.ended) ≤
        if (if w.sup.healthyTicks < supervisorHealthyTicks then _ else _) ≥ _ then 0 else _
      split_ifs <;> omega
    · show (if _ then 0 else w.sup.failures) < _
      split_ifs <;> omega
  | false =>
  have atMost : endedAfter w.ticks w.ended ⟨false, failed, exited⟩ ≤ w.ended + 1 := by
    simp only [endedAfter]
    split_ifs <;> omega
  cases failed with
  | true => exact counted _ _ _ atMost (@wantedSupervisorObserve_suspect w.sup true exited staged (.inl rfl))
  | false =>
  cases exited with
  | false =>
    have none_ := unseen rfl
    refine .inr ⟨staged, rfl, ?_, Nat.succ_pos _, fun reached => absurd reached soon⟩
    show w.ended ≤ 0
    omega
  | true =>
    by_cases short : w.ticks < supervisorHealthyTicks
    · exact counted _ _ _ atMost
        (@wantedSupervisorObserve_suspect w.sup false true staged (.inr ⟨rfl, by omega⟩))
    have full : ¬ w.sup.healthyTicks < supervisorHealthyTicks := by omega
    have after : (Lifecycle.observe w ⟨false, false, true⟩).2 =
        ⟨{ w.sup with healthyTicks := 0, failures := 0 }, 0, w.ended, w.rolled⟩ := by
      simp [Lifecycle.observe, wantedSupervisorObserve, ticksAfter, endedAfter, full, short]
    rw [after]
    have none_ := healthy (by omega)
    exact .inr ⟨staged, rfl, Nat.le_of_eq none_, Nat.succ_pos _, fun _ => none_⟩

/-- In every sequence of observations of a staged supervisor in which the worker is seen starting only
when no failure is counted: once as many starts as are allowed have ended before the healthy span, with
none in between that reached it, the image was rolled back. -/
theorem failed_starts_roll_back {sup : Supervisor} (staged : supervisorStaged sup = true)
    (fresh : sup.healthyTicks = 0) (few : sup.failures < maxSupervisorLaunchFailures)
    {seen : List Sighting}
    (unseen : watchMachine.Obeys StartsUnseen ⟨sup, 0, 0, false⟩ seen)
    (failed : maxSupervisorLaunchFailures ≤ (watchMachine.exec ⟨sup, 0, 0, false⟩ seen).ended) :
    (watchMachine.exec ⟨sup, 0, 0, false⟩ seen).rolled = true := by
  have start : Counting ⟨sup, 0, 0, false⟩ :=
    Or.inr ⟨staged, fresh, Nat.zero_le _, few, fun _ => rfl⟩
  have counting := watchMachine.exec_invariant Counting
    (fun _ _ counting unseen => counting.observe unseen) start unseen
  rcases counting with rolled | ⟨-, -, _, few, -⟩
  · exact rolled
  · omega

def stagedSupervisor : Supervisor := ⟨none, some .staged, false, false, false, 0, 0⟩

def seenRunning : Sighting := ⟨true, false, false⟩

def seenExited : Sighting := ⟨false, false, true⟩

/-- Three starts that end after a second each, seen running in between, are rolled back. -/
theorem failed_starts_roll_back_three : (watchMachine.exec ⟨stagedSupervisor, 0, 0, false⟩
      [seenRunning, seenExited, seenRunning, seenExited, ⟨false, true, true⟩]).rolled = true :=
  have seen (w : Watch) (sighting : Sighting) (some_ : sighting ≠ ⟨false, false, false⟩) :
      StartsUnseen w sighting := fun none_ => absurd none_ some_
  failed_starts_roll_back rfl rfl (by decide)
    ⟨seen _ _ (by decide), seen _ _ (by decide), seen _ _ (by decide), seen _ _ (by decide),
      seen _ _ (by decide), trivial⟩ (by decide)

/-- Three starts that end at once, each seen starting before the next, are not. -/
theorem starting_clears_count :
    let seen := [seenExited, ⟨false, false, false⟩, seenExited, ⟨false, false, false⟩, seenExited]
    (watchMachine.exec ⟨stagedSupervisor, 0, 0, false⟩ seen).ended = maxSupervisorLaunchFailures ∧
      (watchMachine.exec ⟨stagedSupervisor, 0, 0, false⟩ seen).rolled = false := by
  decide

end WantedEngine.Lifecycle
