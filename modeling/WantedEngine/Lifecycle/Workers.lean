import Mathlib.Data.List.Perm.Basic
import WantedEngine.Lifecycle.Reload
/-!
# Workers and what the run loop sees of them

The table counts its workers in `state.n`: a start adds one before the worker is known to exist, and
the end of a worker takes one away. Every step changes one slot at most, so the count and the workers
stay in step exactly as long as every start makes its worker and takes a slot that is not starting.
The run loop looks at every slot whose name begins as the supervisor's does.
-/
namespace WantedEngine.Lifecycle

open Foundation List

/-- The slot is `STARTING` or `RUNNING`. -/
def Slot.active (slot : Slot) : Bool := slot.status = .starting || slot.status = .running

def workersIn (s : State) (i : Nat) : Nat := s.workers.countP fun worker => worker.slot = i

/-- `state.n` counts the slots that are starting or running, and just these have a live worker,
each exactly one. -/
structure Manned (s : State) : Prop where
  n : s.n = s.slots.countP Slot.active
  workers : ∀ i, workersIn s i = if (s.slots[i]?).any Slot.active then 1 else 0

/-- A manned table whose empty slots are not active. -/
structure Settled (s : State) : Prop extends Housed s, Manned s where
  vacant : ∀ (i : Nat) (slot : Slot), s.slots[i]? = some slot → slot.wapp = none →
    slot.active = false

def MakesWorker (s : State) (start : Bool × Nat) : Prop :=
  start.1 = true ∧ (s.slots[start.2]?).any (fun slot => slot.status = .starting) = false

/-- The condition on a step: the worker it starts is made, in a slot that is not starting. -/
def Staffs (s : State) (step : Step) : Prop := ∀ start ∈ recruits s step, MakesWorker s start

instance decidableStaffs (s : State) (step : Step) : Decidable (Staffs s step) :=
  inferInstanceAs (Decidable (∀ start ∈ recruits s step, _ ∧ _))

variable {s after : State} {i : Nat} {old new : Slot} {step : Step}

/-! ### One slot changes -/

/-- A slot that changes leaves the table manned iff the count and its workers change with
it. -/
lemma Manned.set_iff (manned : Manned s) (here : s.slots[i]? = some old)
    (slots : after.slots = s.slots.set i new)
    (others : ∀ j, j ≠ i → workersIn after j = workersIn s j) :
    Manned after ↔
      (after.n + (if old.active then 1 else 0) = s.n + if new.active then 1 else 0) ∧
        workersIn after i = if new.active then 1 else 0 := by
  obtain ⟨bound, isOld⟩ := List.getElem?_eq_some_iff.mp here
  have counted : after.slots.countP Slot.active + (if old.active then 1 else 0) =
      s.slots.countP Slot.active + if new.active then 1 else 0 := by
    have among : (if old.active then 1 else 0) ≤ s.slots.countP Slot.active := by
      split
      · rename_i active
        exact countP_pos_iff.mpr ⟨old, mem_of_getElem? here, active⟩
      · exact Nat.zero_le _
    rw [slots, countP_set bound, isOld]
    omega
  have self : after.slots[i]? = some new := by
    rw [slots]
    exact getElem?_set_self bound
  constructor
  · intro manned'
    have worker := manned'.workers i
    rw [self] at worker
    rw [manned'.n, counted, manned.n]
    exact ⟨rfl, worker⟩
  rintro ⟨n, worker⟩
  refine ⟨?_, fun j => ?_⟩
  · have before := manned.n
    omega
  by_cases same : j = i
  · rw [same, self]
    exact worker
  · rw [others j same, manned.workers j, slots, getElem?_set_ne (Ne.symm same)]

variable {worker : Worker}

lemma Manned.slot_of_worker (manned : Manned s) (mem : worker ∈ s.workers) :
    ∃ slot, s.slots[worker.slot]? = some slot ∧ slot.active = true := by
  have counted : 0 < workersIn s worker.slot :=
    countP_pos_iff.mpr ⟨worker, mem, by simp⟩
  rw [manned.workers] at counted
  split at counted
  · rename_i active
    exact (Option.any_eq_true _ _).mp active
  · omega

lemma Manned.status (manned : Manned s) (here : s.slots[i]? = some old)
    (active : old.active = true) {status : Status} {count : Nat}
    (isCount : (if ({ old with status } : Slot).active then 1 else 0) = count)
    (slots : after.slots = s.slots.modify i fun slot => { slot with status })
    (others : ∀ j, j ≠ i → workersIn after j = workersIn s j) (n : after.n + 1 = s.n + count)
    (workers : workersIn after i = count) : Manned after := by
  rw [modify_eq_set_getElem?, here] at slots
  refine (manned.set_iff here slots others).mpr ?_
  rw [active, isCount]
  exact ⟨n, workers⟩

lemma Moves.manned_iff (moves : Moves s step after) (settled : Settled s) :
    Manned after ↔ Staffs s step := by
  have manned := settled.toManned
  unfold Staffs
  cases moves.change with
  | quiet isNone slots workers n =>
    have kept : Manned after := by
      refine ⟨by rw [n, slots]; exact manned.n, fun j => ?_⟩
      unfold workersIn
      rw [workers, slots]
      exact manned.workers j
    simp [isNone, kept]
  | @taken made i old wapp isStart here holder older slots workers n =>
    have unseen : old.status ≠ .running := by
      rcases holder with empty | ⟨-, -, -, unseen⟩
      · intro running
        have inactive := settled.vacant i old here empty
        simp [Slot.active, running] at inactive
      · exact unseen
    have count : ∀ j, workersIn after j = workersIn s j + if made ∧ i = j then 1 else 0 := by
      unfold workersIn
      rw [workers]
      cases made with
      | false => simp
      | true => simp [countP_cons]
    have before := manned.workers i
    have starting : old.active = decide (old.status = .starting) := by simp [Slot.active, unseen]
    rw [manned.set_iff here slots fun j apart => by simp [count j, Ne.symm apart], count i, before, n,
      isStart]
    simp only [Option.mem_def, Option.some.injEq, forall_eq', MakesWorker, here, Option.any_some]
    rw [← starting]
    cases made <;> cases old.active <;> simp [Slot.active]
  | @freed i old isNone here terminal slots workers n =>
    have same : ∀ j, workersIn after j = workersIn s j := by
      intro j
      unfold workersIn
      rw [workers]
    have ended : old.active = false := by
      unfold Slot.active
      rcases terminal with h | h <;> rewrite [h] <;> rfl
    have before := manned.workers
    rw [manned.set_iff here slots fun j _ => same j, same, before, here, n, Option.any_some, ended]
    simp [emptySlot, Slot.active, isNone]
  | @begun k worker isNone isWorker slots workers n =>
    simp only [isNone, Option.mem_def, reduceCtorEq, false_imp_iff, implies_true, iff_true]
    obtain ⟨bound, value⟩ := List.getElem?_eq_some_iff.mp isWorker
    obtain ⟨slot, here, active⟩ := manned.slot_of_worker (List.mem_of_getElem? isWorker)
    have same : ∀ j, workersIn after j = workersIn s j := by
      intro j
      unfold workersIn
      have among : (if worker.slot = j then 1 else 0) ≤ s.workers.countP (·.slot = j) := by
        split
        · rename_i mine
          exact countP_pos_iff.mpr ⟨worker, mem_of_getElem? isWorker, by simp [mine]⟩
        · exact Nat.zero_le _
      rw [workers, countP_set bound, value]
      simp only [decide_eq_true_eq]
      omega
    refine manned.status here active rfl slots (fun j _ => same j) (by rw [n]; rfl) ?_
    rw [same, manned.workers, here, Option.any_some, active]
    rfl
  | @ended k worker ret isNone isWorker slots workers n =>
    simp only [isNone, Option.mem_def, reduceCtorEq, false_imp_iff, implies_true, iff_true]
    obtain ⟨bound, value⟩ := List.getElem?_eq_some_iff.mp isWorker
    obtain ⟨slot, here, active⟩ := manned.slot_of_worker (List.mem_of_getElem? isWorker)
    have fewer : ∀ j, workersIn after j + (if worker.slot = j then 1 else 0) = workersIn s j := by
      intro j
      have split := (getElem_cons_eraseIdx_perm bound).countP_eq (·.slot = j)
      rw [countP_cons, value, ← workers] at split
      unfold workersIn
      simpa using split
    have inactive : (if ({ slot with status := if ret = 0 then .exited else .failure } :
        Slot).active then 1 else 0) = 0 := by
      split <;> rfl
    have positive := countP_pos_iff.mpr ⟨slot, mem_of_getElem? here, active⟩
    refine manned.status here active inactive slots ?_ ?_ ?_
    · intro j apart
      rw [← fewer j, if_neg (Ne.symm apart)]
      rfl
    · have counted := manned.n
      omega
    · have last := fewer worker.slot
      rw [manned.workers, here, Option.any_some, active, if_pos rfl] at last
      exact Nat.add_right_cancel last

/-! ### The empty slots -/

variable {j : Nat}

lemma Settled.status (settled : Settled s) (mem : worker ∈ s.workers) {status : Status} {slot : Slot}
    (here : (s.slots.modify worker.slot fun slot => { slot with status })[j]? = some slot)
    (empty : slot.wapp = none) : slot.active = false := by
  obtain ⟨held, heldHere, active⟩ := settled.slot_of_worker mem
  by_cases mine : worker.slot = j
  · rw [← mine, getElem?_setStatus_self status heldHere] at here
    cases here
    rw [settled.vacant _ held heldHere empty] at active
    cases active
  · rw [getElem?_setStatus_ne _ _ mine] at here
    exact settled.vacant j slot here empty

lemma Moves.settled (moves : Moves s step after) (settled : Settled s) (staffs : Staffs s step) :
    Settled after := by
  refine { moves.housed settled.toHoused, (moves.manned_iff settled).mpr staffs with vacant := ?_ }
  have set : ∀ {i new}, after.slots = s.slots.set i new → (new.wapp = none → new.active = false) →
      ∀ (j : Nat) (slot : Slot), after.slots[j]? = some slot → slot.wapp = none →
        slot.active = false := by
    intro i new slots inactive j slot here empty
    rw [slots, getElem?_set] at here
    split at here
    · split at here
      · cases here
        exact inactive empty
      · cases here
    · exact settled.vacant j slot here empty
  cases moves.change with
  | quiet isNone slots => rw [slots]; exact settled.vacant
  | taken isStart here holder older slots => exact set slots nofun
  | freed isNone here terminal slots => exact set slots fun _ => rfl
  | begun isNone isWorker slots | ended ret isNone isWorker slots =>
    intro j slot here
    exact settled.status (mem_of_getElem? isWorker) (slots ▸ here)

/-! ### Every run -/

lemma wantedStart_settled {maxWapps : Nat} {env : Env}
    (spawn : 0 < maxWapps → env.spawn = true) : Settled (wantedStart maxWapps env) := by
  obtain ⟨-, -, -, slots, workers, n⟩ := wantedStart_spec maxWapps env
  cases maxWapps with
  | zero =>
    refine { wantedStart_housed 0 env with n := ?_, workers := ?_, vacant := ?_ }
    · rw [slots]
      rfl
    · intro i
      simp [workersIn, workers, slots]
    · simp [slots]
  | succ more =>
    rw [replicate_succ, set_cons_zero] at slots
    rw [if_pos ⟨Nat.succ_pos _, spawn (Nat.succ_pos _)⟩] at workers
    have rest : ∀ (i : Nat) (slot : Slot), (List.replicate more emptySlot)[i]? = some slot →
        slot.active = false := by
      intro i slot here
      rw [eq_of_mem_replicate (mem_of_getElem? here)]
      rfl
    refine { wantedStart_housed (more + 1) env with n := ?_, workers := ?_, vacant := ?_ }
    · rw [n, slots]
      simp [Slot.active, emptySlot]
    · intro i
      unfold workersIn
      rw [workers, slots]
      cases i with
      | zero => rfl
      | succ i =>
        cases here : (List.replicate more emptySlot)[i]? with
        | none => simp [here]
        | some slot => simp [here, rest i slot here]
    · intro i slot here empty
      rw [slots] at here
      cases i with
      | zero =>
        cases here
        cases empty
      | succ i => exact rest i slot here

/-- In every run whose steps staff their slots, from a start that makes the supervisor's worker, the
table is manned in the state reached. A step that breaks the condition leaves a table that is not. -/
theorem workers_counted (maxWapps : Nat) (env : Env) (spawn : 0 < maxWapps → env.spawn = true)
    (steps : List Step) (obeyed : machine.Obeys Staffs (wantedStart maxWapps env) steps) :
    Manned (machine.exec (wantedStart maxWapps env) steps) ∧
      ∀ step, ¬ Staffs (machine.exec (wantedStart maxWapps env) steps) step →
        ¬ Manned (machine.exec (wantedStart maxWapps env) (steps ++ [step])) := by
  have settled := machine.exec_invariant Settled
      (fun s step settled staffs => (takeStep_moves step settled.toHoused).settled settled staffs)
      (wantedStart_settled spawn) obeyed
  refine ⟨settled.toManned, fun step broken manned => broken ?_⟩
  rw [machine.exec_append] at manned
  exact ((takeStep_moves step settled.toHoused).manned_iff settled).mp manned

/-- A wapp is started and released, and the supervisor respawned after a failure. -/
theorem workers_counted_respawn :
    let steps : List Step := [.workerBegin 0, .wappCtl (ascii "sensor") (ascii "start") goodEnv,
      .workerBegin 0, .workerEnd 0 0, .ctl (ascii "delete sensor") goodEnv, .workerEnd 0 1,
      .tick goodEnv]
    (machine.Obeys Staffs (wantedStart 4 goodEnv) steps ∧
      (machine.exec (wantedStart 4 goodEnv) steps).n = 1) ∧
      Manned (machine.exec (wantedStart 4 goodEnv) steps) := by
  intro steps
  have obeyed : machine.Obeys Staffs (wantedStart 4 goodEnv) steps := by decide +kernel
  exact ⟨⟨obeyed, by decide +kernel⟩, (workers_counted 4 goodEnv (fun _ => rfl) steps obeyed).1⟩

/-- A start whose worker is not made leaves its slot starting, counted and without a worker. -/
theorem unmade_worker_left_starting :
    let s := machine.exec (wantedStart 4 goodEnv)
      [.wappCtl (ascii "sensor") (ascii "start") { goodEnv with spawn := false }]
    s.n = 2 ∧ s.slots[1]? = some ⟨.starting, some ⟨1, ascii "sensor"⟩⟩ ∧ workersIn s 1 = 0 := by
  decide +kernel

/-! ### What the run loop sees -/

/-- The running, failed and exited flags that the run loop passes to `WantedSupervisorObserve`. -/
def observation (s : State) : Bool × Bool × Bool :=
  (supervisorSeen s .running, supervisorSeen s .failure, supervisorSeen s .exited)

/-- Whatever the statuses of the other wapps, the run loop's flags stay. -/
def DependsOn (j : Nat) (s : State) : Prop :=
  ∀ t : State, t.slots.map (·.wapp) = s.slots.map (·.wapp) → t.slots[j]? = s.slots[j]? →
    observation t = observation s

/-- No other slot's name begins as the supervisor's does. -/
def Distinct (j : Nat) (s : State) : Prop :=
  ∀ (i : Nat) (slot : Slot), s.slots[i]? = some slot → supervisorNamed slot = true → i = j

variable (distinct : Distinct j s)
include distinct

lemma supervisorSeen_of_distinct (status : Status) : supervisorSeen s status =
      (s.slots[j]?).any fun slot => supervisorNamed slot && slot.status = status := by
  rw [Bool.eq_iff_iff, supervisorSeen, any_eq_true, Option.any_eq_true]
  constructor
  · rintro ⟨slot, mem, seen⟩
    obtain ⟨i, here⟩ := getElem?_of_mem mem
    have named := (Bool.and_eq_true _ _ ▸ seen).1
    exact ⟨slot, distinct i slot here named ▸ here, seen⟩
  · rintro ⟨slot, here, seen⟩
    exact ⟨slot, mem_of_getElem? here, seen⟩

/-- The flags of two tables that agree on a slot are the same, if no other slot's name begins as the
supervisor's does. -/
lemma observation_of_distinct {t : State}
    (distinct' : Distinct j t) (same : t.slots[j]? = s.slots[j]?) : observation t = observation s := by
  unfold observation
  simp only [supervisorSeen_of_distinct distinct, supervisorSeen_of_distinct distinct', same]

lemma Distinct.of_names {t : State}
    (names : t.slots.map (·.wapp) = s.slots.map (·.wapp)) : Distinct j t := by
  intro i slot here named
  have held : (s.slots.map (·.wapp))[i]? = some slot.wapp := by
    rw [← names, getElem?_map, here]
    rfl
  rw [getElem?_map, Option.map_eq_some_iff] at held
  obtain ⟨other, otherHere, wapp⟩ := held
  refine distinct i other otherHere ?_
  unfold supervisorNamed
  rw [wapp]
  exact named

omit distinct

/-- The table with the statuses of all slots but one replaced. -/
def withStatus (s : State) (j : Nat) (status : Status) : State :=
  { s with slots := s.slots.mapIdx fun k slot => if k = j then slot else { slot with status } }

lemma DependsOn.withStatus (depends : DependsOn j s) (status : Status) :
    observation (withStatus s j status) = observation s := by
  refine depends _ ?_ ?_
  · apply ext_getElem?
    intro i
    rw [getElem?_map, getElem?_map, Lifecycle.withStatus, getElem?_mapIdx]
    cases s.slots[i]? with
    | none => rfl
    | some slot =>
      by_cases same : i = j <;> simp [same]
  · rw [Lifecycle.withStatus, getElem?_mapIdx]
    cases s.slots[j]? <;> simp

/-- The other slots show a status that the slot itself does not have when they are given it and one
of them is taken for the supervisor's. -/
lemma supervisorSeen_withStatus {status : Status}
    (absent : ∀ held, s.slots[j]? = some held → held.status ≠ status) (other : Status) :
    supervisorSeen (withStatus s j other) status = true ↔
      other = status ∧ ∃ i slot, s.slots[i]? = some slot ∧ supervisorNamed slot = true ∧ i ≠ j := by
  unfold supervisorSeen
  simp only [any_eq_true, Bool.and_eq_true, decide_eq_true_eq]
  constructor
  · rintro ⟨_, mem, named, isStatus⟩
    obtain ⟨i, here⟩ := getElem?_of_mem mem
    rw [withStatus, getElem?_mapIdx, Option.map_eq_some_iff] at here
    obtain ⟨slot, slotHere, isShown⟩ := here
    split at isShown
    · rename_i same
      subst same isShown
      exact absurd isStatus (absent _ slotHere)
    · rename_i apart
      subst isShown
      exact ⟨isStatus, i, slot, slotHere, named, apart⟩
  · rintro ⟨rfl, i, slot, here, named, apart⟩
    refine ⟨{ slot with status := other }, mem_iff_getElem?.mpr ⟨i, ?_⟩, named, rfl⟩
    rw [withStatus, getElem?_mapIdx, here]
    simp [apart]

/-- The flags depend on a slot alone iff no other slot's name begins as the supervisor's
does; and tables that meet this and agree on the slot give the same flags whatever the other wapps
are called. -/
theorem observation_depends_iff (j : Nat) (s : State) : (DependsOn j s ↔ Distinct j s) ∧
      ∀ t, Distinct j s → Distinct j t → t.slots[j]? = s.slots[j]? → observation t = observation s := by
  refine ⟨⟨fun depends i slot here named => ?_, fun distinct t names same =>
    observation_of_distinct distinct (distinct.of_names names) same⟩,
    fun t distinct distinct' same => observation_of_distinct distinct distinct' same⟩
  by_contra apart
  -- A status that the run loop looks for and the slot itself does not have.
  obtain ⟨status, isFlag, absent⟩ : ∃ status, (status = .running ∨ status = .failure) ∧
      ∀ held, s.slots[j]? = some held → held.status ≠ status := by
    by_cases running : ∃ held, s.slots[j]? = some held ∧ held.status = .running
    · obtain ⟨held, heldHere, isRunning⟩ := running
      exact ⟨.failure, Or.inr rfl, by simp [heldHere, isRunning]⟩
    · exact ⟨.running, Or.inl rfl, fun held heldHere is => running ⟨held, heldHere, is⟩⟩
  have loud := (supervisorSeen_withStatus absent status).mpr ⟨rfl, i, slot, here, named, apart⟩
  have calm : supervisorSeen (withStatus s j .notStarted) status = false := by
    by_contra seen
    have same := ((supervisorSeen_withStatus absent .notStarted).mp (by simpa using seen)).1
    rcases isFlag with rfl | rfl <;> cases same
  have flags := (depends.withStatus status).trans (depends.withStatus .notStarted).symm
  unfold observation at flags
  rcases isFlag with rfl | rfl <;> simp [loud, calm] at flags

/-- A failed supervisor looks healthy while a wapp whose name begins as its own is running, and no
longer when that one exits. -/
theorem namesake_hides_failure :
    let s := machine.exec (wantedStart 4 goodEnv)
      [.workerBegin 0, .wappCtl (ascii "supervisor2") (ascii "start") goodEnv, .workerBegin 0,
        .workerEnd 1 1]
    let t := machine.exec s [.workerEnd 0 0]
    s.slots[0]? = some ⟨.failure, s.sup.wapp⟩ ∧ t.slots[0]? = s.slots[0]? ∧
      (observed s).1 = .healthy ∧ (observed t).1 = .respawn := by
  decide +kernel

end WantedEngine.Lifecycle
