import Mathlib.Data.List.Nodup
import WantedEngine.Lifecycle.Moves
/-!
# When a reload meets a running supervisor

An armed reload is applied by whichever lifecycle path next asks for the current supervisor:
a start or a delete of any wapp, or a turn of the run loop that respawns. The first two ask
whatever the supervisor is doing, and a turn of the run loop that falls between the start of
the supervisor and its worker's first instruction takes it for dead. `SparesSupervisor`
excludes exactly these; in every other run the slot table and the live workers agree
(`Orderly`), and no reload is applied while a supervisor worker is starting or running.
-/
namespace WantedEngine.Lifecycle

open Foundation List

/-- The steps that can unload a supervisor that is starting or running: a start or delete that
gets to the supervisor lookup while a reload is armed and a supervisor worker is starting or
running, and a turn of the run loop that respawns a supervisor that is starting. -/
def endangers (s : State) : Step → Bool
  | .ctl buf _ =>
    match rootRequest buf with
    | some (.delete name) => releases name s && s.sup.reloadArmed && supervisorBusy s
    | _ => false
  | .wappCtl name buf env =>
    match wappRequest buf with
    | some (.start image) => launches env name image s && s.sup.reloadArmed && supervisorBusy s
    | _ => false
  | .tick _ => respawns s && supervisorStarting s
  | .cfg _ _ _ => false
  | .workerBegin _ => false
  | .workerEnd _ _ => false

/-- The condition on a step: it does not endanger the supervisor. -/
def SparesSupervisor (s : State) (step : Step) : Prop :=
  s.halted = false → endangers s step = false

instance decidableSparesSupervisor (s : State) (step : Step) : Decidable (SparesSupervisor s step) :=
  inferInstanceAs (Decidable (_ → _))

/-- The slot table and the live workers agree, and the supervisor has its name. -/
structure Orderly (s : State) : Prop where
  named : ∃ w, s.sup.wapp = some w ∧ w.name = ascii "supervisor" ∧ w.id < s.nextId
  /-- Occupants are older than the next allocation. -/
  older : ∀ (i : Nat) (slot : Slot) (w : Wapp),
    s.slots[i]? = some slot → slot.wapp = some w → w.id < s.nextId
  live : ∀ worker ∈ s.workers, ∃ slot, s.slots[worker.slot]? = some slot ∧
    slot.wapp.isSome = true ∧ (slot.status = .starting ∨ slot.status = .running)
  single : (s.workers.map (·.slot)).Nodup
  /-- No reload so far met a supervisor worker. -/
  spared : ∀ busy ∈ s.reloads, busy = false

variable {s after : State} {i : Nat} {step : Step}

lemma Orderly.housed (orderly : Orderly s) : Housed s := ⟨orderly.named, orderly.older⟩

lemma Orderly.no_worker (orderly : Orderly s) {slot : Slot} (here : s.slots[i]? = some slot)
    (dead : slot.wapp = none ∨ (slot.status ≠ .starting ∧ slot.status ≠ .running)) :
    ∀ worker ∈ s.workers, worker.slot ≠ i := by
  intro worker mem same
  obtain ⟨_, foundHere, occupied, status⟩ := orderly.live worker mem
  rw [same, here, Option.some.injEq] at foundHere
  subst foundHere
  rcases dead with empty | ⟨notStarting, notRunning⟩
  · simp [empty] at occupied
  rcases status with starting | running
  · exact notStarting starting
  · exact notRunning running

/-- Changing one slot's status leaves every other slot. -/
lemma getElem?_setStatus_ne (slots : List Slot) (status : Status) {j : Nat} (apart : i ≠ j) :
    (slots.modify i fun slot => { slot with status := status })[j]? = slots[j]? := by
  simp [apart]

lemma getElem?_setStatus_self {slots : List Slot} {slot : Slot} (status : Status)
    (here : slots[i]? = some slot) :
    (slots.modify i fun slot => { slot with status := status })[i]? =
      some { slot with status := status } := by
  rw [getElem?_modify, here]
  simp

lemma supervisorBusy_of_unseen (orderly : Orderly s) (unseen : supervisorSeen s .running = false)
    (unstarted : supervisorStarting s = false) : supervisorBusy s = false := by
  by_contra busy
  obtain ⟨i, slot, w, here, isWapp, holds, slotIsBusy⟩ :=
    (supervisorBusy_iff s).mp (by simpa using busy)
  obtain ⟨w', isWapp', name, -⟩ := orderly.named
  obtain rfl : w = w' := Option.some.inj (isWapp.symm.trans isWapp')
  have mem := mem_of_getElem? here
  have notRunning : slot.status ≠ .running := by
    intro running
    have seen : supervisorSeen s .running = true := by
      refine any_eq_true.mpr ⟨slot, mem, ?_⟩
      simp [supervisorNamed, holds, name, running]
    simp [seen] at unseen
  have notStarting : slot.status ≠ .starting := by
    intro starting
    have seen : supervisorStarting s = true := by
      refine any_eq_true.mpr ⟨slot, mem, ?_⟩
      simp [isWapp, holds, starting]
    simp [seen] at unstarted
  rcases (slotBusy_iff s i slot).mp slotIsBusy with starting | running | ⟨worker, among, mine⟩
  · exact notStarting starting
  · exact notRunning running
  · exact orderly.no_worker here (.inr ⟨notStarting, notRunning⟩) worker among mine

lemma SparesSupervisor.tick {env : Env} (spares : SparesSupervisor s (.tick env))
    (running : s.halted = false) (respawn : respawns s = true) : supervisorStarting s = false := by
  simpa [endangers, respawn] using spares running

lemma SparesSupervisor.reload (spares : SparesSupervisor s step) (orderly : Orderly s)
    (asked : asks s step = true) : supervisorBusy s = false := by
  unfold asks at asked
  rw [Bool.and_eq_true, Bool.not_eq_true'] at asked
  obtain ⟨running, asked⟩ := asked
  have spared := spares running
  cases step with
  | ctl | wappCtl =>
    dsimp only at asked
    split at asked
    · rename_i req
      simpa [endangers, req, Bool.and_eq_true _ _ ▸ asked] using spared
    · cases asked
  | tick env =>
    have respawn := (Bool.and_eq_true _ _ ▸ asked).1
    exact supervisorBusy_of_unseen orderly (unseen_of_respawns respawn) (spares.tick running respawn)
  | cfg name parsed env => cases asked
  | workerBegin k => cases asked
  | workerEnd k ret => cases asked

lemma SparesSupervisor.free (spares : SparesSupervisor s step) (orderly : Orderly s)
    {made : Bool} {old : Slot} {wapp : Wapp} (isStart : recruits s step = some (made, i))
    (here : s.slots[i]? = some old)
    (holder : old.wapp = none ∨ (∃ env, step = .tick env) ∧ s.sup.wapp = some wapp ∧
      old.wapp = some wapp ∧ old.status ≠ .running) :
    ∀ worker ∈ s.workers, worker.slot ≠ i := by
  rcases holder with empty | ⟨⟨env, rfl⟩, isWapp, holds, notRunning⟩
  · exact orderly.no_worker here (.inl empty)
  refine orderly.no_worker here (.inr ⟨fun starting => ?_, notRunning⟩)
  unfold recruits at isStart
  split at isStart
  · cases isStart
  rename_i running
  dsimp only at isStart
  split at isStart
  · rename_i respawn
    have unstarted := spares.tick (by simpa using running) respawn.1
    have seen : supervisorStarting s = true := by
      refine any_eq_true.mpr ⟨old, mem_of_getElem? here, ?_⟩
      simp [isWapp, holds, starting]
    simp [seen] at unstarted
  · cases isStart

lemma Orderly.spawn (orderly : Orderly s) (free : ∀ worker ∈ s.workers, worker.slot ≠ i)
    {wapp : Wapp} (bound : i < s.slots.length) (spawn : Bool) {worker : Worker}
    (mem : worker ∈ if spawn then ⟨i, false⟩ :: s.workers else s.workers) :
    ∃ slot, (s.slots.set i ⟨.starting, some wapp⟩)[worker.slot]? = some slot ∧
      slot.wapp.isSome = true ∧ (slot.status = .starting ∨ slot.status = .running) := by
  by_cases old : worker ∈ s.workers
  · rw [getElem?_set_ne (Ne.symm (free worker old))]
    exact orderly.live worker old
  have new : worker = ⟨i, false⟩ := by
    cases spawn with
    | false => exact absurd mem old
    | true => exact (mem_cons.mp mem).resolve_right old
  rw [new]
  exact ⟨_, getElem?_set_self bound, rfl, Or.inl rfl⟩

lemma Moves.orderly (moves : Moves s step after) (orderly : Orderly s)
    (spares : SparesSupervisor s step) : Orderly after := by
  have housed := moves.housed orderly.housed
  have spared : ∀ busy ∈ after.reloads, busy = false := by
    rw [moves.reloads]
    split
    · rename_i asked
      exact forall_mem_cons.mpr ⟨spares.reload orderly asked, orderly.spared⟩
    · exact orderly.spared
  refine ⟨housed.named, housed.older, ?_, ?_, spared⟩
  · intro worker mem
    cases moves.change with
    | quiet isNone slots workers =>
      rw [slots]
      exact orderly.live worker (workers ▸ mem)
    | taken isStart here holder older slots workers =>
      rw [slots]
      rw [workers] at mem
      exact orderly.spawn (spares.free orderly isStart here holder)
        (List.getElem?_eq_some_iff.mp here).1 _ mem
    | freed isNone here terminal slots workers =>
      rw [workers] at mem
      have dead := orderly.no_worker here (.inr (by rcases terminal with h | h <;> simp [h]))
      rw [slots, getElem?_set_ne (Ne.symm (dead worker mem))]
      exact orderly.live worker mem
    | @begun k mover isNone isWorker slots workers =>
      rw [workers] at mem
      obtain ⟨original, before, same⟩ : ∃ original ∈ s.workers, original.slot = worker.slot := by
        rcases mem_or_eq_of_mem_set mem with before | rfl
        · exact ⟨worker, before, rfl⟩
        · exact ⟨mover, mem_of_getElem? isWorker, rfl⟩
      obtain ⟨slot, slotHere, occupied, status⟩ := orderly.live original before
      rw [same] at slotHere
      rw [slots]
      by_cases mine : mover.slot = worker.slot
      · rw [mine, getElem?_setStatus_self .running slotHere]
        exact ⟨_, rfl, occupied, Or.inr rfl⟩
      · rw [getElem?_setStatus_ne _ _ mine]
        exact ⟨slot, slotHere, occupied, status⟩
    | @ended k mover ret isNone isWorker slots workers =>
      rw [workers] at mem
      obtain ⟨j, different, otherHere⟩ := mem_eraseIdx_iff_getElem?.mp mem
      -- No other worker is in the slot of the one that ends.
      have apart : mover.slot ≠ worker.slot := by
        intro same
        have bound : k < (s.workers.map (·.slot)).length := by
          simpa using (List.getElem?_eq_some_iff.mp isWorker).1
        have equal : (s.workers.map (·.slot))[k]? = (s.workers.map (·.slot))[j]? := by
          rw [getElem?_map, getElem?_map, isWorker, otherHere]
          simp [same]
        exact different ((getElem?_inj bound orderly.single).mp equal).symm
      rw [slots, getElem?_setStatus_ne _ _ apart]
      exact orderly.live worker (mem_of_getElem? otherHere)
  · cases moves.change with
    | quiet isNone slots workers | freed isNone here terminal slots workers =>
      rw [workers]; exact orderly.single
    | @taken made i old wapp isStart here holder older slots workers =>
      rw [workers]
      cases made with
      | false => exact orderly.single
      | true =>
        refine nodup_cons.mpr ⟨fun mem => ?_, orderly.single⟩
        obtain ⟨worker, before, same⟩ := mem_map.mp mem
        exact spares.free orderly isStart here holder worker before same
    | @begun k mover isNone isWorker slots workers =>
      have same : after.workers.map (·.slot) = s.workers.map (·.slot) := by
        obtain ⟨bound, value⟩ := List.getElem?_eq_some_iff.mp isWorker
        rw [workers, List.map_set]
        apply ext_getElem?
        intro j
        rw [getElem?_set]
        split
        · rename_i mine
          subst mine
          simp [bound, value]
        · rfl
      rw [same]
      exact orderly.single
    | ended ret isNone isWorker slots workers =>
      rw [workers]
      exact ((eraseIdx_sublist s.workers _).map _).nodup orderly.single

lemma wantedStart_orderly (maxWapps : Nat) (env : Env) : Orderly (wantedStart maxWapps env) := by
  have housed := wantedStart_housed maxWapps env
  obtain ⟨-, -, reloads, slots, workers, -⟩ := wantedStart_spec maxWapps env
  refine ⟨housed.named, housed.older, ?_, ?_, by rw [reloads]; nofun⟩
  · rw [workers, slots]
    split
    · rename_i made
      intro worker mem
      rw [mem_singleton.mp mem]
      exact ⟨_, getElem?_set_self (by simpa using made.1), rfl, Or.inl rfl⟩
    · nofun
  · rw [workers]
    split <;> simp

lemma exec_orderly {maxWapps : Nat} {env : Env} {steps : List Step}
    (obeyed : machine.Obeys SparesSupervisor (wantedStart maxWapps env) steps) :
    Orderly (machine.exec (wantedStart maxWapps env) steps) :=
  machine.exec_invariant Orderly (fun _ _ orderly spares => (takeStep_moves _ orderly.housed).orderly orderly spares)
    (wantedStart_orderly maxWapps env) obeyed

lemma wantedSupervisorObserve_armed {running failed exited : Bool} {sup : Supervisor}
    (armed : sup.reloadArmed = true) :
    (wantedSupervisorObserve running failed exited sup).2.reloadArmed = true := by
  unfold wantedSupervisorObserve wantedSupervisorRollback
  split
  · exact armed
  dsimp only
  split
  · exact armed
  split
  · exact armed
  split
  · exact armed
  · rfl

lemma takeStep_reloads_busy (orderly : Orderly s) (broken : ¬ SparesSupervisor s step)
    (armed : s.sup.reloadArmed = true) : true ∈ (takeStep s step).2.reloads := by
  obtain ⟨running, broken⟩ := Classical.not_imp.mp broken
  rw [Bool.not_eq_false] at broken
  have unloads : asks s step = true ∧ supervisorBusy s = true := by
    cases step with
    | ctl | wappCtl =>
      simp only [endangers] at broken
      split at broken
      · rename_i req
        simp only [Bool.and_eq_true] at broken
        simp [asks, running, req, broken]
      · cases broken
    | tick env =>
      simp only [endangers, Bool.and_eq_true] at broken
      have rearmed : (observed s).2.reloadArmed = true := wantedSupervisorObserve_armed armed
      obtain ⟨w, isWapp, -, -⟩ := orderly.named
      obtain ⟨slot, mem, holds⟩ := any_eq_true.mp broken.2
      simp only [Bool.and_eq_true, decide_eq_true_eq] at holds
      obtain ⟨i, here⟩ := getElem?_of_mem mem
      refine ⟨by simp [asks, running, broken.1, rearmed], (supervisorBusy_iff _).mpr ?_⟩
      exact ⟨i, slot, w, here, isWapp, holds.1.2.trans isWapp, (slotBusy_iff _ _ _).mpr (.inl holds.2)⟩
    | cfg name parsed env => cases broken
    | workerBegin k => cases broken
    | workerEnd k ret => cases broken
  rw [(takeStep_moves step orderly.housed).reloads, if_pos unloads.1, unloads.2]
  exact mem_cons_self

/-- In every run whose steps spare the supervisor, no reload unloads or replaces the layers of
a supervisor that is starting or running. A step that breaks the condition in such a run
while a reload is armed does. -/
theorem reload_spares_supervisor (maxWapps : Nat) (env : Env) (steps : List Step)
    (obeyed : machine.Obeys SparesSupervisor (wantedStart maxWapps env) steps) :
    (∀ busy ∈ (machine.exec (wantedStart maxWapps env) steps).reloads, busy = false) ∧
      ∀ step, ¬ SparesSupervisor (machine.exec (wantedStart maxWapps env) steps) step →
        (machine.exec (wantedStart maxWapps env) steps).sup.reloadArmed = true →
        true ∈ (machine.exec (wantedStart maxWapps env) (steps ++ [step])).reloads := by
  have orderly := exec_orderly obeyed
  refine ⟨orderly.spared, fun step broken armed => ?_⟩
  rw [machine.exec_append]
  exact takeStep_reloads_busy orderly broken armed

/-- An environment in which every call succeeds and the configured image is used. -/
def goodEnv : Env := ⟨true, none, none, true, ⟨true, false, true, true⟩⟩

/-- A reload applied after the supervisor's exit is a run that spares it. -/
theorem reload_spares_exited :
    let steps : List Step := [.workerBegin 0, .ctl (ascii "reload-supervisor") goodEnv,
      .workerEnd 0 0, .tick goodEnv]
    machine.Obeys SparesSupervisor (wantedStart 4 goodEnv) steps ∧
      ∀ busy ∈ (machine.exec (wantedStart 4 goodEnv) steps).reloads, busy = false := by
  intro steps
  have obeyed : machine.Obeys SparesSupervisor (wantedStart 4 goodEnv) steps := by
    decide +kernel
  exact ⟨obeyed, (reload_spares_supervisor 4 goodEnv steps obeyed).1⟩

/-- Starting another wapp with a reload armed unloads the running supervisor. -/
theorem reload_unloads_running : (machine.exec (wantedStart 4 goodEnv)
      [.workerBegin 0, .ctl (ascii "reload-supervisor") goodEnv,
        .wappCtl (ascii "sensor") (ascii "start") goodEnv]).reloads = [true] := by
  decide +kernel

end WantedEngine.Lifecycle
