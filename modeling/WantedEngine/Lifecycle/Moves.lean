import WantedEngine.Lifecycle.Commands
/-!
# What a step does to the slots and the workers

Every step changes one slot at most (`Moves`): a start takes one, a delete releases one that is
terminal, and a worker marks its own. A start, a delete and a turn of the run loop that respawns also
ask for the current supervisor, which applies an armed reload (`asks`).
-/
namespace WantedEngine.Lifecycle

open List

/-- Whether a turn of the run loop respawns the supervisor. -/
def respawns (s : State) : Bool :=
  !s.shutdown && !s.reboot && ((observed s).1 = .respawn || (observed s).1 = .rolledBack)

def supervisorStarting (s : State) : Bool :=
  s.slots.any fun slot =>
    s.sup.wapp.isSome && slot.wapp = s.sup.wapp && slot.status = .starting

/-- The slot in which a step starts a worker, with whether the worker is made. -/
def recruits (s : State) (step : Step) : Option (Bool × Nat) :=
  if s.halted then none
  else
    match step with
    | .wappCtl name buf env =>
      match wappRequest buf with
      | some (.start image) =>
        if launches env name image s then
          (freeSlot ⟨s.nextId, name.take (wappMaxNameLen - 1)⟩ s.slots).map (env.spawn, ·)
        else none
      | _ => none
    | .tick env =>
      if respawns s ∧ s.n < s.slots.length then
        (s.sup.wapp.bind fun w => freeSlot w s.slots).map (env.spawn, ·)
      else none
    | _ => none

/-- Whether a step asks for the supervisor while a reload is armed. -/
def asks (s : State) (step : Step) : Bool :=
  !s.halted &&
    match step with
    | .ctl buf _ =>
      match rootRequest buf with
      | some (.delete name) => releases name s && s.sup.reloadArmed
      | _ => false
    | .wappCtl name buf env =>
      match wappRequest buf with
      | some (.start image) => launches env name image s && s.sup.reloadArmed
      | _ => false
    | .tick _ => respawns s && (observed s).2.reloadArmed
    | _ => false

/-- What a step does to the slots and the workers. -/
inductive Changes (s : State) (step : Step) (after : State) : Prop where
  | quiet (isNone : recruits s step = none) (slots : after.slots = s.slots)
      (workers : after.workers = s.workers) (n : after.n = s.n)
  /-- A start takes an empty slot, or one of the supervisor that is not running. -/
  | taken {made : Bool} {i : Nat} {old : Slot} {wapp : Wapp}
      (isStart : recruits s step = some (made, i)) (here : s.slots[i]? = some old)
      (holder : old.wapp = none ∨ (∃ env, step = .tick env) ∧ s.sup.wapp = some wapp ∧
        old.wapp = some wapp ∧ old.status ≠ .running)
      (older : wapp.id < after.nextId)
      (slots : after.slots = s.slots.set i ⟨.starting, some wapp⟩)
      (workers : after.workers = if made then ⟨i, false⟩ :: s.workers else s.workers)
      (n : after.n = s.n + 1)
  | freed {i : Nat} {old : Slot} (isNone : recruits s step = none) (here : s.slots[i]? = some old)
      (terminal : old.status = .exited ∨ old.status = .failure)
      (slots : after.slots = s.slots.set i emptySlot) (workers : after.workers = s.workers)
      (n : after.n = s.n)
  | begun {k : Nat} {worker : Worker} (isNone : recruits s step = none)
      (isWorker : s.workers[k]? = some worker)
      (slots : after.slots = s.slots.modify worker.slot fun slot => { slot with status := .running })
      (workers : after.workers = s.workers.set k { worker with begun := true }) (n : after.n = s.n)
  | ended {k : Nat} {worker : Worker} (ret : Int) (isNone : recruits s step = none)
      (isWorker : s.workers[k]? = some worker)
      (slots : after.slots = s.slots.modify worker.slot fun slot =>
        { slot with status := if ret = 0 then .exited else .failure })
      (workers : after.workers = s.workers.eraseIdx k) (n : after.n = s.n - 1)

/-- What a step does: allocations are not taken back, the supervisor stays the same wapp, and a
reload is recorded when one is applied. -/
structure Moves (s : State) (step : Step) (after : State) : Prop where
  next : s.nextId ≤ after.nextId
  sup : after.sup.wapp = s.sup.wapp
  reloads : after.reloads = if asks s step then supervisorBusy s :: s.reloads else s.reloads
  change : Changes s step after

/-- The supervisor has its name, and occupants are older than the next allocation. -/
structure Housed (s : State) : Prop where
  named : ∃ w, s.sup.wapp = some w ∧ w.name = ascii "supervisor" ∧ w.id < s.nextId
  older : ∀ (i : Nat) (slot : Slot) (w : Wapp),
    s.slots[i]? = some slot → slot.wapp = some w → w.id < s.nextId

variable {s after : State} {i : Nat} {wapp : Wapp} {old : Slot} {step : Step}

/-- A supervisor worker is starting or running when a slot of the supervisor is busy. -/
lemma supervisorBusy_iff (s : State) :
    supervisorBusy s = true ↔ ∃ i slot w, s.slots[i]? = some slot ∧ s.sup.wapp = some w ∧
      slot.wapp = some w ∧ slotBusy s i slot = true := by
  unfold supervisorBusy
  simp only [any_eq_true, Prod.exists, mem_zipIdx_iff_getElem?, Bool.and_eq_true,
    decide_eq_true_eq, Option.isSome_iff_exists]
  constructor
  · rintro ⟨slot, i, here, ⟨⟨w, some_⟩, holds⟩, busy⟩
    exact ⟨i, slot, w, here, some_, holds.trans some_, busy⟩
  · rintro ⟨i, slot, w, here, some_, holds, busy⟩
    exact ⟨slot, i, here, ⟨⟨w, some_⟩, holds.trans some_.symm⟩, busy⟩

lemma slotBusy_iff (s : State) (i : Nat) (slot : Slot) : slotBusy s i slot = true ↔
      slot.status = .starting ∨ slot.status = .running ∨ ∃ w ∈ s.workers, w.slot = i := by
  simp [slotBusy, or_assoc]

@[simp] lemma loadSupervisorImage_frame (images : Images) (sup : Supervisor) :
    (loadSupervisorImage images sup).wapp = sup.wapp ∧
      (loadSupervisorImage images sup).reloadArmed = sup.reloadArmed := by
  unfold loadSupervisorImage
  split
  · exact ⟨rfl, rfl⟩
  · split <;> exact ⟨rfl, rfl⟩

/-- Asking for an existing supervisor: the same wapp comes back, nothing is armed afterwards, and a
reload is recorded iff one was armed. -/
lemma wantedGetCurrentSupervisor_eq (images : Images) {w : Wapp} (exists_ : s.sup.wapp = some w) :
    ∃ sup, sup.wapp = s.sup.wapp ∧ sup.reloadArmed = false ∧
      wantedGetCurrentSupervisor images s = (w, { s with
        sup
        reloads := if s.sup.reloadArmed = true then supervisorBusy s :: s.reloads
          else s.reloads }) := by
  unfold wantedGetCurrentSupervisor
  rw [exists_]
  dsimp only
  split
  · exact ⟨_, by simp [exists_], by simp, rfl⟩
  · rename_i unarmed
    exact ⟨s.sup, exists_, by simpa using unarmed, rfl⟩

lemma freeSlot_spec {slots : List Slot} (found : freeSlot wapp slots = some i) :
    ∃ slot, slots[i]? = some slot ∧ (slot.wapp = none ∨ slot.wapp = some wapp) := by
  unfold freeSlot at found
  rw [findIdx?_eq_some_iff_getElem] at found
  obtain ⟨bound, holds, -⟩ := found
  exact ⟨slots[i], by simp [bound], by simpa using holds⟩

lemma supervisorBusy_set {slot new : Slot} {w : Wapp} (isWapp : s.sup.wapp = some w)
    (here : s.slots[i]? = some slot) (before : slot.wapp ≠ some w) (after : new.wapp ≠ some w) :
    supervisorBusy { s with slots := s.slots.set i new } = supervisorBusy s := by
  have bound : i < s.slots.length := (List.getElem?_eq_some_iff.mp here).1
  rw [Bool.eq_iff_iff, supervisorBusy_iff, supervisorBusy_iff]
  constructor
  · rintro ⟨at_, found, w', foundHere, isWapp', holds, busy⟩
    obtain rfl : w = w' := Option.some.inj (isWapp.symm.trans isWapp')
    rw [getElem?_set] at foundHere
    split at foundHere
    · exact absurd (Option.some.inj foundHere ▸ holds) after
    · exact ⟨at_, found, w, foundHere, isWapp, holds, busy⟩
  rintro ⟨at_, found, w', foundHere, isWapp', holds, busy⟩
  obtain rfl : w = w' := Option.some.inj (isWapp.symm.trans isWapp')
  have different : i ≠ at_ := by
    rintro rfl
    rw [here, Option.some.injEq] at foundHere
    exact before (foundHere ▸ holds)
  refine ⟨at_, found, w, ?_, isWapp, holds, busy⟩
  rw [getElem?_set_ne different]
  exact foundHere

/-- Nothing that the occupants are about changes but one slot, which holds no wapp or one older than
the next allocation. -/
lemma Housed.set {new : Slot} (housed : Housed s) (slots : after.slots = s.slots.set i new)
    (older : ∀ w, new.wapp = some w → w.id < after.nextId) (next : s.nextId ≤ after.nextId)
    (sup : after.sup.wapp = s.sup.wapp) : Housed after := by
  obtain ⟨w, isWapp, name, young⟩ := housed.named
  refine ⟨⟨w, sup.trans isWapp, name, Nat.lt_of_lt_of_le young next⟩, ?_⟩
  intro j slot w here holds
  rw [slots, getElem?_set] at here
  split at here
  · split at here
    · cases here
      exact older w holds
    · cases here
  · exact Nat.lt_of_lt_of_le (housed.older j slot w here holds) next

lemma Housed.status (housed : Housed s) {status : Status}
    (slots : after.slots = s.slots.modify i fun slot => { slot with status })
    (next : s.nextId ≤ after.nextId) (sup : after.sup.wapp = s.sup.wapp) : Housed after := by
  rw [modify_eq_set_getElem?] at slots
  cases here : s.slots[i]? with
  | none =>
    rw [here] at slots
    have bound : s.slots.length ≤ i := getElem?_eq_none_iff.mp here
    have unchanged : after.slots = s.slots.set i emptySlot := by
      rw [set_eq_of_length_le bound]
      exact slots
    exact housed.set unchanged nofun next sup
  | some slot =>
    rw [here] at slots
    refine housed.set slots ?_ next sup
    intro w holds
    exact Nat.lt_of_lt_of_le (housed.older i slot w here holds) next

lemma Moves.housed (moves : Moves s step after) (housed : Housed s) : Housed after := by
  have next := moves.next
  have sup := moves.sup
  cases moves.change with
  | quiet isNone slots =>
    have unchanged : after.slots = s.slots.set s.slots.length emptySlot := by
      rw [slots, set_eq_of_length_le (Nat.le_refl _)]
    exact housed.set unchanged nofun next sup
  | taken isStart here holder older slots =>
    refine housed.set slots ?_ next sup
    intro w holds
    cases holds
    exact older
  | freed isNone here terminal slots => exact housed.set slots nofun next sup
  | begun isNone isWorker slots | ended ret isNone isWorker slots =>
    exact housed.status slots next sup

lemma unseen_of_respawns (respawn : respawns s = true) : supervisorSeen s .running = false := by
  by_contra seen
  have healthy : (observed s).1 = .healthy :=
    (wantedSupervisorObserve_healthy _ _ _ _).mpr (by simpa using seen)
  simp [respawns, healthy] at respawn

lemma wantedStart_spec (maxWapps : Nat) (env : Env) :
    (wantedStart maxWapps env).sup.wapp = some ⟨0, ascii "supervisor"⟩ ∧
      (wantedStart maxWapps env).nextId = 1 ∧ (wantedStart maxWapps env).reloads = [] ∧
      (wantedStart maxWapps env).slots =
        (List.replicate maxWapps emptySlot).set 0 ⟨.starting, some ⟨0, ascii "supervisor"⟩⟩ ∧
      (wantedStart maxWapps env).workers =
        (if 0 < maxWapps ∧ env.spawn = true then [⟨0, false⟩] else []) ∧
      (wantedStart maxWapps env).n = min 1 maxWapps := by
  cases maxWapps with
  | zero => simp [wantedStart, platformWappStart, wantedGetCurrentSupervisor, idle]
  | succ more =>
    simp [wantedStart, platformWappStart, wantedGetCurrentSupervisor, idle, freeSlot, takeSlot, emptySlot]

lemma wantedStart_housed (maxWapps : Nat) (env : Env) : Housed (wantedStart maxWapps env) := by
  obtain ⟨sup, next, -, slots, -⟩ := wantedStart_spec maxWapps env
  refine ⟨⟨_, sup, rfl, by rw [next]; exact Nat.one_pos⟩, ?_⟩
  intro i slot w here holds
  rw [slots, getElem?_set] at here
  rw [next]
  split at here
  · split at here
    · cases here
      cases holds
      exact Nat.one_pos
    · cases here
  · have empty : slot = emptySlot := eq_of_mem_replicate (mem_of_getElem? here)
    simp [empty, emptySlot] at holds

/-! ### Starts and deletes -/

variable {name : Bytes}

lemma Housed.vacant (housed : Housed s) (found : freeSlot ⟨s.nextId, name⟩ s.slots = some i) :
    ∃ slot, s.slots[i]? = some slot ∧ slot.wapp = none := by
  obtain ⟨slot, here, empty⟩ := freeSlot_spec found
  refine ⟨slot, here, empty.resolve_right fun holds => ?_⟩
  exact Nat.lt_irrefl _ (housed.older i slot _ here holds)

lemma Housed.busy_taken (housed : Housed s) (found : freeSlot ⟨s.nextId, name⟩ s.slots = some i) :
    supervisorBusy { s with
      nextId := s.nextId + 1
      slots := s.slots.set i ⟨.starting, some ⟨s.nextId, name⟩⟩ } = supervisorBusy s := by
  obtain ⟨_, here, empty⟩ := housed.vacant found
  obtain ⟨w, isWapp, -, _⟩ := housed.named
  refine supervisorBusy_set (s := { s with nextId := s.nextId + 1 }) isWapp here (by simp [empty])
    fun same => ?_
  have isNext : w.id = s.nextId := by rw [← Option.some.inj same]
  omega

lemma Moves.quiet (isNone : recruits s step = none) (calm : asks s step = false)
    (next : s.nextId ≤ after.nextId) (sup : after.sup.wapp = s.sup.wapp)
    (reloads : after.reloads = s.reloads) (slots : after.slots = s.slots)
    (workers : after.workers = s.workers) (n : after.n = s.n) : Moves s step after :=
  ⟨next, sup, by rw [calm]; exact reloads, .quiet isNone slots workers n⟩

variable (env : Env)

lemma Moves.of_takeSlot {base : State} (pend : Option Nat) (housed : Housed s)
    (isStart : recruits s step = some (env.spawn, i)) (here : s.slots[i]? = some old)
    (holder : old.wapp = none ∨ (∃ env, step = .tick env) ∧ s.sup.wapp = some wapp ∧
      old.wapp = some wapp ∧ old.status ≠ .running)
    (slots : base.slots = s.slots) (workers : base.workers = s.workers) (n : base.n = s.n)
    (next : s.nextId ≤ base.nextId) (older : wapp.id < base.nextId)
    (sup : base.sup.wapp = s.sup.wapp)
    (reloads : (if base.sup.reloadArmed = true then
        supervisorBusy { base with slots := base.slots.set i ⟨.starting, some wapp⟩ } :: base.reloads
      else base.reloads) = if asks s step then supervisorBusy s :: s.reloads else s.reloads) :
    Moves s step (clearReservation pend (takeSlot env wapp i base)) := by
  obtain ⟨w, isWapp, -⟩ := housed.named
  have marked : ({ base with slots := base.slots.set i ⟨.starting, some wapp⟩ } : State).sup.wapp =
    some w := sup.trans isWapp
  obtain ⟨_, same, -, asked⟩ := wantedGetCurrentSupervisor_eq env.images marked
  simp only [takeSlot, asked]
  refine ⟨next, same.trans sup, reloads, .taken isStart here holder older ?_ ?_ (congrArg (· + 1) n)⟩
  · rw [← slots]
    rfl
  · rw [← workers]
    rfl

lemma Moves.of_reserves (reserves : Reserves name s after) (isNone : recruits s step = none)
    (calm : asks s step = false) : Moves s step after := by
  obtain ⟨_, rfl⟩ := reserves.same
  exact .quiet isNone calm (Nat.le_refl _) rfl rfl rfl rfl rfl

lemma startWapp_moves (name : Bytes) (image : Option Bytes) (housed : Housed s)
    (recruit : recruits s step = if launches env name image s then
        (freeSlot ⟨s.nextId, name.take (wappMaxNameLen - 1)⟩ s.slots).map (env.spawn, ·) else none)
    (ask : asks s step = (launches env name image s && s.sup.reloadArmed)) :
    Moves s step (startWapp env name image s).2 := by
  rcases startWapp_cases env name image s with
    ⟨i, found, launch, started⟩ | ⟨refused, e, nextId, later, failed⟩
  · obtain ⟨slot, here, empty⟩ := housed.vacant found
    have vacant : s.slots.any (fun slot => slot.wapp = none) = true :=
      any_eq_true.mpr ⟨slot, mem_of_getElem? here, by simp [empty]⟩
    rw [launch vacant] at recruit ask
    rw [found] at recruit
    rw [started]
    refine .of_takeSlot env _ housed recruit here (.inl empty) rfl rfl rfl (Nat.le_succ _)
      (Nat.lt_succ_self _) rfl ?_
    rw [ask]
    rw [housed.busy_taken found]
    rfl
  · rw [refused] at recruit ask
    rw [failed]
    exact .quiet recruit ask later rfl rfl rfl rfl rfl

lemma deleteWapp_moves (name : Bytes) (housed : Housed s) (isNone : recruits s step = none)
    (ask : asks s step = (releases name s && s.sup.reloadArmed)) :
    Moves s step (deleteWapp env name s).2 := by
  rcases deleteWapp_cases env name s with ⟨release, _, _, -, here, terminal, deleted⟩ |
    ⟨kept, -, deleted⟩ | ⟨kept, -, e, refused⟩
  · rw [deleted]
    obtain ⟨_, isWapp, -⟩ := housed.named
    obtain ⟨_, same, -, asked⟩ := wantedGetCurrentSupervisor_eq env.images isWapp
    rw [asked]
    refine ⟨Nat.le_refl _, same, ?_, .freed isNone here terminal rfl rfl rfl⟩
    rw [ask, release]
    rfl
  · rw [kept] at ask
    rw [deleted]
    exact .of_reserves (clearReservation_reserves _ name s) isNone ask
  · rw [kept] at ask
    rw [refused]
    exact .of_reserves (Reserves.refl : Reserves name s s) isNone ask

lemma loopTick_moves (housed : Housed s) (running : s.halted = false) :
    Moves s (.tick env) (loopTick env s) := by
  have observedWapp : (observed s).2.wapp = s.sup.wapp := wantedSupervisorObserve_wapp _ _ _ _
  obtain ⟨w, isWapp, name, young⟩ := housed.named
  have recruit : recruits s (.tick env) = if respawns s ∧ s.n < s.slots.length then
      (freeSlot w s.slots).map (env.spawn, ·) else none := by
    simp [recruits, running, isWapp]
  have ask : asks s (.tick env) = (respawns s && (observed s).2.reloadArmed) := by
    simp [asks, running]
  have quiet : respawns s = false → ∀ sup halted, sup.wapp = s.sup.wapp →
      Moves s (.tick env) { s with sup, halted } := by
    intro idle sup halted same
    rw [idle] at recruit ask
    exact .quiet (by simpa using recruit) ask (Nat.le_refl _) same rfl rfl rfl rfl
  unfold loopTick
  by_cases leaving : s.shutdown = true ∨ s.reboot = true
  · rw [if_pos leaving]
    refine quiet ?_ s.sup true rfl
    rcases leaving with shutdown | reboot
    · simp [respawns, shutdown]
    · simp [respawns, reboot]
  rw [if_neg leaving]
  have stays : s.shutdown = false ∧ s.reboot = false := by simpa using leaving
  have respawning : (observed s).1 = .respawn ∨ (observed s).1 = .rolledBack →
      Moves s (.tick env) (platformWappStart env
        (wantedGetCurrentSupervisor env.images { s with sup := (observed s).2 }).1
        (wantedGetCurrentSupervisor env.images { s with sup := (observed s).2 }).2).2 := by
    intro health
    have respawn : respawns s = true := by simpa [respawns, stays] using health
    have unseen := unseen_of_respawns respawn
    have sameBusy : supervisorBusy { s with sup := (observed s).2 } = supervisorBusy s := by
      unfold supervisorBusy slotBusy
      simp only [observedWapp]
    have observing : ({ s with sup := (observed s).2 } : State).sup.wapp = some w :=
      observedWapp.trans isWapp
    obtain ⟨sup, isSup, unarmed, asked⟩ := wantedGetCurrentSupervisor_eq env.images observing
    have same := isSup.trans observedWapp
    rw [respawn, Bool.true_and] at ask
    rw [sameBusy] at asked
    rw [respawn] at recruit
    simp only [true_and] at recruit
    rw [asked, ← ask]
    unfold platformWappStart
    by_cases full : s.n ≥ s.slots.length
    · rw [if_neg (by omega)] at recruit
      rw [if_pos full]
      exact ⟨Nat.le_refl _, same, rfl, .quiet recruit rfl rfl rfl⟩
    rw [if_pos (by omega)] at recruit
    rw [if_neg full]
    cases found : freeSlot w s.slots with
    | none =>
      rw [found] at recruit
      exact ⟨Nat.le_refl _, same, rfl, .quiet recruit rfl rfl rfl⟩
    | some i =>
      rw [found] at recruit
      obtain ⟨slot, here, holder⟩ := freeSlot_spec found
      refine .of_takeSlot env none housed recruit here ?_ rfl rfl rfl (Nat.le_refl _) young same ?_
      · refine holder.imp_right fun holds => ⟨⟨env, rfl⟩, isWapp, holds, fun running => ?_⟩
        have seen : supervisorSeen s .running = true := by
          refine any_eq_true.mpr ⟨slot, mem_of_getElem? here, ?_⟩
          simp [supervisorNamed, holds, name, running]
        simp [seen] at unseen
      · rw [unarmed]
        rfl
  have idle : (observed s).1 ≠ .respawn → (observed s).1 ≠ .rolledBack → respawns s = false := by
    intro notRespawn notRolled
    simp [respawns, notRespawn, notRolled]
  dsimp only
  cases health : (observed s).1 with
  | healthy => exact quiet (idle (by simp [health]) (by simp [health])) _ s.halted observedWapp
  | unrecoverable => exact quiet (idle (by simp [health]) (by simp [health])) _ true observedWapp
  | respawn => exact respawning (.inl health)
  | rolledBack => exact respawning (.inr health)

/-! ### Every step -/

lemma takeStep_moves (step : Step) (housed : Housed s) : Moves s step (takeStep s step).2 := by
  unfold takeStep
  by_cases halted : s.halted = true
  · rw [if_pos halted]
    have isNone : recruits s step = none := by simp [recruits, halted]
    have calm : asks s step = false := by simp [asks, halted]
    exact .quiet isNone calm (Nat.le_refl _) rfl rfl rfl rfl rfl
  rw [if_neg halted]
  have running : s.halted = false := by simpa using halted
  have quiet : recruits s step = none → asks s step = false → ∀ sup shutdown reboot,
      sup.wapp = s.sup.wapp → Moves s step { s with sup, shutdown, reboot } := by
    intro isNone calm sup shutdown reboot same
    exact .quiet isNone calm (Nat.le_refl _) same rfl rfl rfl rfl
  cases step with
  | ctl buf env =>
    have isNone : recruits s (.ctl buf env) = none := by simp [recruits]
    rw [ctlWrite_state]
    cases asked : rootRequest buf with
    | none => exact quiet isNone (by simp [asks, asked]) s.sup s.shutdown s.reboot rfl
    | some command =>
      cases command with
      | poweroff => exact quiet isNone (by simp [asks, asked]) s.sup true s.reboot rfl
      | reboot => exact quiet isNone (by simp [asks, asked]) s.sup s.shutdown true rfl
      | reloadSupervisor =>
        exact quiet isNone (by simp [asks, asked]) (wantedSupervisorReload s.sup) _ _ rfl
      | rollbackSupervisor =>
        have calm : asks s (.ctl buf env) = false := by simp [asks, asked]
        unfold rootCommand wantedSupervisorRollback
        dsimp only
        split
        · exact quiet isNone calm s.sup s.shutdown s.reboot rfl
        rename_i out
        refine quiet isNone calm _ _ _ ?_
        split at out
        · simp at out
        · simp only [Prod.mk.injEq, true_and] at out
          rw [← out]
      | create name =>
        exact .of_reserves (createWapp_reserves env name s) isNone (by simp [asks, asked])
      | delete name =>
        exact deleteWapp_moves env name housed isNone (by simp [asks, asked, running])
  | wappCtl name buf env =>
    rw [wappCtlWrite_state]
    cases asked : wappRequest buf with
    | none =>
      exact quiet (by simp [recruits, asked]) (by simp [asks, asked]) s.sup s.shutdown s.reboot rfl
    | some command =>
      cases command with
      | start image =>
        exact startWapp_moves env name image housed (by simp [recruits, asked, running])
          (by simp [asks, asked, running])
      | stop =>
        have same := quiet (by simp [recruits, asked]) (by simp [asks, asked]) s.sup s.shutdown
          s.reboot rfl
        change Moves s _ (platformWappStop name s).2
        unfold platformWappStop
        split <;> exact same
  | cfg name parsed env =>
    exact .of_reserves (wappConfigWrite_reserves env name parsed s) (by simp [recruits])
      (by simp [asks])
  | workerBegin k =>
    have isNone : recruits s (.workerBegin k) = none := by simp [recruits]
    have calm : asks s (.workerBegin k) = false := by simp [asks]
    have same := quiet isNone calm s.sup s.shutdown s.reboot rfl
    dsimp only
    unfold workerBegin
    cases isWorker : s.workers[k]? with
    | none => exact same
    | some worker =>
      dsimp only
      split
      · exact same
      · exact ⟨Nat.le_refl _, rfl, by rw [calm]; rfl, .begun isNone isWorker rfl rfl rfl⟩
  | workerEnd k ret =>
    have isNone : recruits s (.workerEnd k ret) = none := by simp [recruits]
    have calm : asks s (.workerEnd k ret) = false := by simp [asks]
    have same := quiet isNone calm s.sup s.shutdown s.reboot rfl
    dsimp only
    unfold workerEnd
    cases isWorker : s.workers[k]? with
    | none => exact same
    | some worker =>
      dsimp only
      split
      · exact same
      · exact ⟨Nat.le_refl _, rfl, by rw [calm]; rfl, .ended ret isNone isWorker rfl rfl rfl⟩
  | tick env => exact loopTick_moves env housed running

end WantedEngine.Lifecycle
