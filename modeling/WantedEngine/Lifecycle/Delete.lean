import WantedEngine.Lifecycle.Reload
/-!
# Deleting a wapp

The nodes under `wapps/<name>` open for the names that a slot or a reservation has. `delete <name>`
frees the first slot of the name and its reservation. Every start takes a fresh slot, so one name may
be in several.
-/
namespace WantedEngine.Lifecycle

open List Option

/-- `wapp_node_t`. -/
inductive WappNode where
  | root | wapp | ctl | state | cfg
  deriving DecidableEq

def wappKnown (name : Bytes) (s : State) : Bool := lookupState name s || (pendingFind name s).isSome

/-- `_Open` of a resolved path, with the answer of `alloc_fd`. -/
def wappsOpen (node : WappNode) (name : Bytes) (fd : Rc Nat) (s : State) : Rc Nat :=
  if node ≠ .root ∧ ¬ wappKnown name s then .error .enoent else fd

/-- `wapps/<name>` and every node under it answer `-ENOENT`. -/
def Absent (name : Bytes) (s : State) : Prop :=
  ∀ node, node ≠ .root → ∀ fd, wappsOpen node name fd s = .error .enoent

/-- The name that `PlatformWappGetState` reports for a slot. -/
def Slot.reported (slot : Slot) : Option Bytes :=
  slot.wapp.map fun w => w.name.take (wappMaxNameLen - 1)

/-- The name of the supervisor that a turn of the run loop may start. -/
def supervisorName (s : State) : Bytes := (s.sup.wapp.map (·.name)).getD (ascii "supervisor")

/-- The step creates, configures or starts the name. -/
def Revives (name : Bytes) (s : State) : Step → Prop
  | .ctl buf _ => rootRequest buf = some (.create name)
  | .wappCtl other buf _ =>
    (∃ image, wappRequest buf = some (.start image)) ∧ other.take (wappMaxNameLen - 1) = name
  | .cfg other _ _ => other.take (wappMaxNameLen - 1) = name
  | .tick _ => (supervisorName s).take (wappMaxNameLen - 1) = name
  | .workerBegin _ | .workerEnd _ _ => False

/-- What a delete that succeeds promises: no worker of the name was starting or running, and the name
is absent until it is created, configured or started. -/
def Deleted (env : Env) (name : Bytes) (s : State) : Prop :=
  (∀ (i : Nat) (slot : Slot), s.slots[i]? = some slot → slot.reported = some name →
      slotBusy s i slot = false) ∧
    ∀ steps, machine.Obeys (fun s step => ¬ Revives name s step) (deleteWapp env name s).2 steps →
      Absent name (machine.exec (deleteWapp env name s).2 steps)

/-- The name is in no slot and no reservation but the first, and no worker is left in that slot. -/
structure Lone (name : Bytes) (s : State) : Prop where
  slots : ∀ (i : Nat) (slot : Slot), s.slots[i]? = some slot → slot.reported = some name →
    namedSlot name s.slots = some i ∧ ∀ worker ∈ s.workers, worker.slot ≠ i
  pending : ∀ table, s.pending = some table → ∀ (i : Nat) (r : Option Reservation),
    table[i]? = some r → r.map (·.name) = some name → pendingFind name s = some i

/-- No slot and no reservation has the name. -/
structure Unknown (name : Bytes) (s : State) : Prop where
  slots : ∀ slot ∈ s.slots, slot.reported ≠ some name
  pending : ¬ Reserved name s

variable {name other : Bytes} {s after : State}

/-- A name without a slot. -/
lemma lookupState_eq_false : lookupState name s = false ↔
    ∀ slot ∈ s.slots, slot.reported ≠ some name := by
  simp [lookupState, Slot.reported]

lemma absent_iff : Absent name s ↔ Unknown name s := by
  have pending : pendingFind name s = none ↔ ¬ Reserved name s := by
    unfold pendingFind Reserved
    cases s.pending with
    | none => simp
    | some table =>
      simp only [bind_some, findIdx?_eq_none_iff, decide_eq_false_iff_not,
        Option.some.injEq, exists_eq_left', not_exists, not_and]
  have known : wappKnown name s = false ↔ Unknown name s := by
    rw [wappKnown, Bool.or_eq_false_iff, lookupState_eq_false, isSome_eq_false_iff,
      isNone_iff_eq_none, pending]
    exact ⟨fun both => ⟨both.1, both.2⟩, fun unknown => ⟨unknown.slots, unknown.pending⟩⟩
  rw [← known]
  constructor
  · intro absent
    have answer := absent .wapp nofun (.ok 0)
    by_contra isKnown
    simp [wappsOpen, isKnown] at answer
  · intro unknown node below fd
    simp [wappsOpen, below, unknown]

variable (unknown : Unknown name s)
include unknown

lemma Unknown.same (slots : after.slots = s.slots)
    (pending : after.pending = s.pending) : Unknown name after := by
  refine ⟨slots ▸ unknown.slots, ?_⟩
  unfold Reserved
  rw [pending]
  exact unknown.pending

lemma Unknown.set (i : Nat) {slot : Slot}
    (differs : slot.reported ≠ some name) : Unknown name { s with slots := s.slots.set i slot } := by
  refine ⟨fun found mem => ?_, unknown.pending⟩
  rcases mem_or_eq_of_mem_set mem with old | rfl
  · exact unknown.slots found old
  · exact differs

lemma Unknown.status (i : Nat) (status : Status) :
    Unknown name { s with slots := s.slots.modify i fun slot => { slot with status } } := by
  refine ⟨fun found mem => ?_, unknown.pending⟩
  obtain ⟨_, here⟩ := mem_iff_getElem?.mp mem
  rw [getElem?_modify] at here
  obtain ⟨slot, isSlot, rfl⟩ := map_eq_some_iff.mp here
  have kept := unknown.slots slot (mem_of_getElem? isSlot)
  split <;> exact kept

lemma Unknown.reserves (reserves : Reserves other s after)
    (differs : other ≠ name) : Unknown name after := by
  obtain ⟨pending, rfl⟩ := reserves.same
  refine ⟨unknown.slots, fun reserved => ?_⟩
  exact (reserves.names name reserved).elim (fun same => differs same.symm) unknown.pending

lemma Unknown.clear (pend : Option Nat) : Unknown name (clearReservation pend s) :=
  unknown.reserves (clearReservation_reserves pend (0 :: name) s) (cons_ne_self 0 name)

omit unknown

lemma wantedGetCurrentSupervisor_frame (images : Images) (s : State) :
    (wantedGetCurrentSupervisor images s).2.slots = s.slots ∧
      (wantedGetCurrentSupervisor images s).2.pending = s.pending ∧
      (wantedGetCurrentSupervisor images s).1.name = supervisorName s := by
  unfold wantedGetCurrentSupervisor supervisorName
  split
  · rename_i isWapp
    split <;> simp [isWapp]
  · rename_i isWapp
    simp [isWapp]

lemma takeSlot_unknown (env : Env) {wapp : Wapp} (i : Nat) (unknown : Unknown name s)
    (differs : wapp.name.take (wappMaxNameLen - 1) ≠ name) :
    Unknown name (takeSlot env wapp i s) := by
  have marked : Unknown name { s with slots := s.slots.set i ⟨.starting, some wapp⟩ } :=
    unknown.set i fun same => differs (Option.some.inj same)
  obtain ⟨slots, pending, -⟩ := wantedGetCurrentSupervisor_frame env.images
    { s with slots := s.slots.set i ⟨.starting, some wapp⟩ }
  exact marked.same slots pending

lemma deleteWapp_unknown (env : Env) (deleted : Bytes) (unknown : Unknown name s) :
    Unknown name (deleteWapp env deleted s).2 := by
  rcases deleteWapp_cases env deleted s with ⟨-, i, _, -, -, -, isDelete⟩ | ⟨-, -, isDelete⟩ |
    ⟨-, -, e, refused⟩
  · rw [isDelete]
    obtain ⟨slots, pending, -⟩ := wantedGetCurrentSupervisor_frame env.images s
    exact ((unknown.same slots pending).set i (by simp [emptySlot, Slot.reported])).clear _
  · rw [isDelete]
    exact unknown.clear _
  · rw [refused]
    exact unknown

lemma loopTick_unknown (env : Env) (unknown : Unknown name s)
    (differs : (supervisorName s).take (wappMaxNameLen - 1) ≠ name) :
    Unknown name (loopTick env s) := by
  have observing : Unknown name { s with sup := (observed s).2 } := unknown.same rfl rfl
  have sameName : supervisorName { s with sup := (observed s).2 } = supervisorName s := by
    unfold supervisorName
    rw [show (observed s).2.wapp = s.sup.wapp from wantedSupervisorObserve_wapp _ _ _ _]
  obtain ⟨slots, pending, isName⟩ :=
    wantedGetCurrentSupervisor_frame env.images { s with sup := (observed s).2 }
  have respawned : Unknown name (platformWappStart env
      (wantedGetCurrentSupervisor env.images { s with sup := (observed s).2 }).1
      (wantedGetCurrentSupervisor env.images { s with sup := (observed s).2 }).2).2 := by
    have asked := observing.same slots pending
    unfold platformWappStart
    split
    · exact asked
    split
    · exact asked
    · exact takeSlot_unknown env _ asked (by rwa [isName, sameName])
  unfold loopTick
  split
  · exact unknown.same rfl rfl
  dsimp only
  split
  · exact observing
  · exact observing.same rfl rfl
  · exact respawned
  · exact respawned

lemma takeStep_unknown {step : Step} (unknown : Unknown name s) (quiet : ¬ Revives name s step) :
    Unknown name (takeStep s step).2 := by
  unfold takeStep
  split
  · exact unknown
  cases step with
  | ctl buf env =>
    rw [ctlWrite_state]
    cases asked : rootRequest buf with
    | none => exact unknown
    | some command =>
      cases command with
      | poweroff | reboot | reloadSupervisor => exact unknown.same rfl rfl
      | rollbackSupervisor =>
        unfold rootCommand
        dsimp only
        split <;> exact unknown.same rfl rfl
      | create created =>
        refine unknown.reserves (createWapp_reserves env created s) fun same => quiet ?_
        rw [Revives, asked, same]
      | delete deleted => exact deleteWapp_unknown env deleted unknown
  | wappCtl started buf env =>
    rw [wappCtlWrite_state]
    cases asked : wappRequest buf with
    | none => exact unknown
    | some command =>
      cases command with
      | start image =>
        have next : ∀ nextId, Unknown name { s with nextId } := fun _ => unknown.same rfl rfl
        rcases startWapp_cases env started image s with ⟨i, -, -, isStart⟩ | ⟨-, _, nextId, -, refused⟩
        · change Unknown name (startWapp env started image s).2
          rw [isStart]
          refine (takeSlot_unknown env i (next _) fun same => quiet ⟨⟨image, asked⟩, ?_⟩).clear _
          rwa [take_take, Nat.min_self] at same
        · change Unknown name (startWapp env started image s).2
          rw [refused]
          exact next nextId
      | stop =>
        change Unknown name (platformWappStop started s).2
        unfold platformWappStop
        split <;> exact unknown
  | cfg configured parsed env =>
    exact unknown.reserves (wappConfigWrite_reserves env configured parsed s) quiet
  | workerBegin k =>
    unfold workerBegin
    dsimp only
    split
    · exact unknown
    split
    · exact unknown
    · exact (unknown.status _ .running).same rfl rfl
  | workerEnd k ret =>
    unfold workerEnd
    dsimp only
    split
    · exact unknown
    split
    · exact unknown
    · exact (unknown.status _ _).same rfl rfl
  | tick env => exact loopTick_unknown env unknown quiet

/-- Nothing of a kind is left in a list without one of its places iff the kind is at that
place only. -/
lemma forall_cleared_iff {α : Type} {l : List α} {kind : α → Prop} {blank : α}
    (empty : ¬ kind blank) (pos : Option Nat) :
    (∀ x ∈ pos.elim l fun j => l.set j blank, ¬ kind x) ↔
      ∀ (i : Nat) (x : α), l[i]? = some x → kind x → pos = some i := by
  constructor
  · intro none_ i x here isKind
    by_contra differs
    refine none_ x (mem_of_getElem? (i := i) ?_) isKind
    cases pos with
    | none => exact here
    | some j =>
      rw [elim_some, getElem?_set_ne (by simpa using differs)]
      exact here
  intro only x mem isKind
  obtain ⟨i, here⟩ := getElem?_of_mem mem
  cases pos with
  | none => cases only i x here isKind
  | some j =>
    rw [elim_some, getElem?_set] at here
    split at here
    · split at here
      · exact empty (Option.some.inj here ▸ isKind)
      · cases here
    · rename_i differs
      exact differs (Option.some.inj (only i x here isKind))

/-- For every state: a delete that succeeds finds no worker of its name starting or running and
leaves the name absent until it is created, configured or started, iff a delete that is
accepted finds the name in one slot at most, without a worker, and in one reservation. -/
theorem delete_forgets_iff (env : Env) (name : Bytes) (s : State) :
    ((deleteWapp env name s).1 = .ok () → Deleted env name s) ↔
      (releases name s = true ∨ unreserves name s = true → Lone name s) := by
  have settled : ∀ after, deleteWapp env name s = (.ok (), after) → (Deleted env name s ↔
      (∀ (i : Nat) (slot : Slot), s.slots[i]? = some slot → slot.reported = some name →
        slotBusy s i slot = false) ∧ Unknown name after) := by
    intro after isDelete
    unfold Deleted
    rw [isDelete]
    refine and_congr_right fun _ => ⟨fun absent => absent_iff.mp (absent [] trivial), ?_⟩
    intro unknown steps obeyed
    exact absent_iff.mpr (machine.exec_invariant (Unknown name)
      (fun _ _ unknown quiet => takeStep_unknown unknown quiet) unknown obeyed)
  -- the reservation that is cleared was the only one exactly when none is left
  have pending : ∀ cleared : State, cleared.pending = s.pending →
      (¬ Reserved name (clearReservation (pendingFind name s) cleared) ↔ ∀ table,
        s.pending = some table → ∀ (i : Nat) (r : Option Reservation), table[i]? = some r →
          r.map (·.name) = some name → pendingFind name s = some i) := by
    intro cleared same
    unfold Reserved clearReservation
    rw [same]
    generalize pendingFind name s = pos
    cases s.pending with
    | none => cases pos <;> simp
    | some table =>
      have iff : (∀ r ∈ pos.elim table fun j => table.set j none, ¬ r.map (·.name) = some name) ↔
          ∀ (i : Nat) (r : Option Reservation), table[i]? = some r → r.map (·.name) = some name →
            pos = some i := forall_cleared_iff nofun pos
      cases pos <;>
        simpa only [elim_none, elim_some, map_some, Option.some.injEq, not_exists, not_and, forall_eq'] using iff
  rcases deleteWapp_cases env name s with ⟨release, i, slot, found, here, terminal, isDelete⟩ |
    ⟨kept, unreserve, isDelete⟩ | ⟨kept, keptToo, e, refused⟩
  · obtain ⟨sameSlots, samePending, -⟩ := wantedGetCurrentSupervisor_frame env.images s
    have cleared : (∀ x ∈ s.slots.set i emptySlot, ¬ x.reported = some name) ↔
        ∀ (j : Nat) (x : Slot), s.slots[j]? = some x → x.reported = some name → some i = some j :=
      forall_cleared_iff (by simp [emptySlot, Slot.reported]) (some i)
    rw [settled _ isDelete, isDelete, release]
    simp only [true_or, forall_const]
    constructor
    · rintro ⟨idle, unknown⟩
      refine ⟨fun j other otherHere isName => ⟨?_, ?_⟩, (pending _ samePending).mp unknown.pending⟩
      · have slots := unknown.slots
        rw [sameSlots] at slots
        rw [found]
        exact cleared.mp slots j other otherHere isName
      · intro worker mem same
        have busy := (slotBusy_iff s j other).mpr (.inr (.inr ⟨worker, mem, same⟩))
        rw [idle j other otherHere isName] at busy
        cases busy
    · intro lone
      refine ⟨fun j other otherHere isName => ?_, ?_, (pending _ samePending).mpr lone.pending⟩
      · obtain ⟨first, noWorker⟩ := lone.slots j other otherHere isName
        cases found.symm.trans first
        cases here.symm.trans otherHere
        rw [← Bool.not_eq_true, slotBusy_iff]
        rintro (starting | running | ⟨worker, mem, same⟩)
        · simp [starting] at terminal
        · simp [running] at terminal
        · exact noWorker worker mem same
      · dsimp only [clearReservation]
        rw [sameSlots]
        exact cleared.mpr fun j x xHere isName => found ▸ (lone.slots j x xHere isName).1
  · rw [settled _ isDelete, isDelete, unreserve]
    simp only [or_true, forall_const]
    have free : ∀ slot ∈ s.slots, slot.reported ≠ some name := by
      simp only [unreserves, Bool.and_eq_true, Bool.not_eq_true'] at unreserve
      exact lookupState_eq_false.mp unreserve.1.2
    have none_ : ∀ (i : Nat) (slot : Slot), s.slots[i]? = some slot → ¬ slot.reported = some name :=
      fun i slot here => free slot (mem_of_getElem? here)
    constructor
    · rintro ⟨-, unknown⟩
      exact ⟨fun i slot here isName => absurd isName (none_ i slot here),
        (pending s rfl).mp unknown.pending⟩
    · intro lone
      exact ⟨fun i slot here isName => absurd isName (none_ i slot here), free,
        (pending s rfl).mpr lone.pending⟩
  · rw [refused, kept, keptToo]
    simp

/-- A wapp that is started twice and whose first worker has ended. -/
def startedTwice : State :=
  machine.exec (wantedStart 4 goodEnv) [.ctl (ascii "create a") goodEnv,
    .wappCtl (ascii "a") (ascii "start app") goodEnv, .workerBegin 0,
    .wappCtl (ascii "a") (ascii "start app") goodEnv, .workerBegin 0, .workerEnd 1 0]

/-- Its delete succeeds while the second worker runs, and its nodes still open. -/
theorem delete_leaves_running : (deleteWapp goodEnv (ascii "a") startedTwice).1 = .ok () ∧
      startedTwice.slots[2]? = some ⟨.running, some ⟨2, ascii "a"⟩⟩ ∧
      wappsOpen .ctl (ascii "a") (.ok 0) (deleteWapp goodEnv (ascii "a") startedTwice).2 = .ok 0 := by
  decide +kernel

end WantedEngine.Lifecycle
