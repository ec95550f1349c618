import WantedEngine.Foundation.Machine
import WantedEngine.Lifecycle.Supervisor
/-!
# Wapp slots, workers and the control plane

The slot table of `platform/linux/api/wapps.c`, the worker threads that run in its slots, the
run loop, and the control commands of `vfs-wanted-wapps.c` that reach them. A step is one
control write, one move of a worker or one turn of the run loop; each holds the state lock
for as long as it touches the table, so steps are atomic. What the registry, the verify
gate, the allocator and thread creation answer comes with the step (`Env`).

Every call of `WantedGetCurrentSupervisor` that applies an armed reload is recorded, with
whether a supervisor worker was starting or running at that moment.
-/
namespace WantedEngine.Lifecycle

open Foundation

/-- `status_t`, as far as a slot can have it. -/
inductive Status where
  | notStarted | starting | running | exited | failure
  deriving DecidableEq

/-- `thread_data_t`: a slot's status and its occupant. -/
structure Slot where
  status : Status
  /-- `data.wapp`. -/
  wapp : Option Wapp
  deriving DecidableEq

def emptySlot : Slot := ⟨.notStarted, none⟩

/-- A worker thread: the slot it was created for and whether it has marked it running. -/
structure Worker where
  /-- `data.id`: the slot. -/
  slot : Nat
  /-- Whether `WA_thread` has set the slot running. -/
  begun : Bool
  deriving DecidableEq

/-- `wapps_pending_t`: a reservation made by `create` or a config write. -/
structure Reservation where
  name : Bytes
  /-- Whether a config write succeeded for it. -/
  configured : Bool
  deriving DecidableEq

structure State where
  /-- `state.n`: the number of live workers as the table counts them. -/
  n : Nat
  /-- `state.threads`, one entry for each of the `CONFIG_WANTED_MAX_WAPPS` slots. -/
  slots : List Slot
  /-- The worker threads that have not ended. -/
  workers : List Worker
  /-- The number of the next allocated wapp. -/
  nextId : Nat
  sup : Supervisor
  /-- The reservation table, once it is allocated. -/
  pending : Option (List (Option Reservation))
  /-- `shutdown_requested`. -/
  shutdown : Bool
  /-- `reboot_requested`. -/
  reboot : Bool
  /-- Whether the run loop has returned or the process has exited. -/
  halted : Bool
  /-- The reloads applied so far, newest first: whether a supervisor worker was starting or
  running. -/
  reloads : List Bool
  deriving DecidableEq

structure Env where
  /-- Whether the allocations succeed. -/
  malloc : Bool
  /-- `RegistryLoad`: the error if it fails. -/
  load : Option Errno
  /-- `WantedImageVerifyGate`: the error if it refuses. -/
  gate : Option Errno
  /-- Whether `pthread_create` makes the worker. -/
  spawn : Bool
  images : Images
  deriving DecidableEq

/-- A slot that a worker occupies or whose status says so. -/
def slotBusy (s : State) (i : Nat) (slot : Slot) : Bool :=
  slot.status = .starting || slot.status = .running || s.workers.any (fun w => w.slot = i)

/-- Whether a worker of the current supervisor is starting or running. -/
def supervisorBusy (s : State) : Bool :=
  s.slots.zipIdx.any fun (slot, i) =>
    s.sup.wapp.isSome && slot.wapp = s.sup.wapp && slotBusy s i slot

/-- `WantedGetCurrentSupervisor`: make and load the supervisor on the first call; later calls
return it, and apply an armed reload by unloading and loading its layers in place. -/
def wantedGetCurrentSupervisor (images : Images) (s : State) : Wapp × State :=
  match s.sup.wapp with
  | some wapp =>
    if s.sup.reloadArmed then
      (wapp,
        { s with
          sup := loadSupervisorImage images { s.sup with reloadArmed := false, layers := none }
          reloads := supervisorBusy s :: s.reloads })
    else (wapp, s)
  | none =>
    let wapp : Wapp := ⟨s.nextId, ascii "supervisor"⟩
    (wapp,
      { s with
        nextId := s.nextId + 1
        sup := loadSupervisorImage images { s.sup with wapp := some wapp } })

/-- The slot a start takes: the first that is empty or already holds the wapp. -/
def freeSlot (wapp : Wapp) (slots : List Slot) : Option Nat :=
  slots.findIdx? fun slot => slot.wapp = none || slot.wapp = some wapp

variable (env : Env)

/-- A start takes its slot: the slot is marked, the supervisor is looked up and the worker is
created. -/
def takeSlot (wapp : Wapp) (i : Nat) (s : State) : State :=
  let s := { s with slots := s.slots.set i ⟨.starting, some wapp⟩ }
  let s := (wantedGetCurrentSupervisor env.images s).2
  { s with
    workers := if env.spawn then ⟨i, false⟩ :: s.workers else s.workers
    n := s.n + 1 }

/-- `PlatformWappStart`. The worker's creation is not checked: the slot counts as taken
either way. -/
def platformWappStart (wapp : Wapp) (s : State) : Rc Unit × State :=
  if s.n ≥ s.slots.length then (.error .enospc, s)
  else
    match freeSlot wapp s.slots with
    | none => (.error .enospc, s)
    | some i => (.ok (), takeSlot env wapp i s)

def namedSlot (name : Bytes) (slots : List Slot) : Option Nat :=
  slots.findIdx? fun slot => (slot.wapp.map (·.name)) = some name

def platformWappRelease (name : Bytes) (s : State) : Rc Unit × State :=
  match namedSlot name s.slots with
  | none => (.error .enoent, s)
  | some i =>
    match s.slots[i]? with
    | none => (.error .enoent, s)
    | some slot =>
      if slot.status ≠ .exited ∧ slot.status ≠ .failure then (.error .ebusy, s)
      else
        let s := (wantedGetCurrentSupervisor env.images s).2
        (.ok (), { s with slots := s.slots.set i emptySlot })

/-- `PlatformWappStop`: a running wapp of the name gets its stop request. -/
def platformWappStop (name : Bytes) (s : State) : Rc Unit × State :=
  if s.slots.any fun slot => (slot.wapp.map (·.name)) = some name ∧ slot.status = .running then
    (.ok (), s)
  else (.error .enoent, s)

/-- `lookupState`: whether a slot is occupied under a name. -/
def lookupState (name : Bytes) (s : State) : Bool :=
  s.slots.any fun slot => (slot.wapp.map fun w => w.name.take (wappMaxNameLen - 1)) = some name

/-- `pending_find`: the place of a name's reservation. -/
def pendingFind (name : Bytes) (s : State) : Option Nat :=
  s.pending.bind fun table => table.findIdx? fun r => (r.map (·.name)) = some name

/-- `pending_slot`: the place of a name's reservation, or a free place, with the table
allocated. -/
def pendingSlot (name : Bytes) (s : State) : Option Nat × State :=
  match pendingFind name s with
  | some i => (some i, s)
  | none =>
    match s.pending with
    | some table => (table.findIdx? (· = none), s)
    | none =>
      if ¬ env.malloc then (none, s)
      else
        let table := List.replicate s.slots.length none
        (table.findIdx? (· = none), { s with pending := some table })

def setPending (i : Nat) (r : Option Reservation) (s : State) : State :=
  { s with pending := s.pending.map fun table => table.set i r }

def reservationAt (i : Nat) (s : State) : Option Reservation :=
  (s.pending.bind fun table => table[i]?).join

/-- `startWapp`: load an image for a new wapp, check it and hand it to the platform. -/
def startWapp (name : Bytes) (image : Option Bytes) (s : State) : Rc Unit × State :=
  let pend := pendingFind name s
  let configured := ((pend.bind fun i => reservationAt i s).map (·.configured)).getD true
  if pend.isSome ∧ ¬ configured ∧ image = none then (.error .einval, s)
  else if ¬ env.malloc then (.error .enomem, s)
  else
    let wapp : Wapp := ⟨s.nextId, name.take (wappMaxNameLen - 1)⟩
    let s := { s with nextId := s.nextId + 1 }
    match env.load with
    | some e => (.error e, s)
    | none =>
      match env.gate with
      | some e => (.error e, s)
      | none =>
        match platformWappStart env wapp s with
        | (.error e, s) => (.error e, s)
        | (.ok (), s) =>
          (.ok (),
            match pend with
            | some i => setPending i none s
            | none => s)

def isTrailing (b : UInt8) : Bool := b = 10 || b = 13 || b = 32 || b = 9

/-- A control line without its trailing white space, up to the first NUL. -/
def controlLine (buf : Bytes) : Bytes :=
  cString (buf.reverse.dropWhile isTrailing).reverse

/-- The rest of a line after a verb and its blanks, if the line starts with the verb. -/
def argumentOf (verb : String) (line : Bytes) : Option Bytes :=
  if (ascii verb).isPrefixOf line then
    some ((line.drop (ascii verb).length).dropWhile fun b => b = 32 || b = 9)
  else none

/-- `create <name>`. -/
def createWapp (name : Bytes) (s : State) : Rc Unit × State :=
  if name = [] ∨ name.length ≥ wappMaxNameLen then (.error .einval, s)
  else
    match pendingSlot env name s with
    | (none, s) => (.error .enospc, s)
    | (some i, s) =>
      (.ok (), if reservationAt i s = none then setPending i (some ⟨name, false⟩) s else s)

/-- `delete <name>`. -/
def deleteWapp (name : Bytes) (s : State) : Rc Unit × State :=
  if name = [] ∨ name.length ≥ wappMaxNameLen then (.error .einval, s)
  else
    let live := lookupState name s
    let pend := pendingFind name s
    if ¬ live ∧ pend = none then (.error .enoent, s)
    else
      match if live then platformWappRelease env name s else (.ok (), s) with
      | (.error e, s) => (.error e, s)
      | (.ok (), s) =>
        (.ok (),
          match pend with
          | some i => setPending i none s
          | none => s)

inductive RootCommand where
  | poweroff | reboot | reloadSupervisor | rollbackSupervisor
  | create (name : Bytes)
  | delete (name : Bytes)
  deriving DecidableEq

def parseRoot (line : Bytes) : Option RootCommand :=
  if line = ascii "poweroff" then some .poweroff
  else if line = ascii "reboot" then some .reboot
  else if line = ascii "reload-supervisor" then some .reloadSupervisor
  else if line = ascii "rollback-supervisor" then some .rollbackSupervisor
  else
    match argumentOf "create " line with
    | some name => some (.create name)
    | none => (argumentOf "delete " line).map .delete

def rootCommand (command : RootCommand) (s : State) : Rc Unit × State :=
  match command with
  | .poweroff => (.ok (), { s with shutdown := true })
  | .reboot => (.ok (), { s with reboot := true })
  | .reloadSupervisor => (.ok (), { s with sup := wantedSupervisorReload s.sup })
  | .rollbackSupervisor =>
    match wantedSupervisorRollback s.sup with
    | (false, _) => (.error .ealready, s)
    | (true, sup) => (.ok (), { s with sup := sup })
  | .create name => createWapp env name s
  | .delete name => deleteWapp env name s

/-- The root command a control write asks for. -/
def rootRequest (buf : Bytes) : Option RootCommand :=
  if buf.length ≥ wappsLineMax then none else parseRoot (controlLine buf)

/-- `_ctl_Write`: the root control node. -/
def ctlWrite (buf : Bytes) (s : State) : Rc Nat × State :=
  if buf.length ≥ wappsLineMax then (.error .emsgsize, s)
  else
    match parseRoot (controlLine buf) with
    | none => (.error .einval, s)
    | some command =>
      let (rc, s) := rootCommand env command s
      (rc.map fun _ => buf.length, s)

inductive WappCommand where
  /-- Start the wapp, from an image if one is named. -/
  | start (image : Option Bytes)
  | stop
  deriving DecidableEq

def parseWapp (line : Bytes) : Option WappCommand :=
  if line = ascii "start" then some (.start none)
  else if (ascii "start ").isPrefixOf line ∨ (ascii "start\t").isPrefixOf line then
    let image := (line.drop 5).dropWhile fun b => b = 32 || b = 9
    if image.length ≥ wappMaxImageRefLen then none
    else some (.start (if image = [] then none else some image))
  else if line = ascii "stop" then some .stop
  else none

def wappCommand (name : Bytes) (command : WappCommand) (s : State) : Rc Unit × State :=
  match command with
  | .start image => startWapp env name image s
  | .stop => platformWappStop name s

/-- The command a write on a wapp's control node asks for. -/
def wappRequest (buf : Bytes) : Option WappCommand :=
  if buf.length ≥ wappsLineMax then none else parseWapp (controlLine buf)

/-- `_Write` on `wapps/<name>/ctl`. -/
def wappCtlWrite (name buf : Bytes) (s : State) : Rc Nat × State :=
  if buf.length ≥ wappsLineMax then (.error .emsgsize, s)
  else
    match parseWapp (controlLine buf) with
    | none => (.error .einval, s)
    | some command =>
      let (rc, s) := wappCommand env name command s
      (rc.map fun _ => buf.length, s)

/-- A root control write leaves the state its command leaves. -/
lemma ctlWrite_state (env : Env) (buf : Bytes) (s : State) : (ctlWrite env buf s).2 =
      match rootRequest buf with
      | none => s
      | some command => (rootCommand env command s).2 := by
  unfold ctlWrite rootRequest
  split
  · rfl
  · cases parseRoot (controlLine buf) <;> rfl

lemma wappCtlWrite_state (env : Env) (name buf : Bytes) (s : State) : (wappCtlWrite env name buf s).2 =
      match wappRequest buf with
      | none => s
      | some command => (wappCommand env name command s).2 := by
  unfold wappCtlWrite wappRequest
  split
  · rfl
  · cases parseWapp (controlLine buf) <;> rfl

/-- `_Write` on `wapps/<name>/config`, with the outcome of the parse of its text. -/
def wappConfigWrite (name : Bytes) (parsed : Rc Unit) (s : State) : Rc Unit × State :=
  match pendingSlot env name s with
  | (none, s) => (.error .enospc, s)
  | (some i, s) =>
    match parsed with
    | .error e =>
      (.error e,
        match reservationAt i s with
        | some r => setPending i (some { r with configured := false }) s
        | none => s)
    | .ok () =>
      (.ok (), setPending i (some ⟨name.take (wappMaxNameLen - 1), true⟩) s)

/-- `WA_thread` up to the run: the worker marks its slot running. -/
def workerBegin (k : Nat) (s : State) : State :=
  match s.workers[k]? with
  | none => s
  | some w =>
    if w.begun then s
    else
      { s with
        workers := s.workers.set k { w with begun := true }
        slots := s.slots.modify w.slot fun slot => { slot with status := .running } }

/-- `WA_threadEnd`: the worker marks its slot by its result and is gone. -/
def workerEnd (k : Nat) (ret : Int) (s : State) : State :=
  match s.workers[k]? with
  | none => s
  | some w =>
    if ¬ w.begun then s
    else
      { s with
        workers := s.workers.eraseIdx k
        slots := s.slots.modify w.slot fun slot =>
          { slot with status := if ret = 0 then .exited else .failure }
        n := s.n - 1 }

/-- Whether the run loop takes a slot for a supervisor's: by the start of its name. -/
def supervisorNamed (slot : Slot) : Bool :=
  (slot.wapp.map fun w => (ascii "supervisor").isPrefixOf w.name).getD false

/-- Whether a slot that the run loop takes for a supervisor's has a status. -/
def supervisorSeen (s : State) (status : Status) : Bool :=
  s.slots.any fun slot => supervisorNamed slot && slot.status = status

/-- What the run loop's observation of the slots answers. -/
def observed (s : State) : Health × Supervisor :=
  wantedSupervisorObserve (supervisorSeen s .running) (supervisorSeen s .failure)
    (supervisorSeen s .exited) s.sup

/-- One turn of `PlatformWappLoop`. -/
def loopTick (s : State) : State :=
  if s.shutdown ∨ s.reboot then { s with halted := true }
  else
    let (health, sup) := observed s
    let s := { s with sup := sup }
    match health with
    | .healthy => s
    | .unrecoverable => { s with halted := true }
    | .respawn | .rolledBack =>
      let (wapp, s) := wantedGetCurrentSupervisor env.images s
      (platformWappStart env wapp s).2

/-- A step of the engine. -/
inductive Step where
  /-- A write on the root control node. -/
  | ctl (buf : Bytes) (env : Env)
  /-- A write on `wapps/<name>/ctl`. -/
  | wappCtl (name buf : Bytes) (env : Env)
  /-- A write on `wapps/<name>/config`. -/
  | cfg (name : Bytes) (parsed : Rc Unit) (env : Env)
  /-- A worker marks its slot running. -/
  | workerBegin (k : Nat)
  /-- A worker ends with a result. -/
  | workerEnd (k : Nat) (ret : Int)
  /-- A turn of the run loop. -/
  | tick (env : Env)

/-- The engine takes one step; nothing happens after the run loop has returned. -/
def takeStep (s : State) (step : Step) : Rc Nat × State :=
  if s.halted then (.ok 0, s)
  else
    match step with
    | .ctl buf env => ctlWrite env buf s
    | .wappCtl name buf env => wappCtlWrite env name buf s
    | .cfg name parsed env =>
      let (rc, s) := wappConfigWrite env name parsed s
      (rc.map fun _ => 0, s)
    | .workerBegin k => (.ok 0, workerBegin k s)
    | .workerEnd k ret => (.ok 0, workerEnd k ret s)
    | .tick env => (.ok 0, loopTick env s)

def machine : Machine State Step (Rc Nat) := ⟨takeStep⟩

/-- The statics before the engine starts. -/
def idle (maxWapps : Nat) : State where
  n := 0
  slots := List.replicate maxWapps emptySlot
  workers := []
  nextId := 0
  sup := ⟨none, none, false, false, false, 0, 0⟩
  pending := none
  shutdown := false
  reboot := false
  halted := false
  reloads := []

/-- `WantedStart` up to the run loop: load the supervisor and start it. -/
def wantedStart (maxWapps : Nat) (env : Env) : State :=
  let (wapp, s) := wantedGetCurrentSupervisor env.images (idle maxWapps)
  (platformWappStart env wapp s).2

end WantedEngine.Lifecycle
