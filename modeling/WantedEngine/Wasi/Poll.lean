import WantedEngine.Wasi.Vector
/-!
# `poll_oneoff`

`wasi_poll_oneoff` checks its three arrays and hands them to `WasiPollOneoff`, which passes
over the subscriptions until one has fired, an event for each fired one being written to the
output array as it is found. Clock readings, descriptor readiness, sleeps and wake-ups come
from a `PollEnv` by their number in the call; a call that never ends is a call that no `fuel`
lets return.
-/
namespace WantedEngine.Wasi

/-- `sizeof(__wasi_subscription_t)`. -/
def subscriptionSize : Nat := 48

/-- `sizeof(__wasi_event_t)`. -/
def eventSize : Nat := 32

def pollClocks : Nat := 4

def uint64Max : Nat := 2 ^ 64 - 1

def pollIntervalNs : Nat := 1000000

def pollWakeSliceNs : Nat := 100000000

/-- A subscription as the guest wrote it; the clock fields and the descriptor share their
place. -/
structure Subscription where
  userdata : Nat
  type : Nat
  /-- `u.clock.id` and `u.fd_readwrite.fd`. -/
  id : Nat
  timeout : Nat
  flags : Nat
  deriving DecidableEq

def loadSubscription (m : Memory) (addr : Nat) : Subscription where
  userdata := m.load addr 8
  type := m.load (addr + 8) 1
  id := m.load (addr + 16) 4
  timeout := m.load (addr + 24) 8
  flags := m.load (addr + 40) 2

structure Event where
  userdata : Nat
  error : Nat
  type : Nat
  nbytes : Nat
  flags : Nat
  deriving DecidableEq

/-- The bytes of an event, padding zeroed. -/
def Event.bytes (ev : Event) : Bytes :=
  littleEndian 8 ev.userdata ++ littleEndian 2 ev.error ++ littleEndian 1 ev.type ++
    littleEndian 5 0 ++ littleEndian 8 ev.nbytes ++ littleEndian 2 ev.flags ++ littleEndian 6 0

/-- What a poll call depends on besides the guest's memory. -/
structure PollEnv where
  /-- `PlatformClockGetTime` by the number of the reading; none is a failure. -/
  clock : Nat → Nat → Option Nat
  /-- `VfsPoll` by its number: the ready mask and the bytes available. -/
  ready : Nat → Nat → Rc (Nat × Nat)
  hasWake : Bool
  /-- Whether the sleep after a pass is interrupted, given how long it was to last. -/
  interrupted : Nat → Nat → Bool
  /-- Whether the wake descriptor is raised after a pass. -/
  woken : Nat → Bool

structure PollState where
  memory : Memory
  /-- The start of the call on each clock that was looked at. -/
  start : Nat → Option Nat
  /-- Clock readings so far. -/
  looks : Nat
  /-- Readiness queries so far. -/
  polls : Nat
  /-- Events written in this pass. -/
  fired : Nat
  /-- The shortest time left on a clock subscription of this pass. -/
  wait : Nat
  /-- The array elements accessed, newest first. -/
  accessed : List Access

/-- The deadline of a clock subscription: absolute, or relative to the start of the call on
its clock, saturating. -/
def deadline (sub : Subscription) (start : Nat) : Nat :=
  if sub.flags % 2 = 1 then sub.timeout
  else if sub.timeout > uint64Max - start then uint64Max
  else start + sub.timeout

/-- `clockFired`: the error of a fired clock subscription, or none with the time left. -/
def clockFired (env : PollEnv) (sub : Subscription) (s : PollState) : Option Nat × PollState :=
  if sub.id ≥ pollClocks then (some 28, s)
  else
    match env.clock s.looks sub.id with
    | none => (some 28, { s with looks := s.looks + 1 })
    | some now =>
      let start := (s.start sub.id).getD now
      let s := { s with
        looks := s.looks + 1
        start := fun id => if id = sub.id then some start else s.start id }
      if now ≥ deadline sub start then (some 0, s)
      else (none, { s with wait := min s.wait (deadline sub start - now) })

/-- Whether a ready mask has the hang-up bit. -/
def hangUp (mask : Nat) : Bool := mask / 4 % 2 = 1

/-- Whether a ready mask has the bit a descriptor subscription waits for, or the hang-up
bit. -/
def maskFires (sub : Subscription) (mask : Nat) : Bool :=
  hangUp mask || (if sub.type = 1 then mask % 2 = 1 else mask / 2 % 2 = 1)

/-- `fdFired`: the event of a fired descriptor subscription. -/
def fdFired (env : PollEnv) (sub : Subscription) (s : PollState) : Option Event × PollState :=
  let ev : Event := ⟨sub.userdata, 0, sub.type, 0, 0⟩
  let next := { s with polls := s.polls + 1 }
  match env.ready s.polls sub.id with
  | .error e => (some { ev with error := wasiErrno e }, next)
  | .ok (mask, avail) =>
    if ¬ maskFires sub mask then (none, next)
    else
      (some { ev with
        nbytes := if sub.type = 1 then avail else 0
        flags := if hangUp mask then 1 else 0 }, next)

/-- What one subscription gives: its event if it has fired. -/
def subscriptionFired (env : PollEnv) (sub : Subscription) (s : PollState) : Option Event × PollState :=
  if sub.type = 0 then
    match clockFired env sub s with
    | (none, s) => (none, s)
    | (some error, s) => (some ⟨sub.userdata, error, sub.type, 0, 0⟩, s)
  else if sub.type = 1 ∨ sub.type = 2 then fdFired env sub s
  else (some ⟨sub.userdata, 28, sub.type, 0, 0⟩, s)

/-- One pass over the subscriptions, from element `i` on. -/
def pollPass (env : PollEnv) (input output : Nat) : (left i : Nat) → PollState → PollState
  | 0, _, s => s
  | left + 1, i, s =>
    let at_ := input + subscriptionSize * i
    let s := { s with accessed := ⟨at_, subscriptionSize⟩ :: s.accessed }
    match subscriptionFired env (loadSubscription s.memory at_) s with
    | (none, s) => pollPass env input output left (i + 1) s
    | (some ev, s) =>
      let dest := output + eventSize * s.fired
      pollPass env input output left (i + 1)
        { s with
          memory := s.memory.write dest ev.bytes
          fired := s.fired + 1
          accessed := ⟨dest, eventSize⟩ :: s.accessed }

/-- The first look at the subscriptions: whether one is not a clock. It stops looking at the
first such. -/
def hasFdGo (m : Memory) (input : Nat) : (left i : Nat) → List Access → Bool × List Access
  | 0, _, accessed => (false, accessed)
  | left + 1, i, accessed =>
    let at_ := input + subscriptionSize * i
    let accessed := ⟨at_, subscriptionSize⟩ :: accessed
    if (loadSubscription m at_).type ≠ 0 then (true, accessed)
    else hasFdGo m input left (i + 1) accessed

/-- How long the call sleeps after a pass in which nothing fired. -/
def pollSlice (env : PollEnv) (hasFd : Bool) (wait : Nat) : Nat :=
  min wait (if hasFd then pollIntervalNs else if env.hasWake then pollWakeSliceNs else wait)

/-- The passes of `WasiPollOneoff`; none when `fuel` passes did not end it. -/
def pollPasses (env : PollEnv) (input output n : Nat) (hasFd : Bool) :
    (fuel pass : Nat) → PollState → Option (Except WasiError Nat) × PollState
  | 0, _, s => (none, s)
  | fuel + 1, pass, s =>
    let s := pollPass env input output n 0 { s with fired := 0, wait := uint64Max }
    if s.fired > 0 then (some (.ok s.fired), s)
    else if env.interrupted pass (pollSlice env hasFd s.wait) ∨ env.woken pass then
      (some (.error .intr), s)
    else pollPasses env input output n hasFd fuel (pass + 1) s

def wasiPollOneoff (env : PollEnv) (fuel input output n : Nat) (m : Memory) :
    Option (Except WasiError Nat) × PollState :=
  let state (accessed : List Access) : PollState :=
    ⟨m, fun _ => none, 0, 0, 0, uint64Max, accessed⟩
  if n = 0 then (some (.error .inval), state [])
  else
    let (hasFd, accessed) := hasFdGo m input n 0 []
    pollPasses env input output n hasFd fuel 0 (state accessed)

/-- The arguments of `poll_oneoff`. -/
structure PollArgs where
  /-- The offset of the subscriptions. -/
  input : BitVec 32
  /-- The offset of the events. -/
  output : BitVec 32
  nsubscriptions : BitVec 32
  /-- Where the number of events is stored. -/
  nevents : BitVec 32
  deriving DecidableEq

/-- A poll call that failed before it touched the arrays. -/
def pollRefused (m : Memory) (error : WasiError) : Option (Except WasiError Unit) × PollState :=
  (some (.error error), ⟨m, fun _ => none, 0, 0, 0, uint64Max, []⟩)

/-- `wasi_poll_oneoff`. -/
def wasiPollOneoffCall (attached : Bool) (env : PollEnv) (fuel : Nat) (args : PollArgs)
    (m : Memory) : Option (Except WasiError Unit) × PollState :=
  if ¬ attached ∨ args.nsubscriptions.toInt ≤ 0 then pollRefused m .inval
  else
    match vaddr m args.input (arrayBytes args.nsubscriptions subscriptionSize),
      vaddr m args.output (arrayBytes args.nsubscriptions eventSize), vaddr m args.nevents 4 with
    | some input, some output, some nevents =>
      match wasiPollOneoff env fuel input output args.nsubscriptions.toNat m with
      | (none, s) => (none, s)
      | (some (.error error), s) => (some (.error error), s)
      | (some (.ok n), s) =>
        (some (.ok ()), { s with memory := s.memory.write nevents (littleEndian 4 n) })
    | _, _, _ => pollRefused m .fault

end WantedEngine.Wasi
