import WantedEngine.Wasi.Bounds
/-!
# What `poll_oneoff` reports

The events of one pass, said without the loop: clock looks and readiness queries are numbered
through the whole call, every pass makes the same ones in the order of the subscriptions, and
a relative deadline counts from the first look at its clock that was answered. The passes of
`WasiPollOneoff` report exactly these events, and the call returns with the first pass that has
any. The event array may lie anywhere but over the subscriptions, which are read again in every
pass.
-/
namespace WantedEngine.Wasi

open List Option

/-- The subscriptions of a call. -/
def subscriptions (m : Memory) (input n : Nat) : List Subscription :=
  (List.range n).map fun i => loadSubscription m (input + subscriptionSize * i)

/-- The subscription makes its pass look at a clock. -/
def Subscription.looks (sub : Subscription) : Bool := sub.type = 0 ∧ sub.id < pollClocks

/-- The subscription makes its pass query a descriptor. -/
def Subscription.queries (sub : Subscription) : Bool := sub.type = 1 ∨ sub.type = 2

section Spec

variable (env : PollEnv) (subs : List Subscription)

/-- The number of the clock look that a pass makes at a subscription. -/
def lookNumber (pass i : Nat) : Nat :=
  pass * subs.countP Subscription.looks + (subs.take i).countP Subscription.looks

/-- The number of the readiness query that a pass makes at a subscription. -/
def queryNumber (pass i : Nat) : Nat :=
  pass * subs.countP Subscription.queries + (subs.take i).countP Subscription.queries

def lookedClock (look : Nat) : Option Nat :=
  ((subs.filter Subscription.looks)[look % subs.countP Subscription.looks]?).map (·.id)

/-- The first answer of a clock among the first looks of a call. -/
def firstReading : (looks id : Nat) → Option Nat
  | 0, _ => none
  | looks + 1, id =>
    (firstReading looks id).or (if lookedClock subs looks = some id then env.clock looks id else none)

/-- The error of a clock subscription that has fired, with the number of its look. -/
def clockOutcome (look : Nat) (sub : Subscription) : Option Nat :=
  if sub.id ≥ pollClocks then some 28
  else
    match env.clock look sub.id with
    | none => some 28
    | some now =>
      if deadline sub ((firstReading env subs look sub.id).getD now) ≤ now then some 0 else none

/-- The event of a descriptor subscription that has fired, with the number of its query. -/
def fdOutcome (query : Nat) (sub : Subscription) : Option Event :=
  match env.ready query sub.id with
  | .error e => some ⟨sub.userdata, wasiErrno e, sub.type, 0, 0⟩
  | .ok (mask, avail) =>
    if maskFires sub mask then
      some ⟨sub.userdata, 0, sub.type, if sub.type = 1 then avail else 0,
        if hangUp mask then 1 else 0⟩
    else none

/-- What a pass finds at a subscription: its event if it has fired. -/
def outcomeOf (pass i : Nat) (sub : Subscription) : Option Event :=
  if sub.type = 0 then
    (clockOutcome env subs (lookNumber subs pass i) sub).map
      fun error => ⟨sub.userdata, error, sub.type, 0, 0⟩
  else if sub.queries then fdOutcome env (queryNumber subs pass i) sub
  else some ⟨sub.userdata, 28, sub.type, 0, 0⟩

/-- What a pass finds at the subscription with an index. -/
def outcomeAt (pass i : Nat) : Option Event := subs[i]?.bind (outcomeOf env subs pass i)

/-- The events of the first subscriptions in a pass, in their order. -/
def eventsUpTo (pass count : Nat) : List Event :=
  (List.range count).filterMap (outcomeAt env subs pass)

def eventsOf (pass : Nat) : List Event := eventsUpTo env subs pass subs.length

/-- The deadline of a clock subscription, without a last instant of the clock. -/
def exactDeadline (sub : Subscription) (start : Nat) : Nat :=
  if sub.flags % 2 = 1 then sub.timeout else start + sub.timeout

/-- A reading is the first answer that a call gets from a clock, at one of its first looks. -/
def FirstAnswer (looks id start : Nat) : Prop :=
  ∃ look < looks, lookedClock subs look = some id ∧ env.clock look id = some start ∧
    ∀ before < look, lookedClock subs before = some id → env.clock before id = none

/-! ### Facts of the specification -/

variable {env subs}

/-- The code's deadline is the exact one or the last instant of the clock. -/
lemma min_exactDeadline_le (sub : Subscription) (start : Nat) :
    min (exactDeadline sub start) uint64Max ≤ deadline sub start := by
  unfold exactDeadline deadline
  split
  · exact Nat.min_le_left _ _
  split
  · exact Nat.min_le_right _ _
  · exact Nat.min_le_left _ _

lemma firstReading_ne_none {look id value : Nat} (looked : lookedClock subs look = some id)
    (answer : env.clock look id = some value) {looks : Nat} (below : look < looks) :
    firstReading env subs looks id ≠ none := by
  induction looks with
  | zero => omega
  | succ looks ih =>
    rw [firstReading]
    by_cases last : look = looks
    · subst last
      rw [if_pos looked, answer]
      cases firstReading env subs look id <;> simp
    · have found := ih (by omega)
      cases reading : firstReading env subs looks id with
      | none => exact absurd reading found
      | some _ => simp

lemma firstReading_answer {looks id start : Nat} (read : firstReading env subs looks id = some start) :
    FirstAnswer env subs looks id start := by
  induction looks with
  | zero => cases read
  | succ looks ih =>
    cases earlier : firstReading env subs looks id with
    | some older =>
      have same : older = start := by
        rw [firstReading, earlier, some_or, Option.some.injEq] at read
        exact read
      obtain ⟨look, below, rest⟩ := ih (same ▸ earlier)
      exact ⟨look, by omega, rest⟩
    | none =>
      rw [firstReading, earlier, none_or] at read
      split at read
      · rename_i here
        refine ⟨looks, by omega, here, read, ?_⟩
        intro before below looked
        cases answer : env.clock before id with
        | none => rfl
        | some older => exact absurd earlier (firstReading_ne_none looked answer below)
      · cases read

variable {pass i : Nat} {sub : Subscription} {s : PollState} {ev : Event}

lemma outcomeOf_labels (fired : outcomeOf env subs pass i sub = some ev) :
    ev.userdata = sub.userdata ∧ ev.type = sub.type := by
  unfold outcomeOf at fired
  split at fired
  · rw [map_eq_some_iff] at fired
    obtain ⟨_, -, rfl⟩ := fired
    exact ⟨rfl, rfl⟩
  split at fired
  · unfold fdOutcome at fired
    split at fired
    · cases fired
      exact ⟨rfl, rfl⟩
    split at fired
    · cases fired
      exact ⟨rfl, rfl⟩
    · cases fired
  · cases fired
    exact ⟨rfl, rfl⟩

lemma lookedClock_lookNumber (pass : Nat) (at_ : subs[i]? = some sub) (looks : sub.looks = true) :
    lookedClock subs (lookNumber subs pass i) = some sub.id := by
  have inside := (List.getElem?_eq_some_iff.mp at_).1
  have here := (List.getElem?_eq_some_iff.mp at_).2
  have cut : subs = subs.take i ++ sub :: subs.drop (i + 1) := by
    rw [← here, ← drop_eq_getElem_cons inside, take_append_drop]
  have total : subs.countP Subscription.looks = (subs.take i).countP Subscription.looks +
      ((subs.drop (i + 1)).countP Subscription.looks + 1) := by
    conv_lhs => rw [cut]
    rw [countP_append, countP_cons, looks]
    simp
  have below : (subs.take i).countP Subscription.looks < subs.countP Subscription.looks := by
    omega
  have pos : lookNumber subs pass i % subs.countP Subscription.looks =
      (subs.take i).countP Subscription.looks := by
    rw [lookNumber, Nat.add_comm, Nat.add_mul_mod_self_right, Nat.mod_eq_of_lt below]
  have found : (subs.filter Subscription.looks)[(subs.take i).countP Subscription.looks]? =
      some sub := by
    conv_lhs =>
      rw [cut]
    rw [filter_append, filter_cons_of_pos looks, ← cut,
      countP_eq_length_filter, getElem?_append_right (Nat.le_refl _), Nat.sub_self]
    rfl
  rw [lookedClock, pos, found]
  rfl

lemma outcomeAt_onTime (at_ : subs[i]? = some sub)
    (fired : outcomeOf env subs pass i sub = some ev) (clock : sub.type = 0) (clean : ev.error = 0) :
    ∃ now start, env.clock (lookNumber subs pass i) sub.id = some now ∧
      FirstAnswer env subs (lookNumber subs pass i + 1) sub.id start ∧
      min (exactDeadline sub start) uint64Max ≤ now := by
  rw [outcomeOf, if_pos clock, map_eq_some_iff] at fired
  obtain ⟨error, out, rfl⟩ := fired
  obtain rfl : error = 0 := clean
  unfold clockOutcome at out
  split at out
  · cases out
  split at out
  · cases out
  rename_i now answer
  split at out
  · rename_i due
    have looks : sub.looks = true := by
      simp only [Subscription.looks, clock, decide_eq_true_eq]
      exact ⟨trivial, by omega⟩
    have clockHere := lookedClock_lookNumber pass at_ looks
    refine ⟨now, (firstReading env subs (lookNumber subs pass i) sub.id).getD now, answer, ?_,
      Nat.le_trans (min_exactDeadline_le sub _) due⟩
    apply firstReading_answer
    rw [firstReading, if_pos clockHere, answer]
    cases firstReading env subs (lookNumber subs pass i) sub.id <;> rfl
  · cases out

/-! ### One pass of the code -/

/-- The counters and start times of a call that has come to a subscription of a pass. -/
structure Tracks (env : PollEnv) (subs : List Subscription) (pass i : Nat) (s : PollState) : Prop where
  looks : s.looks = lookNumber subs pass i
  polls : s.polls = queryNumber subs pass i
  start : ∀ id, s.start id = firstReading env subs (lookNumber subs pass i) id

/-- Past a subscription that makes no look, the number of the next look is the same. -/
lemma lookNumber_succ (pass : Nat) (at_ : subs[i]? = some sub) :
    lookNumber subs pass (i + 1) = lookNumber subs pass i + (if sub.looks then 1 else 0) := by
  rw [lookNumber, lookNumber, take_add_one, at_, countP_append, Nat.add_assoc]
  simp [countP_cons]

lemma queryNumber_succ (pass : Nat) (at_ : subs[i]? = some sub) :
    queryNumber subs pass (i + 1) = queryNumber subs pass i + (if sub.queries then 1 else 0) := by
  rw [queryNumber, queryNumber, take_add_one, at_, countP_append, Nat.add_assoc]
  simp [countP_cons]

variable (tracks : Tracks env subs pass i s) (at_ : subs[i]? = some sub)
include tracks at_

lemma clockFired_spec (clock : sub.type = 0) :
    (clockFired env sub s).1 = clockOutcome env subs (lookNumber subs pass i) sub ∧
      Tracks env subs pass (i + 1) (clockFired env sub s).2 := by
  have quiet : sub.queries = false := by simp [Subscription.queries, clock]
  have queries := queryNumber_succ pass at_
  rw [quiet] at queries
  unfold clockFired clockOutcome
  by_cases unknown : sub.id ≥ pollClocks
  · have noLook : sub.looks = false := by
      simp only [Subscription.looks, decide_eq_false_iff_not]
      omega
    have looks := lookNumber_succ pass at_
    rw [noLook] at looks
    rw [if_pos unknown, if_pos unknown]
    refine ⟨rfl, tracks.looks.trans looks.symm, tracks.polls.trans queries.symm, ?_⟩
    rw [looks]
    exact tracks.start
  have looked : sub.looks = true := by
    simp only [Subscription.looks, decide_eq_true_eq]
    exact ⟨clock, by omega⟩
  have looks := lookNumber_succ pass at_
  rw [looked, if_pos rfl] at looks
  have clockHere := lookedClock_lookNumber pass at_ looked
  rw [if_neg unknown, if_neg unknown, tracks.looks]
  cases answer : env.clock (lookNumber subs pass i) sub.id with
  | none =>
    refine ⟨rfl, looks.symm, tracks.polls.trans queries.symm, fun id => ?_⟩
    -- a look without an answer leaves every first reading as it was
    have unchanged : firstReading env subs (lookNumber subs pass i + 1) id =
        firstReading env subs (lookNumber subs pass i) id := by
      rw [firstReading]
      split
      · rename_i same
        obtain rfl : sub.id = id := Option.some.inj (clockHere.symm.trans same)
        rw [answer, or_none]
      · exact or_none
    rw [looks, unchanged]
    exact tracks.start id
  | some now =>
    have starts : ∀ id, (if id = sub.id then
          some ((firstReading env subs (lookNumber subs pass i) sub.id).getD now)
        else s.start id) = firstReading env subs (lookNumber subs pass i + 1) id := by
      intro id
      by_cases same : id = sub.id
      · subst same
        rw [if_pos rfl, firstReading, if_pos clockHere, answer]
        cases firstReading env subs (lookNumber subs pass i) sub.id <;> rfl
      · have other : ¬ lookedClock subs (lookNumber subs pass i) = some id := by
          rw [clockHere]
          exact fun both => same (Option.some.inj both).symm
        rw [if_neg same, firstReading, if_neg other, or_none]
        exact tracks.start id
    dsimp only
    rw [tracks.start sub.id]
    by_cases due : deadline sub ((firstReading env subs (lookNumber subs pass i) sub.id).getD now) ≤ now
    · rw [if_pos due, if_pos due]
      refine ⟨rfl, looks.symm, tracks.polls.trans queries.symm, fun id => ?_⟩
      rw [looks]
      exact starts id
    · rw [if_neg due, if_neg due]
      refine ⟨rfl, looks.symm, tracks.polls.trans queries.symm, fun id => ?_⟩
      rw [looks]
      exact starts id

lemma fdFired_spec (queried : sub.queries = true) :
    (fdFired env sub s).1 = fdOutcome env (queryNumber subs pass i) sub ∧
      Tracks env subs pass (i + 1) (fdFired env sub s).2 := by
  have noLook : sub.looks = false := by
    simp only [Subscription.queries, decide_eq_true_eq] at queried
    simp only [Subscription.looks, decide_eq_false_iff_not]
    omega
  have looks := lookNumber_succ pass at_
  have queries := queryNumber_succ pass at_
  rw [noLook] at looks
  rw [queried, if_pos rfl] at queries
  have moved : Tracks env subs pass (i + 1) { s with polls := s.polls + 1 } := by
    refine ⟨tracks.looks.trans looks.symm, ?_, ?_⟩
    · rw [queries, tracks.polls]
    · rw [looks]
      exact tracks.start
  unfold fdFired fdOutcome
  rw [tracks.polls] at moved ⊢
  cases env.ready (queryNumber subs pass i) sub.id with
  | error e => exact ⟨rfl, moved⟩
  | ok answer =>
    dsimp only
    by_cases fires : maskFires sub answer.1 = true
    · rw [if_neg (not_not_intro fires), if_pos fires]
      exact ⟨rfl, moved⟩
    · rw [if_pos fires, if_neg fires]
      exact ⟨rfl, moved⟩

lemma subscriptionFired_spec : (subscriptionFired env sub s).1 = outcomeOf env subs pass i sub ∧
      Tracks env subs pass (i + 1) (subscriptionFired env sub s).2 := by
  unfold subscriptionFired outcomeOf
  by_cases clock : sub.type = 0
  · obtain ⟨answer, moved⟩ := clockFired_spec tracks at_ clock
    rw [if_pos clock, if_pos clock, ← answer]
    cases out : clockFired env sub s with
    | mk error after =>
      rw [out] at moved
      cases error with
      | none => exact ⟨rfl, moved⟩
      | some error => exact ⟨rfl, moved⟩
  rw [if_neg clock, if_neg clock]
  by_cases queried : sub.queries = true
  · have type : sub.type = 1 ∨ sub.type = 2 := by
      simpa [Subscription.queries] using queried
    rw [if_pos type, if_pos queried]
    exact fdFired_spec tracks at_ queried
  have type : ¬ (sub.type = 1 ∨ sub.type = 2) := by
    simpa [Subscription.queries] using queried
  have noLook : sub.looks = false := by simp [Subscription.looks, clock]
  have looks := lookNumber_succ pass at_
  have queries := queryNumber_succ pass at_
  rw [noLook] at looks
  rw [Bool.eq_false_iff.mpr queried] at queries
  rw [if_neg type, if_neg queried]
  refine ⟨rfl, tracks.looks.trans looks.symm, tracks.polls.trans queries.symm, ?_⟩
  rw [looks]
  exact tracks.start

omit at_ tracks

/-! ### The events in memory -/

def Memory.Holds (m : Memory) (addr : Nat) (bytes : Bytes) : Prop :=
  ∀ offset byte, bytes[offset]? = some byte → m.byte (addr + offset) = byte

lemma Memory.holds_write (m : Memory) (addr : Nat) (bytes : Bytes) :
    (m.write addr bytes).Holds addr bytes := by
  intro offset byte at_
  have inside := (List.getElem?_eq_some_iff.mp at_).1
  have range : addr ≤ addr + offset ∧ addr + offset < addr + bytes.length := by omega
  simp only [write, if_pos range, Nat.add_sub_cancel_left, getD_eq_getElem?_getD, at_, getD_some]

variable {addr at_ : Nat}

lemma Memory.Holds.write {m : Memory} {held bytes : Bytes}
    (holds : m.Holds at_ held) (apart : at_ + held.length ≤ addr ∨ addr + bytes.length ≤ at_) :
    (m.write addr bytes).Holds at_ held := by
  intro offset byte found
  have inside := (List.getElem?_eq_some_iff.mp found).1
  have outside : ¬ (addr ≤ at_ + offset ∧ at_ + offset < addr + bytes.length) := by omega
  simp only [Memory.write, if_neg outside]
  exact holds offset byte found

@[simp] lemma Event.bytes_length (ev : Event) : ev.bytes.length = eventSize := by
  simp [Event.bytes, eventSize]

lemma loadSubscription_write_apart (m : Memory) {bytes : Bytes}
    (apart : at_ + subscriptionSize ≤ addr ∨ addr + bytes.length ≤ at_) :
    loadSubscription (m.write addr bytes) at_ = loadSubscription m at_ := by
  unfold subscriptionSize at apart
  unfold loadSubscription
  rw [Memory.load_write_apart m (by omega), Memory.load_write_apart m (by omega),
    Memory.load_write_apart m (by omega), Memory.load_write_apart m (by omega),
    Memory.load_write_apart m (by omega)]

lemma eventsUpTo_succ (pass count : Nat) : eventsUpTo env subs pass (count + 1) =
      eventsUpTo env subs pass count ++ (outcomeAt env subs pass count).toList := by
  rw [eventsUpTo, range_succ, filterMap_append]
  cases found : outcomeAt env subs pass count <;> simp [eventsUpTo, found]

lemma eventsUpTo_length_le (pass count : Nat) : (eventsUpTo env subs pass count).length ≤ count := by
  have most := length_filterMap_le (outcomeAt env subs pass) (List.range count)
  rw [length_range] at most
  exact most

/-- A pass that has come to a subscription: the counters are the specification's, the
subscriptions stand as the guest wrote them, and the events so far stand in the output. -/
structure PassAt (env : PollEnv) (m : Memory) (input output n pass i : Nat) (s : PollState) : Prop where
  tracks : Tracks env (subscriptions m input n) pass i s
  kept : ∀ j < n, loadSubscription s.memory (input + subscriptionSize * j) =
    loadSubscription m (input + subscriptionSize * j)
  fired : s.fired = (eventsUpTo env (subscriptions m input n) pass i).length
  stored : ∀ j ev, (eventsUpTo env (subscriptions m input n) pass i)[j]? = some ev →
    s.memory.Holds (output + eventSize * j) ev.bytes

/-- The subscription with an index. -/
lemma subscriptions_getElem? (m : Memory) (input : Nat) {n : Nat} (below : i < n) :
    (subscriptions m input n)[i]? = some (loadSubscription m (input + subscriptionSize * i)) := by
  rw [subscriptions, getElem?_map, getElem?_range below]
  rfl

section Arrays

variable {m : Memory} {input output n : Nat}
  (apart : input + subscriptionSize * n ≤ output ∨ output + eventSize * n ≤ input)

include apart

lemma PassAt.fire {pass i : Nat} {s after : PollState}
    (before : PassAt env m input output n pass i s) (below : i < n)
    (tracks : Tracks env (subscriptions m input n) pass (i + 1) after)
    (memory : after.memory = s.memory) (fired : after.fired = s.fired)
    (found : outcomeAt env (subscriptions m input n) pass i = some ev) :
    PassAt env m input output n pass (i + 1)
      { after with
        memory := after.memory.write (output + eventSize * after.fired) ev.bytes
        fired := after.fired + 1
        accessed := ⟨output + eventSize * after.fired, eventSize⟩ :: after.accessed } := by
  have events : eventsUpTo env (subscriptions m input n) pass (i + 1) = _ :=
    eventsUpTo_succ pass i
  rw [found, toList_some] at events
  have few : (eventsUpTo env (subscriptions m input n) pass i).length ≤ i :=
    eventsUpTo_length_le pass i
  have pos := fired.trans before.fired
  have size := ev.bytes_length
  refine ⟨⟨tracks.looks, tracks.polls, tracks.start⟩, ?_, ?_, ?_⟩
  · intro j inside
    have clear : input + subscriptionSize * j + subscriptionSize ≤ output + eventSize * after.fired ∨
        output + eventSize * after.fired + ev.bytes.length ≤ input + subscriptionSize * j := by
      unfold subscriptionSize eventSize at *
      omega
    rw [loadSubscription_write_apart _ clear, memory]
    exact before.kept j inside
  · rw [events, length_append, ← pos]
    rfl
  intro j held at_
  rw [events] at at_
  by_cases earlier : j < (eventsUpTo env (subscriptions m input n) pass i).length
  · rw [getElem?_append_left earlier] at at_
    have holds := before.stored j held at_
    rw [← memory] at holds
    apply holds.write
    rw [held.bytes_length]
    unfold eventSize at *
    omega
  rw [getElem?_append_right (Nat.not_lt.mp earlier), getElem?_singleton] at at_
  split at at_
  · rename_i last
    cases at_
    have same : j = after.fired := by omega
    rw [same]
    exact after.memory.holds_write _ _
  · cases at_

lemma pollPass_spec {pass left i : Nat} (rest : i + left = n)
    (before : PassAt env m input output n pass i s) :
    PassAt env m input output n pass n (pollPass env input output left i s) := by
  induction left generalizing i s with
  | zero =>
    obtain rfl : i = n := rest
    exact before
  | succ left ih =>
    have below : i < n := by omega
    have at_ := subscriptions_getElem? m input below
    have unchanged := before.kept i below
    rw [pollPass]
    rw [unchanged]
    generalize loadSubscription m (input + subscriptionSize * i) = sub at at_
    generalize looked : ({ s with
      accessed := ⟨input + subscriptionSize * i, subscriptionSize⟩ :: s.accessed } : PollState) = s'
    have start : PassAt env m input output n pass i s' := by
      rw [← looked]
      exact ⟨⟨before.tracks.looks, before.tracks.polls, before.tracks.start⟩, before.kept,
        before.fired, before.stored⟩
    obtain ⟨answer, tracks⟩ := subscriptionFired_spec start.tracks at_
    obtain ⟨-, fired, memory⟩ := subscriptionFired_frame env sub s'
    have found : outcomeAt env (subscriptions m input n) pass i = (subscriptionFired env sub s').1 := by
      rw [outcomeAt, at_, bind_some, answer]
    cases out : subscriptionFired env sub s' with
    | mk event after =>
      rw [out] at tracks memory fired found
      cases event with
      | none =>
        have events : eventsUpTo env (subscriptions m input n) pass (i + 1) = _ :=
          eventsUpTo_succ pass i
        rw [found, toList_none, append_nil] at events
        apply ih (by omega)
        refine ⟨tracks, ?_, ?_, ?_⟩
        · rw [memory]
          exact start.kept
        · rw [fired, events]
          exact start.fired
        · rw [memory, events]
          exact start.stored
      | some ev =>
        apply ih (by omega)
        exact start.fire apart below tracks memory fired found

end Arrays

lemma Tracks.next_pass (tracks : Tracks env subs pass subs.length s) (fired wait : Nat)
    : Tracks env subs (pass + 1) 0 { s with fired := fired, wait := wait } := by
  have looks : lookNumber subs pass subs.length = lookNumber subs (pass + 1) 0 := by
    rw [lookNumber, lookNumber, take_length, take_zero, countP_nil, Nat.succ_mul]
    omega
  have queries : queryNumber subs pass subs.length = queryNumber subs (pass + 1) 0 := by
    rw [queryNumber, queryNumber, take_length, take_zero, countP_nil, Nat.succ_mul]
    omega
  refine ⟨tracks.looks.trans looks, tracks.polls.trans queries, ?_⟩
  rw [← looks]
  exact tracks.start

end Spec

/-! ### The call -/

/-- What a successful poll reports: it is the first pass with events, and all of them are
reported, in the order of the subscriptions. -/
structure Reported (env : PollEnv) (subs : List Subscription) (output pass count : Nat)
    (s : PollState) : Prop where
  /-- No earlier pass found a fired subscription. -/
  first : ∀ earlier < pass, eventsOf env subs earlier = []
  /-- One event for each subscription the pass found fired. -/
  count_eq : count = (eventsOf env subs pass).length
  /-- There is an event. -/
  positive : 1 ≤ count
  /-- There are no more events than subscriptions. -/
  bounded : count ≤ subs.length
  /-- The events stand in the output, in their order. -/
  stored : ∀ j ev, (eventsOf env subs pass)[j]? = some ev →
    s.memory.Holds (output + eventSize * j) ev.bytes
  /-- Each event carries the userdata and the type of its subscription. -/
  labels : ∀ i sub ev, subs[i]? = some sub → outcomeAt env subs pass i = some ev →
    ev.userdata = sub.userdata ∧ ev.type = sub.type
  /-- No clock event without an error is early. -/
  onTime : ∀ i sub ev, subs[i]? = some sub → outcomeAt env subs pass i = some ev →
    sub.type = 0 → ev.error = 0 →
      ∃ now start, env.clock (lookNumber subs pass i) sub.id = some now ∧
        FirstAnswer env subs (lookNumber subs pass i + 1) sub.id start ∧
        min (exactDeadline sub start) uint64Max ≤ now

/-- What a poll has done when it returns, or when `fuel` passes did not end it. -/
def PollOutcome (env : PollEnv) (subs : List Subscription) (output fuel : Nat) :
    Option (Except WasiError Nat) × PollState → Prop
  | (none, _) => ∀ pass < fuel, eventsOf env subs pass = []
  | (some (.error error), _) => error = .intr ∧ ∃ pass < fuel,
      (∀ earlier ≤ pass, eventsOf env subs earlier = []) ∧
        (env.woken pass = true ∨ ∃ slice, env.interrupted pass slice = true)
  | (some (.ok count), s) => ∃ pass < fuel, Reported env subs output pass count s

/-- The passes of a poll, from one that no earlier pass with events came before. -/
lemma pollPasses_spec {env : PollEnv} {m : Memory} {input output n : Nat}
    (apart : input + subscriptionSize * n ≤ output ∨ output + eventSize * n ≤ input) (hasFd : Bool)
    (fuel : Nat) {pass : Nat} (tracks : ∀ fired wait, Tracks env (subscriptions m input n) pass 0
      { s with fired := fired, wait := wait })
    (kept : ∀ j < n, loadSubscription s.memory (input + subscriptionSize * j) =
      loadSubscription m (input + subscriptionSize * j))
    (first : ∀ earlier < pass, eventsOf env (subscriptions m input n) earlier = []) :
    PollOutcome env (subscriptions m input n) output (pass + fuel)
      (pollPasses env input output n hasFd fuel pass s) := by
  induction fuel generalizing pass s with
  | zero => exact first
  | succ fuel ih =>
    have length : (subscriptions m input n).length = n := by simp [subscriptions]
    have done : PassAt env m input output n pass n
        (pollPass env input output n 0 { s with fired := 0, wait := uint64Max }) := by
      apply pollPass_spec apart (Nat.zero_add n)
      exact ⟨tracks 0 uint64Max, kept, rfl, fun j ev at_ => by cases at_⟩
    have events : eventsUpTo env (subscriptions m input n) pass n =
        eventsOf env (subscriptions m input n) pass := by rw [eventsOf, length]
    rw [pollPasses]
    generalize pollPass env input output n 0 { s with fired := 0, wait := uint64Max } = after at done
    have fired := done.fired.trans (congrArg List.length events)
    by_cases some_ : after.fired > 0
    · rw [if_pos some_]
      refine ⟨pass, by omega, first, fired, some_, ?_, ?_, ?_, ?_⟩
      · rw [fired, eventsOf]
        exact eventsUpTo_length_le pass _
      · rw [← events]
        exact done.stored
      · intro i sub ev at_ found
        rw [outcomeAt, at_, bind_some] at found
        exact outcomeOf_labels found
      · intro i sub ev at_ found clock clean
        rw [outcomeAt, at_, bind_some] at found
        exact outcomeAt_onTime at_ found clock clean
    · rw [if_neg some_]
      have none_ : eventsOf env (subscriptions m input n) pass = [] := by
        apply eq_nil_of_length_eq_zero
        omega
      have through : ∀ earlier < pass + 1, eventsOf env (subscriptions m input n) earlier = [] := by
        intro earlier below
        by_cases last : earlier = pass
        · rw [last]
          exact none_
        · exact first earlier (by omega)
      split
      · rename_i stopped
        refine ⟨rfl, pass, by omega, fun earlier most => through earlier (by omega), ?_⟩
        rcases stopped with interrupted | woken
        · exact .inr ⟨_, interrupted⟩
        · exact .inl woken
      · have tracked : Tracks env (subscriptions m input n) pass
            (subscriptions m input n).length after := length.symm ▸ done.tracks
        have rest := ih tracked.next_pass done.kept through
        rw [Nat.add_right_comm] at rest
        exact rest

/-- For every list of subscriptions and every evolution of clocks and readiness: the call reports
the events of the first pass in which a subscription has fired, unless it is interrupted before,
and no clock event comes before its deadline or the last instant of the clock. -/
theorem poll_reports_first_fired (env : PollEnv) (fuel input output n : Nat) (m : Memory)
    (some_ : 0 < n)
    (apart : input + subscriptionSize * n ≤ output ∨ output + eventSize * n ≤ input) :
    PollOutcome env (subscriptions m input n) output fuel
      (wasiPollOneoff env fuel input output n m) := by
  unfold wasiPollOneoff
  rw [if_neg (by omega)]
  have fresh : ∀ fired wait, Tracks env (subscriptions m input n) 0 0
      ⟨m, fun _ => none, 0, 0, fired, wait, (hasFdGo m input n 0 []).2⟩ := by
    intro fired wait
    have looks : lookNumber (subscriptions m input n) 0 0 = 0 := by simp [lookNumber]
    have queries : queryNumber (subscriptions m input n) 0 0 = 0 := by simp [queryNumber]
    refine ⟨looks.symm, queries.symm, fun id => ?_⟩
    rw [looks]
    rfl
  have passes := pollPasses_spec apart (hasFdGo m input n 0 []).1 fuel
    (s := ⟨m, fun _ => none, 0, 0, 0, uint64Max, (hasFdGo m input n 0 []).2⟩) fresh
    (fun j _ => rfl) (fun earlier below => absurd below (Nat.not_lt_zero _))
  rw [Nat.zero_add] at passes
  exact passes

/-- One subscription at 64: an interval of one nanosecond on the monotonic clock. -/
def oneTimer : Memory :=
  zeroPage.write 64 (littleEndian 16 7 ++ littleEndian 8 1 ++ littleEndian 24 1)

/-- A host whose clock reads one more at every look, from a first reading on. -/
def tickingPoll (first : Nat) : PollEnv where
  clock := fun look _ => some (first + look)
  ready := fun _ _ => .ok (0, 0)
  hasWake := false
  interrupted := fun _ _ => false
  woken := fun _ => false

/-- The timer fires in the second pass. -/
theorem poll_timer_fires : (wasiPollOneoff (tickingPoll 5) 4 64 512 1 oneTimer).1 = some (.ok 1) ∧
      PollOutcome (tickingPoll 5) (subscriptions oneTimer 64 1) 512 4
        (wasiPollOneoff (tickingPoll 5) 4 64 512 1 oneTimer) :=
  ⟨by decide +kernel,
    poll_reports_first_fired (tickingPoll 5) 4 64 512 1 oneTimer Nat.one_pos (Or.inl (by decide))⟩

/-- On a clock that reads its last instant, the timer fires at once, before its deadline. -/
theorem poll_timer_early :
    (wasiPollOneoff (tickingPoll uint64Max) 1 64 512 1 oneTimer).1 = some (.ok 1) ∧
      subscriptions oneTimer 64 1 = [⟨7, 0, 1, 1, 0⟩] ∧
      (tickingPoll uint64Max).clock 0 1 = some uint64Max ∧
      eventsOf (tickingPoll uint64Max) (subscriptions oneTimer 64 1) 0 = [⟨7, 0, 0, 0, 0⟩] ∧
      uint64Max < exactDeadline ⟨7, 0, 1, 1, 0⟩ uint64Max := by
  decide +kernel

end WantedEngine.Wasi
