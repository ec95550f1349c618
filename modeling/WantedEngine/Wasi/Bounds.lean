import Mathlib.Tactic.Ring
import WantedEngine.Wasi.Poll
/-!
# Which array elements the host touches

The calls check an array by one range: its offset and its count times the element size, as a
32-bit product. The loops run over the count. As long as the product does not wrap, every
element touched is inside the guest's memory; a count whose product wraps passes the check
of a shorter range and the loop leaves it. The main theorem says so for all seven calls and
every memory size, with the memory contents and the host's answers quantified inside.
-/
namespace WantedEngine.Wasi

open VectorArgs Nat

/-- A guest call that walks an array. -/
inductive GuestCall where
  | fdRead (args : VectorArgs)
  | fdWrite (args : VectorArgs)
  | fdPread (args : VectorArgs) (offset : BitVec 64)
  | fdPwrite (args : VectorArgs) (offset : BitVec 64)
  | sockRecv (args : VectorArgs) (roFlags : OutFlags)
  | sockSend (args : VectorArgs)
  | pollOneoff (args : PollArgs)
  deriving DecidableEq

/-- The answers of the host to one call. -/
structure HostEnv where
  /-- Whether the call finds its context. -/
  attached : Bool
  /-- The virtual file system. -/
  driver : Nat → Transfer
  poll : PollEnv
  /-- How many passes of a poll are observed. -/
  fuel : Nat

/-- The array elements a call reads or writes. -/
def GuestCall.accesses (env : HostEnv) (m : Memory) : GuestCall → List Access
  | .fdRead args => (wasiFdRead env.attached env.driver args m).2.accessed
  | .fdWrite args => (wasiFdWrite env.attached env.driver args m).2.accessed
  | .fdPread args offset => (wasiFdPread env.attached env.driver args offset m).2.accessed
  | .fdPwrite args offset => (wasiFdPwrite env.attached env.driver args offset m).2.accessed
  | .sockRecv args roFlags => (wasiSockRecv env.attached env.driver args roFlags m).2.accessed
  | .sockSend args => (wasiSockSend env.attached env.driver args m).2.accessed
  | .pollOneoff args => (wasiPollOneoffCall env.attached env.poll env.fuel args m).2.accessed

/-- The ranges `vaddr` accepts in a memory of a size. -/
def validRange (size : Nat) (off len : BitVec 32) : Bool := off ≠ 0 ∧ off.toNat + len.toNat ≤ size

/-- The pointer checks of a scatter-gather call pass and its array is not null. -/
def VectorArgs.accepted (args : VectorArgs) (size : Nat) : Bool :=
  0 ≤ args.iovsLen.toInt ∧ validRange size args.count 4 ∧
    validRange size args.iovs (arrayBytes args.iovsLen iovecSize)

/-- The call passes its own checks and walks a non-null array. -/
def GuestCall.accepted (size : Nat) : GuestCall → Bool
  | .fdRead args => args.accepted size
  | .fdWrite args => args.accepted size
  | .fdPread args offset => 0 ≤ offset.toInt ∧ args.accepted size
  | .fdPwrite args offset => 0 ≤ offset.toInt ∧ args.accepted size
  | .sockRecv args roFlags => args.accepted size ∧ validRange size roFlags.at_ 2
  | .sockSend args => args.accepted size
  | .pollOneoff args => 0 < args.nsubscriptions.toInt ∧
      validRange size args.input (arrayBytes args.nsubscriptions subscriptionSize) ∧
      validRange size args.output (arrayBytes args.nsubscriptions eventSize) ∧
      validRange size args.nevents 4

/-- The bytes of the call's input array, as a product that does not wrap. -/
def GuestCall.arraySpan : GuestCall → Nat
  | .fdRead args => args.iovsLen.toNat * iovecSize
  | .fdWrite args => args.iovsLen.toNat * iovecSize
  | .fdPread args _ => args.iovsLen.toNat * iovecSize
  | .fdPwrite args _ => args.iovsLen.toNat * iovecSize
  | .sockRecv args _ => args.iovsLen.toNat * iovecSize
  | .sockSend args => args.iovsLen.toNat * iovecSize
  | .pollOneoff args => args.nsubscriptions.toNat * subscriptionSize

/-- `vaddr` accepts exactly the valid ranges. -/
lemma vaddr_eq (m : Memory) (off len : BitVec 32) :
    vaddr m off len = if validRange m.size off len = true then some off.toNat else none := by
  unfold vaddr validRange Memory.validate
  by_cases null : off = 0
  · simp [null]
  by_cases valid : off.toNat + len.toNat ≤ m.size
  · simp [valid]
  · simp [valid]

variable {elementSize size : Nat} {access : Access}

lemma arrayBytes_toNat {count : BitVec 32} (small : count.toNat * elementSize < 2 ^ 32) :
    (arrayBytes count elementSize).toNat = count.toNat * elementSize := by
  simpa [arrayBytes] using mod_eq_of_lt small

/-- Between two logs only elements of a kind were touched. -/
structure Touches (element : Access → Prop) (before after : List Access) : Prop where
  kept : before ⊆ after
  only : ∀ access ∈ after, access ∈ before ∨ element access

variable {element : Access → Prop} {log before middle after : List Access}

/-- Nothing touched. -/
lemma Touches.refl : Touches element log log := ⟨List.Subset.refl log, fun _ => Or.inl⟩

lemma Touches.one (isElement : element access) : Touches element log (access :: log) := by
  refine ⟨List.subset_cons_self access log, fun other among => ?_⟩
  rcases List.mem_cons.mp among with rfl | earlier
  · exact .inr isElement
  · exact .inl earlier

lemma Touches.trans (first : Touches element before middle)
    (second : Touches element middle after) : Touches element before after :=
  ⟨List.Subset.trans first.kept second.kept,
    fun access among => (second.only access among).elim (first.only access) Or.inr⟩

variable (direction : Direction) (shortCount : Bool) (driver : Nat → Transfer)

lemma vectorLoop_touches {base n left i : Nat} (p : Progress) (range : i + left = n) :
    Touches (fun access => ∃ j, j < n ∧ access = ⟨base + iovecSize * j, iovecSize⟩) p.accessed
      (vectorLoop direction shortCount driver base left i p).2.accessed := by
  induction left generalizing i p with
  | zero => exact .refl
  | succ left ih =>
    have now : Touches (fun access => ∃ j, j < n ∧ access = ⟨base + iovecSize * j, iovecSize⟩)
        p.accessed (⟨base + iovecSize * i, iovecSize⟩ :: p.accessed) := .one ⟨i, by omega, rfl⟩
    have later : ∀ p' : Progress, p'.accessed = ⟨base + iovecSize * i, iovecSize⟩ :: p.accessed →
        Touches (fun access => ∃ j, j < n ∧ access = ⟨base + iovecSize * j, iovecSize⟩) p.accessed
          (vectorLoop direction shortCount driver base left (i + 1) p').2.accessed :=
      fun p' same => now.trans (same ▸ ih p' (by omega))
    unfold vectorLoop
    dsimp only
    split
    · exact later _ rfl
    split
    · exact now
    split
    · split <;> exact now
    split
    · exact now
    · exact later _ rfl

lemma vectorLoop_reads_all (base left i : Nat) (p : Progress)
    (zero : ∀ at_, p.memory.byte at_ = 0) (j : Nat) (low : i ≤ j) (high : j < i + left) :
    (⟨base + iovecSize * j, iovecSize⟩ : Access) ∈
      (vectorLoop direction shortCount driver base left i p).2.accessed := by
  induction left generalizing i p with
  | zero => omega
  | succ left ih =>
    have empty : BitVec.ofNat 32 (p.memory.load (base + iovecSize * i + 4) 4) = 0 := by
      rw [Memory.load_zero zero]
      rfl
    rw [vectorLoop]
    simp only [empty, ↓reduceIte]
    rcases eq_or_lt_of_le low with rfl | above
    · exact (vectorLoop_touches direction shortCount driver _ rfl).kept List.mem_cons_self
    · exact ih (i + 1) _ zero above (by omega)

/-- The output flags pointer, where a call has one, is valid. -/
def flagsValid (size : Nat) (flags : Option OutFlags) : Bool :=
  flags.all fun out => validRange size out.at_ 2

/-- The pointer checks of the shared body. -/
def VectorArgs.checked (args : VectorArgs) (flags : Option OutFlags) (size : Nat) : Bool :=
  validRange size args.count 4 && flagsValid size flags &&
    validRange size args.iovs (arrayBytes args.iovsLen iovecSize)

/-- The shared body refuses a call whose count or flags pointer is invalid. -/
lemma vectorCall_pointers (m : Memory) (flags : Option OutFlags) (args : VectorArgs) :
    (vaddr m args.count 4 = none ∨ (flags.map fun out => vaddr m out.at_ 2) = some none) ↔
      ¬ (validRange m.size args.count 4 = true ∧ flagsValid m.size flags = true) := by
  rw [vaddr_eq]
  cases flags with
  | none =>
    generalize validRange m.size args.count 4 = count
    cases count <;> simp [flagsValid]
  | some out =>
    rw [Option.map_some, vaddr_eq, flagsValid, Option.all_some]
    generalize validRange m.size args.count 4 = count
    generalize validRange m.size out.at_ 2 = flag
    cases count <;> cases flag <;> simp

variable (flags : Option OutFlags) (args : VectorArgs)

lemma vectorCall_accessed (m : Memory) :
    (vectorCall direction shortCount driver flags args m).2.accessed =
      if args.checked flags m.size = true then
        (vectorLoop direction shortCount driver args.iovs.toNat args.iovsLen.toNat 0
          ⟨m, 0, 0, []⟩).2.accessed
      else [] := by
  unfold vectorCall VectorArgs.checked
  by_cases pointers : validRange m.size args.count 4 = true ∧ flagsValid m.size flags = true
  · rw [if_neg (by rw [vectorCall_pointers, not_not]; exact pointers), pointers.1, pointers.2,
      vaddr_eq, Bool.and_self, Bool.true_and]
    by_cases array : validRange m.size args.iovs (arrayBytes args.iovsLen iovecSize) = true
    · rw [if_pos array, if_pos array, if_neg (by simp), Option.getD_some]
      split <;> (rename_i outcome; rw [outcome])
    rw [if_neg array, if_neg array]
    -- an empty array is walked without a check of its pointer
    split
    · rfl
    rename_i empty
    have none_ : args.iovsLen.toNat = 0 := by simpa using empty
    rw [none_]
    rfl
  · rw [if_pos (by rw [vectorCall_pointers]; exact pointers),
      if_neg fun checked => pointers (by simpa using (Bool.and_eq_true_iff.mp checked).1)]
    rfl

lemma vectorCall_reads_all (m : Memory) (zero : ∀ at_, m.byte at_ = 0)
    (checked : args.checked flags m.size = true) (j : Nat) (below : j < args.iovsLen.toNat) :
    (⟨args.iovs.toNat + iovecSize * j, iovecSize⟩ : Access) ∈
      (vectorCall direction shortCount driver flags args m).2.accessed := by
  rw [vectorCall_accessed, if_pos checked]
  exact vectorLoop_reads_all direction shortCount driver _ _ 0 _ zero j (zero_le j) (by omega)

lemma element_inside {base count j : Nat} (checked : base + count * elementSize ≤ size)
    (below : j < count) : (⟨base + elementSize * j, elementSize⟩ : Access).Inside size := by
  have step : elementSize * j + elementSize ≤ count * elementSize := by
    calc
      elementSize * j + elementSize = elementSize * (j + 1) := by ring
      _ ≤ elementSize * count := mul_le_mul_left _ below
      _ = count * elementSize := mul_comm _ _
  unfold Access.Inside
  dsimp only
  omega

/-- An array whose length wraps has a last element, which is outside. -/
lemma last_outside {base count : BitVec 32} (notNull : base ≠ 0)
    (wraps : ¬ count.toNat * elementSize < 2 ^ 32) (fits : size ≤ 2 ^ 32) :
    ∃ last < count.toNat, ¬ (⟨base.toNat + elementSize * last, elementSize⟩ : Access).Inside size := by
  have nonzero : base.toNat ≠ 0 := fun zero => notNull (BitVec.eq_of_toNat_eq zero)
  rcases isCount : count.toNat with _ | last
  · simp [isCount] at wraps
  have span : elementSize * last + elementSize = count.toNat * elementSize := by
    rw [isCount]
    ring
  refine ⟨last, by omega, ?_⟩
  unfold Access.Inside
  dsimp only
  omega

/-- The shared body stays inside every memory of a size iff it refuses the call there
or the array's length does not wrap. -/
lemma vectorCall_inside_iff (fits : size ≤ 2 ^ 32) :
    (∀ (driver : Nat → Transfer) (m : Memory), m.size = size →
      ∀ access ∈ (vectorCall direction shortCount driver flags args m).2.accessed, access.Inside size) ↔
      (args.checked flags size = true → args.iovsLen.toNat * iovecSize < 2 ^ 32) := by
  constructor
  · intro inside checked
    by_contra wraps
    have notNull : args.iovs ≠ 0 := by
      simp only [VectorArgs.checked, validRange, Bool.and_eq_true, decide_eq_true_eq] at checked
      exact checked.2.1
    obtain ⟨_, below, outside⟩ := last_outside notNull wraps fits
    exact outside (inside (fun _ => .failed .eio) ⟨size, fits, fun _ => 0⟩ rfl _
      (vectorCall_reads_all _ _ _ _ _ _ (fun _ => rfl) checked _ below))
  intro small driver m same access mem
  rw [vectorCall_accessed, same] at mem
  split at mem
  · rename_i checked
    have full := small checked
    simp only [VectorArgs.checked, validRange, Bool.and_eq_true, decide_eq_true_eq] at checked
    rw [arrayBytes_toNat full] at checked
    rcases (vectorLoop_touches _ _ _ _ (zero_add _)).only access mem with
      before | ⟨j, below, rfl⟩
    · cases before
    · exact element_inside checked.2.2 below
  · cases mem

variable (env : PollEnv)

lemma subscriptionFired_frame (sub : Subscription) (s : PollState) :
    (subscriptionFired env sub s).2.accessed = s.accessed ∧
      (subscriptionFired env sub s).2.fired = s.fired ∧
      (subscriptionFired env sub s).2.memory = s.memory := by
  unfold subscriptionFired
  split
  · have clock : (clockFired env sub s).2.accessed = s.accessed ∧
        (clockFired env sub s).2.fired = s.fired ∧
        (clockFired env sub s).2.memory = s.memory := by
      unfold clockFired
      split
      · exact ⟨rfl, rfl, rfl⟩
      split
      · exact ⟨rfl, rfl, rfl⟩
      dsimp only
      split
      · exact ⟨rfl, rfl, rfl⟩
      · exact ⟨rfl, rfl, rfl⟩
    split
    · rename_i outcome
      rw [outcome] at clock
      exact clock
    · rename_i outcome
      rw [outcome] at clock
      exact clock
  · split
    · unfold fdFired
      split
      · exact ⟨rfl, rfl, rfl⟩
      · split <;> exact ⟨rfl, rfl, rfl⟩
    · exact ⟨rfl, rfl, rfl⟩

/-- The elements of the two arrays of a poll call over `n` subscriptions. -/
def PollElement (input output n : Nat) (access : Access) : Prop :=
  ∃ j, j < n ∧ (access = ⟨input + subscriptionSize * j, subscriptionSize⟩ ∨
    access = ⟨output + eventSize * j, eventSize⟩)

/-- A pass looks at every subscription and touches elements of its two arrays only: it writes no
more events than it has looked at subscriptions. -/
lemma pollPass_touches (input output n left i : Nat) (s : PollState) (range : i + left = n)
    (fewer : s.fired ≤ i) :
    Touches (PollElement input output n) s.accessed (pollPass env input output left i s).accessed ∧
      ∀ j, i ≤ j → j < n → (⟨input + subscriptionSize * j, subscriptionSize⟩ : Access) ∈
        (pollPass env input output left i s).accessed := by
  induction left generalizing i s with
  | zero => exact ⟨.refl, fun j low high => absurd high (by omega)⟩
  | succ left ih =>
    have look : Touches (PollElement input output n) s.accessed
        (⟨input + subscriptionSize * i, subscriptionSize⟩ :: s.accessed) :=
      .one ⟨i, by omega, Or.inl rfl⟩
    obtain ⟨touched, count, -⟩ := subscriptionFired_frame env
      (loadSubscription s.memory (input + subscriptionSize * i))
      { s with accessed := ⟨input + subscriptionSize * i, subscriptionSize⟩ :: s.accessed }
    have next : ∀ after : PollState, after.fired ≤ i + 1 → Touches (PollElement input output n)
        (⟨input + subscriptionSize * i, subscriptionSize⟩ :: s.accessed) after.accessed →
        Touches (PollElement input output n) s.accessed
          (pollPass env input output left (i + 1) after).accessed ∧
        ∀ j, i ≤ j → j < n → (⟨input + subscriptionSize * j, subscriptionSize⟩ : Access) ∈
          (pollPass env input output left (i + 1) after).accessed := by
      intro after few grown
      obtain ⟨later, all⟩ := ih (i + 1) after (by omega) few
      refine ⟨(look.trans grown).trans later, fun j low high => ?_⟩
      rcases eq_or_lt_of_le low with rfl | above
      · exact later.kept (grown.kept List.mem_cons_self)
      · exact all j above high
    unfold pollPass
    dsimp only
    split
    · rename_i after outcome
      rw [outcome] at touched count
      dsimp only at touched count
      exact next after (by omega) (touched ▸ .refl)
    rename_i after outcome
    rw [outcome] at touched count
    dsimp only at touched count
    refine next _ (by dsimp only; omega) ?_
    rw [← touched]
    exact .one ⟨after.fired, by omega, Or.inr rfl⟩

lemma pollPasses_touches (input output n : Nat) (hasFd : Bool) (fuel pass : Nat) (s : PollState) :
    Touches (PollElement input output n) s.accessed
        (pollPasses env input output n hasFd fuel pass s).2.accessed ∧
      (0 < fuel → ∀ j, j < n → (⟨input + subscriptionSize * j, subscriptionSize⟩ : Access) ∈
        (pollPasses env input output n hasFd fuel pass s).2.accessed) := by
  induction fuel generalizing pass s with
  | zero => exact ⟨.refl, fun positive => absurd positive (by omega)⟩
  | succ fuel ih =>
    obtain ⟨grown, all⟩ := pollPass_touches env input output n n 0
      { s with fired := 0, wait := uint64Max } (zero_add n) (le_refl 0)
    unfold pollPasses
    dsimp only
    split
    · exact ⟨grown, fun _ j => all j (zero_le j)⟩
    split
    · exact ⟨grown, fun _ j => all j (zero_le j)⟩
    have later := (ih (pass + 1)
      (pollPass env input output n 0 { s with fired := 0, wait := uint64Max })).1
    exact ⟨grown.trans later, fun _ j below => later.kept (all j (zero_le j) below)⟩

lemma hasFdGo_touches (m : Memory) (input output n left i : Nat) (accessed : List Access)
    (range : i + left = n) :
    Touches (PollElement input output n) accessed (hasFdGo m input left i accessed).2 := by
  induction left generalizing i accessed with
  | zero => exact .refl
  | succ left ih =>
    have look : Touches (PollElement input output n) accessed
        (⟨input + subscriptionSize * i, subscriptionSize⟩ :: accessed) :=
      .one ⟨i, by omega, Or.inl rfl⟩
    unfold hasFdGo
    dsimp only
    split
    · exact look
    · exact look.trans (ih (i + 1) _ (by omega))

/-- A poll looks at every subscription in its first pass and touches elements of its two arrays
only. -/
lemma wasiPollOneoff_touches (fuel input output n : Nat) (m : Memory) :
    (∀ access ∈ (wasiPollOneoff env fuel input output n m).2.accessed,
        PollElement input output n access) ∧
      (0 < fuel → ∀ j, j < n → (⟨input + subscriptionSize * j, subscriptionSize⟩ : Access) ∈
        (wasiPollOneoff env fuel input output n m).2.accessed) := by
  unfold wasiPollOneoff
  split
  · exact ⟨nofun, fun _ j below => absurd below (by omega)⟩
  have first := hasFdGo_touches m input output n n 0 [] (zero_add n)
  obtain ⟨later, all⟩ := pollPasses_touches env input output n (hasFdGo m input n 0 []).1 fuel 0
    ⟨m, fun _ => none, 0, 0, 0, uint64Max, (hasFdGo m input n 0 []).2⟩
  exact ⟨fun access among => ((first.trans later).only access among).resolve_left nofun, all⟩

lemma wasiPollOneoffCall_accessed (attached : Bool) (env : PollEnv) (fuel : Nat) (args : PollArgs)
    (m : Memory) :
    (wasiPollOneoffCall attached env fuel args m).2.accessed =
      if attached = true ∧ (GuestCall.pollOneoff args).accepted m.size = true then
        (wasiPollOneoff env fuel args.input.toNat args.output.toNat args.nsubscriptions.toNat
          m).2.accessed
      else [] := by
  unfold wasiPollOneoffCall
  simp only [GuestCall.accepted, Bool.decide_and, Bool.and_eq_true, decide_eq_true_eq, vaddr_eq]
  by_cases refuses : ¬ attached = true ∨ args.nsubscriptions.toInt ≤ 0
  · rw [if_pos refuses, if_neg fun checks => refuses.elim (· checks.1) (by omega)]
    rfl
  rw [if_neg refuses]
  rw [not_or, not_not, not_le] at refuses
  split
  · rename_i inputAt outputAt neventsAt
    simp only [Option.ite_none_right_eq_some, Option.some.injEq] at inputAt outputAt neventsAt
    rw [if_pos ⟨refuses.1, refuses.2, inputAt.1, outputAt.1, neventsAt.1⟩, inputAt.2, outputAt.2]
    split <;> (rename_i outcome; rw [outcome])
  · rename_i invalid
    rw [if_neg]
    · rfl
    · rintro ⟨-, -, input, output, nevents⟩
      refine invalid _ _ _ (if_pos input) (if_pos output) (if_pos nevents)

/-- A poll environment in which nothing is ready and every sleep is interrupted. -/
def quietPoll : PollEnv where
  clock := fun _ _ => none
  ready := fun _ _ => .ok (0, 0)
  hasWake := false
  interrupted := fun _ _ => true
  woken := fun _ => false

/-- The scatter-gather calls stay inside every memory of a size iff their own checks
refuse them or the array's length does not wrap. `bad` is the check a call makes before the
shared body. -/
lemma guarded_inside_iff (bad : Prop) [Decidable bad] (fits : size ≤ 2 ^ 32) :
    (∀ (env : HostEnv) (m : Memory), m.size = size →
      ∀ access ∈ (if ¬ env.attached ∨ bad then refused m .inval
        else vectorCall direction shortCount env.driver flags args m).2.accessed,
        access.Inside size) ↔
      (¬ bad ∧ args.checked flags size = true → args.iovsLen.toNat * iovecSize < 2 ^ 32) := by
  by_cases isBad : bad
  · simp [isBad, refused]
  simp only [isBad, or_false, not_false_eq_true, true_and]
  rw [← vectorCall_inside_iff direction shortCount flags args fits]
  constructor
  · intro inside driver m same access mem
    exact inside ⟨true, driver, quietPoll, 0⟩ m same access (by simpa using mem)
  intro inside env m same access mem
  split at mem
  · cases mem
  · exact inside env.driver m same access mem

/-- The poll call stays inside every memory of a size iff its checks refuse it or the
length of its subscriptions does not wrap. -/
lemma poll_inside_iff (args : PollArgs) (fits : size ≤ 2 ^ 32) :
    (∀ (env : HostEnv) (m : Memory), m.size = size →
      ∀ access ∈ (GuestCall.pollOneoff args).accesses env m, access.Inside size) ↔
      ((GuestCall.pollOneoff args).accepted size = true →
        args.nsubscriptions.toNat * subscriptionSize < 2 ^ 32) := by
  constructor
  · intro inside accepted
    by_contra wraps
    have checks := accepted
    simp only [GuestCall.accepted, validRange, Bool.decide_and, Bool.and_eq_true,
      decide_eq_true_eq, ne_eq, decide_not, Bool.not_eq_true', decide_eq_false_iff_not] at checks
    obtain ⟨_, below, outside⟩ := last_outside checks.2.1.1 wraps fits
    refine outside (inside ⟨true, fun _ => .failed .eio, quietPoll, 1⟩ ⟨size, fits, fun _ => 0⟩
      rfl _ ?_)
    show _ ∈ (wasiPollOneoffCall true quietPoll 1 args _).2.accessed
    rw [wasiPollOneoffCall_accessed, if_pos ⟨rfl, accepted⟩]
    exact (wasiPollOneoff_touches _ _ _ _ _ _).2 zero_lt_one _ below
  · intro small env m same access mem
    change access ∈ (wasiPollOneoffCall env.attached env.poll env.fuel args m).2.accessed at mem
    rw [wasiPollOneoffCall_accessed, same] at mem
    split at mem
    swap
    · cases mem
    rename_i checks
    have accepted := checks.2
    obtain ⟨_, below, at_⟩ := (wasiPollOneoff_touches _ _ _ _ _ _).1 access mem
    have full := small accepted
    have events : args.nsubscriptions.toNat * eventSize < 2 ^ 32 := by
      unfold subscriptionSize at full
      unfold eventSize
      omega
    simp only [GuestCall.accepted, validRange, Bool.decide_and, Bool.and_eq_true,
      decide_eq_true_eq] at accepted
    rw [arrayBytes_toNat full, arrayBytes_toNat events] at accepted
    rcases at_ with rfl | rfl
    · exact element_inside accepted.2.1.2 below
    · exact element_inside accepted.2.2.1.2 below

/-- Every iovec, subscription and event element that a call touches lies inside the guest's
memory, for all memory contents and host answers, iff the call's own checks refuse
it or its array's length is below `2 ^ 32`. -/
theorem accesses_inside_iff (call : GuestCall) (size : Nat) (fits : size ≤ 2 ^ 32) :
    (∀ (env : HostEnv) (m : Memory), m.size = size →
      ∀ access ∈ call.accesses env m, access.Inside size) ↔
      (call.accepted size = true → call.arraySpan < 2 ^ 32) := by
  have accepted_iff : ∀ args : VectorArgs, args.accepted size = true ↔
      ¬ args.iovsLen.toInt < 0 ∧ args.checked none size = true := by
    simp [accepted, checked, flagsValid]
  cases call with
  | fdRead args | fdWrite args =>
    refine (guarded_inside_iff _ true none args (args.iovsLen.toInt < 0) fits).trans ?_
    simp only [GuestCall.accepted, GuestCall.arraySpan, accepted_iff]
  | fdPread args offset | fdPwrite args offset =>
    refine (guarded_inside_iff _ true none args
      (args.iovsLen.toInt < 0 ∨ offset.toInt < 0) fits).trans ?_
    simp only [GuestCall.accepted, GuestCall.arraySpan, accepted_iff, Bool.decide_and,
      Bool.and_eq_true, decide_eq_true_eq, not_or, not_lt]
    tauto
  | sockRecv args roFlags =>
    refine (guarded_inside_iff .toGuest false (some roFlags) args
      (args.iovsLen.toInt < 0) fits).trans ?_
    simp only [GuestCall.accepted, GuestCall.arraySpan, accepted_iff, checked,
      flagsValid, Option.all_none, Option.all_some, Bool.decide_and, Bool.and_eq_true,
      decide_eq_true_eq, Bool.and_true]
    tauto
  | sockSend args =>
    refine (guarded_inside_iff .toDriver false none args (args.iovsLen.toInt < 0) fits).trans ?_
    simp only [GuestCall.accepted, GuestCall.arraySpan, accepted_iff]
  | pollOneoff args => exact poll_inside_iff args fits

/-- An `fd_read` of eight iovecs in a one-page memory. -/
def sampleRead : GuestCall := .fdRead ⟨64, 8, 16⟩

/-- A read of a few iovecs stays inside a one-page memory. -/
theorem accesses_inside_sample :
    (65536 : Nat) ≤ 2 ^ 32 ∧ ∀ (env : HostEnv) (m : Memory), m.size = 65536 →
      ∀ access ∈ sampleRead.accesses env m, access.Inside 65536 :=
  ⟨by decide, (accesses_inside_iff sampleRead 65536 (by decide)).mpr fun _ => by decide⟩

lemma zeroPage_fits : 65536 ≤ 2 ^ 32 := by decide

def zeroPage : Memory := ⟨65536, zeroPage_fits, fun _ => 0⟩

/-- An `fd_read` of `2 ^ 29` iovecs, whose array length is checked as zero. -/
def wrappedRead : GuestCall := .fdRead ⟨8, 0x20000000#32, 16⟩

/-- Over zero memory an attached `fd_read` that passes its checks touches every iovec. -/
lemma fdRead_reads_all (driver : Nat → Transfer) (m : Memory) (zero : ∀ at_, m.byte at_ = 0)
    (nonneg : ¬ args.iovsLen.toInt < 0) (checked : args.checked none m.size = true) (j : Nat)
    (below : j < args.iovsLen.toNat) :
    (⟨args.iovs.toNat + iovecSize * j, iovecSize⟩ : Access) ∈
      (GuestCall.fdRead args).accesses ⟨true, driver, quietPoll, 0⟩ m := by
  have taken : ¬ (¬ (true : Bool) ∨ args.iovsLen.toInt < 0) := by
    rintro (refuses | negative)
    · exact refuses rfl
    · exact nonneg negative
  unfold GuestCall.accesses wasiFdRead
  dsimp only
  rw [if_neg taken]
  exact vectorCall_reads_all .toGuest true driver none args m zero checked j below

/-- The wrapped read touches an iovec that starts at the end of a one-page memory. -/
theorem wrappedRead_outside :
    ∃ access ∈ wrappedRead.accesses ⟨true, fun _ => .failed .eio, quietPoll, 0⟩ zeroPage,
      ¬ access.Inside zeroPage.size :=
  ⟨_, fdRead_reads_all ⟨8, 0x20000000#32, 16⟩ _ zeroPage (fun _ => rfl) (by decide) (by decide)
    8191 (by decide), by decide⟩

end WantedEngine.Wasi
