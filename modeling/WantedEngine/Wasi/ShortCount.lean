import WantedEngine.Wasi.Bounds
/-!
# What a scatter-gather call reports of the bytes it moved

A call that has moved bytes and then meets a bad iovec or a driver error can report the bytes,
or the error, but not both. The descriptor calls report a short count when the driver fails
("failing the whole call would make the guest re-read them"), but fail on a bad address; the
socket calls fail on both, and the guest never learns of the bytes that moved.

The loop over the array is cut at the element it stops at: each element has a fate, the loop
goes on past empty and full ones, and what the call reports is settled by the fate of the one
it stops at.
-/
namespace WantedEngine.Wasi

open Nat Progress

/-- The six scatter-gather calls, with the arguments of their own. -/
inductive VectorCall where
  | fdRead
  | fdWrite
  | fdPread (offset : BitVec 64)
  | fdPwrite (offset : BitVec 64)
  | sockRecv (roFlags : OutFlags)
  | sockSend
  deriving DecidableEq

namespace VectorCall

/-- The call of the guest. -/
def run (attached : Bool) (driver : Nat → Transfer) (args : VectorArgs) (m : Memory) :
    VectorCall → Except WasiError Unit × Progress
  | fdRead => wasiFdRead attached driver args m
  | fdWrite => wasiFdWrite attached driver args m
  | fdPread offset => wasiFdPread attached driver args offset m
  | fdPwrite offset => wasiFdPwrite attached driver args offset m
  | sockRecv roFlags => wasiSockRecv attached driver args roFlags m
  | sockSend => wasiSockSend attached driver args m

/-- Which way the call moves bytes. -/
def direction : VectorCall → Direction
  | fdRead | fdPread _ | sockRecv _ => .toGuest
  | fdWrite | fdPwrite _ | sockSend => .toDriver

/-- Whether a driver error after some bytes is reported as a short count. -/
def shortCount : VectorCall → Bool
  | fdRead | fdWrite | fdPread _ | fdPwrite _ => true
  | sockRecv _ | sockSend => false

def flags : VectorCall → Option OutFlags
  | sockRecv roFlags => some roFlags
  | fdRead | fdWrite | fdPread _ | fdPwrite _ | sockSend => none

/-- The offset of a positioned call is not negative. -/
def offsetValid : VectorCall → Bool
  | fdPread offset | fdPwrite offset => 0 ≤ offset.toInt
  | fdRead | fdWrite | sockRecv _ | sockSend => true

/-- The call finds its context and passes its argument checks. -/
def accepted (call : VectorCall) (attached : Bool) (args : VectorArgs) (size : Nat) : Bool :=
  attached && decide (0 ≤ args.iovsLen.toInt) && call.offsetValid && args.checked call.flags size

/-- Each call is the shared body behind its own checks. -/
lemma run_eq (call : VectorCall) (attached : Bool) (driver : Nat → Transfer)
    (args : VectorArgs) (m : Memory) :
    call.run attached driver args m =
      if (attached && decide (0 ≤ args.iovsLen.toInt) && call.offsetValid) = true then
        vectorCall call.direction call.shortCount driver call.flags args m
      else refused m .inval := by
  have swap {refuses permits : Prop} [Decidable refuses] [Decidable permits]
      (opposite : permits ↔ ¬ refuses) (done other : Except WasiError Unit × Progress) :
      (if refuses then other else done) = if permits then done else other := by
    rw [← ite_not]
    exact if_congr opposite.symm rfl rfl
  cases call with
  | fdRead | fdWrite | sockRecv | sockSend => exact swap (by simp [offsetValid]) _ _
  | fdPread offset | fdPwrite offset => exact swap (by simp [offsetValid, and_assoc]) _ _

end VectorCall

/-! ### The fate of one element -/

/-- What becomes of the element the loop has come to. -/
inductive Fate where
  | empty
  | badAddress
  | failed (e : Errno)
  /-- The driver moved fewer bytes than the buffer holds. -/
  | short (addr : Nat) (data : Bytes)
  /-- The driver filled or took the buffer. -/
  | full (addr : Nat) (data : Bytes)
  deriving DecidableEq

section Elements

variable (direction : Direction) (shortCount : Bool) (driver : Nat → Transfer) (base : Nat)

/-- The fate of an element, in the state the loop comes to it. -/
def fateOf (i : Nat) (p : Progress) : Fate :=
  let off := BitVec.ofNat 32 (p.memory.load (base + iovecSize * i) 4)
  let len := BitVec.ofNat 32 (p.memory.load (base + iovecSize * i + 4) 4)
  if len = 0 then .empty
  else
    match vaddr p.memory off len with
    | none => .badAddress
    | some addr =>
      match driver p.calls with
      | .failed e => .failed e
      | .moved data =>
        if (data.take len.toNat).length < len.toNat then .short addr (data.take len.toNat)
        else .full addr (data.take len.toNat)

/-- The state once an element was read. -/
def Progress.looked (i : Nat) (p : Progress) : Progress :=
  { p with accessed := ⟨base + iovecSize * i, iovecSize⟩ :: p.accessed }

/-- The state once bytes were moved. -/
def Progress.transferred (addr : Nat) (data : Bytes) (p : Progress) : Progress :=
  { p with
    memory := match direction with
      | .toGuest => p.memory.write addr data
      | .toDriver => p.memory
    moved := p.moved + data.length
    calls := p.calls + 1 }

/-- The state in which the loop goes on to the next element, if it does. -/
def passed (i : Nat) (p : Progress) : Option Progress :=
  match fateOf driver base i p with
  | .empty => some (p.looked base i)
  | .full addr data => some ((p.looked base i).transferred direction addr data)
  | _ => none

/-- The state in which the loop comes to an element, counted from element `i`, if it does. -/
def reached : (count i : Nat) → Progress → Option Progress
  | 0, _, p => some p
  | count + 1, i, p => (passed direction driver base i p).bind (reached count (i + 1))

/-- A fate that leaves the bytes moved so far reported: a bad address or, for the calls without
short counts, a driver error comes before the first byte, and the count does not wrap. -/
def Fate.Harmless (moved : Nat) : Fate → Prop
  | .empty => True
  | .badAddress => moved = 0
  | .failed _ => shortCount = true ∨ moved = 0
  | .short _ data => moved + data.length < 2 ^ 32
  | .full _ data => moved + data.length < 2 ^ 32

/-- One turn of the loop, by the fate of its element. -/
lemma vectorLoop_succ (left i : Nat) (p : Progress) :
    vectorLoop direction shortCount driver base (left + 1) i p =
      match fateOf driver base i p with
      | .empty => vectorLoop direction shortCount driver base left (i + 1) (p.looked base i)
      | .badAddress => (.error .fault, p.looked base i)
      | .failed e =>
        if shortCount ∧ p.moved > 0 then
          (.ok (), { p.looked base i with calls := p.calls + 1 })
        else (.error (.vfs e), { p.looked base i with calls := p.calls + 1 })
      | .short addr data => (.ok (), (p.looked base i).transferred direction addr data)
      | .full addr data => vectorLoop direction shortCount driver base left (i + 1)
          ((p.looked base i).transferred direction addr data) := by
  rw [vectorLoop]
  unfold fateOf
  by_cases empty : BitVec.ofNat 32 (p.memory.load (base + iovecSize * i + 4) 4) = 0
  · rw [if_pos empty, if_pos empty]
    rfl
  rw [if_neg empty, if_neg empty]
  cases vaddr p.memory (BitVec.ofNat 32 (p.memory.load (base + iovecSize * i) 4))
      (BitVec.ofNat 32 (p.memory.load (base + iovecSize * i + 4) 4)) with
  | none => rfl
  | some addr =>
    cases driver p.calls with
    | failed e => rfl
    | moved data =>
      dsimp only
      split
      · rfl
      · rfl

lemma vectorLoop_moved_le (left i : Nat) (p : Progress) :
    p.moved ≤ (vectorLoop direction shortCount driver base left i p).2.moved := by
  induction left generalizing i p with
  | zero => exact le_refl _
  | succ left ih =>
    rw [vectorLoop_succ]
    cases fateOf driver base i p with
    | empty => exact ih (i + 1) (p.looked base i)
    | badAddress => exact le_refl _
    | failed e =>
      dsimp only
      split <;> exact le_refl _
    | short addr data => exact le_add_right _ _
    | full addr data =>
      have more := ih (i + 1) ((p.looked base i).transferred direction addr data)
      exact le_trans (le_add_right _ _) more

/-- What a loop leaves reports its bytes: an error comes with none, and they can be counted. -/
def Reports (result : Except WasiError Unit × Progress) : Prop :=
  (∀ error, result.1 = .error error → result.2.moved = 0) ∧
    (result.1 = .ok () → result.2.moved < 2 ^ 32)

/-- A result with more bytes than a count holds does not report them. -/
lemma not_reports_of_many {result : Except WasiError Unit × Progress}
    (many : 2 ^ 32 ≤ result.2.moved) : ¬ Reports result := by
  intro reports
  cases out : result.1 with
  | error error =>
    have none_ := reports.1 error out
    omega
  | ok done =>
    have few := reports.2 out
    omega

lemma vectorLoop_reports_iff (left i : Nat) (p : Progress) (counted : p.moved < 2 ^ 32) :
    Reports (vectorLoop direction shortCount driver base left i p) ↔
      ∀ j < left, ∀ q, reached direction driver base j i p = some q →
        (fateOf driver base (i + j) q).Harmless shortCount q.moved := by
  induction left generalizing i p with
  | zero =>
    constructor
    · intro _ j below
      omega
    · intro _
      exact ⟨fun _ failed => (nomatch failed), fun _ => counted⟩
  | succ left ih =>
    -- the element at `i` on its own, and the elements after it
    have split : (∀ j < left + 1, ∀ q, reached direction driver base j i p = some q →
        (fateOf driver base (i + j) q).Harmless shortCount q.moved) ↔
        (fateOf driver base i p).Harmless shortCount p.moved ∧
          ∀ next, passed direction driver base i p = some next →
            ∀ j < left, ∀ q, reached direction driver base j (i + 1) next = some q →
              (fateOf driver base (i + 1 + j) q).Harmless shortCount q.moved := by
      rw [forall_lt_succ_left]
      apply and_congr
      · simp [reached]
      constructor
      · intro later next goesOn j below q comes
        have pos : i + 1 + j = i + (j + 1) := by omega
        rw [pos]
        exact later j below q (by rw [reached, goesOn]; exact comes)
      intro later j below q comes
      rw [reached, Option.bind_eq_some_iff] at comes
      obtain ⟨next, goesOn, comes⟩ := comes
      have pos : i + (j + 1) = i + 1 + j := by omega
      rw [pos]
      exact later next goesOn j below q comes
    rw [split, vectorLoop_succ]
    unfold passed
    cases fate : fateOf driver base i p with
    | empty =>
      simpa [Fate.Harmless] using ih (i + 1) (p.looked base i) counted
    | badAddress =>
      simp [Reports, Fate.Harmless, looked]
    | failed e =>
      by_cases short : shortCount = true ∧ p.moved > 0
      · simpa [Reports, Fate.Harmless, looked, short] using counted
      have split : shortCount = true ∨ p.moved = 0 ↔ p.moved = 0 := by
        constructor
        · rintro (counts | none_)
          · by_contra some_
            exact short ⟨counts, pos_of_ne_zero some_⟩
          · exact none_
        · exact .inr
      simp [Reports, Fate.Harmless, looked, short, split]
    | short addr data =>
      simp [Reports, Fate.Harmless, looked, transferred]
    | full addr data =>
      by_cases fits : p.moved + data.length < 2 ^ 32
      · have rest := ih (i + 1) ((p.looked base i).transferred direction addr data) fits
        show _ ↔ p.moved + data.length < 2 ^ 32 ∧ _
        rw [and_iff_right fits]
        simpa only [Option.some.injEq, forall_eq'] using rest
      · have many := vectorLoop_moved_le direction shortCount driver base left (i + 1)
          ((p.looked base i).transferred direction addr data)
        have wrapped := not_reports_of_many (le_trans (not_lt.mp fits) many)
        exact ⟨fun reports => absurd reports wrapped, fun harmless => absurd harmless.1 fits⟩

end Elements

/-! ### The calls -/

/-- A call that moved bytes returns success and their number, where its count belongs; it reports
an error only if it moved none. The flags of `sock_recv` are stored after the count. -/
def CountsMoved (flags : Option OutFlags) (args : VectorArgs)
    (result : Except WasiError Unit × Progress) : Prop :=
  (0 < result.2.moved → result.1 = .ok () ∧ ∃ counted : Memory,
    result.2.memory = storeFlags flags counted ∧
      counted.load args.count.toNat 4 = result.2.moved) ∧
  ∀ error, result.1 = .error error → result.2.moved = 0

/-- A call that was refused moved nothing. -/
lemma refused_counts (flags : Option OutFlags) (args : VectorArgs) (m : Memory)
    (error : WasiError) : CountsMoved flags args (refused m error) :=
  ⟨fun moved => absurd moved (lt_irrefl 0), fun _ _ => rfl⟩

lemma vectorCall_counts_iff (direction : Direction) (shortCount : Bool)
    (driver : Nat → Transfer) (flags : Option OutFlags) (args : VectorArgs) (m : Memory) :
    CountsMoved flags args (vectorCall direction shortCount driver flags args m) ↔
      (args.checked flags m.size = true →
        Reports (vectorLoop direction shortCount driver args.iovs.toNat args.iovsLen.toNat 0
          ⟨m, 0, 0, []⟩)) := by
  have isChecked : args.checked flags m.size = true ↔
      (validRange m.size args.count 4 = true ∧ flagsValid m.size flags = true) ∧
        validRange m.size args.iovs (arrayBytes args.iovsLen iovecSize) = true := by
    simp only [VectorArgs.checked, Bool.and_eq_true]
  by_cases pointers : validRange m.size args.count 4 = true ∧ flagsValid m.size flags = true
  case neg =>
    unfold vectorCall
    rw [if_pos ((vectorCall_pointers m flags args).mpr pointers)]
    exact ⟨fun _ checked => absurd (isChecked.mp checked).1 pointers, fun _ => refused_counts ..⟩
  by_cases array : validRange m.size args.iovs (arrayBytes args.iovsLen iovecSize) = true
  case neg =>
    refine ⟨fun _ checked => absurd (isChecked.mp checked).2 array, fun _ => ?_⟩
    unfold vectorCall
    rw [if_neg (by rw [vectorCall_pointers, not_not]; exact pointers), vaddr_eq, if_neg array]
    by_cases some_ : args.iovsLen.toNat > 0
    · rw [if_pos ⟨rfl, some_⟩]
      exact refused_counts ..
    -- a null array of no elements: the call succeeds with nothing moved
    have none_ : args.iovsLen.toNat = 0 := by omega
    rw [if_neg (fun both => some_ both.2), none_]
    exact ⟨fun moved => absurd moved (lt_irrefl 0), fun _ failed => by cases failed⟩
  simp only [isChecked.mpr ⟨pointers, array⟩, forall_const]
  unfold vectorCall
  rw [if_neg (by rw [vectorCall_pointers, not_not]; exact pointers), vaddr_eq, if_pos array,
    if_neg (fun null => by cases null.1), Option.getD_some]
  generalize vectorLoop direction shortCount driver args.iovs.toNat args.iovsLen.toNat 0
    ⟨m, 0, 0, []⟩ = result
  obtain ⟨out, p⟩ := result
  cases out with
  | error error =>
    constructor
    · intro counts
      exact ⟨counts.2, fun done => by cases done⟩
    intro reports
    have none_ := reports.1 error rfl
    exact ⟨fun moved => absurd none_ (ne_of_gt moved), reports.1⟩
  | ok done =>
    constructor
    · intro counts
      refine ⟨fun _ failed => (by cases failed), fun _ => ?_⟩
      show p.moved < 2 ^ 32
      by_cases moved : 0 < p.moved
      · obtain ⟨-, counted, -, loaded⟩ := counts.1 moved
        have bounded := counted.load_lt args.count.toNat 4
        rw [loaded] at bounded
        exact bounded
      · omega
    · intro reports
      have fits := reports.2 rfl
      refine ⟨fun _ => ⟨rfl, p.memory.write args.count.toNat (littleEndian 4 (p.moved % 2 ^ 32)),
        rfl, ?_⟩, fun _ failed => by cases failed⟩
      rw [mod_eq_of_lt fits]
      exact Memory.load_write_littleEndian p.memory args.count.toNat fits

/-- For each of the six calls, every array and every sequence of driver results: the call counts
what it moved iff, if it is accepted, no element that the loop comes to after the first
byte has an address outside the memory or, for the socket calls, a driver error, and the bytes
moved can be counted in 32 bits. -/
theorem counts_moved_iff (call : VectorCall) (attached : Bool) (driver : Nat → Transfer)
    (args : VectorArgs) (m : Memory) :
    CountsMoved call.flags args (call.run attached driver args m) ↔
      (call.accepted attached args m.size = true → ∀ j < args.iovsLen.toNat, ∀ q,
        reached call.direction driver args.iovs.toNat j 0 ⟨m, 0, 0, []⟩ = some q →
          (fateOf driver args.iovs.toNat j q).Harmless call.shortCount q.moved) := by
  rw [VectorCall.run_eq, VectorCall.accepted]
  by_cases permitted : (attached && decide (0 ≤ args.iovsLen.toInt) && call.offsetValid) = true
  · rw [if_pos permitted, permitted, Bool.true_and, vectorCall_counts_iff]
    apply imp_congr Iff.rfl
    have loop := vectorLoop_reports_iff call.direction call.shortCount driver args.iovs.toNat
      args.iovsLen.toNat 0 ⟨m, 0, 0, []⟩ (Nat.two_pow_pos 32)
    simpa only [Nat.zero_add] using loop
  · rw [if_neg permitted, Bool.eq_false_iff.mpr permitted, Bool.false_and]
    exact ⟨fun _ accepted => (nomatch accepted), fun _ => refused_counts ..⟩

def twoBuffers : Memory :=
  zeroPage.write 64 ([128, 132].flatMap fun off => littleEndian 4 off ++ littleEndian 4 4)

def takesOne : Nat → Transfer
  | 0 => .moved [1, 2, 3, 4]
  | _ => .failed .eagain

/-- `sock_send` of two buffers: the first is sent, the second meets a full queue, and the guest
gets the error alone. -/
theorem sock_send_loses_count :
    (VectorCall.sockSend.run true takesOne ⟨64, 2, 16⟩ twoBuffers).1 = .error (.vfs .eagain) ∧
      (VectorCall.sockSend.run true takesOne ⟨64, 2, 16⟩ twoBuffers).2.moved = 4 := by
  decide +kernel

/-- `fd_write` of the same buffers reports the four bytes. -/
example : (VectorCall.fdWrite.run true takesOne ⟨64, 2, 16⟩ twoBuffers).1 = .ok () ∧
    (VectorCall.fdWrite.run true takesOne ⟨64, 2, 16⟩ twoBuffers).2.memory.load 16 4 = 4 := by
  decide +kernel

end WantedEngine.Wasi
