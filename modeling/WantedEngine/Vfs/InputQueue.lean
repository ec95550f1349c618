import WantedEngine.Foundation.Machine
import WantedEngine.Foundation.Ring
/-!
# The queue of an input device

`vfs-input.c`: drivers and the injector push events into a ring of 64, and the reads of the owner pop
whole records. A push that finds the ring full empties it and leaves one `SYN_DROPPED` record, which
stands for all that was in the ring and for the event itself.
-/
namespace WantedEngine.Vfs.Input

open Foundation List

/-- `wanted_input_event_t`. -/
structure Event where
  sync : UInt8
  type : UInt8
  code : UInt16
  value : Int32

/-- `EV_SYN` with `SYN_DROPPED`. -/
def dropped : Event := ⟨1, 0, 3, 0⟩

/-- `INPUT_QUEUE_LEN`. -/
def queueLen : Nat := 64

/-- `INPUT_EVENT_BYTES`. -/
def eventBytes : Nat := 8

/-- `InputDevicePush`. A full ring starts again at its first place. -/
def inputDevicePush (queue : Ring Event queueLen) (ev : Event) : Ring Event queueLen :=
  if queueLen ≤ queue.len then
    Ring.write { queue with rpos := 0, len := 0, rpos_lt := by decide, len_le := by decide } [dropped]
  else queue.write [ev]

/-- The loop of `popEvents` with `used` bytes filled: what is copied and the ring it leaves. -/
def popEvents (nbyte : Nat) (queue : Ring Event queueLen) (used : Nat) :
    List Event × Ring Event queueLen :=
  if 0 < queue.len ∧ used + eventBytes ≤ nbyte then
    let (copied, left) := popEvents nbyte (queue.read 1).2 (used + eventBytes)
    ((queue.read 1).1 ++ copied, left)
  else ([], queue)
  termination_by queue.len
  decreasing_by
    dsimp only [Ring.read]
    omega

inductive Request where
  | push (ev : Event)
  /-- A read of so many bytes. -/
  | read (nbyte : Nat)

/-- A device that is owned, with the events pushed and the records delivered since it was claimed. -/
structure Session where
  queue : Ring Event queueLen
  pushed : List Event
  delivered : List Event

/-- Pushes and reads hold the lock of the table, one after the other. -/
def device : Machine Session Request Unit where
  step s
    | .push ev => ((), { s with queue := inputDevicePush s.queue ev, pushed := s.pushed ++ [ev] })
    | .read nbyte =>
      let (copied, left) := popEvents nbyte s.queue 0
      ((), { s with queue := left, delivered := s.delivered ++ copied })

/-- A device that was just claimed. -/
def claimed : Session := ⟨.empty ⟨0, 0, 0, 0⟩ (by decide), [], []⟩

/-- What a reader may see of the events pushed: each event in its place, or a marker in the place of
one or more events in a row. -/
inductive Shows : List Event → List Event → Prop where
  | nothing : Shows [] []
  | record {pushed seen run : List Event} {ev : Event} (before : Shows pushed seen)
      (stands : run = [ev] ∨ run ≠ [] ∧ ev = dropped) : Shows (pushed ++ run) (seen ++ [ev])

/-- The first records show the first events. -/
lemma Shows.split {pushed first second : List Event} (shows_ : Shows pushed (first ++ second)) :
    ∃ before after, pushed = before ++ after ∧ Shows before first := by
  generalize whole : first ++ second = seen at shows_
  induction shows_ generalizing second with
  | nothing =>
    obtain ⟨rfl, -⟩ := append_eq_nil_iff.mp whole
    exact ⟨[], [], rfl, .nothing⟩
  | @record pushed seen run ev before stands ih =>
    obtain rfl | ⟨init, last, rfl⟩ := second.eq_nil_or_concat
    · rw [append_nil] at whole
      exact ⟨_, [], (append_nil _).symm, whole ▸ .record before stands⟩
    rw [concat_eq_append, ← append_assoc] at whole
    obtain ⟨before, after, parts, first⟩ := ih (append_inj_left' whole rfl)
    exact ⟨before, after ++ run, by rw [parts, append_assoc], first⟩

/-- A ring that is full is left with a marker, and any other gets the event behind its records. -/
lemma contents_push (queue : Ring Event queueLen) (ev : Event) : (inputDevicePush queue ev).contents =
      if queueLen ≤ queue.contents.length then [dropped] else queue.contents ++ [ev] := by
  rw [Ring.length_contents, inputDevicePush]
  split
  · rw [Ring.contents_write]
    rfl
  · rename_i room
    exact Ring.contents_write_one (Nat.lt_of_not_le room) ev

/-- What is copied and what stays are the records of the ring. -/
lemma popEvents_append (nbyte used : Nat) (queue : Ring Event queueLen) :
    (popEvents nbyte queue used).1 ++ (popEvents nbyte queue used).2.contents = queue.contents := by
  fun_induction popEvents nbyte queue used with
  | case1 queue used more copied left popped ih =>
    rw [popped] at ih
    rw [append_assoc, ih, Ring.read_fst, Ring.contents_read, take_append_drop]
  | case2 => rfl

/-- On every interleaving of pushes and reads, the records delivered show the events pushed up to some
point, each in its place or behind a marker, and the records queued show the others. -/
theorem delivered_shows (reqs : List Request) :
    let s := device.exec claimed reqs
    Shows s.pushed (s.delivered ++ s.queue.contents) ∧
      ∃ before after, s.pushed = before ++ after ∧ Shows before s.delivered := by
  have all : Shows (device.exec claimed reqs).pushed
      ((device.exec claimed reqs).delivered ++ (device.exec claimed reqs).queue.contents) := by
    refine device.exec_invariant_of_step (fun s => Shows s.pushed (s.delivered ++ s.queue.contents)) ?_
      .nothing reqs
    intro s req shows_
    cases req with
    | read nbyte =>
      rw [Machine.next, device]
      dsimp only
      rwa [append_assoc, popEvents_append]
    | push ev =>
      rw [Machine.next, device]
      dsimp only
      rw [contents_push]
      split
      · obtain ⟨before, after, parts, first⟩ := shows_.split
        rw [parts, append_assoc]
        exact first.record (.inr ⟨by simp, rfl⟩)
      · rw [← append_assoc]
        exact shows_.record (.inl rfl)
  exact ⟨all, all.split⟩

end WantedEngine.Vfs.Input
