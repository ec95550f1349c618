import Mathlib.Data.List.Perm.Basic
import WantedEngine.Foundation.Machine
import WantedEngine.Foundation.Ring
import WantedEngine.Vfs.PlatformDriver
/-!
# Named pipes

The pipes of `/dev/pipe` (`vfs-pipe.c`): rings in a table that all wapps share. A handle keeps a
pointer to its pipe, and a console of a wapp finds its pipe by name. A read or a write takes turns
at the ring under the lock of the table until one of them moves bytes; between two turns the table
is anyone's, so a run is a list of turns. The listing of the table, the readiness of a pipe and what
ends a wait (the clock, the wake descriptor, a handle that does not block) are not in the model.
-/
namespace WantedEngine.Vfs.Pipe

open Foundation List

/-- `named_pipe_t`. -/
structure NamedPipe (size : Nat) where
  name : Bytes
  ring : Ring UInt8 size
  writers : Int
  readers : Int
  writerSeen : Bool
  persistent : Bool
  active : Bool

/-- A `pipe_handle_t` or a `pipe_console_t`. -/
structure Client where
  console : Bool
  /-- The pipe that it was attached to, if it was to one; the source keeps it for handles only. -/
  slot : Option Nat
  /-- The name that it was opened with. -/
  name : Bytes
  writes : Bool
  deriving DecidableEq

/-- `pipe_store_t`, with the handles and consoles that use it. -/
structure Store (size : Nat) where
  pipes : List (NamedPipe size)
  clients : List Client

variable {size : Nat}

/-! ### Turns at a ring -/

/-- One turn of `PipeDriver_Read`; no data and no end of the stream is `EAGAIN`. -/
def NamedPipe.read (p : NamedPipe size) (nbyte : Nat) : Rc Bytes × NamedPipe size :=
  if 0 < p.ring.len then
    let (bytes, ring) := p.ring.read nbyte
    (.ok bytes, { p with ring })
  else if p.writerSeen ∧ p.writers ≤ 0 ∧ ¬ p.persistent then (.ok [], p)
  else (.error .eagain, p)

/-- `ringWrite`, one turn of `PipeDriver_Write`. -/
def NamedPipe.write (p : NamedPipe size) (buf : Bytes) : Rc Nat × NamedPipe size :=
  if p.ring.room buf = 0 then (.error .eagain, p)
  else (.ok (p.ring.room buf), { p with ring := p.ring.write buf })

/-- What happens to one pipe: turns of reads and writes, and opens and closes, which leave its
ring. -/
inductive Turn where
  | read (nbyte : Nat)
  | write (buf : Bytes)
  | attach (writers readers : Int) (writerSeen persistent : Bool)

/-- A pipe, with the bytes that writes took and the bytes that reads returned so far. -/
structure Traffic (size : Nat) where
  pipe : NamedPipe size
  accepted : Bytes
  returned : Bytes

/-- One turn; the answer is the count of a write or of a read. -/
def takeTurn (t : Traffic size) : Turn → Rc Nat × Traffic size
  | .read nbyte =>
    match t.pipe.read nbyte with
    | (.error e, pipe) => (.error e, { t with pipe })
    | (.ok bytes, pipe) => (.ok bytes.length, { t with pipe, returned := t.returned ++ bytes })
  | .write buf =>
    match t.pipe.write buf with
    | (.error e, pipe) => (.error e, { t with pipe })
    | (.ok n, pipe) => (.ok n, { t with pipe, accepted := t.accepted ++ buf.take n })
  | .attach writers readers writerSeen persistent =>
    (.ok 0, { t with pipe := { t.pipe with writers, readers, writerSeen, persistent } })

def trafficMachine : Machine (Traffic size) Turn (Rc Nat) := ⟨takeTurn⟩

/-- What a table of names keeps of one. -/
def storedName (name : Bytes) : Bytes := name.take (maxEntryNameLen - 1)

/-- The pipe that `allocPipe` leaves. -/
def newPipe (positive : 0 < size) (name : Bytes) : NamedPipe size where
  name := storedName name
  ring := .empty 0 positive
  writers := 0
  readers := 0
  writerSeen := false
  persistent := false
  active := true

variable (p : NamedPipe size)

/-- A turn of a read takes bytes from the front of the ring, or changes nothing. -/
lemma NamedPipe.read_cases (nbyte : Nat) : (∃ bytes ring, p.read nbyte = (.ok bytes, { p with ring }) ∧
      p.ring.contents = bytes ++ ring.contents) ∨
    ∃ e, p.read nbyte = (.error e, p) := by
  unfold NamedPipe.read
  split
  · refine .inl ⟨(p.ring.read nbyte).1, (p.ring.read nbyte).2, rfl, ?_⟩
    rw [Ring.read_fst, Ring.contents_read, take_append_drop]
  split
  · exact .inl ⟨[], p.ring, rfl, rfl⟩
  · exact .inr ⟨_, rfl⟩

/-- A turn of a write adds bytes at the end of the ring, or changes nothing. -/
lemma NamedPipe.write_cases (buf : Bytes) : (∃ n ring, p.write buf = (.ok n, { p with ring }) ∧
      ring.contents = p.ring.contents ++ buf.take n) ∨
    ∃ e, p.write buf = (.error e, p) := by
  unfold NamedPipe.write
  split
  · exact .inr ⟨_, rfl⟩
  · exact .inl ⟨_, _, rfl, Ring.contents_write buf⟩

/-- One turn keeps the ring a queue of what was accepted and not yet returned. -/
lemma takeTurn_queue {t : Traffic size} (turn : Turn)
    (queue : t.accepted = t.returned ++ t.pipe.ring.contents) :
    (takeTurn t turn).2.accepted =
      (takeTurn t turn).2.returned ++ (takeTurn t turn).2.pipe.ring.contents := by
  cases turn with
  | read nbyte =>
    rcases t.pipe.read_cases nbyte with ⟨bytes, ring, read, front⟩ | ⟨e, waits⟩
    · rw [takeTurn, read]
      rw [queue, front, append_assoc]
    · rw [takeTurn, waits]
      exact queue
  | write buf =>
    rcases t.pipe.write_cases buf with ⟨n, ring, wrote, added⟩ | ⟨e, waits⟩
    · rw [takeTurn, wrote]
      show t.accepted ++ buf.take n = t.returned ++ ring.contents
      rw [queue, added, append_assoc]
    · rw [takeTurn, waits]
      exact queue
  | attach writers readers writerSeen persistent => exact queue

/-- In every interleaving of turns on a pipe, what the reads returned is the beginning of what the
writes were taken, and the rest is what the ring holds, which is never more than its size. -/
theorem pipe_is_queue (positive : 0 < size) (name : Bytes) (turns : List Turn) :
    let t := trafficMachine.exec ⟨newPipe positive name, [], []⟩ turns
    t.accepted = t.returned ++ t.pipe.ring.contents ∧
      t.pipe.ring.contents.length = t.pipe.ring.len ∧ t.pipe.ring.len ≤ size := by
  intro t
  refine ⟨?_, t.pipe.ring.length_contents, t.pipe.ring.len_le⟩
  have start : ([] : Bytes) = [] ++ (newPipe positive name).ring.contents := by
    simp [newPipe, Ring.empty, Ring.contents]
  exact trafficMachine.exec_invariant_of_step
    (fun t => t.accepted = t.returned ++ t.pipe.ring.contents)
    (fun t turn queue => takeTurn_queue turn queue) start turns

/-- A ring of four bytes wraps: two of five bytes are refused, and taken later. -/
theorem pipe_is_queue_wrapped :
    let turns : List Turn := [.write [1, 2, 3, 4, 5], .read 3, .write [5, 6], .read 2, .read 9]
    let t := trafficMachine.exec ⟨newPipe (show 0 < 4 by decide) [], [], []⟩ turns
    (t.accepted = [1, 2, 3, 4, 5, 6] ∧ t.returned = [1, 2, 3, 4, 5, 6]) ∧
      t.accepted = t.returned ++ t.pipe.ring.contents := by
  intro turns t
  exact ⟨by decide, (pipe_is_queue (by decide) [] turns).1⟩

/-! ### The table -/

/-- `findPipe`. -/
def findPipe (pipes : List (NamedPipe size)) (name : Bytes) : Option Nat :=
  pipes.findIdx? fun p => p.active && p.name.take maxEntryNameLen = name.take maxEntryNameLen

/-- `findPipe`, and else `allocPipe`. -/
def takePipe (positive : 0 < size) (pipes : List (NamedPipe size)) (name : Bytes) :
    Option (Nat × List (NamedPipe size)) :=
  match findPipe pipes name with
  | some i => some (i, pipes)
  | none =>
    (pipes.findIdx? fun p => !p.active).map fun i => (i, pipes.set i (newPipe positive name))

/-- The pipe with one end more. -/
def NamedPipe.attach (p : NamedPipe size) (writes persistent : Bool) : NamedPipe size :=
  { p with
    persistent := p.persistent || persistent
    writers := if writes then p.writers + 1 else p.writers
    writerSeen := p.writerSeen || writes
    readers := if writes then p.readers else p.readers + 1 }

/-- The pipe with one end less: a console takes none away that is not there. A pipe without ends and
without data is no longer active. -/
def NamedPipe.detach (p : NamedPipe size) (writes console : Bool) : NamedPipe size :=
  let less (count : Int) : Int := if console ∧ count ≤ 0 then count else count - 1
  let p :=
    if writes then { p with writers := less p.writers } else { p with readers := less p.readers }
  { p with active := p.active && !(p.writers ≤ 0 && p.readers ≤ 0 && p.ring.len = 0) }

/-- A call on the table. Allocations of the engine answer through the call. -/
inductive Call where
  | open_ (suffix : Bytes) (flags : Oflags) (malloc : Bool)
  | create (name : Bytes) (forRead malloc : Bool)
  /-- The close of a handle or the destruction of a console. -/
  | close (client : Nat)
  | read (client nbyte : Nat)
  | write (client : Nat) (buf : Bytes)

/-- `PipeDriver_Open`. -/
def pipeDriverOpen (positive : 0 < size) (s : Store size) (suffix : Bytes) (flags : Oflags)
    (malloc : Bool) : Rc Unit × Store size :=
  if ¬ malloc then (.error .enomem, s)
  else if suffix = [] ∨ suffix = ascii "/" then
    (.ok (), { s with clients := ⟨false, none, suffix, false⟩ :: s.clients })
  else if flags &&& vfsORdwr = vfsORdwr then (.error .einval, s)
  else
    match takePipe positive s.pipes suffix with
    | none => (.error .enospc, s)
    | some (i, pipes) =>
      let writes : Bool := flags &&& 3 = vfsOWronly
      (.ok (), ⟨pipes.modify i (·.attach writes false),
        ⟨false, some i, suffix, writes⟩ :: s.clients⟩)

/-- `VfsPipeConsoleCreate`: without a pipe the console is made all the same. -/
def vfsPipeConsoleCreate (positive : 0 < size) (s : Store size) (name : Bytes)
    (forRead malloc : Bool) : Rc Unit × Store size :=
  if name = [] ∨ ¬ malloc then (.error .enomem, s)
  else
    let name := storedName name
    match takePipe positive s.pipes name with
    | none => (.ok (), { s with clients := ⟨true, none, name, !forRead⟩ :: s.clients })
    | some (i, pipes) =>
      (.ok (), ⟨pipes.modify i (·.attach (!forRead) true),
        ⟨true, some i, name, !forRead⟩ :: s.clients⟩)

/-- The pipe of a client: a handle points to it, a console looks for its name. -/
def Client.pipe (c : Client) (pipes : List (NamedPipe size)) : Option Nat :=
  if c.console then findPipe pipes c.name else c.slot

/-- `PipeDriver_Close`, or `consoleDetach`. -/
def closeClient (s : Store size) (k : Nat) (c : Client) : Store size where
  pipes := match c.pipe s.pipes with
    | none => s.pipes
    | some i => s.pipes.modify i (·.detach c.writes c.console)
  clients := s.clients.eraseIdx k

/-- A turn of `PipeDriver_Read` or `_pcRead`. -/
def readClient (s : Store size) (c : Client) (nbyte : Nat) : Store size :=
  if c.console ∧ c.writes then s
  else
    match c.pipe s.pipes with
    | none => s
    | some i => { s with pipes := s.pipes.modify i fun p => (p.read nbyte).2 }

/-- A turn of `PipeDriver_Write` or `_pcWrite`, which makes the pipe it does not find. -/
def writeClient (positive : 0 < size) (s : Store size) (c : Client) (buf : Bytes) : Store size :=
  if c.console then
    if c.writes then
      match takePipe positive s.pipes c.name with
      | none => s
      | some (i, pipes) => { s with pipes := pipes.modify i fun p => (p.write buf).2 }
    else s
  else
    match c.slot with
    | none => s
    | some i => { s with pipes := s.pipes.modify i fun p => (p.write buf).2 }

def serve (positive : 0 < size) (s : Store size) : Call → Rc Unit × Store size
  | .open_ suffix flags malloc => pipeDriverOpen positive s suffix flags malloc
  | .create name forRead malloc => vfsPipeConsoleCreate positive s name forRead malloc
  | .close k =>
    match s.clients[k]? with
    | none => (.error .ebadf, s)
    | some c => (.ok (), closeClient s k c)
  | .read k nbyte =>
    match s.clients[k]? with
    | none => (.error .ebadf, s)
    | some c => (.ok (), readClient s c nbyte)
  | .write k buf =>
    match s.clients[k]? with
    | none => (.error .ebadf, s)
    | some c => (.ok (), writeClient positive s c buf)

def machine (positive : 0 < size) : Machine (Store size) Call (Rc Unit) :=
  ⟨serve positive⟩

/-- `PipeStoreNew`. -/
def pipeStoreNew (positive : 0 < size) (maxPipes : Nat) : Store size :=
  ⟨List.replicate maxPipes { newPipe positive [] with active := false }, []⟩

/-! ### The ends of a pipe -/

/-- The clients that are attached to a pipe for writing, or for reading. -/
def ends (clients : List Client) (i : Nat) (writes : Bool) : Nat :=
  clients.countP fun c => c.slot = some i && c.writes = writes

/-- The counts of the active pipes are those of their handles and consoles, and a pipe that an open
handle refers to is active under the stored name of the open. -/
structure Counted (s : Store size) : Prop where
  counts : ∀ (i : Nat) (p : NamedPipe size), s.pipes[i]? = some p → p.active = true →
    p.writers = (ends s.clients i true : Int) ∧ p.readers = (ends s.clients i false : Int)
  held : ∀ c ∈ s.clients, ∀ i, c.slot = some i →
    ∃ p, s.pipes[i]? = some p ∧ p.active = true ∧ p.name = storedName c.name

/-- Moreover no two active pipes have one name, and every console has a pipe. -/
structure Kept (s : Store size) : Prop extends Counted s where
  apart : ∀ (i j : Nat) (p q : NamedPipe size), s.pipes[i]? = some p → s.pipes[j]? = some q →
    p.active = true → q.active = true → p.name = q.name → i = j
  short : ∀ (i : Nat) (p : NamedPipe size), s.pipes[i]? = some p → p.name.length < maxEntryNameLen
  consoles : ∀ c ∈ s.clients, c.console = true → c.slot ≠ none ∧ c.name.length < maxEntryNameLen

/-- A name that is stored whole, or that no active pipe is stored under. -/
def Fresh (s : Store size) (name : Bytes) : Prop :=
  name.length < maxEntryNameLen ∨ ∀ p ∈ s.pipes, p.active = true → p.name ≠ storedName name

/-- The condition on a call: a name that is opened is shorter than `MAX_ENTRY_NAME_LEN` or no active pipe
has what is stored of it, and a console that is created finds its pipe or a free slot. -/
def Accommodates (s : Store size) : Call → Prop
  | .open_ suffix _ _ => Fresh s suffix
  | .create name _ _ => (findPipe s.pipes (storedName name)).isSome = true ∨
    s.pipes.any (fun p => !p.active) = true
  | _ => True

instance decidableAccommodates (s : Store size) : ∀ call, Decidable (Accommodates s call)
  | .open_ _ _ _ => inferInstanceAs (Decidable (_ ∨ _))
  | .create _ _ _ => inferInstanceAs (Decidable (_ ∨ _))
  | .close _ | .read _ _ | .write _ _ => inferInstanceAs (Decidable True)

variable {s : Store size} {positive : 0 < size} {i : Nat} {c : Client} {name : Bytes}

lemma storedName_of_fits (fits : name.length < maxEntryNameLen) : storedName name = name :=
  take_of_length_le (Nat.le_sub_one_of_lt fits)

variable (kept : Kept s)
include kept

/-- `findPipe` of a short name finds the active pipe of that name. -/
lemma Kept.findPipe_iff (fits : name.length < maxEntryNameLen) : findPipe s.pipes name = some i ↔
      ∃ p, s.pipes[i]? = some p ∧ p.active = true ∧ p.name = name := by
  have named : ∀ (j : Nat) (p : NamedPipe size), s.pipes[j]? = some p →
      ((p.active && p.name.take maxEntryNameLen = name.take maxEntryNameLen) = true ↔
        p.active = true ∧ p.name = name) := by
    intro j p here
    rw [take_of_length_le (Nat.le_of_lt (kept.short j p here)), take_of_length_le (Nat.le_of_lt fits)]
    simp
  rw [findPipe, findIdx?_eq_some_iff_getElem]
  constructor
  · rintro ⟨bound, found, -⟩
    have here := getElem?_eq_getElem bound
    exact ⟨_, here, (named i _ here).mp found⟩
  rintro ⟨p, here, active, isName⟩
  obtain ⟨bound, value⟩ := List.getElem?_eq_some_iff.mp here
  refine ⟨bound, (named i _ (getElem?_eq_getElem bound)).mpr (value ▸ ⟨active, isName⟩), ?_⟩
  intro j before again
  have there := getElem?_eq_getElem (Nat.lt_trans before bound)
  obtain ⟨active', isName'⟩ := (named j _ there).mp again
  have same := kept.apart i j p _ here there active active' (isName.trans isName'.symm)
  omega

/-- Only a name that is stored whole is found. -/
lemma Kept.found_fits (found : findPipe s.pipes name = some i) : name.length < maxEntryNameLen := by
  obtain ⟨bound, named, -⟩ := findIdx?_eq_some_iff_getElem.mp found
  have short := kept.short i _ (getElem?_eq_getElem bound)
  have same := congrArg length (of_decide_eq_true (Bool.and_eq_true_iff.mp named).2)
  rw [length_take, length_take] at same
  omega

/-- A client of a kept table finds the pipe that it was attached to. -/
lemma Kept.pipe_eq (mem : c ∈ s.clients) : c.pipe s.pipes = c.slot := by
  unfold Client.pipe
  split
  · rename_i console
    obtain ⟨seated, fits⟩ := kept.consoles c mem console
    obtain ⟨i, isSlot⟩ := Option.ne_none_iff_exists'.mp seated
    obtain ⟨p, here, active, isName⟩ := kept.held c mem i isSlot
    rw [isSlot, kept.findPipe_iff fits]
    exact ⟨p, here, active, isName.trans (storedName_of_fits fits)⟩
  · rfl

omit kept

/-- A pipe that replaces another has its clients among these, and the other pipes keep theirs. -/
structure Seats (s : Store size) (i : Nat) (p : NamedPipe size) (clients : List Client) : Prop where
  counts : p.active = true →
    p.writers = (ends clients i true : Int) ∧ p.readers = (ends clients i false : Int)
  others : ∀ j writes, j ≠ i → ends clients j writes = ends s.clients j writes
  held : ∀ c ∈ clients, c.slot = some i → p.active = true ∧ p.name = storedName c.name
  stay : ∀ c ∈ clients,
    c.slot = some i ∧ (c.console = true → c.name.length < maxEntryNameLen) ∨ c ∈ s.clients

include kept

variable {clients : List Client}

lemma Kept.set {old new : NamedPipe size} (here : s.pipes[i]? = some old)
    (short : new.name.length < maxEntryNameLen)
    (apart : ∀ (j : Nat) (p : NamedPipe size), s.pipes[j]? = some p → p.active = true →
      new.active = true → p.name = new.name → j = i)
    (seats : Seats s i new clients) : Kept ⟨s.pipes.set i new, clients⟩ := by
  have bound := (List.getElem?_eq_some_iff.mp here).1
  have after : ∀ (j : Nat) (p : NamedPipe size), (s.pipes.set i new)[j]? = some p →
      (j = i ∧ p = new) ∨ (j ≠ i ∧ s.pipes[j]? = some p) := by
    intro j p there
    rw [getElem?_set, if_pos bound] at there
    split at there
    · rename_i mine
      exact .inl ⟨mine.symm, (Option.some.inj there).symm⟩
    · rename_i other
      exact .inr ⟨Ne.symm other, there⟩
  refine { counts := ?_, held := ?_, apart := ?_, short := ?_, consoles := ?_ }
  · intro j p there active
    rcases after j p there with ⟨rfl, rfl⟩ | ⟨other, was⟩
    · exact seats.counts active
    · rw [seats.others j _ other, seats.others j _ other]
      exact kept.counts j p was active
  · intro c mem j isSlot
    by_cases mine : j = i
    · subst mine
      exact ⟨new, getElem?_set_self bound, seats.held c mem isSlot⟩
    have other : c.slot ≠ some i := fun isI => mine (Option.some.inj (isSlot.symm.trans isI))
    obtain ⟨p, there, named⟩ := kept.held c ((seats.stay c mem).resolve_left (other ·.1)) j isSlot
    exact ⟨p, (getElem?_set_ne (Ne.symm mine)).trans there, named⟩
  · intro j k p q thereP thereQ activeP activeQ names
    rcases after j p thereP with ⟨rfl, rfl⟩ | ⟨-, wasP⟩ <;>
      rcases after k q thereQ with ⟨mine, rfl⟩ | ⟨-, wasQ⟩
    · exact mine.symm
    · exact (apart k q wasQ activeQ activeP names.symm).symm
    · exact mine ▸ apart j p wasP activeP activeQ names
    · exact kept.apart j k p q wasP wasQ activeP activeQ names
  · intro j p there
    rcases after j p there with ⟨-, rfl⟩ | ⟨-, was⟩
    · exact short
    · exact kept.short j p was
  · intro c mem console
    rcases seats.stay c mem with ⟨isSlot, fits⟩ | was
    · exact ⟨by simp [isSlot], fits console⟩
    · exact kept.consoles c was console

variable {f : NamedPipe size → NamedPipe size} {pipes : List (NamedPipe size)} {p : NamedPipe size}

/-- A pipe keeps its name. -/
lemma Kept.edit {old : NamedPipe size} (here : s.pipes[i]? = some old) (same : (f old).name = old.name)
    (active : (f old).active = true → old.active = true) (seats : Seats s i (f old) clients) :
    Kept ⟨s.pipes.modify i f, clients⟩ := by
  rw [modify_eq_set_getElem?, here]
  refine kept.set here (same ▸ kept.short i old here) ?_ seats
  intro j p there activeP isActive names
  exact kept.apart j i p old there here activeP (active isActive) (names.trans same)

lemma Kept.held_here (here : s.pipes[i]? = some p) (mem : c ∈ s.clients)
    (isSlot : c.slot = some i) : p.active = true ∧ p.name = storedName c.name := by
  obtain ⟨_, there, named⟩ := kept.held c mem i isSlot
  cases here.symm.trans there
  exact named

/-- A pipe that is found or made for a name, without a client more. -/
lemma Kept.takePipe (fresh : Fresh s name) (taken : takePipe positive s.pipes name = some (i, pipes)) :
    Kept ⟨pipes, s.clients⟩ ∧ ∃ p, pipes[i]? = some p ∧ p.active = true ∧ p.name = storedName name := by
  unfold Pipe.takePipe at taken
  split at taken
  · rename_i found
    cases taken
    have fits := kept.found_fits found
    rw [storedName_of_fits fits]
    exact ⟨kept, (kept.findPipe_iff fits).mp found⟩
  rename_i none_
  obtain ⟨j, free, made⟩ := Option.map_eq_some_iff.mp taken
  cases made
  obtain ⟨bound, inactive, -⟩ := findIdx?_eq_some_iff_getElem.mp free
  have here := getElem?_eq_getElem bound
  have short : (storedName name).length < maxEntryNameLen :=
    Nat.lt_of_le_of_lt (length_take_le _ _) (by decide)
  have unheld : ∀ c ∈ s.clients, c.slot ≠ some i := by
    intro c mem isSlot
    rw [(kept.held_here here mem isSlot).1] at inactive
    cases inactive
  have noEnds : ∀ writes, ends s.clients i writes = 0 := by
    intro writes
    refine countP_eq_zero.mpr fun c mem isEnd => unheld c mem ?_
    exact of_decide_eq_true (Bool.and_eq_true_iff.mp isEnd).1
  refine ⟨kept.set here short ?_ ⟨?_, fun _ _ _ => rfl,
    fun c mem isSlot => absurd isSlot (unheld c mem), fun _ => .inr⟩,
    newPipe positive name, getElem?_set_self bound, rfl, rfl⟩
  · intro j p there active _ same
    rcases fresh with fits | unused
    · rw [(kept.findPipe_iff fits).mpr ⟨p, there, active, same.trans (storedName_of_fits fits)⟩] at none_
      cases none_
    · exact absurd same (unused p (mem_of_getElem? there) active)
  · intro _
    rw [noEnds, noEnds]
    exact ⟨rfl, rfl⟩

/-- A client is attached to an active pipe of its name. -/
lemma Kept.attach (here : s.pipes[i]? = some p) (active : p.active = true)
    (isName : p.name = storedName c.name) (isSlot : c.slot = some i) (persistent : Bool)
    (fits : c.console = true → c.name.length < maxEntryNameLen) :
    Kept ⟨s.pipes.modify i (·.attach c.writes persistent), c :: s.clients⟩ := by
  refine kept.edit here rfl id ⟨?_, ?_, ?_, ?_⟩
  · intro isActive
    obtain ⟨writers, readers⟩ := kept.counts i p here isActive
    unfold ends at writers readers ⊢
    rw [countP_cons, countP_cons]
    cases writes : c.writes <;> simp [NamedPipe.attach, writers, readers, isSlot]
  · intro j writes other
    unfold ends
    rw [countP_cons, isSlot]
    simp [Ne.symm other]
  · intro d mem slot
    rcases mem_cons.mp mem with rfl | old
    · exact ⟨active, isName⟩
    · exact ⟨active, (kept.held_here here old slot).2⟩
  · intro d mem
    rcases mem_cons.mp mem with rfl | old
    · exact .inl ⟨isSlot, fits⟩
    · exact .inr old

/-- The pipes keep their clients. -/
lemma Kept.reseat (same : ∀ j writes, ends clients j writes = ends s.clients j writes)
    (held : ∀ c ∈ clients, c.slot ≠ none → c ∈ s.clients)
    (consoles : ∀ c ∈ clients, c.console = true → c.slot ≠ none ∧ c.name.length < maxEntryNameLen) :
    Kept ⟨s.pipes, clients⟩ := by
  refine { kept with counts := ?_, held := ?_, consoles }
  · intro j p here active
    rw [same, same]
    exact kept.counts j p here active
  · intro c mem j isSlot
    exact kept.held c (held c mem (isSlot ▸ nofun)) j isSlot

omit kept

lemma ends_erase {k : Nat} (isClient : clients[k]? = some c) (j : Nat) (writes : Bool) :
    ends (clients.eraseIdx k) j writes + (if c.slot = some j ∧ c.writes = writes then 1 else 0) =
      ends clients j writes := by
  obtain ⟨bound, value⟩ := List.getElem?_eq_some_iff.mp isClient
  have split := (getElem_cons_eraseIdx_perm bound).countP_eq
    fun d => d.slot = some j && d.writes = writes
  rw [countP_cons, value] at split
  unfold ends
  simpa using split

/-- An end goes that was counted. -/
lemma NamedPipe.detach_spec (writes console : Bool) (writers readers : Nat)
    (isWriters : p.writers = writers + if writes then 1 else 0)
    (isReaders : p.readers = readers + if writes then 0 else 1) :
    (p.detach writes console).writers = writers ∧ (p.detach writes console).readers = readers ∧
      ((p.detach writes console).active = true ↔
        p.active = true ∧ (0 < writers ∨ 0 < readers ∨ 0 < p.ring.len)) := by
  cases writes <;> simp_all [detach] <;> omega

include kept

/-- A client goes: the counts of its pipe with it. -/
lemma Kept.close {k : Nat} (isClient : s.clients[k]? = some c) : Kept (closeClient s k c) := by
  have mem := mem_of_getElem? isClient
  have rest : ∀ d ∈ s.clients.eraseIdx k, d ∈ s.clients := fun d => mem_of_mem_eraseIdx
  have fewer := ends_erase isClient
  unfold closeClient
  rw [kept.pipe_eq mem]
  cases isSlot : c.slot with
  | none =>
    refine kept.reseat ?_ (fun d old _ => rest d old) fun d old => kept.consoles d (rest d old)
    intro j writes
    simpa [isSlot] using fewer j writes
  | some i =>
    obtain ⟨p, here, active, -⟩ := kept.held c mem i isSlot
    obtain ⟨writers, readers⟩ := kept.counts i p here active
    obtain ⟨isWriters, isReaders, stays⟩ := p.detach_spec c.writes c.console
      (ends (s.clients.eraseIdx k) i true) (ends (s.clients.eraseIdx k) i false)
      (by
        rw [writers, ← fewer i true]
        cases c.writes <;> simp [isSlot])
      (by
        rw [readers, ← fewer i false]
        cases c.writes <;> simp [isSlot])
    have same : (p.detach c.writes c.console).name = p.name := by
      cases c.writes <;> rfl
    refine kept.edit here same (fun _ => active)
      ⟨fun _ => ⟨isWriters, isReaders⟩, ?_, ?_, fun d old => .inr (rest d old)⟩
    · intro j writes other
      simpa [isSlot, Ne.symm other] using fewer j writes
    · intro d old slot
      refine ⟨stays.mpr ⟨active, ?_⟩, same.trans (kept.held_here here (rest d old) slot).2⟩
      have present : 0 < ends (s.clients.eraseIdx k) i d.writes :=
        countP_pos_iff.mpr ⟨d, old, by simp [slot]⟩
      cases writes : d.writes <;> rw [writes] at present <;> omega

/-- Data passes through a pipe. -/
lemma Kept.traffic
    (same : ∀ p, (f p).name = p.name ∧ (f p).active = p.active ∧ (f p).writers = p.writers ∧
      (f p).readers = p.readers) : Kept ⟨s.pipes.modify i f, s.clients⟩ := by
  cases here : s.pipes[i]? with
  | none =>
    rw [modify_eq_set_getElem?, here]
    exact kept
  | some p =>
    obtain ⟨isName, isActive, writers, readers⟩ := same p
    refine kept.edit here isName isActive.symm.trans ⟨?_, fun _ _ _ => rfl, ?_, fun _ => .inr⟩
    · rw [writers, readers, isActive]
      exact kept.counts i p here
    · rw [isName, isActive]
      exact fun c => kept.held_here here

/-- A client is attached to the pipe found or made for it. -/
lemma Kept.joins (fresh : Fresh s name) (taken : Pipe.takePipe positive s.pipes name = some (i, pipes))
    (console writes : Bool) (fits : console = true → name.length < maxEntryNameLen) :
    Kept ⟨pipes.modify i (·.attach writes console), ⟨console, some i, name, writes⟩ :: s.clients⟩ := by
  obtain ⟨made, _, here, active, isName⟩ := kept.takePipe fresh taken
  exact made.attach (c := ⟨console, some i, name, writes⟩) here active isName rfl console fits

/-- The bytes of a turn leave the rest of the pipe as it was. -/
lemma Kept.turn (nbyte : Nat) (buf : Bytes) :
    Kept ⟨s.pipes.modify i fun p => (p.read nbyte).2, s.clients⟩ ∧
      Kept ⟨s.pipes.modify i fun p => (p.write buf).2, s.clients⟩ := by
  constructor
  · refine kept.traffic fun p => ?_
    unfold NamedPipe.read
    split_ifs <;> exact ⟨rfl, rfl, rfl, rfl⟩
  · refine kept.traffic fun p => ?_
    unfold NamedPipe.write
    split_ifs <;> exact ⟨rfl, rfl, rfl, rfl⟩

/-- One call keeps the table, if it can accommodate it. -/
lemma serve_kept (call : Call) (fits : Accommodates s call) : Kept (serve positive s call).2 := by
  cases call with
  | open_ suffix flags malloc =>
    show Kept (pipeDriverOpen positive s suffix flags malloc).2
    unfold pipeDriverOpen
    split_ifs
    · refine kept.reseat ?_ ?_ ?_
      · intro j writes
        simp [ends]
      · intro c mem seated
        rcases mem_cons.mp mem with rfl | old
        · cases seated rfl
        · exact old
      · intro c mem console
        rcases mem_cons.mp mem with rfl | old
        · cases console
        · exact kept.consoles c old console
    · exact kept
    · split
      · exact kept
      · rename_i taken
        exact kept.joins fits taken false _ (by simp)
    · exact kept
  | create name forRead malloc =>
    show Kept (vfsPipeConsoleCreate positive s name forRead malloc).2
    unfold vfsPipeConsoleCreate
    split_ifs
    · exact kept
    have short : (storedName name).length < maxEntryNameLen :=
      Nat.lt_of_le_of_lt (length_take_le _ _) (by decide)
    dsimp only
    split
    · rename_i refused
      unfold Pipe.takePipe at refused
      split at refused
      · cases refused
      rename_i missing
      have full := findIdx?_eq_none_iff.mp (Option.map_eq_none_iff.mp refused)
      rcases fits with found | free
      · rw [missing] at found
        cases found
      obtain ⟨p, mem, inactive⟩ := any_eq_true.mp free
      rw [full p mem] at inactive
      cases inactive
    · rename_i taken
      exact kept.joins (.inl short) taken true _ fun _ => short
  | close k =>
    dsimp only [serve]
    split
    · exact kept
    · rename_i isClient
      exact kept.close isClient
  | read k nbyte =>
    dsimp only [serve]
    split
    · exact kept
    dsimp only [readClient]
    split_ifs
    · exact kept
    split
    · exact kept
    · exact (kept.turn nbyte []).1
  | write k buf =>
    dsimp only [serve]
    split
    · exact kept
    rename_i c isClient
    dsimp only [writeClient]
    split_ifs
    · split
      · exact kept
      rename_i taken
      have fits := (kept.consoles c (mem_of_getElem? isClient) ‹_›).2
      exact ((kept.takePipe (.inl fits) taken).1.turn 0 buf).2
    · exact kept
    · split
      · exact kept
      · exact (kept.turn 0 buf).2

omit kept

/-- The new table is kept. -/
lemma pipeStoreNew_kept (positive : 0 < size) (maxPipes : Nat) :
    Kept (pipeStoreNew positive maxPipes) := by
  have idle : ∀ (i : Nat) (p : NamedPipe size),
      (pipeStoreNew positive maxPipes).pipes[i]? = some p → p.active = false ∧ p.name = [] := by
    intro i p here
    cases (mem_replicate.mp (mem_of_getElem? here)).2
    exact ⟨rfl, rfl⟩
  refine { counts := ?_, held := nofun, apart := ?_, short := ?_, consoles := nofun }
  · intro i p here active
    cases (idle i p here).1.symm.trans active
  · intro i j p q here _ active
    cases (idle i p here).1.symm.trans active
  intro i p here
  rw [(idle i p here).2]
  decide

/-- Every run that the table accommodates keeps it. -/
lemma exec_kept (positive : 0 < size) (maxPipes : Nat) {calls : List Call}
    (fits : (machine positive).Obeys Accommodates (pipeStoreNew positive maxPipes) calls) :
    Kept ((machine positive).exec (pipeStoreNew positive maxPipes) calls) :=
  (machine positive).exec_invariant Kept (fun _ call kept => serve_kept kept call)
    (pipeStoreNew_kept positive maxPipes) fits

/-- In every run whose calls the table accommodates, the counts of each active pipe are those of its
handles and consoles, and no slot that a handle refers to is released or renamed. -/
theorem pipe_ends_counted (positive : 0 < size) (maxPipes : Nat) {calls : List Call}
    (fits : (machine positive).Obeys Accommodates (pipeStoreNew positive maxPipes) calls) :
    Counted ((machine positive).exec (pipeStoreNew positive maxPipes) calls) :=
  (exec_kept positive maxPipes fits).toCounted

/-- A handle of a pipe that a console writes to. -/
theorem pipe_ends_counted_console :
    let calls : List Call := [.create (ascii "out") false true, .open_ (ascii "out") 0 true,
      .write 1 [1, 2], .close 1, .read 0 2]
    let s := (machine (show 0 < 4 by decide)).exec (pipeStoreNew (by decide) 2) calls
    (s.pipes.map (fun p => (p.active, p.writers, p.readers)) = [(true, 0, 1), (false, 0, 0)] ∧
      s.clients.map (·.slot) = [some 0]) ∧ Counted s := by
  exact ⟨by decide +kernel, pipe_ends_counted (by decide) 2 (by decide +kernel)⟩

/-- A console is created while the only pipe is in use, so it is attached to none. Its destruction
then releases the pipe that a handle of its name has open. -/
theorem unattached_console_releases_pipe :
    let calls : List Call := [.open_ (ascii "a") 0 true, .create (ascii "b") true true, .close 1,
      .open_ (ascii "b") 0 true, .close 1]
    let s := (machine (show 0 < 4 by decide)).exec (pipeStoreNew (by decide) 1) calls
    s.clients = [⟨false, some 0, ascii "b", false⟩] ∧ s.pipes.map (·.active) = [false] ∧
      ¬ Counted s := by
  intro calls s
  have clients : s.clients = [⟨false, some 0, ascii "b", false⟩] := by decide +kernel
  have inactive : s.pipes.map (·.active) = [false] := by decide +kernel
  refine ⟨clients, inactive, fun counted => ?_⟩
  obtain ⟨p, here, active, -⟩ := counted.held _ (clients ▸ mem_singleton.mpr rfl) 0 rfl
  have shown : (s.pipes.map (·.active))[0]? = some p.active := by
    rw [getElem?_map, here]
    rfl
  rw [inactive, active] at shown
  cases shown

/-- In every run whose calls the table accommodates, two open handles of names that are stored whole share
a pipe iff their names are equal. -/
theorem handles_share_iff (positive : 0 < size) (maxPipes : Nat) {calls : List Call}
    (fits : (machine positive).Obeys Accommodates (pipeStoreNew positive maxPipes) calls)
    {c d : Client} {i j : Nat}
    (first : c ∈ ((machine positive).exec (pipeStoreNew positive maxPipes) calls).clients)
    (second : d ∈ ((machine positive).exec (pipeStoreNew positive maxPipes) calls).clients)
    (isFirst : c.slot = some i) (isSecond : d.slot = some j) (fitsC : c.name.length < maxEntryNameLen)
    (fitsD : d.name.length < maxEntryNameLen) : i = j ↔ c.name = d.name := by
  have kept := exec_kept positive maxPipes fits
  obtain ⟨p, hereP, activeP, nameP⟩ := kept.held c first i isFirst
  obtain ⟨q, hereQ, activeQ, nameQ⟩ := kept.held d second j isSecond
  rw [storedName_of_fits fitsC] at nameP
  rw [storedName_of_fits fitsD] at nameQ
  constructor
  · intro same
    rw [same, hereQ, Option.some.injEq] at hereP
    rw [← nameP, ← nameQ, hereP]
  · intro same
    exact kept.apart i j p q hereP hereQ activeP activeQ (nameP.trans (same.trans nameQ.symm))

/-- Two opens of a name share the pipe, and an open of another name does not. -/
theorem handles_share_iff_log :
    let calls : List Call :=
      [.open_ (ascii "log") 0 true, .open_ (ascii "log") 1 true, .open_ (ascii "data") 0 true]
    let s := (machine (show 0 < 4 by decide)).exec (pipeStoreNew (by decide) 2) calls
    s.clients.map (·.slot) = [some 1, some 0, some 0] ∧
      ((0 : Nat) = 0 ↔ ascii "log" = ascii "log") ∧ ((1 : Nat) = 0 ↔ ascii "data" = ascii "log") := by
  intro calls s
  have fits : (machine (show 0 < 4 by decide)).Obeys Accommodates (pipeStoreNew (by decide) 2)
      calls := by
    decide +kernel
  refine ⟨by decide +kernel, handles_share_iff (by decide) 2 fits
    (c := ⟨false, some 0, ascii "log", false⟩) (d := ⟨false, some 0, ascii "log", true⟩)
    (by decide +kernel) (by decide +kernel) rfl rfl (by decide) (by decide), ?_⟩
  exact handles_share_iff (by decide) 2 fits
    (c := ⟨false, some 1, ascii "data", false⟩) (d := ⟨false, some 0, ascii "log", true⟩)
    (by decide +kernel) (by decide +kernel) rfl rfl (by decide) (by decide)

/-- Two opens of a name of 32 bytes get two pipes. -/
theorem long_name_opens_apart :
    let name := List.replicate 32 (97 : UInt8)
    let s := (machine (show 0 < 4 by decide)).exec (pipeStoreNew (by decide) 2)
      [.open_ name 0 true, .open_ name 1 true]
    s.clients = [⟨false, some 1, name, true⟩, ⟨false, some 0, name, false⟩] := by
  decide +kernel

end WantedEngine.Vfs.Pipe
