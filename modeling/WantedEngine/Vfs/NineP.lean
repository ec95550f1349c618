import WantedEngine.Errno
/-!
# Reads and writes over 9P

`_Read` and `_Write` of the 9P driver (`vfs-9p.c`): one request is queued, sent and waited for, and
what came with the last message is taken for its answer. The 9P library and the connection are what
a call depends on: whether the request got a tag and was sent, and what arrived within the wait. The
state of the session, the results of the other requests and `opened`, which neither call looks at,
are not in the model.
-/
namespace WantedEngine.Vfs.NineP

/-- `MAX_OPENED_FILES`. -/
def maxOpenedFiles : Nat := 10

/-- The answers that a server may send. -/
inductive Reply where
  | rversion | rattach | rwalk | rstat | ropen | rclunk | rerror | other
  | rread (size : Nat)
  | rwrite (count : Nat)
  deriving DecidableEq

/-- A message of the server. -/
structure Message where
  tag : UInt16
  reply : Reply
  /-- Its bytes behind the first `RREAD_HDR_LEN`. -/
  behind : Bytes
  deriving DecidableEq

/-- A message has the data that it announces; the library drops one that has not. -/
def Message.whole (m : Message) : Bool :=
  match m.reply with
  | .rread size => size ≤ m.behind.length
  | _ => true

/-- What a wait for the server ends in. -/
inductive Arrival where
  /-- `select` fails, or ten seconds pass. -/
  | nothing
  /-- The connection breaks in a message, or the library does not take it. -/
  | broken (behind : Bytes)
  | message (m : Message)
  deriving DecidableEq

/-- What is asked of the server. -/
inductive Request where
  | tread (fid offset count : Nat)
  | twrite (fid offset : Nat) (data : Bytes)
  deriving DecidableEq

/-- `file_t`. -/
structure File where
  currOff : Nat
  isDirectory : Bool
  deriving DecidableEq

/-- `vfs_driver_ctx_t`. -/
structure Ctx where
  /-- `CONN_ERROR`. -/
  error : Bool
  /-- The receive buffer from `RREAD_HDR_LEN` on. -/
  rBuf : Bytes
  rCnt : Nat
  fildes : Nat → File
  /-- The requests that were queued, with their tags. -/
  reqs : List (UInt16 × Request)

/-- What a call depends on: the tag its request gets, if it is queued, and whether it is sent. -/
structure Env where
  tag : Option UInt16
  sent : Bool
  arrival : Arrival

/-- `ctxread`. -/
def Ctx.received (d : Ctx) (behind : Bytes) : Ctx :=
  { d with rBuf := behind ++ d.rBuf.drop behind.length }

/-- `ctxprocR`. -/
def ctxprocR (d : Ctx) : Reply → Ctx
  | .rattach => { d with error := false }
  | .rread size => { d with rCnt := size }
  | .rerror => { d with error := true }
  | _ => d

/-- `proc`, with `c9proc`. -/
def proc (d : Ctx) : Arrival → Ctx
  | .nothing => d
  | .broken behind => d.received behind
  | .message m => if m.whole then ctxprocR (d.received m.behind) m.reply else d.received m.behind

/-- A request is queued, if it gets a tag, and what arrives then is taken in. The results of
`c9read` or `c9write`, of `wrsend` and of `proc` are dropped. -/
def exchange (d : Ctx) (env : Env) (req : Request) : Ctx :=
  proc { d with reqs := (env.tag.map (·, req)).toList ++ d.reqs } env.arrival

/-- The body of `_Read` and `_Write`: the request is made for a file and its offset, and the result
and how far the offset moves are read off the state after it. -/
def transfer {α : Type} (d : Ctx) (fd : Int) (env : Env) (ask : Nat → Nat → Request)
    (finish : Ctx → α × Nat) : Rc α × Ctx :=
  if maxOpenedFiles ≤ fd ∨ fd < 0 then (.error .ebadf, d)
  else
    let file := d.fildes fd.toNat
    if file.isDirectory then (.error .eisdir, d)
    else
      let d := exchange d env (ask fd.toNat file.currOff)
      if d.error then (.error .eio, { d with error := false })
      else
        let moved := { file with currOff := file.currOff + (finish d).2 }
        (.ok (finish d).1, { d with fildes := Function.update d.fildes fd.toNat moved })

/-- `_Read`. -/
def read (d : Ctx) (fd : Int) (nbyte : Nat) (env : Env) : Rc Bytes × Ctx :=
  transfer d fd env (.tread · · nbyte) fun d => (d.rBuf.take d.rCnt, d.rCnt)

/-- `_Write`. -/
def write (d : Ctx) (fd : Int) (buf : Bytes) (env : Env) : Rc Nat × Ctx :=
  transfer d fd env (.twrite · · buf) fun _ => (buf.length, buf.length)

/-! ### What the server answered -/

/-- A message answers the request of a call, which was queued and sent. -/
def Env.Answers (env : Env) (m : Message) : Prop :=
  env.tag = some m.tag ∧ env.sent = true ∧ env.arrival = .message m ∧ m.whole = true

/-- A call succeeds with what a message that answers its request entitles it to, or fails and moves
no offset. -/
def Acknowledged {α : Type} (d : Ctx) (fd : Int) (env : Env) (ask : Nat → Nat → Request)
    (entitles : Message → α → Prop) (out : Rc α × Ctx) : Prop :=
  match out with
  | (.error _, after) => ∀ i, (after.fildes i).currOff = (d.fildes i).currOff
  | (.ok value, after) => ∃ m, env.Answers m ∧ entitles m value ∧
      after.reqs = (m.tag, ask fd.toNat (d.fildes fd.toNat).currOff) :: d.reqs

/-- `_Read` returns data of an `Rread`, at most as much as was asked for. -/
def ReadAcknowledged (d : Ctx) (fd : Int) (nbyte : Nat) (env : Env) : Prop :=
  Acknowledged d fd env (.tread · · nbyte) (fun m bytes => ∃ size, m.reply = .rread size ∧
    bytes = m.behind.take size ∧ bytes.length ≤ nbyte) (read d fd nbyte env)

/-- `_Write` returns the count of an `Rwrite`. -/
def WriteAcknowledged (d : Ctx) (fd : Int) (buf : Bytes) (env : Env) : Prop :=
  Acknowledged d fd env (.twrite · · buf) (fun m count => m.reply = .rwrite count)
    (write d fd buf env)

/-- No request is made: the descriptor is out of range, or that of a directory. -/
def Refuses (d : Ctx) (fd : Int) : Prop :=
  maxOpenedFiles ≤ fd ∨ fd < 0 ∨ (d.fildes fd.toNat).isDirectory = true

/-- An error is noted: an `Rerror` arrives, or one came before and no `Rattach` arrives. -/
def NotesError (d : Ctx) : Arrival → Prop
  | .message ⟨_, .rerror, _⟩ => True
  | .message ⟨_, .rattach, _⟩ => False
  | _ => d.error = true

lemma exchange_spec (d : Ctx) (env : Env) (req : Request) :
    (exchange d env req).reqs = (env.tag.map (·, req)).toList ++ d.reqs ∧
      (exchange d env req).fildes = d.fildes ∧
      ((exchange d env req).error = true ↔ NotesError d env.arrival) := by
  obtain ⟨tag, _, arrival⟩ := env
  cases arrival with
  | nothing | broken behind => exact ⟨rfl, rfl, Iff.rfl⟩
  | message m =>
    obtain ⟨tag, reply, behind⟩ := m
    cases reply <;> simp [exchange, proc, ctxprocR, NotesError, Message.whole, Ctx.received]
    split <;> simp

lemma acknowledged_transfer_iff {α : Type} (d : Ctx) (fd : Int) (env : Env)
    (ask : Nat → Nat → Request) (finish : Ctx → α × Nat) (entitles : Message → α → Prop) :
    Acknowledged d fd env ask entitles (transfer d fd env ask finish) ↔
      Refuses d fd ∨ NotesError d env.arrival ∨ ∃ m, env.Answers m ∧ entitles m
        (finish (exchange d env (ask fd.toNat (d.fildes fd.toNat).currOff))).1 := by
  obtain ⟨reqs, fildes, error⟩ :=
    exchange_spec d env (ask fd.toNat (d.fildes fd.toNat).currOff)
  unfold transfer Refuses
  dsimp only
  split_ifs with range isDirectory failed
  · exact iff_of_true (fun _ => rfl) (.inl (range.imp_right .inl))
  · exact iff_of_true (fun _ => rfl) (.inl (.inr (.inr isDirectory)))
  · refine iff_of_true (fun i => ?_) (.inr (.inl (error.mp failed)))
    exact congrArg (fun files => (files i).currOff) fildes
  have proceeds : ¬ (maxOpenedFiles ≤ fd ∨ fd < 0 ∨ (d.fildes fd.toNat).isDirectory = true) := by
    grind
  have unnoted := mt error.mpr failed
  simp only [proceeds, unnoted, false_or]
  constructor
  · rintro ⟨m, answers, entitled, -⟩
    exact ⟨m, answers, entitled⟩
  rintro ⟨m, answers, entitled⟩
  -- a message with the tag of the request answers what was queued under it
  refine ⟨m, answers, entitled, ?_⟩
  rw [reqs, answers.1]
  rfl

/-- For every state, every call and whatever the connection does, `_Read` and `_Write` are
acknowledged iff the call is refused, an error is noted, or the message that arrives is the
answer to the request, with no more data than asked for or with the count of all the data. -/
theorem transfers_acknowledged_iff (d : Ctx) (fd : Int) (nbyte : Nat) (buf : Bytes) (env : Env) :
    (ReadAcknowledged d fd nbyte env ↔ Refuses d fd ∨ NotesError d env.arrival ∨
      ∃ m size, env.Answers m ∧ m.reply = .rread size ∧ size ≤ nbyte) ∧
    (WriteAcknowledged d fd buf env ↔ Refuses d fd ∨ NotesError d env.arrival ∨
      ∃ m, env.Answers m ∧ m.reply = .rwrite buf.length) := by
  refine ⟨?_, acknowledged_transfer_iff ..⟩
  refine (acknowledged_transfer_iff ..).trans (or_congr_right (or_congr_right ?_))
  have answered : ∀ m size, env.Answers m → m.reply = .rread size → ∀ req,
      (exchange d env req).rBuf.take (exchange d env req).rCnt = m.behind.take size ∧
        (m.behind.take size).length = size := by
    intro m size answers isRead req
    obtain ⟨-, -, arrived, whole⟩ := answers
    have enough : size ≤ m.behind.length := by simpa [Message.whole, isRead] using whole
    rw [exchange, arrived, proc, if_pos whole, isRead]
    exact ⟨List.take_append_of_le_length enough, List.length_take_of_le enough⟩
  constructor
  · rintro ⟨m, answers, size, isRead, same, within⟩
    rw [same, (answered m size answers isRead (.tread 0 0 0)).2] at within
    exact ⟨m, size, answers, isRead, within⟩
  · rintro ⟨m, size, answers, isRead, within⟩
    obtain ⟨same, length⟩ := answered m size answers isRead
      (.tread fd.toNat (d.fildes fd.toNat).currOff nbyte)
    exact ⟨m, answers, size, isRead, same, by rw [same, length]; exact within⟩

/-- A driver that has just opened file 1. -/
def opened : Ctx := ⟨false, List.replicate 8 0, 0, fun _ => ⟨0, false⟩, []⟩

/-- A read is answered with three bytes. The next one is not answered at all, and returns them again
and moves the offset. -/
theorem silent_read_repeats :
    let first := read opened 1 8 ⟨some 1, true, .message ⟨1, .rread 3, [97, 98, 99]⟩⟩
    let second := read first.2 1 8 ⟨some 2, true, .nothing⟩
    first.1.toOption = some [97, 98, 99] ∧ second.1.toOption = some [97, 98, 99] ∧
      (second.2.fildes 1).currOff = 6 ∧
      ¬ ReadAcknowledged first.2 1 8 ⟨some 2, true, .nothing⟩ := by
  refine ⟨by decide +kernel, by decide +kernel, by decide +kernel, ?_⟩
  rintro ⟨_, answers, -⟩
  cases answers.2.2.1

end WantedEngine.Vfs.NineP
