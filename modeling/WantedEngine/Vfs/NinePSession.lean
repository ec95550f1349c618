import WantedEngine.Foundation.Machine
import WantedEngine.Vfs.NineP
/-!
# The session of the 9P driver

`_Open` of the 9P driver connects when `CONN_ATTACHED` is not set. An `Rerror`, whatever it answers,
sets `CONN_ERROR` and clears `CONN_ATTACHED`, so the next open connects once more: the connection
before is left open, and the descriptors walked on it stay opened (`error_reply_splits_session`).
Error replies and hang-ups are harmless until then (`session_whole`).
-/
namespace WantedEngine.Vfs.NineP

open Foundation Function

/-- The flags and the connections, with the fids of the server. -/
structure Link where
  /-- `CONN_ERROR`. -/
  error : Bool
  /-- `CONN_ATTACHED`. -/
  attached : Bool
  /-- The connection in use, by the dials before it. -/
  conn : Nat
  dials : Nat
  /-- The connections that are open. -/
  sockets : List Nat
  /-- The fids attached or walked, each with its connection. -/
  fids : List (Nat × Nat)
  deriving DecidableEq

/-- What a send ends in: `wrsend` closes the connection unless the server has. -/
inductive Send where
  | done | refused | hungUp
  deriving DecidableEq

/-- What a wait ends in: `select` fails, no message is understood, the connection cannot be read and
is closed, or a message. -/
inductive Wait where
  | failed | silent | hungUp
  | reply (r : Reply)
  deriving DecidableEq

abbrev Turn := Send × Wait

def Link.hangUp (link : Link) : Link :=
  { link with attached := false, sockets := link.sockets.erase link.conn }

def wrsend (link : Link) : Send → Link
  | .hungUp => link.hangUp
  | _ => link

/-- `proc`, with `ctxprocR`, after a walk to a fid or another request. -/
def take (link : Link) (walk : Option Nat) : Wait → Link
  | .hungUp => link.hangUp
  | .reply .rattach =>
    { link with error := false, attached := true, fids := (link.conn, 0) :: link.fids }
  | .reply .rwalk => { link with fids := walk.toList.map (link.conn, ·) ++ link.fids }
  | .reply .rerror => { link with error := true, attached := false }
  | _ => link

/-- A request whose results are dropped. -/
def ask (link : Link) (turn : Turn) : Link := take (wrsend link turn.1) none turn.2

/-- A request of `_Open` whose results are looked at, then the error flag. -/
def demand (link : Link) (walk : Option Nat) (turn : Turn) : Bool × Link :=
  if turn.1 ≠ .done then (false, wrsend link turn.1)
  else if turn.2 = .failed then (false, link)
  else
    let link := take link walk turn.2
    (!link.error, { link with error := false })

/-- The loop of `_Open` until the session is attached. -/
def attach (link : Link) : List Turn → Link
  | [] => link
  | (send, wait) :: rest =>
    let link := take link none wait
    if wait = .failed then link
    else if send ≠ .done then wrsend link send
    else if link.attached then link
    else attach link rest

/-- What `_Open` depends on: whether a dial succeeds, and what its sends and waits end in. In the
loop, which ends with its list, a wait comes before its send. -/
structure OpenEnv where
  dialled : Bool
  version : Send
  attaching : List Turn
  root : Turn
  walk : Turn
  open_ : Turn

/-- `start` and the loop after it. -/
def connect (link : Link) (env : OpenEnv) : Link :=
  attach (wrsend { link with
    conn := link.dials
    dials := link.dials + 1
    sockets := link.dials :: link.sockets } env.version) env.attaching

/-- `vfs_driver_ctx_t` without the offsets and types of the files. -/
structure Session where
  link : Link
  opened : Nat → Bool

def Session.mark (s : Session) (fd : Nat) (isOpened : Bool) : Session :=
  { s with opened := update s.opened fd isOpened }

/-- The first part of `_Open`, on a session that is attached or dialled. -/
def openRoot (s : Session) (env : OpenEnv) : Session :=
  let s := if s.link.attached then s else { s with link := connect s.link env }.mark 0 false
  if s.opened 0 then s else { s with link := ask s.link env.root }.mark 0 true

/-- `_Open` of the root, or of a path below it, behind the split of the path. -/
def open_ (s : Session) (isRoot : Bool) (env : OpenEnv) : Rc Nat × Session :=
  if !s.link.attached && !env.dialled then (.error .eagain, s)
  else
    let s := openRoot s env
    if isRoot then (.ok 0, s)
    else
      match (List.range maxOpenedFiles).find? (!s.opened ·) with
      | none => (.error .emfile, s)
      | some fd =>
        match demand s.link (some fd) env.walk with
        | (false, link) => (.error .eio, { s with link })
        | (true, link) =>
          match demand link none env.open_ with
          | (false, link) => (.error .eio, { s with link })
          | (true, link) => (.ok fd, { s with link }.mark fd true)

/-- Calls of the driver: a read or a write asks unless its descriptor is refused. -/
inductive Call where
  | open_ (isRoot : Bool) (env : OpenEnv)
  | close (fd : Nat) (turn : Turn)
  | transfer (turn : Turn)

/-- The session after a call. -/
def serve (s : Session) : Call → Session
  | .open_ isRoot env => (open_ s isRoot env).2
  | .close fd turn =>
    if fd = 0 ∨ maxOpenedFiles ≤ fd then s else { s with link := ask s.link turn }.mark fd false
  | .transfer turn => { s with link := { ask s.link turn with error := false } }

def sessionMachine : Machine Session Call Unit := ⟨fun s call => ((), serve s call)⟩

def unconnected : Session := ⟨⟨false, false, 0, 0, [], []⟩, fun _ => false⟩

/-- Every descriptor marked as opened names a fid of the connection in use, and at most one
connection is open. -/
structure Session.Whole (s : Session) : Prop where
  opened : ∀ fd, s.opened fd = true → (s.link.conn, fd) ∈ s.link.fids
  one : s.link.sockets.length ≤ 1

/-- What a call asks of the session before it and of the server, whatever else is refused, lost or
answered by an `Rerror`: an open dials only when no connection is open and no descriptor but the root's is
marked, and gets attached then; and a walk that was sent ends in an `Rwalk`, an `Rerror` or a failure. -/
def Session.Admits (s : Session) : Call → Prop
  | .open_ isRoot env =>
    (s.link.attached = false → env.dialled = true → s.link.sockets = [] ∧
      (∀ fd, fd ≠ 0 → s.opened fd = false) ∧ (connect s.link env).attached = true) ∧
    (isRoot = false → env.walk.1 = .done → env.walk.2 ∈ [.reply .rwalk, .reply .rerror, .failed])
  | _ => True

/-- A whole session, with the root's fid while it is attached. -/
structure Session.Sound (s : Session) : Prop extends s.Whole where
  root : s.link.attached = true → (s.link.conn, 0) ∈ s.link.fids

/-! No send and no wait opens a connection or takes a fid away. -/

variable {s : Session} {link : Link} {opened : Nat → Bool} (sound : Session.Sound ⟨link, opened⟩)
include sound

lemma sound_hangUp : Session.Sound ⟨link.hangUp, opened⟩ :=
  ⟨⟨sound.opened, Nat.le_trans List.erase_sublist.length_le sound.one⟩, by simp [Link.hangUp]⟩

lemma sound_wrsend (send : Send) : Session.Sound ⟨wrsend link send, opened⟩ := by
  cases send with
  | done | refused => exact sound
  | hungUp => exact sound_hangUp sound

lemma sound_take (walk : Option Nat) (wait : Wait) : Session.Sound ⟨take link walk wait, opened⟩ := by
  cases wait with
  | failed | silent => exact sound
  | hungUp => exact sound_hangUp sound
  | reply r =>
    cases r
    case rattach =>
      exact ⟨⟨fun fd marked => .tail _ (sound.opened fd marked), sound.one⟩, fun _ => .head _⟩
    case rwalk =>
      exact ⟨⟨fun fd marked => List.mem_append_right _ (sound.opened fd marked), sound.one⟩,
        fun attached => List.mem_append_right _ (sound.root attached)⟩
    case rerror => exact ⟨⟨sound.opened, sound.one⟩, by simp [take]⟩
    all_goals exact sound

lemma sound_ask (turn : Turn) : Session.Sound ⟨ask link turn, opened⟩ :=
  sound_take (sound_wrsend sound turn.1) none turn.2

lemma sound_demand (walk : Option Nat) (turn : Turn) :
    Session.Sound ⟨(demand link walk turn).2, opened⟩ := by
  have taken := sound_take sound walk turn.2
  unfold demand
  split_ifs
  · exact sound_wrsend sound turn.1
  · exact sound
  · exact ⟨⟨taken.opened, taken.one⟩, taken.root⟩

lemma sound_attach (turns : List Turn) : Session.Sound ⟨attach link turns, opened⟩ := by
  induction turns generalizing link with
  | nil => exact sound
  | cons turn rest ih =>
    have taken := sound_take sound none turn.2
    simp only [attach]
    split_ifs
    · exact taken
    · exact sound_wrsend taken _
    · exact taken
    · exact ih taken

lemma sound_mark {fd : Nat} {isOpened : Bool} (fid : isOpened = true → (link.conn, fd) ∈ link.fids) :
    Session.Sound (.mark ⟨link, opened⟩ fd isOpened) := by
  refine ⟨⟨fun other marked => ?_, sound.one⟩, sound.root⟩
  rcases eq_or_ne other fd with rfl | differs
  · exact fid ((update_self ..).symm.trans marked)
  · exact sound.opened other ((update_of_ne differs ..).symm.trans marked)

/-- A walk that ends well has made the fid. -/
lemma demand_walks {fd : Nat} {turn : Turn}
    (ends : turn.1 = .done → turn.2 ∈ [.reply .rwalk, .reply .rerror, .failed])
    (done : (demand link (some fd) turn).1 = true) :
    Session.Sound (.mark ⟨(demand link (some fd) turn).2, opened⟩ fd true) := by
  refine sound_mark (sound_demand sound _ _) fun _ => ?_
  unfold demand at done ⊢
  split_ifs at done ⊢ with sent failed
  have ended := ends (not_not.mp sent)
  simp only [List.mem_cons, List.not_mem_nil, or_false, failed] at ended
  rcases ended with walked | refused
  · rw [walked]
    exact .head _
  · simp [refused, take] at done

omit sound

/-- The first part of an open leaves a sound session. -/
lemma openRoot_sound (sound : s.Sound) {isRoot : Bool} {env : OpenEnv}
    (dialled : s.link.attached = false → env.dialled = true) (admits : s.Admits (.open_ isRoot env)) :
    (openRoot s env).Sound := by
  have opensRoot : ∀ {s : Session}, s.Sound → s.link.attached = true →
      (if s.opened 0 then s else { s with link := ask s.link env.root }.mark 0 true).Sound := by
    intro s sound attached
    have marked : (s.mark 0 true).Sound := sound_mark sound fun _ => sound.root attached
    split
    · exact sound
    · exact sound_ask marked env.root
  rw [openRoot]
  cases attached : s.link.attached with
  | true => exact opensRoot sound attached
  | false =>
    obtain ⟨noSocket, unmarked, attaches⟩ := admits.1 attached (dialled attached)
    have dialled : Session.Sound ⟨{ s.link with
        conn := s.link.dials
        dials := s.link.dials + 1
        sockets := s.link.dials :: s.link.sockets }, fun _ => false⟩ :=
      ⟨⟨by simp, by simp [noSocket]⟩, by simp [attached]⟩
    have nothing : update s.opened 0 false = fun _ => false := by
      funext fd
      rcases eq_or_ne fd 0 with rfl | differs
      · exact update_self ..
      · exact (update_of_ne differs ..).trans (unmarked fd differs)
    refine opensRoot ?_ attaches
    rw [Session.mark, nothing]
    exact sound_attach (sound_wrsend dialled env.version) env.attaching

/-- One call keeps the session whole. -/
lemma serve_sound {call : Call} (sound : s.Sound) (admits : s.Admits call) : (serve s call).Sound := by
  cases call with
  | open_ isRoot env =>
    simp only [serve, open_]
    split_ifs with refused root
    · exact sound
    all_goals
      have rooted := openRoot_sound sound (by simpa using refused) admits
      generalize openRoot s env = s at rooted
    · exact rooted
    split
    · exact rooted
    rename_i fd _
    have walks := sound_demand rooted (some fd) env.walk
    have walked := @demand_walks _ _ rooted fd _ (admits.2 (by simpa using root))
    generalize demand s.link (some fd) env.walk = walk at walks walked ⊢
    obtain ⟨_ | _, link⟩ := walk
    · exact walks
    have opens := sound_demand walks none env.open_
    have opened := sound_demand (walked rfl) none env.open_
    dsimp only at opens opened ⊢
    generalize demand link none env.open_ = last at opens opened ⊢
    obtain ⟨_ | _, after⟩ := last
    · exact opens
    · exact opened
  | close fd turn =>
    simp only [serve]
    split_ifs
    · exact sound
    · exact sound_mark (sound_ask sound turn) (absurd · Bool.false_ne_true)
  | transfer turn =>
    obtain ⟨⟨opened, one⟩, root⟩ := sound_ask sound turn
    exact ⟨⟨opened, one⟩, root⟩

/-- In every sequence of opens, closes and transfers, with every refusal, hang-up and error reply, in which
an open dials only when there is no connection and no descriptor to lose and gets attached, and each walk
that is sent ends in a reply to it: the descriptors that are opened name fids of the connection in use, and
at most one connection is open. -/
theorem session_whole {calls : List Call}
    (admits : sessionMachine.Obeys Session.Admits unconnected calls) :
    (sessionMachine.exec unconnected calls).Whole := by
  have start : unconnected.Sound :=
    ⟨⟨fun _ marked => absurd marked Bool.false_ne_true, Nat.zero_le 1⟩, (absurd · Bool.false_ne_true)⟩
  exact (sessionMachine.exec_invariant Session.Sound (fun _ _ sound admits => serve_sound sound admits)
    start admits).toWhole

/-- A server that answers, and one whose walk ends in an `Rerror`. -/
def answering (walk : Reply) : OpenEnv :=
  ⟨true, .done, [(.done, .reply .rversion), (.done, .reply .rattach)], (.done, .reply .ropen),
    (.done, .reply walk), (.done, .reply .ropen)⟩

/-- The walk of the first open is answered by an `Rerror`, and its only connection is then closed by the
server: the second open dials again and its descriptor is whole. -/
theorem session_whole_again :
    let calls := [.open_ false (answering .rerror), .transfer (.hungUp, .silent),
      .open_ false (answering .rwalk)]
    (sessionMachine.exec unconnected calls).opened 1 = true ∧
      (sessionMachine.exec unconnected calls).Whole := by
  refine ⟨rfl, session_whole ⟨⟨fun _ _ => ⟨rfl, fun _ _ => rfl, rfl⟩, by decide⟩, trivial,
    ⟨fun _ _ => ⟨rfl, ?_, rfl⟩, by decide⟩, trivial⟩⟩
  intro fd differs
  exact (update_of_ne differs ..).trans (update_of_ne differs ..)

/-- After a walk to a missing file the next open splits the session: descriptor 1 is opened on the
connection before, which is open as well. -/
theorem error_reply_splits_session :
    let s := sessionMachine.exec unconnected
      ([.rwalk, .rerror, .rwalk].map fun walk => .open_ false (answering walk))
    s.opened 1 = true ∧ s.link.sockets = [1, 0] ∧ (s.link.conn, 1) ∉ s.link.fids ∧ ¬ s.Whole := by
  refine ⟨rfl, rfl, by decide, fun whole => ?_⟩
  exact absurd whole.one (by decide)

end WantedEngine.Vfs.NineP
