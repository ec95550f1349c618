import WantedEngine.Errno
import WantedEngine.Foundation.Machine
/-!
# The signature device

`vfs-ed25519.c`: the writes to `/dev/ed25519` carry a public key, a signature and then a message, cut
at any place, and the first read verifies them. A write that ends past the longest message is refused,
but the header has taken its bytes by then: the stream is the writes that succeeded as long as no
such write meets an incomplete header.
-/
namespace WantedEngine.Vfs.Ed25519

open Foundation List

/-- `ED25519_HDR_LEN`: a key of 32 bytes and a signature of 64. -/
def hdrLen : Nat := 96

/-- `ED25519_MAX_MSG_LEN`. -/
def maxMsgLen : Nat := 65536

/-- `struct vfs_driver_ctx_t`. -/
structure Ctx where
  inUse : Bool
  /-- The bytes of `hdr` and then those of `msg`, `written` in all. -/
  written : Bytes
  /-- The verdict, once the stream is `sealed`. -/
  verdict : Option Bytes
  readOff : Nat

/-- `_Write`; a buffer may be `NULL`. -/
def write (d : Ctx) (buf : Option Bytes) : Rc Nat × Ctx :=
  match d.inUse, buf, d.verdict with
  | false, _, _ => (.error .ebadf, d)
  | true, none, _ => (.error .einval, d)
  | true, some _, some _ => (.error .einval, d)
  | true, some bytes, none =>
    -- The header takes its part first, and keeps it when the rest is refused.
    let take := hdrLen - d.written.length
    let filled := d.written ++ bytes.take take
    if maxMsgLen - (filled.length - hdrLen) < (bytes.drop take).length then
      (.error .efbig, { d with written := filled })
    else (.ok bytes.length, { d with written := filled ++ bytes.drop take })

def verdictText (valid : Bool) : Bytes := ascii (if valid then "ok" else "fail")

/-- The part of a verdict that a read returns. -/
def give (d : Ctx) (verdict : Bytes) (nbyte : Nat) : Rc Bytes × Ctx :=
  let taken := (verdict.drop d.readOff).take nbyte
  (.ok taken, { d with verdict := some verdict, readOff := d.readOff + taken.length })

variable (verify : Bytes → Bytes → Bytes → Rc Bool)

/-- `PlatformEd25519Verify` on the parts of a stream. -/
def check (stream : Bytes) : Rc Bool :=
  verify (stream.take 32) ((stream.take hdrLen).drop 32) (stream.drop hdrLen)

/-- `_Read`, into a buffer of so many bytes, or `NULL`. -/
def read (d : Ctx) (room : Option Nat) : Rc Bytes × Ctx :=
  match d.inUse, room with
  | false, _ => (.error .ebadf, d)
  | true, none => (.error .einval, d)
  | true, some nbyte =>
    if d.written.length < hdrLen then (.error .einval, d)
    else
      match d.verdict with
      | some verdict => give d verdict nbyte
      | none =>
        match check verify d.written with
        | .error e => (.error e, d)
        | .ok valid => give { d with readOff := 0 } (verdictText valid) nbyte

/-! ### Streams -/

inductive Request where
  | write (buf : Option Bytes)
  | read (room : Option Nat)

/-- An open stream, with the writes that succeeded and the bytes that were read. -/
structure Session where
  ctx : Ctx
  accepted : Bytes
  shown : Bytes

def session : Machine Session Request Unit where
  step s
    | .write buf =>
      let (answer, ctx) := write s.ctx buf
      ((), { s with ctx, accepted := s.accepted ++ if answer.isOk then buf.getD [] else [] })
    | .read room =>
      let (answer, ctx) := read verify s.ctx room
      ((), { s with ctx, shown := s.shown ++ answer.toOption.getD [] })

/-- After `_Open`. -/
def opened : Session := ⟨⟨true, [], none, 0⟩, [], []⟩

/-- While the header is incomplete, a write leaves no more than the longest message behind it. -/
def Fits (s : Session) : Request → Prop
  | .write (some bytes) => s.ctx.written.length < hdrLen →
    bytes.length ≤ hdrLen - s.ctx.written.length + maxMsgLen
  | _ => True

/-- The stream is what was accepted, and what was read is the beginning of the verdict on it. -/
structure Follows (s : Session) : Prop where
  written : s.ctx.written = s.accepted
  readOff : s.ctx.readOff = s.shown.length
  unread : s.ctx.verdict = none → s.shown = []
  shown : ∀ verdict, s.ctx.verdict = some verdict →
    s.shown <+: verdict ∧ ∃ valid, check verify s.accepted = .ok valid ∧ verdict = verdictText valid

variable {verify} {s : Session}

variable (follows : Follows verify s)
include follows

lemma write_follows {buf : Option Bytes} (fits : Fits s (.write buf)) :
    Follows verify ((session verify).next s (.write buf)) := by
  obtain ⟨⟨inUse, stream, verdict, off⟩, accepted, read⟩ := s
  have same : stream = accepted := follows.written
  subst same
  match inUse, buf, verdict with
  | false, _, _ | true, none, _ | true, some _, some _ =>
    simpa [Machine.next, session, write, Except.toBool] using follows
  | true, some bytes, none =>
    rw [Machine.next, session]
    dsimp only [write]
    split
    · have full : hdrLen ≤ stream.length := by
        by_contra short
        have small := fits (Nat.lt_of_not_le short)
        grind
      rw [Nat.sub_eq_zero_of_le full]
      exact ⟨rfl, follows.readOff, follows.unread, nofun⟩
    · refine ⟨?_, follows.readOff, follows.unread, nofun⟩
      rw [append_assoc, take_append_drop]
      rfl

/-- A read fails and changes nothing, or goes on with the verdict on what was accepted. -/
lemma read_outcome (room : Option Nat) : (∃ e, read verify s.ctx room = (.error e, s.ctx)) ∨
      ∃ nbyte valid, room = some nbyte ∧ check verify s.accepted = .ok valid ∧
        s.shown <+: verdictText valid ∧
        read verify s.ctx room = give s.ctx (verdictText valid) nbyte := by
  unfold read
  split
  · exact .inl ⟨_, rfl⟩
  · exact .inl ⟨_, rfl⟩
  split
  · exact .inl ⟨_, rfl⟩
  split
  · rename_i sealed
    obtain ⟨before, valid, checked, rfl⟩ := follows.shown _ sealed
    exact .inr ⟨_, valid, rfl, checked, before, rfl⟩
  rename_i unsealed
  have unread := follows.unread unsealed
  split
  · exact .inl ⟨_, rfl⟩
  rename_i valid checked
  have start : s.ctx.readOff = 0 := by rw [follows.readOff, unread, length_nil]
  rw [follows.written] at checked
  rw [unread, ← start]
  exact .inr ⟨_, valid, rfl, checked, nil_prefix, rfl⟩

/-- What is read by then, when a verdict is given. -/
lemma shown_give {verdict : Bytes} (before : s.shown <+: verdict)
    (nbyte : Nat) : s.shown ++ (verdict.drop s.ctx.readOff).take nbyte =
      verdict.take (s.shown.length + nbyte) := by
  rw [take_add, ← prefix_iff_eq_take.mp before, follows.readOff]

lemma read_follows (room : Option Nat) : Follows verify ((session verify).next s (.read room)) := by
  rw [Machine.next, session]
  dsimp only
  obtain ⟨e, failed⟩ | ⟨nbyte, valid, rfl, checked, before, gives⟩ := read_outcome follows room
  · rw [failed]
    simpa [Except.toOption] using follows
  rw [gives]
  dsimp only [give, Except.toOption, Option.getD_some]
  refine ⟨follows.written, ?_, nofun, ?_⟩
  · rw [length_append, follows.readOff]
  rintro _ ⟨⟩
  rw [shown_give follows before]
  exact ⟨ take_prefix _ _, valid, checked, rfl⟩

omit follows

/-- On every run in which no write overflows an incomplete header, what is read is the verdict on the
writes that succeeded, as far as the room goes. -/
theorem verdict_of_accepted (verify : Bytes → Bytes → Bytes → Rc Bool)
    (reqs : List Request) (fits : (session verify).Obeys Fits opened reqs) :
    let s := (session verify).exec opened reqs
    ∀ nbyte bytes after, read verify s.ctx (some nbyte) = (.ok bytes, after) →
      ∃ valid, check verify s.accepted = .ok valid ∧
        s.shown ++ bytes = (verdictText valid).take (s.shown.length + nbyte) := by
  intro s nbyte bytes after ok
  have follows : Follows verify s := by
    refine (session verify).exec_invariant _ (fun s req follows fits => ?_)
      ⟨rfl, rfl, fun _ => rfl, nofun⟩ fits
    cases req with
    | write buf => exact write_follows follows fits
    | read room => exact read_follows follows room
  obtain ⟨e, failed⟩ | ⟨_, valid, ⟨⟩, checked, before, gives⟩ := read_outcome follows (some nbyte)
  · cases failed.symm.trans ok
  · cases gives.symm.trans ok
    exact ⟨valid, checked, shown_give follows before nbyte⟩

set_option maxRecDepth 2000 in
theorem verdict_of_accepted_two : ∃ valid, check (fun _ _ _ => .ok true) (replicate 97 1) = .ok valid ∧
    ascii "ok" = (verdictText valid).take 4 :=
  verdict_of_accepted (fun _ _ _ => .ok true)
    [.write (some (replicate 90 1)), .write (some (replicate 7 1))]
    ⟨fun _ => by decide, fun _ => by decide, trivial⟩ 4 (ascii "ok") _ rfl

/-- A header that lacks one byte gets it from a write that is refused, and a verdict is read where the
writes that succeeded hold no whole header. -/
theorem refused_write_completes_header : ∃ first second : Bytes,
    let s := (session fun _ _ _ => .ok true).exec opened [.write (some first), .write (some second)]
    s.accepted.length = 95 ∧ (read (fun _ _ _ => .ok true) s.ctx (some 4)).1 = .ok (ascii "ok") := by
  obtain ⟨first, short⟩ : ∃ first : Bytes, first.length = 95 := ⟨replicate 95 1, length_replicate⟩
  obtain ⟨second, long⟩ : ∃ second : Bytes, second.length = 65538 :=
    ⟨replicate 65538 1, length_replicate⟩
  refine ⟨first, second, ?_⟩
  simp [Machine.next, session, opened, write, read, hdrLen, maxMsgLen, short, long, Except.toBool]
  rfl

end WantedEngine.Vfs.Ed25519
