import WantedEngine.Ota.Linux
/-!
# What a Linux commit leaves in the trial slot

In every run the open staging file holds the bytes of the session's successful slot writes,
plus those a failed write left behind (`Session`). A commit renames the staging file of the
slot that is inactive at that moment. So a successful commit installs exactly the accepted
bytes when no write of the session failed partway and the inactive slot is still the one the
session was begun in, and otherwise only by coincidence (`CommitsWhole`). No request ever
changes the image of the slot the pointer file names active.
-/
namespace WantedEngine.Ota.Linux

open Foundation List

lemma inactiveSlot_ne (cfg : Config) (files : Files) :
    inactiveSlot cfg files ≠ activeSlot cfg files := by
  unfold inactiveSlot
  cases activeSlot cfg files <;> simp

lemma namedSlot_slotLine (slot : Slot) : namedSlot (slotLine slot) = some slot := by
  cases slot <;> decide +kernel

@[simp] lemma setSlot_same (files : Slot → Option Bytes) (slot : Slot) (content : Option Bytes) :
    setSlot files slot content slot = content := if_pos rfl

variable {slot : Slot} {s : State}

/-- What the write loop does: it appends the first bytes of the buffer to the staging file,
all of them when it succeeds. -/
lemma platformOtaWriteGo_appends (host : Host) (slot : Slot) (fuel count : Nat) (buf : Bytes)
    (files : Files) (content : Bytes) (present : files.staging slot = some content)
    (enough : buf.length ≤ fuel) :
    ∃ taken, (platformOtaWriteGo host slot fuel count buf files).2.staging slot =
        some (content ++ buf.take taken) ∧
      (platformOtaWriteGo host slot fuel count buf files).2.image = files.image ∧
      ((platformOtaWriteGo host slot fuel count buf files).1 = .ok () → buf.length ≤ taken) := by
  induction fuel generalizing count buf files content with
  | zero => exact ⟨0, by simpa [platformOtaWriteGo] using present, rfl, fun _ => enough⟩
  | succ fuel ih =>
    unfold platformOtaWriteGo
    by_cases empty : buf = []
    · rw [if_pos empty]
      exact ⟨0, by simpa using present, rfl, fun _ => by simp [empty]⟩
    rw [if_neg empty]
    cases host.write count with
    | error e => exact ⟨0, by simpa using present, rfl, by simp⟩
    | ok more =>
      have appended : (appendStaging files slot
          (buf.take (min (more + 1) buf.length))).staging slot =
            some (content ++ buf.take (min (more + 1) buf.length)) := by
        simp [appendStaging, present]
      obtain ⟨taken, staged, image, whole⟩ := ih (count + 1)
        (buf.drop (min (more + 1) buf.length)) _ _ appended
        (by rw [length_drop]; omega)
      refine ⟨min (more + 1) buf.length + taken, ?_, image, fun success => ?_⟩
      · rw [staged, append_assoc, take_add]
      have := whole success
      rw [length_drop] at this
      omega

/-- What the history knows about an open session: its staging file holds the accepted bytes,
and more iff a failed write left some behind. -/
structure Session (s : State) : Prop where
  /-- An untorn session's file is the accepted bytes. -/
  whole : ∀ slot, s.fd = some slot → s.torn = false → s.files.staging slot = some s.accepted
  /-- A torn session's file is longer than the accepted bytes. -/
  longer : ∀ slot, s.fd = some slot → s.torn = true →
    ∃ content, s.files.staging slot = some content ∧ s.accepted.length < content.length

/-- A closed session has nothing to keep. -/
lemma Session.of_closed (closed : s.fd = none) : Session s := by
  constructor <;> intro slot opened <;> simp [closed] at opened

variable (session : Session s)
include session

lemma Session.of_untouched {after : State} (staging : after.files.staging = s.files.staging)
    (fd : after.fd = s.fd) (accepted : after.accepted = s.accepted) (torn : after.torn = s.torn)
    : Session after where
  whole slot opened untorn := by
    rw [staging, accepted]
    exact session.whole slot (fd ▸ opened) (torn ▸ untorn)
  longer slot opened tornNow := by
    rw [staging, accepted]
    exact session.longer slot (fd ▸ opened) (torn ▸ tornNow)

variable (opened : s.fd = some slot)
include opened

lemma Session.staged :
    ∃ content, s.files.staging slot = some content ∧ s.accepted.length ≤ content.length := by
  cases torn : s.torn with
  | false => exact ⟨s.accepted, session.whole slot opened torn, Nat.le_refl _⟩
  | true =>
    obtain ⟨content, present, shorter⟩ := session.longer slot opened torn
    exact ⟨content, present, Nat.le_of_lt shorter⟩

lemma Session.accept {content buf : Bytes} (present : s.files.staging slot = some content)
    {files : Files} (staged : files.staging slot = some (content ++ buf)) :
    Session { s with files := files, accepted := s.accepted ++ buf } where
  whole at_ here untorn := by
    obtain rfl : slot = at_ := Option.some.inj (opened.symm.trans here)
    have before := session.whole slot opened untorn
    rw [present, Option.some.injEq] at before
    rw [← before]
    exact staged
  longer at_ here torn := by
    obtain rfl : slot = at_ := Option.some.inj (opened.symm.trans here)
    obtain ⟨_, foundHere, _⟩ := session.longer slot opened torn
    rw [present, Option.some.injEq] at foundHere
    refine ⟨content ++ buf, staged, ?_⟩
    simp only [length_append]
    rw [foundHere]
    omega

/-- A slot write that failed after appending some bytes keeps the session, as a torn one if
it appended any. -/
lemma Session.tear {content some_ : Bytes} (present : s.files.staging slot = some content)
    {files : Files} (staged : files.staging slot = some (content ++ some_)) :
    Session { s with
      files := files
      torn := s.torn || decide (stagedLength s < stagedLength { s with files := files }) } := by
  have grown : stagedLength { s with files := files } = stagedLength s + some_.length := by
    simp [stagedLength, opened, staged, present]
  obtain ⟨_, keptHere, _⟩ := session.staged opened
  rw [present, Option.some.injEq] at keptHere
  subst keptHere
  refine ⟨fun at_ here untorn => ?_, fun at_ here torn => ?_⟩
  · obtain rfl : slot = at_ := Option.some.inj (opened.symm.trans here)
    simp only [Bool.or_eq_false_iff, decide_eq_false_iff_not] at untorn
    have nothing : some_.length = 0 := by omega
    have before := session.whole slot opened untorn.1
    rw [present] at before
    rw [length_eq_zero_iff.mp nothing, append_nil, before] at staged
    exact staged
  obtain rfl : slot = at_ := Option.some.inj (opened.symm.trans here)
  refine ⟨content ++ some_, staged, ?_⟩
  simp only [Bool.or_eq_true, decide_eq_true_eq] at torn
  rw [length_append]
  change s.accepted.length < _
  rcases torn with before | now
  · obtain ⟨_, foundHere, _⟩ := session.longer slot opened before
    rw [present, Option.some.injEq] at foundHere
    rw [foundHere]
    omega
  · omega

omit opened session

lemma slotWrite_session (host : Host) (buf : Bytes) (session : Session s) :
    Session (noteSession ⟨.slot, buf, host⟩
        ((platformOtaWrite host buf s).1.map fun _ => buf.length) s (platformOtaWrite host buf s).2) ∧
      (platformOtaWrite host buf s).2.files.image = s.files.image := by
  cases opened : s.fd with
  | none =>
    have unchanged : platformOtaWrite host buf s = (.error .eperm, s) := by
      simp [platformOtaWrite, opened]
    rw [unchanged]
    exact ⟨Session.of_closed opened, rfl⟩
  | some slot =>
    obtain ⟨content, present, -⟩ := session.staged opened
    obtain ⟨taken, staged, image, whole⟩ :=
      platformOtaWriteGo_appends host slot buf.length 0 buf s.files content present (Nat.le_refl _)
    cases out : platformOtaWriteGo host slot buf.length 0 buf s.files with
    | mk result files =>
      rw [out] at staged image whole
      have wrote : platformOtaWrite host buf s = (result, { s with files := files }) := by
        simp [platformOtaWrite, opened, out]
      rw [wrote]
      refine ⟨?_, image⟩
      cases result with
      | ok _ =>
        have all := take_of_length_le (whole rfl)
        rw [all] at staged
        exact session.accept opened present staged
      | error e => exact session.tear opened present staged

variable (cfg : Config) (host : Host)
include cfg host

lemma platformOtaBeginWrite_cases (s : State) :
    (∃ e, platformOtaBeginWrite cfg host s = (.error e, s)) ∨
      ∃ slot, platformOtaBeginWrite cfg host s =
        (.ok (), { s with
          files := { s.files with staging := setSlot s.files.staging slot (some []) }
          fd := some slot }) := by
  unfold platformOtaBeginWrite
  split
  · exact .inl ⟨_, rfl⟩
  split
  · exact .inl ⟨_, rfl⟩
  cases host.mkdir with
  | some e => exact .inl ⟨_, rfl⟩
  | none =>
    dsimp only
    split
    · exact .inl ⟨_, rfl⟩
    cases host.openStaging with
    | some e => exact .inl ⟨_, rfl⟩
    | none => exact .inr ⟨_, rfl⟩

/-- What the end of a commit can do: fail with the images as they were or with the inactive
slot's image replaced, or succeed with the inactive slot's staging file as its image and the
trial boot armed. -/
lemma commitRename_cases (slot : Slot) (s : State) {after}
    (renamed : commitRename cfg host slot s = after) :
    after.2.fd = s.fd ∧ after.2.accepted = s.accepted ∧
      (∀ other, other ≠ slot → after.2.files.image other = s.files.image other) ∧
      (after.1 = .ok () → trybootSlot cfg after.2.files = some slot ∧
        after.2.files.image slot = s.files.staging slot ∧ s.files.staging slot ≠ none) := by
  subst renamed
  unfold commitRename
  cases staged : s.files.staging slot with
  | none => exact ⟨rfl, rfl, fun _ _ => rfl, by simp⟩
  | some content =>
    cases host.rename with
    | some e => exact ⟨rfl, rfl, fun _ _ => rfl, by simp⟩
    | none =>
      refine ⟨rfl, rfl, fun other different => if_neg different, fun success => ?_⟩
      dsimp only at success ⊢
      refine ⟨?_, setSlot_same _ _ _, by simp⟩
      unfold writeSlotFile at success ⊢
      by_cases fits : rootPathFits cfg "tryboot.txt" = true
      · rw [if_neg (not_not_intro fits)] at success ⊢
        unfold trybootSlot readSlotFile
        rw [if_pos fits]
        cases pointer : host.pointer with
        | done => exact namedSlot_slotLine slot
        | refused e | short written | unsynced e => simp [pointer] at success
      · rw [if_pos fits] at success
        cases success

/-- What a commit can do: it closes the session, keeps the accepted bytes and every image but
the inactive slot's, and a success installs that slot's staging file. -/
lemma platformOtaCommit_cases (s : State) : (platformOtaCommit cfg host s).2.fd = none ∧
      (∀ other, other ≠ inactiveSlot cfg s.files →
        (platformOtaCommit cfg host s).2.files.image other = s.files.image other) ∧
      ((platformOtaCommit cfg host s).1 = .ok () →
        trybootSlot cfg (platformOtaCommit cfg host s).2.files = some (inactiveSlot cfg s.files) ∧
          (platformOtaCommit cfg host s).2.files.image (inactiveSlot cfg s.files) =
            s.files.staging (inactiveSlot cfg s.files)) := by
  unfold platformOtaCommit
  cases opened : s.fd with
  | none => exact ⟨opened, fun _ _ => rfl, by simp⟩
  | some slot =>
    dsimp only
    split
    · exact ⟨rfl, fun _ _ => rfl, by simp⟩
    cases host.fsync with
    | some e => exact ⟨rfl, fun _ _ => rfl, by simp⟩
    | none =>
      obtain ⟨fd, -, images, installed⟩ :=
        commitRename_cases cfg host (inactiveSlot cfg s.files) { s with fd := none } rfl
      refine ⟨fd, images, fun success => ?_⟩
      obtain ⟨armed, image, -⟩ := installed success
      exact ⟨armed, image⟩

lemma platformOtaAbort_cases (s : State) : (platformOtaAbort cfg host s).2.fd = none ∧
      (platformOtaAbort cfg host s).2.files.image = s.files.image := by
  unfold platformOtaAbort
  cases opened : s.fd with
  | none => exact ⟨opened, rfl⟩
  | some slot =>
    dsimp only
    split
    · exact ⟨rfl, rfl⟩
    cases s.files.staging (inactiveSlot cfg s.files) with
    | none => exact ⟨rfl, rfl⟩
    | some content => cases host.unlink <;> exact ⟨rfl, rfl⟩

omit host cfg

/-- A step that changes neither slot files nor the session. -/
structure PointersOnly (s after : State) : Prop where
  staging : after.files.staging = s.files.staging
  image : after.files.image = s.files.image
  fd : after.fd = s.fd
  accepted : after.accepted = s.accepted
  torn : after.torn = s.torn

include cfg host

/-- `PlatformOtaConfirm` changes pointer files only. -/
lemma platformOtaConfirm_pointersOnly (s : State) :
    PointersOnly s (platformOtaConfirm cfg host s).2 := by
  unfold platformOtaConfirm
  cases trybootSlot cfg s.files with
  | none => exact ⟨rfl, rfl, rfl, rfl, rfl⟩
  | some pending =>
    dsimp only
    cases (writeSlotFile cfg host "active_slot.txt" pending s.files.active).1 <;>
      exact ⟨rfl, rfl, rfl, rfl, rfl⟩

lemma platformOtaRollback_pointersOnly (s : State) :
    PointersOnly s (platformOtaRollback cfg host s).2 := ⟨rfl, rfl, rfl, rfl, rfl⟩

omit host cfg

lemma noteSession_ctl {buf : Bytes} {host : Host} {rc : Rc Nat} {before after : State}
    (other : ¬ (requestedCommand buf = some .begin ∧ succeeded rc = true)) :
    noteSession ⟨.ctl, buf, host⟩ rc before after = after := if_neg other

include cfg

lemma serve_eq (s : State) (req : Request) : serve cfg s req =
      ((driverWrite (backing cfg req.host) req.node req.buf s).1,
        noteSession req (driverWrite (backing cfg req.host) req.node req.buf s).1 s
          (driverWrite (backing cfg req.host) req.node req.buf s).2) := rfl

lemma command_session (host : Host) (buf : Bytes) {command : Command} (session : Session s)
    (asked : requestedCommand buf = some command) :
    Session (serve cfg s ⟨.ctl, buf, host⟩).2 ∧
      ∀ other, other ≠ inactiveSlot cfg s.files →
        (serve cfg s ⟨.ctl, buf, host⟩).2.files.image other = s.files.image other := by
  rw [serve_eq, driverWrite_ctl_eq (backing cfg host) s asked]
  cases command with
  | begin =>
    have call : (backing cfg host).command .begin s = platformOtaBeginWrite cfg host s := rfl
    rw [call]
    rcases platformOtaBeginWrite_cases cfg host s with ⟨_, refused⟩ | ⟨slot, begun⟩
    · rw [refused, noteSession_ctl (by simp [Except.map])]
      exact ⟨session, fun _ _ => rfl⟩
    have noted : noteSession ⟨.ctl, buf, host⟩
        ((Except.ok () : Rc Unit).map fun _ => buf.length) s
        { s with
          files := { s.files with staging := setSlot s.files.staging slot (some []) }
          fd := some slot } =
        ⟨{ s.files with staging := setSlot s.files.staging slot (some []) }, some slot, [],
          false⟩ := by
      simp [noteSession, asked]
    rw [begun, noted]
    refine ⟨⟨fun at_ here _ => ?_, fun at_ _ torn => absurd torn (by simp)⟩, fun _ _ => rfl⟩
    obtain rfl : slot = at_ := Option.some.inj here
    exact setSlot_same _ _ _
  | commit =>
    rw [noteSession_ctl (by simp [asked])]
    obtain ⟨closed, images, -⟩ := platformOtaCommit_cases cfg host s
    exact ⟨Session.of_closed closed, images⟩
  | abort =>
    rw [noteSession_ctl (by simp [asked])]
    obtain ⟨closed, images⟩ := platformOtaAbort_cases cfg host s
    exact ⟨Session.of_closed closed, fun other _ => congrFun images other⟩
  | confirm =>
    rw [noteSession_ctl (by simp [asked])]
    obtain ⟨staging, image, fd, accepted, torn⟩ := platformOtaConfirm_pointersOnly cfg host s
    exact ⟨session.of_untouched staging fd accepted torn, fun other _ => congrFun image other⟩
  | rollback =>
    rw [noteSession_ctl (by simp [asked])]
    obtain ⟨staging, image, fd, accepted, torn⟩ := platformOtaRollback_pointersOnly cfg host s
    exact ⟨session.of_untouched staging fd accepted torn, fun other _ => congrFun image other⟩

lemma serve_session (session : Session s) (req : Request) : Session (serve cfg s req).2 ∧
      ∀ other, other ≠ inactiveSlot cfg s.files →
        (serve cfg s req).2.files.image other = s.files.image other := by
  obtain ⟨node, buf, host⟩ := req
  cases node with
  | slot =>
    obtain ⟨kept, image⟩ := slotWrite_session host buf session
    refine ⟨kept, fun other _ => ?_⟩
    rw [serve_eq]
    unfold noteSession
    dsimp only
    split <;> exact congrFun image other
  | ctl =>
    cases asked : requestedCommand buf with
    | none =>
      rw [serve_eq, noteSession_ctl (by simp [asked]), driverWrite_ctl_state, asked]
      exact ⟨session, fun _ _ => rfl⟩
    | some command => exact command_session cfg host buf session asked

lemma exec_session (files : Files) (reqs : List Request) :
    Session ((machine cfg).exec (start files) reqs) := by
  have closed : Session (start files) := Session.of_closed rfl
  exact (machine cfg).exec_invariant_of_step Session
    (fun _ req session => (serve_session cfg session req).1) closed reqs

omit cfg

/-- The condition on a commit: no slot write of the session failed partway and the inactive
slot is the one the session was begun in, or, when the inactive slot moved, the staging file
found there happens to hold the accepted bytes. -/
def CommitsWhole (cfg : Config) (s : State) : Prop :=
  (s.fd = some (inactiveSlot cfg s.files) ∧ s.torn = false) ∨
    (s.fd ≠ some (inactiveSlot cfg s.files) ∧
      s.files.staging (inactiveSlot cfg s.files) = some s.accepted)

/-- The inactive slot's staging file holds the accepted bytes exactly under the condition. -/
lemma commitsWhole_iff (cfg : Config) (session : Session s) :
    s.files.staging (inactiveSlot cfg s.files) = some s.accepted ↔ CommitsWhole cfg s := by
  unfold CommitsWhole
  by_cases here : s.fd = some (inactiveSlot cfg s.files)
  · simp only [here, true_and, ne_eq, not_true_eq_false, false_and, or_false]
    constructor
    · intro staged
      cases torn : s.torn with
      | false => rfl
      | true =>
        obtain ⟨_, present, shorter⟩ := session.longer _ here torn
        rw [staged, Option.some.injEq] at present
        rw [present] at shorter
        exact absurd shorter (Nat.lt_irrefl _)
    · exact session.whole _ here
  · simp [here]

/-- In every run, no request changes the image of the slot named active, and a commit that
returns success leaves the bytes accepted since its begin as the image of the slot named by
`tryboot.txt` iff it meets the condition. -/
theorem commit_installs_accepted (cfg : Config) (files : Files) (reqs : List Request) (req : Request) :
    let s := (machine cfg).exec (start files) reqs
    let after := (serve cfg s req).2
    after.files.image (activeSlot cfg s.files) = s.files.image (activeSlot cfg s.files) ∧
      (req.node = .ctl → requestedCommand req.buf = some .commit →
        succeeded (serve cfg s req).1 = true →
        ((∃ slot, trybootSlot cfg after.files = some slot ∧
          after.files.image slot = some s.accepted) ↔ CommitsWhole cfg s)) := by
  intro s after
  have session : Session s := exec_session cfg files reqs
  refine ⟨(serve_session cfg session req).2 _ (inactiveSlot_ne cfg s.files).symm, ?_⟩
  intro ctl asked success
  obtain ⟨node, buf, host⟩ := req
  obtain rfl : node = .ctl := ctl
  have served : serve cfg s ⟨.ctl, buf, host⟩ =
      ((platformOtaCommit cfg host s).1.map fun _ => buf.length, (platformOtaCommit cfg host s).2) := by
    rw [serve_eq, driverWrite_ctl_eq (backing cfg host) s asked,
      noteSession_ctl (by simp [show requestedCommand buf = some .commit from asked])]
    rfl
  have committed : (platformOtaCommit cfg host s).1 = .ok () := by
    rw [served] at success
    cases rc : (platformOtaCommit cfg host s).1 with
    | ok _ => rfl
    | error e => simp [rc] at success
  obtain ⟨armed, image⟩ := (platformOtaCommit_cases cfg host s).2.2 committed
  have afterwards : after = (platformOtaCommit cfg host s).2 := congrArg Prod.snd served
  rw [afterwards, armed, ← commitsWhole_iff cfg session, ← image]
  simp

def sampleConfig : Config := ⟨ascii "/ota", ascii "image"⟩

def goodHost : Host where
  mkdir := none
  openStaging := none
  write := fun _ => .ok 0
  fsync := none
  rename := none
  pointer := .done
  unlink := none

/-- A host whose first write takes one byte and whose second fails. -/
def fullHost : Host := { goodHost with write := fun n => if n = 0 then .ok 0 else .error .enospc }

def noFiles : Files := ⟨none, none, fun _ => none, fun _ => none⟩

def writeOnce (host : Host) : List Request :=
  [⟨.ctl, ascii "begin", goodHost⟩, ⟨.slot, [1, 2, 3], host⟩]

def goodCommit : Request := ⟨.ctl, ascii "commit", goodHost⟩

/-- A commit after a whole write meets the condition and installs its bytes. -/
theorem commit_installs_accepted_whole :
    let s := (machine sampleConfig).exec (start noFiles) (writeOnce goodHost)
    CommitsWhole sampleConfig s ∧
      ∃ slot, trybootSlot sampleConfig (serve sampleConfig s goodCommit).2.files = some slot ∧
        (serve sampleConfig s goodCommit).2.files.image slot = some s.accepted := by
  have whole : CommitsWhole sampleConfig
      ((machine sampleConfig).exec (start noFiles) (writeOnce goodHost)) :=
    Or.inl ⟨by decide +kernel, by decide +kernel⟩
  refine ⟨whole, ?_⟩
  have installed := (commit_installs_accepted sampleConfig noFiles (writeOnce goodHost)
    goodCommit).2 rfl (by decide +kernel) (by decide +kernel)
  exact installed.mpr whole

/-- A slot write that fails after one byte leaves that byte: the commit after it succeeds and
installs an image of no successful write. -/
theorem commit_installs_torn :
    let s := (machine sampleConfig).exec (start noFiles) (writeOnce fullHost)
    s.accepted = [] ∧ succeeded (serve sampleConfig s goodCommit).1 = true ∧
      trybootSlot sampleConfig (serve sampleConfig s goodCommit).2.files = some .b ∧
      (serve sampleConfig s goodCommit).2.files.image .b = some [1] := by
  decide +kernel

end WantedEngine.Ota.Linux
