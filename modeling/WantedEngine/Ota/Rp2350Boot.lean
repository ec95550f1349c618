import WantedEngine.Ota.Rp2350
/-!
# What a pending boot finds in the RP2350 update slot

A committed image waits in the update slot until a reboot request boots it. The history of
the slot says which image that should be: the one of the last successful commit, as long as
nothing was erased or programmed since (`pendingImage`). A new session begun while a swap
is pending erases the slot and leaves the pending flag set, so the next reboot boots a slot
that no longer holds the committed image. In every run that begins no session over a
pending swap the slot and the flag agree, which the invariant `Staged` carries.
-/
namespace WantedEngine.Ota.Rp2350

open Foundation

/-- The image of the last successful commit, as long as nothing was erased or programmed
in the slot since. -/
def pendingImage : List SlotEvent → Option Bytes
  | [] => none
  | .committed image :: _ => some image
  | .bootPending _ :: rest => pendingImage rest
  | .erased :: _ => none
  | .programmed :: _ => none
  | .restarted :: _ => none

/-- Every boot-slot request of a history found exactly the image of the last successful
commit, untouched since. -/
def bootsCommitted : List SlotEvent → Bool
  | [] => true
  | .bootPending image :: rest => pendingImage rest = some image && bootsCommitted rest
  | .committed _ :: rest => bootsCommitted rest
  | .erased :: rest => bootsCommitted rest
  | .programmed :: rest => bootsCommitted rest
  | .restarted :: rest => bootsCommitted rest

/-- The request is a `begin` that gets past the checks and the open to the bulk erase. -/
def beginErases (board : Board) : Request → Bool
  | .write .ctl buf dev => requestedCommand buf = some .begin ∧ board.ota.inited ∧
      ¬ board.ota.writing ∧ dev.openSlot = none
  | .write .slot _ _ => false
  | .reboot _ => false

/-- The condition on a request: it does not erase the slot while a committed image is
pending in it. -/
def KeepsPending (board : Board) (req : Request) : Prop :=
  beginErases board req = true → board.ota.pendingSwap = false

instance decidableKeepsPending (board : Board) (req : Request) : Decidable (KeepsPending board req) :=
  inferInstanceAs (Decidable (_ → _))

/-- The invariant of runs that keep pending images. -/
structure Staged (board : Board) : Prop where
  /-- No session is open over a pending image. -/
  closed : board.ota.writing = true → board.ota.pendingSwap = false
  /-- A pending image is in the slot. -/
  held : board.ota.pendingSwap = true → pendingImage board.log = some board.slot
  /-- Every boot so far found its image. -/
  booted : bootsCommitted board.log = true

variable {board : Board} {dev : Device}

/-- A step that leaves the slot, its history and the pending flag alone and opens no session
keeps the invariant. -/
lemma Staged.of_untouched {after : Board} (staged : Staged board) (slot : after.slot = board.slot)
    (log : after.log = board.log) (flag : after.ota.pendingSwap = board.ota.pendingSwap)
    (session : after.ota.writing = true → board.ota.writing = true) : Staged after where
  closed writing := by rw [flag]; exact staged.closed (session writing)
  held pending := by
    rw [slot, log]
    exact staged.held (by rw [← flag]; exact pending)
  booted := by rw [log]; exact staged.booted

lemma bootsCommitted_programmed (count : Nat) (log : List SlotEvent) :
    bootsCommitted (List.replicate count .programmed ++ log) = bootsCommitted log := by
  induction count with
  | zero => simp
  | succ count ih => simpa [List.replicate_succ, bootsCommitted] using ih

/-- What the programming functions can do: program some units and change neither the pending
flag nor whether the session is open, except to close it. -/
structure Programs (board after : Board) : Prop where
  flag : after.ota.pendingSwap = board.ota.pendingSwap
  session : after.ota.writing = true → board.ota.writing = true
  log : ∃ count, after.log = List.replicate count .programmed ++ board.log

/-- Doing nothing programs nothing. -/
lemma Programs.refl (board : Board) : Programs board board :=
  ⟨rfl, id, 0, rfl⟩

lemma Programs.trans {first second third : Board} (one : Programs first second)
    (two : Programs second third) : Programs first third := by
  obtain ⟨flag, session, count, log⟩ := one
  obtain ⟨flag', session', count', log'⟩ := two
  refine ⟨flag'.trans flag, fun writing => session (session' writing), count' + count, ?_⟩
  rw [log', log, ← List.append_assoc, List.replicate_append_replicate]

lemma endSession_programs (board : Board) : Programs board (endSession board) :=
  ⟨rfl, by simp [endSession], 0, rfl⟩

lemma setUnit_programs (board : Board) (unit : Bytes) :
    Programs board { board with ota := { board.ota with unit := unit } } :=
  ⟨rfl, id, 0, rfl⟩

lemma writeUnit_programs (answer : Programmed) (unit : Bytes) (board : Board) :
    Programs board (writeUnit answer unit board).2 := by
  unfold writeUnit
  cases answer with
  | failed e slot | short slot => exact ⟨rfl, id, 1, rfl⟩
  | done =>
    by_cases fits : board.ota.fd.getD 0 + unit.length ≤ board.slot.length
    · simp only [fits]
      exact ⟨rfl, id, 1, rfl⟩
    · simp only [fits]
      exact ⟨rfl, id, 1, rfl⟩

lemma platformOtaWriteGo_programs (dev : Device) (fuel count : Nat) (buf : Bytes)
    (board : Board) : Programs board (platformOtaWriteGo dev fuel count buf board).2 := by
  induction fuel generalizing count buf board with
  | zero => exact Programs.refl board
  | succ fuel ih =>
    unfold platformOtaWriteGo
    by_cases done : buf = []
    · simp only [done]
      exact Programs.refl board
    simp only [done]
    generalize board.ota.unit ++ buf.take _ = unit
    have buffered := setUnit_programs board unit
    by_cases full : unit.length = otaProgramUnit
    · simp only [full]
      have written := writeUnit_programs (dev.program count) unit
        { board with ota := { board.ota with unit := unit } }
      cases out : writeUnit (dev.program count) unit
          { board with ota := { board.ota with unit := unit } } with
      | mk rc after =>
        rw [out] at written
        cases rc with
        | error e => exact (buffered.trans written).trans (endSession_programs after)
        | ok _ =>
          exact ((buffered.trans written).trans (setUnit_programs after [])).trans (ih _ _ _)
    · simp only [full]
      exact buffered.trans (ih _ _ _)

lemma platformOtaWrite_programs (dev : Device) (buf : Bytes) (board : Board) :
    Programs board (platformOtaWrite dev buf board).2 := by
  unfold platformOtaWrite
  by_cases writing : board.ota.writing = true
  · rw [if_neg (not_not_intro writing)]
    exact platformOtaWriteGo_programs dev _ _ _ _
  · rw [if_pos writing]
    exact Programs.refl board

lemma commitTail_programs (dev : Device) (board : Board) : Programs board (commitTail dev board).2 := by
  unfold commitTail
  by_cases buffered : board.ota.unit.length > 0
  · simp only [buffered]
    generalize board.ota.unit ++ List.replicate _ _ = unit
    have written := writeUnit_programs (dev.program 0) unit board
    cases out : writeUnit (dev.program 0) unit board with
    | mk rc after =>
      rw [out] at written
      cases rc with
      | error e => exact written.trans (endSession_programs after)
      | ok _ => exact written.trans (setUnit_programs after [])
  · simp only [buffered]
    exact Programs.refl board

lemma Programs.staged {after : Board} (programs : Programs board after) (staged : Staged board)
    (idle : board.ota.pendingSwap = false) : Staged after := by
  obtain ⟨flag, -, _, log⟩ := programs
  refine ⟨fun _ => flag.trans idle, fun pending => ?_, ?_⟩
  · rw [flag, idle] at pending
    cases pending
  · rw [log, bootsCommitted_programmed]
    exact staged.booted

lemma restart_staged (boot : Boot) (booted : bootsCommitted board.log = true) :
    Staged (restart boot board) where
  closed := by simp [restart, platformOtaInit]
  held := by simp [restart, platformOtaInit]
  booted := booted

lemma platformOtaBeginWrite_staged (staged : Staged board)
    (kept : board.ota.inited = true → board.ota.writing = false → dev.openSlot = none →
      board.ota.pendingSwap = false) : Staged (platformOtaBeginWrite dev board).2 := by
  unfold platformOtaBeginWrite
  by_cases inited : board.ota.inited = true
  · rw [if_neg (not_not_intro inited)]
    by_cases writing : board.ota.writing = true
    · rw [if_pos writing]
      exact staged
    rw [if_neg writing]
    cases opened : dev.openSlot with
    | some e => exact staged.of_untouched rfl rfl rfl id
    | none =>
      have idle := kept inited (by simpa using writing) opened
      cases dev.erase with
      | some failure | none =>
        refine ⟨fun _ => idle, fun pending => ?_, staged.booted⟩
        exact absurd (pending.symm.trans idle) (by simp)
  · rw [if_pos inited]
    exact staged

/-- What a commit leaves: an error and the invariant, or a success with the session closed
and no boot added. -/
def CommitEnds (out : Rc Unit × Board) : Prop :=
  (∃ e, out.1 = .error e ∧ Staged out.2) ∨
    (out.1 = .ok () ∧ out.2.ota.writing = false ∧ bootsCommitted out.2.log = true)

/-- Checking the staged image ends a commit. -/
lemma commitStaged_ends (staged : Staged board) : CommitEnds (commitStaged dev board) := by
  unfold commitStaged
  cases stagedImageLooksSane dev board.slot with
  | error e =>
    exact .inl ⟨e, rfl, staged.of_untouched rfl rfl rfl (by simp [endSession])⟩
  | ok _ => exact .inr ⟨rfl, rfl, staged.booted⟩

lemma platformOtaCommit_ends (staged : Staged board) : CommitEnds (platformOtaCommit dev board) := by
  unfold platformOtaCommit
  by_cases writing : board.ota.writing = true
  · rw [if_neg (not_not_intro writing)]
    have tail := (commitTail_programs dev board).staged staged (staged.closed writing)
    cases out : commitTail dev board with
    | mk rc after =>
      rw [out] at tail
      cases rc with
      | error e => exact .inl ⟨e, rfl, tail⟩
      | ok _ => exact commitStaged_ends tail
  · rw [if_pos writing]
    exact .inl ⟨.eperm, rfl, staged⟩

lemma platformOtaConfirm_state (dev : Device) (board : Board) :
    (platformOtaConfirm dev board).2 = board := by
  unfold platformOtaConfirm
  cases dev.openSlot <;> cases dev.ioctl <;> rfl

lemma platformOtaRollback_staged (staged : Staged board) :
    Staged (platformOtaRollback dev board).2 := by
  unfold platformOtaRollback
  cases board.ota.activeSlot with
  | none =>
    cases dev.openSlot with
    | some e => exact staged
    | none =>
      cases dev.ioctl with
      | some e => exact staged
      | none => exact restart_staged dev.boot staged.booted
  | some slot =>
    cases dev.openSlot with
    | some e => exact staged.of_untouched rfl rfl rfl id
    | none =>
      cases dev.ioctl with
      | some e => exact staged.of_untouched rfl rfl rfl id
      | none => exact restart_staged dev.boot staged.booted

lemma boardOtaBootPending_booted (staged : Staged board) :
    bootsCommitted (boardOtaBootPending dev board).log = true := by
  unfold boardOtaBootPending
  by_cases pending : board.ota.pendingSwap = true
  · rw [if_neg (not_not_intro pending)]
    cases dev.openSlot with
    | some e => exact staged.booted
    | none => simp [bootsCommitted, staged.held pending, staged.booted]
  · rw [if_pos pending]
    exact staged.booted

lemma noteCommit_staged {buf : Bytes} {out : Rc Unit × Board}
    (command : requestedCommand buf = some .commit) (ends : CommitEnds out) :
    Staged (noteCommit .ctl buf (out.1.map fun _ => buf.length) out.2) := by
  rcases ends with ⟨_, failed, staged⟩ | ⟨success, closed, booted⟩
  · simpa [noteCommit, failed] using staged
  have noted : noteCommit .ctl buf (out.1.map fun _ => buf.length) out.2 =
      { out.2 with log := .committed out.2.slot :: out.2.log } := by
    simp [noteCommit, success, command]
  rw [noted]
  exact ⟨fun writing => absurd (closed.symm.trans writing) (by simp), fun _ => rfl, booted⟩

lemma noteCommit_other {node : Node} {buf : Bytes} {rc : Rc Nat}
    (other : ¬ (node = .ctl ∧ requestedCommand buf = some .commit)) :
    noteCommit node buf rc board = board :=
  if_neg fun all => other ⟨all.1, all.2.1⟩

lemma serve_write_state (board : Board) (node : Node) (buf : Bytes) (dev : Device) :
    (serve board (.write node buf dev)).2 =
      noteCommit node buf (driverWrite (backing dev) node buf board).1
        (driverWrite (backing dev) node buf board).2 := rfl

variable {req : Request}

lemma serve_staged (staged : Staged board) (kept : KeepsPending board req) :
    Staged (serve board req).2 := by
  cases req with
  | reboot dev => exact restart_staged dev.boot (boardOtaBootPending_booted staged)
  | write node buf dev =>
    cases node with
    | slot =>
      have programs := platformOtaWrite_programs dev buf board
      by_cases writing : board.ota.writing = true
      · exact programs.staged staged (staged.closed writing)
      change Staged (platformOtaWrite dev buf board).2
      unfold platformOtaWrite
      rw [if_pos writing]
      exact staged
    | ctl =>
      rw [serve_write_state]
      cases asked : requestedCommand buf with
      | none =>
        rw [noteCommit_other (by simp [asked]), driverWrite_ctl_state, asked]
        exact staged
      | some command =>
        by_cases commit : command = .commit
        · subst commit
          rw [driverWrite_ctl_eq (backing dev) board asked]
          exact noteCommit_staged asked (platformOtaCommit_ends staged)
        rw [noteCommit_other (by simp [asked, commit]), driverWrite_ctl_state, asked]
        cases command with
        | begin =>
          refine platformOtaBeginWrite_staged staged fun inited idle opened => kept ?_
          simp [beginErases, asked, inited, idle, opened]
        | commit => exact absurd rfl commit
        | abort => exact staged.of_untouched rfl rfl rfl (by simp [backing, Backing.command,
            platformOtaAbort, endSession])
        | confirm =>
          change Staged (platformOtaConfirm dev board).2
          rw [platformOtaConfirm_state]
          exact staged
        | rollback => exact platformOtaRollback_staged staged

lemma powerOn_staged (boot : Boot) (failedSlot : Option Char) : Staged (powerOn boot failedSlot) where
  closed := by simp [powerOn, platformOtaInit]
  held := by simp [powerOn, platformOtaInit]
  booted := rfl

lemma exec_staged {boot : Boot} {failedSlot : Option Char} {reqs : List Request}
    (obeyed : machine.Obeys KeepsPending (powerOn boot failedSlot) reqs) :
    Staged (machine.exec (powerOn boot failedSlot) reqs) :=
  machine.exec_invariant Staged (fun _ _ staged kept => serve_staged staged kept)
    (powerOn_staged boot failedSlot) obeyed

lemma serve_begin_erases (broken : ¬ KeepsPending board req) :
    (serve board req).2.ota.pendingSwap = true ∧ pendingImage (serve board req).2.log = none := by
  obtain ⟨erases, pending⟩ := Classical.not_imp.mp broken
  have pending : board.ota.pendingSwap = true := by simpa using pending
  cases req with
  | reboot dev => simp [beginErases] at erases
  | write node buf dev =>
    cases node with
    | slot => simp [beginErases] at erases
    | ctl =>
      simp only [beginErases, decide_eq_true_eq] at erases
      obtain ⟨asked, inited, idle, opened⟩ := erases
      rw [serve_write_state, noteCommit_other (by simp [asked]), driverWrite_ctl_state, asked]
      change (platformOtaBeginWrite dev board).2.ota.pendingSwap = true ∧
        pendingImage (platformOtaBeginWrite dev board).2.log = none
      unfold platformOtaBeginWrite
      rw [if_neg (not_not_intro inited), if_neg (by simp [idle]), opened]
      cases dev.erase <;> exact ⟨pending, rfl⟩

/-- In every run that never erases a pending image, each boot-slot request finds exactly the
image of the last successful commit, untouched since. The condition cannot be weakened: a
request that breaks it, followed by a reboot whose open succeeds, boots another slot
content. -/
theorem bootPending_boots_committed (boot : Boot) (failedSlot : Option Char) (reqs : List Request)
    (obeyed : machine.Obeys KeepsPending (powerOn boot failedSlot) reqs) :
    bootsCommitted (machine.exec (powerOn boot failedSlot) reqs).log = true ∧
      ∀ req dev, dev.openSlot = none →
        ¬ KeepsPending (machine.exec (powerOn boot failedSlot) reqs) req →
        bootsCommitted
          (machine.exec (powerOn boot failedSlot) (reqs ++ [req, .reboot dev])).log = false := by
  refine ⟨(exec_staged obeyed).booted, fun req dev opened broken => ?_⟩
  rw [machine.exec_append]
  generalize machine.exec (powerOn boot failedSlot) reqs = board at broken ⊢
  obtain ⟨pending, gone⟩ := serve_begin_erases broken
  change bootsCommitted (boardOtaBootPending dev (serve board req).2).log = false
  unfold boardOtaBootPending
  rw [if_neg (not_not_intro pending), opened]
  simp [bootsCommitted, gone]

def goodDevice : Device where
  openSlot := none
  erase := none
  program := fun _ => .done
  header := none
  readable := fun _ => true
  ioctl := none
  recordable := true
  boot := ⟨some 'b', false, List.replicate 4096 0⟩

def markedUnit : Bytes := [0xd3, 0xde, 0xff, 0xff] ++ List.replicate 252 0

def stageOnce : List Request :=
  [.write .ctl (ascii "begin") goodDevice, .write .slot markedUnit goodDevice,
    .write .ctl (ascii "commit") goodDevice]

def firstBoot : Boot := ⟨some 'a', true, List.replicate 4096 0xff⟩

/-- Staging one image and rebooting is a run that keeps pending images. -/
theorem bootPending_boots_staged_once :
    machine.Obeys KeepsPending (powerOn firstBoot none) (stageOnce ++ [.reboot goodDevice]) ∧
      bootsCommitted
        (machine.exec (powerOn firstBoot none) (stageOnce ++ [.reboot goodDevice])).log = true := by
  have obeyed : machine.Obeys KeepsPending (powerOn firstBoot none)
      (stageOnce ++ [.reboot goodDevice]) := by
    decide +kernel
  exact ⟨obeyed, (bootPending_boots_committed firstBoot none _ obeyed).1⟩

/-- A session begun and aborted after a commit: the reboot boots an erased slot. -/
theorem bootPending_boots_erased : bootsCommitted (machine.exec (powerOn firstBoot none)
      (stageOnce ++ [.write .ctl (ascii "begin") goodDevice,
        .write .ctl (ascii "abort") goodDevice, .reboot goodDevice])).log = false := by
  decide +kernel

end WantedEngine.Ota.Rp2350
