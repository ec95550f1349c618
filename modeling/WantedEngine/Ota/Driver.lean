import WantedEngine.Errno
/-!
# The `/dev/ota` driver

`vfs-ota.c` turns writes on its two nodes into calls of the platform's update backing: a
write on `/dev/ota` carries one command word, a write on `/dev/ota/slot` carries image
bytes. The backing is a record of state-passing functions, so that the driver is the same
over the RP2350 partitions and over the Linux slot directories.
-/
namespace WantedEngine.Ota

inductive Node where
  /-- `/dev/ota`, which takes commands. -/
  | ctl
  /-- `/dev/ota/slot`, which takes image bytes. -/
  | slot
  deriving DecidableEq

/-- The commands `/dev/ota` accepts. -/
inductive Command where
  | begin | commit | abort | confirm | rollback
  deriving DecidableEq

/-- `OTA_CMD_MAX`: the command buffer, terminating NUL included. -/
def otaCmdMax : Nat := 16

/-- The line the driver compares: at most `OTA_CMD_MAX - 1` bytes, with one newline in the
last place dropped, read as a NUL-terminated string. -/
def commandLine (buf : Bytes) : Bytes :=
  let cmd := buf.take (otaCmdMax - 1)
  let cmd := if cmd.getLast? = some 10 then cmd.dropLast else cmd
  cString cmd

def parseCommand (line : Bytes) : Option Command :=
  if line = ascii "begin" then some .begin
  else if line = ascii "commit" then some .commit
  else if line = ascii "abort" then some .abort
  else if line = ascii "confirm" then some .confirm
  else if line = ascii "rollback" then some .rollback
  else none

/-- The platform functions the driver calls, over a state `σ`. -/
structure Backing (σ : Type) where
  /-- `PlatformOtaBeginWrite`. -/
  beginWrite : σ → Rc Unit × σ
  /-- `PlatformOtaWrite`. -/
  write : Bytes → σ → Rc Unit × σ
  /-- `PlatformOtaCommit`. -/
  commit : σ → Rc Unit × σ
  /-- `PlatformOtaAbort`. -/
  abort : σ → Rc Unit × σ
  /-- `PlatformOtaConfirm`. -/
  confirm : σ → Rc Unit × σ
  /-- `PlatformOtaRollback`. -/
  rollback : σ → Rc Unit × σ

/-- The platform call of one command. -/
def Backing.command {σ : Type} (backing : Backing σ) : Command → σ → Rc Unit × σ
  | .begin => backing.beginWrite
  | .commit => backing.commit
  | .abort => backing.abort
  | .confirm => backing.confirm
  | .rollback => backing.rollback

/-- `_Write`: a slot write hands its bytes to the backing, a control write runs the command
it spells; a success reports every byte taken. -/
def driverWrite {σ : Type} (backing : Backing σ) (node : Node) (buf : Bytes) (s : σ) : Rc Nat × σ :=
  match node with
  | .slot =>
    let (rc, s) := backing.write buf s
    (rc.map fun _ => buf.length, s)
  | .ctl =>
    if buf.length = 0 then (.ok 0, s)
    else
      match parseCommand (commandLine buf) with
      | none => (.error .einval, s)
      | some command =>
        let (rc, s) := backing.command command s
        (rc.map fun _ => buf.length, s)

/-- What a control write asks for: nothing when it is empty or spells no command. -/
def requestedCommand (buf : Bytes) : Option Command :=
  if buf.length = 0 then none else parseCommand (commandLine buf)

/-- A control write leaves the state its command leaves, and changes nothing when it spells
none. -/
lemma driverWrite_ctl_state {σ : Type} (backing : Backing σ) (buf : Bytes) (s : σ) :
    (driverWrite backing .ctl buf s).2 =
      match requestedCommand buf with
      | none => s
      | some command => (backing.command command s).2 := by
  unfold driverWrite requestedCommand
  by_cases empty : buf.length = 0
  · simp [empty]
  · simp only [empty]
    cases parseCommand (commandLine buf) <;> rfl

lemma driverWrite_ctl_eq {σ : Type} (backing : Backing σ) {buf : Bytes} {command : Command}
    (s : σ) (asked : requestedCommand buf = some command) :
    driverWrite backing .ctl buf s =
      (((backing.command command s).1.map fun _ => buf.length), (backing.command command s).2) := by
  unfold requestedCommand at asked
  by_cases empty : buf.length = 0
  · simp [empty] at asked
  · rw [if_neg empty] at asked
    simp [driverWrite, empty, asked]

end WantedEngine.Ota
