import WantedEngine.Vfs.Preopens
import WantedEngine.Vfs.LinuxDriver
/-!
# Read-only host directories

A host directory that a wapp has read-only is never changed through it on Linux: no operation on
the directory's descriptor or on a descriptor opened through it issues a host call that creates,
changes or removes something, and no host call of the directory's driver does. The check stands in
the operations of the driver, one for each that could change anything (`Harmless`); `_Open` has
none, and is never asked of such a driver, because the drivers that are opened by path are made
read-write.
-/
namespace WantedEngine.Vfs

open Foundation Foundation.Slots List LinuxState Option

/-! ### Opens without write access -/

lemma and_eq_zero_of_mask {flags mask bit : Oflags} (clear : flags &&& mask = 0)
    (part : mask &&& bit = bit) : flags &&& bit = 0 := by
  calc flags &&& bit = flags &&& (mask &&& bit) := by rw [part]
    _ = (flags &&& mask) &&& bit := (BitVec.and_assoc flags mask bit).symm
    _ = 0 := by rw [clear]; exact BitVec.zero_and

lemma changes_of_not_write {flags : Oflags} (reads : vfsOIsWrite flags = false) :
    (convertVfsFlags flags).changes = false := by
  have clear : flags &&& (vfsOWronly ||| vfsORdwr ||| vfsOCreat ||| vfsOTrunc ||| vfsOAppend) = 0 := by
    simpa [vfsOIsWrite] using reads
  have creat : flags &&& vfsOCreat = 0 := and_eq_zero_of_mask clear (by decide)
  have trunc : flags &&& vfsOTrunc = 0 := and_eq_zero_of_mask clear (by decide)
  have rdwr : flags &&& vfsORdwr = 0 := and_eq_zero_of_mask clear (by decide)
  have wronly : flags &&& vfsOWronly = 0 := and_eq_zero_of_mask clear (by decide)
  simp [HostOpen.changes, convertVfsFlags, creat, trunc, rdwr, wronly]

/-! ### Calls that a read-only driver may issue -/

/-- A host call that changes nothing when its driver is read-only. -/
def Harmless (entry : PlatformDriver × LinuxCall) : Prop :=
  entry.1.readonly = true → entry.2.changes = false

/-- The state after an operation has host calls of certain drivers only, all of them harmless. -/
structure Issued (drivers : PlatformDriver → Prop) (l after : LinuxState) : Prop where
  calls : ∃ calls, after.issued = l.issued ++ calls ∧
    ∀ entry ∈ calls, drivers entry.1 ∧ Harmless entry
  adaptors : after.adaptors = l.adaptors
  consoles : after.consoles = l.consoles

section

variable {drivers : PlatformDriver → Prop} {l after last : LinuxState} {d : PlatformDriver}
  (env : LinuxHost)

/-- Nothing is issued when the calls stay. -/
lemma Issued.of_eq (issued : after.issued = l.issued) (adaptors : after.adaptors = l.adaptors)
    (consoles : after.consoles = l.consoles) : Issued drivers l after :=
  ⟨⟨[], by rw [issued, append_nil], nofun⟩, adaptors, consoles⟩

lemma Issued.refl : Issued drivers l l := Issued.of_eq rfl rfl rfl

lemma Issued.trans (first : Issued drivers l after) (second : Issued drivers after last) :
    Issued drivers l last := by
  obtain ⟨calls, issued, each⟩ := first.calls
  obtain ⟨more, issued', each'⟩ := second.calls
  refine ⟨⟨calls ++ more, ?_, ?_⟩, second.adaptors.trans first.adaptors,
    second.consoles.trans first.consoles⟩
  · rw [issued', issued, append_assoc]
  · exact forall_mem_append.mpr ⟨each, each'⟩

lemma Issued.mono {wider : PlatformDriver → Prop} (weak : ∀ d, drivers d → wider d)
    (issued : Issued drivers l after) : Issued wider l after := by
  obtain ⟨calls, same, each⟩ := issued.calls
  refine ⟨⟨calls, same, ?_⟩, issued.adaptors, issued.consoles⟩
  intro entry mem
  exact ⟨weak _ (each entry mem).1, (each entry mem).2⟩

variable (served : drivers d)
include served

variable {path : Bytes} {call : LinuxCall} {other : PlatformDriver}

lemma issued_issue (harmless : Harmless (d, call)) : Issued drivers l (issue env l d call).2 := by
  refine ⟨⟨[(d, call)], rfl, ?_⟩, rfl, rfl⟩
  intro entry mem
  obtain rfl := mem_singleton.mp mem
  exact ⟨served, harmless⟩

lemma issued_reading (reads : call.changes = false) : Issued drivers l (issue env l d call).2 :=
  issued_issue env served fun _ => reads

lemma issued_perform {effect : Effect} (harmless : ∀ call ∈ effect.calls, Harmless (d, .path call)) :
    Issued drivers l (perform l d effect).2 := by
  refine ⟨⟨_, rfl, ?_⟩, rfl, rfl⟩
  intro entry mem
  obtain ⟨call, listed, rfl⟩ := mem_map.mp mem
  exact ⟨served, harmless call listed⟩

lemma issued_driverWrite (fd : Int) (data : Bytes) :
    Issued drivers l (driverWrite env l d fd data).2 := by
  rw [driverWrite]
  split
  · exact Issued.refl
  · rename_i writable
    exact issued_issue env served fun readonly => absurd readonly writable

lemma issued_driverTruncate (fd : Int) (size : Nat) :
    Issued drivers l (driverTruncate env l d fd size).2 := by
  rw [driverTruncate]
  split
  · exact Issued.refl
  rename_i writable
  split
  · exact Issued.refl
  · exact issued_issue env served fun readonly => absurd readonly writable

lemma issued_twice {first second : LinuxCall} (reads : first.changes = false)
    (reads' : second.changes = false) :
    Issued drivers l (match issue env l d first with
      | (.error e, after) => ((.error e, after) : Outcome)
      | (.ok _, after) => issue env after d second).2 := by
  have once : Issued drivers l (issue env l d first).2 := issued_reading env served reads
  generalize issue env l d first = out at once
  rcases out with ⟨e | _, after⟩
  · exact once
  · exact once.trans (issued_reading env served reads')

omit served

lemma openAt_harmless (d : PlatformDriver) (tree : HostTree) (answers : Answers) (fd : Int)
    (path : Bytes) (flags : Oflags) :
    ∀ call ∈ (d.openAt tree answers fd path flags).calls, Harmless (d, .path call) := by
  intro call mem readonly
  rw [PlatformDriver.openAt] at mem
  split at mem
  · cases mem
  rename_i admitted
  have reads : vfsOIsWrite flags = false := by
    cases write : vfsOIsWrite flags with
    | false => rfl
    | true => exact absurd ⟨readonly, write⟩ admitted
  have opens := changes_of_not_write reads
  split at mem
  · obtain rfl := mem_singleton.mp mem
    exact opens
  · obtain rfl := mem_singleton.mp mem
    exact opens
  rw [withJoined] at mem
  cases joined : joinFromFd tree fd path with
  | error e =>
    rw [joined] at mem
    cases mem
  | ok whole =>
    rw [joined] at mem
    simp only [espOpen, espOpenDir] at mem
    have noCreat : (convertVfsFlags flags).creat = false := by
      simp only [HostOpen.changes, Bool.or_eq_false_iff] at opens
      exact opens.1.1
    have clear : ¬ flags &&& vfsOCreat ≠ 0 := by simpa [convertVfsFlags] using noCreat
    split at mem
    · -- a directory is only looked at
      have looked : call = .stat whole := by
        split at mem
        · exact mem_singleton.mp mem
        · split at mem <;> exact mem_singleton.mp mem
      rw [looked]
      rfl
    · have asked : call = .open_ whole flags := by
        split at mem <;> exact mem_singleton.mp mem
      rw [asked]
      exact opens

lemma mutateAt_harmless (d : PlatformDriver) (tree : HostTree) (answers : Answers) (fd : Int)
    (path : Bytes) (atCall : HostCall) (absoluteCall : Bytes → HostCall) :
    ∀ call ∈ (d.mutateAt tree answers fd path atCall absoluteCall).calls, Harmless (d, .path call) := by
  intro call mem readonly
  rw [PlatformDriver.mutateAt, if_pos readonly] at mem
  cases mem

lemma rename_harmless (d : PlatformDriver) (tree : HostTree) (answers : Answers) (oldFd : Int)
    (oldPath : Bytes) (newFd : Int) (newPath : Bytes) :
    ∀ call ∈ (d.rename tree answers oldFd oldPath newFd newPath).calls, Harmless (d, .path call) := by
  intro call mem readonly
  rw [PlatformDriver.rename, if_pos readonly] at mem
  cases mem

/-! ### Calls on an open descriptor -/

def Serves (l : LinuxState) (fd : Int) (d : PlatformDriver) : Prop :=
  ∃ drvFd, l.fdDriver fd = some (d, drvFd)

/-- An operation on an open descriptor: its driver's calls are harmless and every descriptor keeps
its driver. -/
structure Works (fd : Int) (l after : LinuxState) : Prop where
  issued : Issued (Serves l fd) l after
  fds : after.vfs.fds = l.vfs.fds

variable {fd : Int}

/-- A descriptor is served by the driver of its slot. -/
lemma fdDriver_congr (fds : after.vfs.fds = l.vfs.fds) (adaptors : after.adaptors = l.adaptors)
    (consoles : after.consoles = l.consoles) (fd : Int) : after.fdDriver fd = l.fdDriver fd := by
  have same : after.vfs.open? fd = l.vfs.open? fd := by rw [VfsState.open?, fds, ← VfsState.open?]
  simp only [fdDriver, adaptor, same, adaptors, consoles]

lemma Works.refl : Works fd l l := ⟨Issued.refl, rfl⟩

lemma Works.trans (first : Works fd l after) (second : Works fd after last) : Works fd l last := by
  refine ⟨first.issued.trans (second.issued.mono ?_), second.fds.trans first.fds⟩
  rintro _ ⟨drvFd, found⟩
  have same := fdDriver_congr first.fds first.issued.adaptors first.issued.consoles fd
  exact ⟨drvFd, same.symm.trans found⟩

lemma works_other : Works fd l (answerOther env l).2 := ⟨Issued.of_eq rfl rfl rfl, rfl⟩

lemma works_onDriver {operation : PlatformDriver → Int → Outcome}
    (each : ∀ d drvFd, Serves l fd d → Works fd l (operation d drvFd).2) :
    Works fd l (onDriver env l fd operation).2 := by
  rw [onDriver]
  cases l.vfs.open? fd with
  | none => exact Works.refl
  | some open_ =>
    cases found : l.fdDriver fd with
    | none => exact works_other env
    | some served => exact each served.1 served.2 ⟨served.2, found⟩

lemma works_reading (served : Serves l fd d) (reads : call.changes = false) :
    Works fd l (issue env l d call).2 :=
  ⟨issued_reading env served reads, rfl⟩

lemma works_read (nbyte : Nat) : Works fd l (linuxRead env l fd nbyte).2 :=
  works_onDriver env fun _ _ served => works_reading env served rfl

lemma works_write (data : Bytes) : Works fd l (linuxWrite env l fd data).2 := by
  apply works_onDriver
  intro d drvFd served
  refine ⟨issued_driverWrite env served drvFd data, ?_⟩
  rw [driverWrite]
  split <;> rfl

lemma works_seek (off : Int) (whence : Whence) : Works fd l (linuxSeek env l fd off whence).2 := by
  rw [linuxSeek]
  split
  · exact Works.refl
  · exact works_onDriver env fun _ _ served => works_reading env served rfl

lemma works_tell : Works fd l (linuxTell env l fd).2 := by
  have sought : Works fd l (linuxSeek env l fd 0 .cur).2 := works_seek env 0 .cur
  rw [linuxTell]
  generalize linuxSeek env l fd 0 .cur = out at sought
  rcases out with ⟨_ | _, _⟩ <;> exact sought

lemma works_positionAt (off : Nat) : Works fd l (positionAt env l fd off).2 := by
  rw [positionAt]
  split
  · exact Works.refl
  have told : Works fd l (linuxTell env l fd).2 := works_tell env
  generalize linuxTell env l fd = out at told
  rcases out with ⟨e | _, after⟩
  · exact told
  have sought : Works fd after (linuxSeek env after fd off .set).2 := works_seek env off .set
  dsimp only at told ⊢
  generalize linuxSeek env after fd off .set = out at sought
  rcases out with ⟨e | _, _⟩ <;> exact told.trans sought

lemma works_transferAt (off : Nat) {transfer : LinuxState → Outcome}
    (each : ∀ at_, Works fd at_ (transfer at_).2) :
    Works fd l (transferAt env l fd off transfer).2 := by
  have placed : Works fd l (positionAt env l fd off).2 := works_positionAt env off
  rw [transferAt]
  generalize positionAt env l fd off = out at placed
  rcases out with ⟨_ | saved, after⟩
  · exact placed
  · have moved := placed.trans (each after)
    exact moved.trans (works_seek env saved .set)

lemma works_pwrite (data : Bytes) (off : Nat) : Works fd l (linuxPwrite env l fd data off).2 := by
  rw [linuxPwrite]
  split
  · exact works_write env data
  · exact works_transferAt env off fun _ => works_write env data

lemma works_stat : Works fd l (linuxStat env l fd).2 := by
  apply works_onDriver
  intro d drvFd served
  refine ⟨issued_twice env served rfl rfl, ?_⟩
  rw [driverStat, issue]
  cases env.host l.issued.length <;> rfl

lemma works_statSet : Works fd l (linuxStatSet env l fd).2 := by
  rw [linuxStatSet]
  split
  · exact Works.refl
  · exact Works.refl
  · exact works_onDriver env fun _ _ _ => Works.refl

lemma works_truncate (size : Nat) : Works fd l (linuxTruncate env l fd size).2 := by
  apply works_onDriver
  intro d drvFd served
  refine ⟨issued_driverTruncate env served drvFd size, ?_⟩
  rw [driverTruncate]
  split_ifs <;> rfl

lemma works_readDir : Works fd l (linuxReadDir env l fd).2 := by
  rw [linuxReadDir]
  split
  · exact Works.refl
  · exact works_onDriver env fun _ _ served => works_reading env served rfl

lemma issued_setFlags (flags : Oflags) : Issued (Serves l fd) l (linuxSetFlags env l fd flags).2 := by
  rw [linuxSetFlags]
  cases l.vfs.open? fd with
  | none => exact Issued.refl
  | some open_ =>
    dsimp only
    split_ifs
    · exact Issued.refl
    · exact Issued.refl
    generalize (open_.slot.flags &&& ~~~runtimeFlags) ||| (flags &&& runtimeFlags) = next
    have worked : Works fd l
        (onDriver env l fd fun d drvFd => driverSetFlags env l d drvFd next).2 := by
      apply works_onDriver
      intro d drvFd served
      rw [driverSetFlags]
      split
      · exact Works.refl
      refine ⟨issued_twice env served rfl rfl, ?_⟩
      rw [issue]
      cases env.host l.issued.length <;> rfl
    generalize onDriver env l fd (fun d drvFd => driverSetFlags env l d drvFd next) = out at worked
    rcases out with ⟨_ | _, _⟩
    · exact worked.issued
    · exact worked.issued.trans (Issued.of_eq rfl rfl rfl)

/-! ### Calls that open and close -/

/-- A step of the descriptor table that asks no driver for a path. -/
def AsksNone (v after : VfsState) : Prop :=
  ∃ rest, after.log = v.log ++ rest ∧ ∀ key path flags, .asked key path flags ∉ rest

/-- A step that leaves the log asks none. -/
lemma AsksNone.of_log {v after : VfsState} (log : after.log = v.log) : AsksNone v after :=
  ⟨[], by rw [log, append_nil], fun _ _ _ => not_mem_nil⟩

/-- The host calls of an operation on the descriptor table are those of the drivers that close, and
of the drivers that are opened by path unless none is asked for a path. -/
lemma issued_follow {closer : Nat → Option PlatformDriver}
    (closes : ∀ key d, closer key = some d → drivers d) {out : Rc Int × VfsState}
    (asks : AsksNone l.vfs out.2 ∨ ∀ d ∈ l.adaptors, drivers d ∧ d.readonly = false) :
    Issued drivers l (follow env l closer out).2 := by
  refine ⟨⟨_, rfl, ?_⟩, rfl, rfl⟩
  intro entry mem
  obtain ⟨event, among, listed⟩ := mem_flatMap.mp mem
  cases event with
  | asked key path flags =>
    rcases asks with ⟨_, log, silent⟩ | readwrite
    · rw [log, drop_left] at among
      exact absurd among (silent key path flags)
    obtain ⟨d, found, rfl⟩ := mem_map.mp listed
    obtain ⟨served, writes⟩ :=
      readwrite d (mem_of_find?_eq_some (mem_toList.mp found))
    exact ⟨served, fun readonly => absurd (writes.symm.trans readonly) Bool.false_ne_true⟩
  | closed handle =>
    obtain ⟨d, found, among⟩ := mem_flatMap.mp listed
    obtain ⟨_, closing, rfl⟩ := mem_map.mp among
    refine ⟨closes _ d (mem_toList.mp found), fun _ => ?_⟩
    rw [closeCalls] at closing
    split at closing
    · cases closing
    · obtain rfl := mem_singleton.mp closing
      rfl
  | opened | bound | taken | destroyed => cases listed

/-- The driver of a host directory, or of what is opened beneath one. -/
def LinuxState.boundDriver (l : LinuxState) (fd : Int) : Option PlatformDriver :=
  match l.vfs.open? fd with
  | some ⟨.platform driver _ _ _, _, _, _⟩ => some driver
  | _ => none

/-- The slot of a descriptor beneath a host directory. -/
lemma boundDriver_slot (bound : l.boundDriver fd = some d) : ∃ drvFd flags path handle opened live,
      l.vfs.open? fd = some ⟨.platform d drvFd flags path, handle, opened, live⟩ := by
  rw [boundDriver] at bound
  split at bound
  · rename_i drvFd flags path handle opened live found
    obtain rfl := Option.some.inj bound
    exact ⟨drvFd, flags, path, handle, opened, live, found⟩
  · cases bound

lemma serves_of_bound (bound : l.boundDriver fd = some d) (serves : Serves l fd other) : other = d := by
  obtain ⟨_, _, _, _, _, _, found⟩ := boundDriver_slot bound
  obtain ⟨_, serving⟩ := serves
  simp only [fdDriver, found, Option.some.injEq, Prod.mk.injEq] at serving
  exact serving.1.symm

lemma closerOf_bound (bound : l.boundDriver fd = some d) (key : Nat) (other : PlatformDriver)
    (closes : l.closerOf fd key = some other) : other = d := by
  obtain ⟨_, _, path, _, _, _, found⟩ := boundDriver_slot bound
  rw [closerOf, found] at closes
  exact (Option.some.inj closes).symm

/-- A driver that a path on a descriptor may reach: any, unless the path goes to the driver of the
descriptor. -/
def Reached (l : LinuxState) (fd : Int) (path : Bytes) (other : PlatformDriver) : Prop :=
  ∀ found, l.bypass fd path = some found → other = found.1

lemma bypass_bound (on : l.boundDriver fd = some d ∧ isAbsolute path = false) :
    ∃ drvFd, l.bypass fd path = some (d, drvFd) := by
  obtain ⟨drvFd, _, _, _, _, _, found⟩ := boundDriver_slot on.1
  refine ⟨drvFd, ?_⟩
  simp only [bypass, found, on.2, Bool.false_eq_true, if_false]

/-- A relative path on a descriptor beneath a host directory reaches its driver alone. -/
lemma Reached.bound (reached : Reached l fd path other)
    (on : l.boundDriver fd = some d ∧ isAbsolute path = false) : other = d := by
  obtain ⟨drvFd, bypassed⟩ := bypass_bound on
  exact reached (d, drvFd) bypassed

lemma bound_of_bypass {drvFd : Int} (bypassed : l.bypass fd path = some (d, drvFd)) :
    l.boundDriver fd = some d ∧ isAbsolute path = false := by
  unfold bypass at bypassed
  split at bypassed
  · rename_i found
    split at bypassed
    · cases bypassed
    rename_i relative
    cases bypassed
    exact ⟨by simp only [boundDriver, found], by simpa using relative⟩
  · cases bypassed

lemma openChild_spec (backends : Backends) (v : VfsState) (driver : PlatformDriver)
    (parent path : Bytes) (flags : Oflags) :
    AsksNone v (openChild backends v driver parent path flags).2 ∧
      ∀ newFd, (openChild backends v driver parent path flags).1 = .ok newFd →
        ∃ drvFd slotPath handle opened live,
          (openChild backends v driver parent path flags).2.open? newFd =
            some ⟨.platform driver drvFd flags slotPath, handle, opened, live⟩ := by
  rw [openChild, openHandle]
  cases backends.opens v.calls with
  | error e => exact ⟨AsksNone.of_log rfl, by simp⟩
  | ok drvFd =>
    dsimp only
    rw [claim]
    cases found : findFirstClosedFd ((v.record (.opened ⟨driver.key, drvFd, v.calls⟩)).tick).ctx with
    | error e =>
      refine ⟨⟨[.opened ⟨driver.key, drvFd, v.calls⟩, .closed ⟨driver.key, drvFd, v.calls⟩], ?_, ?_⟩,
        by simp⟩
      · exact append_assoc v.log [_] [_]
      · simp
    | ok pos =>
      refine ⟨⟨[.opened ⟨driver.key, drvFd, v.calls⟩], rfl, by simp⟩, ?_⟩
      intro newFd same
      obtain rfl : (pos : Int) = newFd := Except.ok.inj same
      have within := (findFirstClosedFd_spec found).2.1
      refine ⟨drvFd, childPath parent path, some ⟨driver.key, drvFd, v.calls⟩, v.calls + 1, by simp, ?_⟩
      exact (getD_set v.fds pos pos _ none within).trans (if_pos rfl)

lemma issued_openAt_bypass {drvFd : Int}
    (bypassed : l.bypass fd path = some (d, drvFd)) (flags : Oflags) :
    Issued (· = d) l (linuxOpenAt env l fd path flags).2 ∧
      ∀ newFd, (linuxOpenAt env l fd path flags).1 = .ok newFd →
        (linuxOpenAt env l fd path flags).2.boundDriver newFd = some d := by
  rw [linuxOpenAt]
  by_cases empty : path = []
  · rw [if_pos empty]
    exact ⟨Issued.refl, nofun⟩
  rw [if_neg empty]
  obtain ⟨bound, relative⟩ := bound_of_bypass bypassed
  obtain ⟨_, _, parent, _, _, _, found⟩ := boundDriver_slot bound
  rw [bypassed]
  dsimp only
  generalize env_eq : ({ env.toBackends with
    opens := fun _ => (d.openAt env.tree (answersAt env l) drvFd path flags).result } : Backends)
      = backends
  have child : vfsOpenAtFd backends l.vfs fd path flags =
      openChild backends l.vfs d parent path flags := by
    simp only [vfsOpenAtFd, if_neg empty, found, relative, Bool.false_eq_true, if_false]
  have spec := openChild_spec backends l.vfs d parent path flags
  rw [child]
  constructor
  · have asked : Issued (· = d) l
        (perform l d (d.openAt env.tree (answersAt env l) drvFd path flags)).2 := by
      apply issued_perform
      · rfl
      · exact openAt_harmless d env.tree (answersAt env l) drvFd path flags
    exact asked.trans (issued_follow env (closerOf_bound bound) (.inl spec.1))
  · intro newFd same
    obtain ⟨_, _, _, _, _, slot⟩ := spec.2 newFd same
    simp only [boundDriver, follow, slot]

lemma vfsClose_asksNone (backends : Backends) (v : VfsState) (fd : Int) :
    AsksNone v (vfsClose backends v fd).2 := by
  obtain kept | kept | ⟨open_, -, given, -⟩ := vfsClose_cases backends v fd
  · rw [kept]
    exact AsksNone.of_log rfl
  · rw [kept]
    exact AsksNone.of_log rfl
  rw [given, giveUpSlot]
  cases open_.handle with
  | none => exact AsksNone.of_log rfl
  | some handle => exact ⟨[.closed handle], rfl, by simp⟩

lemma vfsRenumber_asksNone (backends : Backends) (v : VfsState) (source target : Int) :
    AsksNone v (vfsRenumber backends v source target).2 :=
  vfsRenumber_keeps (AsksNone v) (AsksNone.of_log rfl) (vfsClose_asksNone backends v target)
    fun _ _ closed => closed

lemma boundDriver_congr (fds : after.vfs.fds = l.vfs.fds) (fd : Int) :
    after.boundDriver fd = l.boundDriver fd := by
  rw [boundDriver, VfsState.open?, fds, ← VfsState.open?, ← boundDriver]

variable (readwrite : ∀ d ∈ l.adaptors, d.readonly = false)
include readwrite

lemma issued_openAt (path : Bytes)
    (flags : Oflags) : Issued (Reached l fd path) l (linuxOpenAt env l fd path flags).2 := by
  cases bypassed : l.bypass fd path with
  | some found =>
    refine (issued_openAt_bypass env bypassed flags).1.mono fun other same => ?_
    rintro _ again
    rw [same, ← Option.some.inj (bypassed.symm.trans again)]
  | none =>
    have any : ∀ other, Reached l fd path other := fun other found again => by
      rw [bypassed] at again
      cases again
    rw [linuxOpenAt, bypassed]
    split
    · exact Issued.refl
    · exact issued_follow env (fun _ d _ => any d) (.inr fun d made => ⟨any d, readwrite d made⟩)

lemma issued_openStatClose (path : Bytes) :
    Issued (Reached l fd path) l (openStatClose env l fd path).2 := by
  have opens : Issued (Reached l fd path) l (linuxOpenAt env l fd path 0).2 :=
    issued_openAt env readwrite path 0
  have child : ∀ found newFd, l.bypass fd path = some found →
      (linuxOpenAt env l fd path 0).1 = .ok newFd →
        (linuxOpenAt env l fd path 0).2.boundDriver newFd = some found.1 :=
    fun found newFd bypassed => (issued_openAt_bypass env bypassed 0).2 newFd
  rw [openStatClose]
  generalize linuxOpenAt env l fd path 0 = out at opens child
  rcases out with ⟨_ | newFd, after⟩
  · exact opens
  have worked : Works newFd after (linuxStat env after newFd).2 := works_stat env
  have asked := opens.trans (worked.issued.mono fun other serves found bypassed =>
    serves_of_bound (child found newFd bypassed rfl) serves)
  refine asked.trans (issued_follow env (fun key other closes found bypassed => ?_)
    (.inl (vfsClose_asksNone _ _ _)))
  exact closerOf_bound ((boundDriver_congr worked.fds newFd).trans (child found newFd bypassed rfl))
    key other closes

lemma issued_statAt (path : Bytes) : Issued (Reached l fd path) l (linuxStatAt env l fd path).2 := by
  have whole := @issued_openStatClose l env fd readwrite path
  rw [linuxStatAt]
  cases l.vfs.open? fd with
  | none => exact Issued.refl
  | some open_ =>
    dsimp only
    split
    · exact whole
    split
    · exact Issued.refl
    · exact whole

omit readwrite

/-! ### Calls on a path -/

lemma issued_changePath {operation : PlatformDriver → Int → Bytes → Effect}
    (harmless : ∀ d fd path, ∀ call ∈ (operation d fd path).calls, Harmless (d, .path call))
    (path : Bytes) (op : RoutedOp) :
    Issued (Reached l fd path) l (changePath env l fd path operation op).2 := by
  rw [changePath]
  cases l.vfs.open? fd with
  | none => exact Issued.refl
  | some open_ =>
    cases bypassed : l.bypass fd path with
    | some found =>
      refine issued_perform (fun _ again => ?_) (harmless _ _ _)
      rw [← Option.some.inj (bypassed.symm.trans again)]
    | none =>
      dsimp only
      split
      · refine issued_perform (fun _ again => ?_) (harmless _ _ _)
        rw [bypassed] at again
        cases again
      · exact Issued.refl

lemma issued_rename (oldFd : Int) (oldPath : Bytes) (newFd : Int) (newPath : Bytes) :
    Issued (fun other => Reached l oldFd oldPath other ∨ l.bypass newFd newPath = none) l
      (linuxRename env l oldFd oldPath newFd newPath).2 := by
  rw [linuxRename]
  split
  · split
    · rename_i old _
      split
      · exact Issued.refl
      · refine issued_perform (.inl fun _ again => ?_) (rename_harmless _ _ _ _ _ _ _)
        rw [← Option.some.inj (old.symm.trans again)]
    rename_i apart
    have any : ∀ other, Reached l oldFd oldPath other ∨ l.bypass newFd newPath = none := by
      intro other
      cases new : l.bypass newFd newPath with
      | none => exact .inr rfl
      | some found' =>
        refine .inl fun found old => ?_
        exact (apart found.1 found.2 found'.1 found'.2 old new).elim
    rw [renameRouted]
    split
    · split
      · exact Issued.refl
      · exact issued_perform (any _) (rename_harmless _ _ _ _ _ _ _)
    · exact Issued.refl
  · exact Issued.refl

/-! ### Whole runs -/

/-- The calls on a virtual file system, as opposed to the steps of a launch. -/
def LinuxRequest.IsCall : LinuxRequest → Prop
  | .install _ _ => False
  | _ => True

/-- A call on a host directory: on descriptors of its driver, with relative paths. -/
def LinuxRequest.On (l : LinuxState) (d : PlatformDriver) : LinuxRequest → Prop
  | .install _ _ | .bind _ _ _ _ | .attachTarfs | .open_ _ _ => False
  | .openAt fd path _ | .statAt fd path | .unlink fd path | .mkdir fd path | .rmdir fd path =>
    l.boundDriver fd = some d ∧ isAbsolute path = false
  | .renumber source target => l.boundDriver source = some d ∧ l.boundDriver target = some d
  | .rename oldFd oldPath newFd newPath =>
    (l.boundDriver oldFd = some d ∧ isAbsolute oldPath = false) ∧
      l.boundDriver newFd = some d ∧ isAbsolute newPath = false
  | .close fd | .sockAccept fd _ | .stat fd | .statSet fd | .read fd _ | .write fd _ | .seek fd _ _
  | .tell fd | .pread fd _ _ | .pwrite fd _ _ | .sync fd | .truncate fd _ | .setFlags fd _
  | .poll fd | .readDir fd => l.boundDriver fd = some d

/-- What is asked of a descriptor is asked of the driver of its host directory, if it has one. -/
lemma Works.on {req : LinuxRequest} (worked : Works fd l after)
    (on : ∀ d, req.On l d → l.boundDriver fd = some d) :
    Issued (fun other => ∀ d, req.On l d → other = d) l after :=
  worked.issued.mono fun _ serves d isOn => serves_of_bound (on d isOn) serves

lemma issued_serve (readwrite : ∀ d ∈ l.adaptors, d.readonly = false) (req : LinuxRequest)
    (call : req.IsCall) :
    Issued (fun other => ∀ d, req.On l d → other = d) l (serveLinux env l req).2 := by
  cases req with
  | install => exact call.elim
  | bind | attachTarfs => exact Issued.of_eq rfl rfl rfl
  | open_ =>
    exact issued_follow env (fun _ _ _ _ on => on.elim)
      (.inr fun d made => ⟨fun _ on => on.elim, readwrite d made⟩)
  | openAt fd path flags =>
    exact (issued_openAt env readwrite path flags).mono fun _ reached _ on => reached.bound on
  | close =>
    exact issued_follow env (fun key other closes _ on => closerOf_bound on key other closes)
      (.inl (vfsClose_asksNone _ _ _))
  | renumber =>
    exact issued_follow env (fun key other closes _ on => closerOf_bound on.2 key other closes)
      (.inl (vfsRenumber_asksNone _ _ _ _))
  | sockAccept fd flags =>
    cases bound : l.boundDriver fd with
    | none =>
      have none_ : ∀ d, ¬ (LinuxRequest.sockAccept fd flags).On l d := fun d on => by
        rw [LinuxRequest.On, bound] at on
        cases on
      exact issued_follow env (fun _ _ _ d on => absurd on (none_ d))
        (.inr fun d made => ⟨fun d on => absurd on (none_ d), readwrite d made⟩)
    | some d =>
      obtain ⟨drvFd, _, path, _, opened, _, found⟩ := boundDriver_slot bound
      refine Issued.of_eq ?_ rfl rfl
      simp [serveLinux, linuxSockAccept, follow, vfsSockAccept, found]
  | statAt fd path =>
    exact (issued_statAt env readwrite path).mono fun _ reached _ on => reached.bound on
  | stat => exact (works_stat env).on fun _ => id
  | statSet => exact (works_statSet env).on fun _ => id
  | read fd nbyte => exact (works_read env nbyte).on fun _ => id
  | write fd data => exact (works_write env data).on fun _ => id
  | seek fd off whence => exact (works_seek env off whence).on fun _ => id
  | tell => exact (works_tell env).on fun _ => id
  | pread fd nbyte off => exact (works_transferAt env off fun _ => works_read env nbyte).on fun _ => id
  | pwrite fd data off => exact (works_pwrite env data off).on fun _ => id
  | sync | poll =>
    exact (works_onDriver env fun _ _ served => works_reading env served rfl).on fun _ => id
  | truncate fd size => exact (works_truncate env size).on fun _ => id
  | setFlags fd flags =>
    exact (issued_setFlags env flags).mono fun _ serves _ on => serves_of_bound on serves
  | readDir => exact (works_readDir env).on fun _ => id
  | unlink fd path | mkdir fd path | rmdir fd path =>
    exact (issued_changePath env (fun _ _ _ => mutateAt_harmless _ _ _ _ _ _ _) path _).mono
      fun _ reached _ on => reached.bound on
  | rename oldFd oldPath newFd newPath =>
    refine (issued_rename env oldFd oldPath newFd newPath).mono fun other reach d on => ?_
    rcases reach with reached | none_
    · exact reached.bound on.1
    obtain ⟨drvFd, bypassed⟩ := bypass_bound on.2
    rw [bypassed] at none_
    cases none_

/-- The drivers that are opened by path are read-write, and nothing was changed through a
read-only one. -/
structure Unchanged (l : LinuxState) : Prop where
  /-- The drivers of consoles, nodes and mounts. -/
  readwrite : ∀ d ∈ l.adaptors, d.readonly = false
  /-- The calls so far. -/
  harmless : ∀ entry ∈ l.issued, Harmless entry

/-- Every step keeps what is read-only unchanged. -/
lemma unchanged_serve (unchanged : Unchanged l) (req : LinuxRequest) :
    Unchanged (serveLinux env l req).2 := by
  by_cases call : req.IsCall
  · have issued := issued_serve env unchanged.readwrite req call
    obtain ⟨calls, same, each⟩ := issued.calls
    refine ⟨?_, ?_⟩
    · rw [issued.adaptors]
      exact unchanged.readwrite
    · rw [same]
      exact forall_mem_append.mpr ⟨unchanged.harmless, fun entry new => (each entry new).2⟩
  · cases req with
    | install target options =>
      refine ⟨forall_mem_append.mpr ⟨unchanged.readwrite, fun d new => ?_⟩, unchanged.harmless⟩
      obtain ⟨_, -, rfl⟩ := map_eq_some_iff.mp (mem_toList.mp new)
      rfl
    | _ => exact absurd trivial call

lemma unchanged_exec (reqs : List LinuxRequest) :
    Unchanged ((linuxMachine env).exec linuxInit reqs) := by
  apply (linuxMachine env).exec_invariant_of_step Unchanged
  · intro l req unchanged
    exact unchanged_serve env unchanged req
  · exact ⟨nofun, nofun⟩

end

/-- A host that answers every call, with a TarFS that has every path. -/
def plainLinux : LinuxHost :=
  { plainBackends with
    tree := ⟨fun _ => none, fun base _ => base, 0⟩
    host := fun _ => .ok 9
    changeRoot := fun path root => root ++ path
    others := fun _ => .ok 0 }

end WantedEngine.Vfs
