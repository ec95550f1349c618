import WantedEngine.Foundation.Slots
import WantedEngine.Vfs.Descriptors
/-!
# What an open can do

Every operation that opens a descriptor is made of a few steps: a driver is asked and answers, the
handle it returned is put into a slot, or it is given back. What survives those steps survives
every open (`OpenRule`), through whichever subsystem the path is routed to.
-/
namespace WantedEngine.Vfs

open Foundation Foundation.Slots

/-- The slot of a place of the table. -/
def VfsState.at (v : VfsState) (pos : Nat) : Option OpenFd := v.fds.getD pos none

variable {v : VfsState} {open_ : OpenFd}

/-- An open descriptor is a place of the table. -/
lemma open?_eq_some {fd : Int} (found : v.open? fd = some open_) :
    0 ≤ fd ∧ some open_ = v.at fd.toNat := by
  rw [VfsState.open?] at found
  split at found
  · exact ⟨‹_›, found.symm⟩
  · cases found

lemma place_within {pos : Nat} (slot : some open_ = v.at pos) : pos < v.fds.length := by
  apply getD_ne v.fds pos none
  rw [← VfsState.at, ← slot]
  nofun

lemma openHandle_fds (env : Backends) (v : VfsState) (driver : Nat) :
    (openHandle env v driver).2.fds = v.fds := by
  rw [openHandle]
  cases env.opens v.calls <;> rfl

lemma closeHandle_fds (env : Backends) (v : VfsState) (handle : Option Handle) :
    (closeHandle env v handle).2.fds = v.fds := by
  cases handle <;> rfl

/-- The platform driver of a slot to be claimed is the driver of a slot that is there. -/
def Shares (v : VfsState) (slot : FdSlot) : Prop :=
  ∀ driver drvFd flags path, slot = .platform driver drvFd flags path →
    ∃ other, keyOf (v.at other) = some driver.key

/-- What holds during an open, with the handle it has in hand, and what holds of its outcome. -/
structure OpenRule (env : Backends) (holds : VfsState → Option Handle → Prop)
    (ends : Rc Int × VfsState → Prop) : Prop where
  tick : ∀ {v}, holds v none → holds v.tick none
  asked : ∀ {v}, holds v none → ∀ driver path flags,
    holds (v.record (.asked driver path flags)) none
  opened : ∀ {v}, holds v none → ∀ driver,
    holds (openHandle env v driver).2 (openHandle env v driver).1.toOption
  failed : ∀ {v}, holds v none → ∀ e, ends (.error e, v)
  closed : ∀ {v handle}, holds v handle → ∀ e,
    ends (.error e, (closeHandle env v handle).2)
  claimed : ∀ {v handle}, holds v handle → ∀ slot live, Shares v slot →
    ends (claim env v slot live handle)

namespace OpenRule

variable {env : Backends} {holds : VfsState → Option Handle → Prop}
  {ends : Rc Int × VfsState → Prop} (rule : OpenRule env holds ends)
  {v : VfsState} (start : holds v none)

include rule start

/-- The rule for a slot of no platform driver. -/
lemma claimOther (type : FdType) (flags : Oflags) (path : Bytes) :
    ends (claim env v (.other type flags path) nofun none) :=
  rule.claimed start _ _ nofun

omit start in
/-- The rule for a node whose driver was asked. -/
lemma openAsked {driver : Nat} {path : Bytes} {flags : Oflags}
    (asked : holds (v.record (.asked driver path flags)) none) (needsMemory : Bool) (type : FdType)
    (slotFlags : Oflags) (slotPath : Bytes) :
    ends (openNode env v driver path flags needsMemory (.other type slotFlags slotPath) nofun) := by
  have answered := rule.opened asked driver
  rw [Vfs.openNode]
  generalize openHandle env (v.record (.asked driver path flags)) driver = out at answered ⊢
  rcases out with ⟨e | _, _⟩
  · exact rule.failed answered e
  dsimp only
  split
  · exact rule.closed answered .enomem
  · exact rule.claimed answered _ _ nofun

lemma openNode (driver : Nat) (path : Bytes) (flags : Oflags) (needsMemory : Bool)
    (type : FdType) (slotFlags : Oflags) (slotPath : Bytes) :
    ends (openNode env v driver path flags needsMemory (.other type slotFlags slotPath) nofun) :=
  rule.openAsked (rule.asked start driver path flags) needsMemory type slotFlags slotPath

lemma openNamespace (type : FdType) (flags : Oflags) (path : Bytes) :
    ends (if env.allocates v.calls then claim env v.tick (.other type flags path) nofun none
      else (.error .enomem, v.tick)) := by
  split
  · exact rule.claimOther (rule.tick start) type flags path
  · exact rule.failed (rule.tick start) .enomem

lemma devFsOpen (suffix path : Bytes) (flags : Oflags) : ends (devFsOpen env v suffix path flags) := by
  rw [Vfs.devFsOpen]
  split
  · exact rule.openNamespace start _ _ _
  cases devfsResolve v.devfs suffix with
  | none => exact rule.failed start .enoent
  | some found => exact rule.openNode start _ _ _ _ _ _ _

lemma netFsOpen (suffix path : Bytes) (flags : Oflags) : ends (netFsOpen env v suffix path flags) := by
  rw [Vfs.netFsOpen]
  split
  · exact rule.openNamespace start _ _ _
  cases v.netfs.find? (·.1 = suffix) with
  | none => exact rule.failed start .enoent
  | some found => exact rule.openNode start _ _ _ _ _ _ _

lemma routeOpenFd (path : Bytes) (flags : Oflags) : ends (routeOpenFd env v path flags) := by
  rw [Vfs.routeOpenFd]
  rcases routeMatch v.ctx path with e | ⟨type, suffix⟩
  · exact rule.failed start e
  cases type with
  | tarfs =>
    dsimp only
    split_ifs
    all_goals first | exact rule.failed start _ | exact rule.claimOther start _ _ _
  | dev => exact rule.devFsOpen start suffix path flags
  | net => exact rule.netFsOpen start suffix path flags
  | proc =>
    dsimp only
    cases env.answer .proc suffix (.open_ flags) with
    | error e => exact rule.failed start e
    | ok value => exact rule.claimOther start _ _ _
  | driver key => exact rule.openNode start _ _ _ _ _ _ _

lemma openThroughMounts (fd : Int) (path : Bytes) (flags : Oflags) :
    ends (openThroughMounts env v fd path flags) := by
  rw [Vfs.openThroughMounts]
  cases vfsResolvePath env.toSubsystems v.ctx fd path with
  | error e => exact rule.failed start e
  | ok normal => exact rule.routeOpenFd start normal flags

lemma vfsOpen (path : Bytes) (flags : Oflags) : ends (vfsOpen env v path flags) := by
  rw [Vfs.vfsOpen]
  split
  · exact rule.failed start .einval
  · exact rule.openThroughMounts start _ path flags

lemma openChild (driver : PlatformDriver) (parent path : Bytes) (flags : Oflags)
    (shared : ∃ pos, keyOf (v.at pos) = some driver.key) :
    ends (openChild env v driver parent path flags) := by
  have answered := rule.opened start driver.key
  have slots := openHandle_fds env v driver.key
  rw [Vfs.openChild]
  generalize openHandle env v driver.key = out at answered slots ⊢
  rcases out with ⟨e | _, after⟩
  · exact rule.failed answered e
  refine rule.claimed answered _ _ ?_
  rintro driver' drvFd flags' path' same
  cases same
  obtain ⟨pos, key⟩ := shared
  refine ⟨pos, ?_⟩
  rw [VfsState.at, show after.fds = v.fds from slots]
  exact key

lemma vfsOpenAtFd (fd : Int) (path : Bytes) (flags : Oflags) :
    ends (vfsOpenAtFd env v fd path flags) := by
  rw [Vfs.vfsOpenAtFd]
  split
  · exact rule.failed start .einval
  split
  · rename_i driver drvFd slotFlags parent handle opened live parentSlot
    split
    · exact rule.openThroughMounts start fd path flags
    refine rule.openChild start driver parent path flags ⟨fd.toNat, ?_⟩
    rw [← (open?_eq_some parentSlot).2]
    rfl
  · exact rule.openThroughMounts start fd path flags

lemma vfsSockAccept (fd : Int) (flags : Oflags) : ends (vfsSockAccept env v fd flags) := by
  rw [Vfs.vfsSockAccept]
  split
  · exact rule.failed start .ebadf
  · rename_i listener opened live slot
    have answered := rule.opened start listener.driver
    rw [acceptFrom]
    generalize openHandle env v listener.driver = out at answered ⊢
    rcases out with ⟨e | _, _⟩
    · exact rule.failed answered e
    dsimp only
    split
    · exact rule.closed answered .enomem
    · exact rule.claimed answered _ _ nofun
  · exact rule.failed start enotsock

/-- What every open keeps, and the close of the new descriptor, `VfsStatAt` keeps. -/
lemma vfsStatAt (keeps : VfsState → Prop) (ended : ∀ {out}, ends out → keeps out.2)
    (same : keeps v) (closes : ∀ v fd, ends (.ok fd, v) → keeps (vfsClose env v fd).2) (fd : Int)
    (path : Bytes) : keeps (vfsStatAt env v fd path).2 := by
  have passing : keeps (openAndClose env v fd path).2 := by
    have opened := rule.vfsOpenAtFd start fd path 0
    rw [openAndClose]
    generalize Vfs.vfsOpenAtFd env v fd path 0 = out at opened ⊢
    rcases out with ⟨_ | newFd, after⟩
    · exact ended opened
    · exact closes after newFd opened
  rw [Vfs.vfsStatAt]
  cases v.open? fd with
  | none => exact same
  | some open_ =>
    dsimp only
    split
    · exact passing
    split
    · exact same
    · exact passing

end OpenRule

/-- What the close of the target and the move of a slot keep, `VfsRenumber` keeps. -/
lemma vfsRenumber_keeps {env : Backends} {source target : Int}
    (keeps : VfsState → Prop) (same : keeps v) (closed : keeps (vfsClose env v target).2)
    (moves : ∀ after open_, keeps after → keeps { after with
      fds := (after.fds.set target.toNat (some open_)).set source.toNat none }) :
    keeps (vfsRenumber env v source target).2 := by
  rw [vfsRenumber]
  split
  · split_ifs
    · exact same
    · exact same
    generalize vfsClose env v target = out at closed
    rcases out with ⟨_ | _, after⟩
    · exact closed
    · exact moves after _ closed
  · exact same

end WantedEngine.Vfs
