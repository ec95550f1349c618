import WantedEngine.Vfs.PathCalls
import WantedEngine.Vfs.PathText
/-!
# Confinement of the path calls to a preopen

Which host objects the path calls on a platform preopen act on. Only the open of the Linux
driver is confined by the host (`openat2` with `RESOLVE_BENEATH`); every other operation passes
the guest's path to a host call that follows `..`. The result is exact
(`pathCall_beneath_iff`): a call acts beneath its preopen under all host answers iff
its own checks refuse it, it is the confined open, or none of its paths climbs out of the
preopen's directory for good.
-/
namespace WantedEngine.Vfs

open Foundation Wasi List HostCall PathOutcome Option

/-- A path climbs to no parent of a directory that it does not descend from again by the
directory's own names. -/
def reenters (root : List Bytes) (path : Bytes) : Bool :=
  (root.drop (root.length - (Move.climb (moves path)).1)).isPrefixOf (Move.climb (moves path)).2

/-- A walk ends beneath its start iff its path re-enters it. -/
lemma isPrefix_walk_iff_reenters (root : List Bytes) (path : Bytes) :
    root <+: Move.walk root (moves path) ↔ reenters root path = true := by
  rw [Move.start_isPrefix_walk_iff, reenters, isPrefixOf_iff_prefix]

/-- Under all answers of the host every object acted on lies beneath a directory. The host
calls issued may depend on the answers. -/
def Beneath (tree : HostTree) (root : List Bytes) (issued : Answers → List HostCall) : Prop :=
  ∀ answers, ∀ object ∈ actedOn tree answers (issued answers), root <+: object

def allSucceed : Answers := ⟨fun _ => .ok 0, fun _ => true, .ok 0⟩

section

variable {tree : HostTree} {root : List Bytes}

/-- No host call acts on nothing. -/
lemma beneath_nil : Beneath tree root fun _ => [] := by
  intro answers object mem
  cases mem

variable {issued : Answers → List HostCall} {newDriver : PlatformDriver} {location : List Bytes} {parent path : Bytes} {fd drvFd : Int} {flags : Oflags}

/-- A call refused before it reaches the host is confined whatever it would have reached. -/
lemma beneath_refused_iff {admitted confined : Prop}
    (none : ∀ answers, issued answers = []) (refused : ¬ admitted) :
    Beneath tree root issued ↔ (admitted → confined) := by
  rw [funext none]
  exact iff_of_true beneath_nil fun holds => absurd holds refused

lemma beneath_singleton_iff (call : HostCall) :
    Beneath tree root (fun _ => [call]) ↔ ∀ object ∈ call.objects tree, root <+: object := by
  constructor
  · intro beneath object mem
    exact beneath allSucceed object (by simpa [actedOn, allSucceed] using mem)
  intro named answers object mem
  simp only [actedOn, mem_flatMap, mem_filter, mem_singleton] at mem
  obtain ⟨_, ⟨rfl, -⟩, mem⟩ := mem
  exact named object mem

lemma Beneath.of_named (named : ∀ answers, ∀ call ∈ issued answers, call.objects tree = [location])
    (beneath : root <+: location) : Beneath tree root issued := by
  intro answers object mem
  simp only [actedOn, mem_flatMap, mem_filter] at mem
  obtain ⟨call, ⟨made, -⟩, mem⟩ := mem
  rw [named answers call made, mem_singleton] at mem
  rw [mem]
  exact beneath

lemma espOpenDir_calls (answers : Answers) (path : Bytes) (made : List HostCall) :
    (espOpenDir answers path made).calls = made ++ [.stat path] := by
  unfold espOpenDir
  cases answers.answer (.stat path) with
  | error e => rfl
  | ok _ =>
    dsimp only
    split <;> rfl

lemma espOpen_named (answers : Answers) (path : Bytes) (flags : Oflags) :
    ∀ call ∈ (espOpen answers path flags).calls, call.objects tree = [hostLocation path] := by
  intro call mem
  unfold espOpen at mem
  split at mem
  · split at mem
    · split at mem
      · rw [espOpenDir_calls] at mem
        rcases mem_append.mp mem with made | stat
        · rw [mem_singleton.mp made, objects]
        · rw [mem_singleton.mp stat, objects]
      split at mem
      · rw [espOpenDir_calls] at mem
        rcases mem_append.mp mem with made | stat
        · rw [mem_singleton.mp made, objects]
        · rw [mem_singleton.mp stat, objects]
      · rw [mem_singleton.mp mem, objects]
    · rw [espOpenDir_calls] at mem
      rw [mem_singleton.mp mem, objects]
  · split at mem
    · rw [mem_singleton.mp mem, objects]
    · rw [mem_singleton.mp mem, objects]

lemma espOpen_acts (path : Bytes) (flags : Oflags) :
    hostLocation path ∈ actedOn tree allSucceed (espOpen allSucceed path flags).calls := by
  unfold espOpen
  split
  · split
    · simp [allSucceed, espOpenDir_calls, actedOn, objects]
    · simp [allSucceed, espOpenDir_calls, actedOn, objects]
  · simp [allSucceed, actedOn, objects]

lemma espOpen_beneath_iff (path : Bytes) (flags : Oflags) :
    Beneath tree root (fun answers => (espOpen answers path flags).calls) ↔
      root <+: hostLocation path := by
  constructor
  · intro beneath
    exact beneath allSucceed _ (espOpen_acts path flags)
  · intro beneath
    exact Beneath.of_named (fun answers => espOpen_named answers path flags) beneath

end

/-- The path joined onto the preopen's directory fits the buffer it is joined in; only the
ESP-IDF driver joins. -/
def joinFits (tree : HostTree) (d : PlatformDriver) (path : Bytes) : Bool :=
  d.platform ≠ .espIdf ∨ (tree.join d.rootPath path).length < tree.maxPathLen

section

variable {tree : HostTree} {d : PlatformDriver} {drvFd : Int} {path : Bytes}

/-- A plain `*at()` call on a preopen resolves a relative path from the preopen's directory. -/
lemma resolveAt_preopen (bound : tree.dirs drvFd = some d.rootPath)
    (relative : isAbsolute path = false) :
    tree.resolveAt drvFd path = some (Move.walk (hostLocation d.rootPath) (moves path)) := by
  simp [HostTree.resolveAt, HostTree.dirLocation, relative, bound]

lemma resolveBeneath_preopen (bound : tree.dirs drvFd = some d.rootPath)
    (resolved : location ∈ (tree.resolveBeneath drvFd path).toList) :
    hostLocation d.rootPath <+: location := by
  unfold HostTree.resolveBeneath at resolved
  split at resolved
  · cases resolved
  rename_i confined
  simp only [HostTree.dirLocation, bound, map_some, toList_some, mem_singleton] at resolved
  rw [resolved]
  exact Move.start_isPrefix_walk_of_climb (not_not.mp (not_or.mp confined).2)

lemma joinFromFd_preopen (esp : d.platform = .espIdf) (bound : tree.dirs drvFd = some d.rootPath) :
    joinFromFd tree drvFd path =
      if joinFits tree d path then .ok (tree.join d.rootPath path) else .error .enametoolong := by
  unfold joinFromFd joinFits
  rw [bound]
  by_cases fits : (tree.join d.rootPath path).length < tree.maxPathLen
  · simp [fits]
  · simp [esp, Nat.le_of_not_lt fits]

variable (joins : tree.JoinResolves)
include joins

/-- An operation on the joined path stays beneath the preopen's directory iff the
path does not fit or re-enters the directory. -/
lemma withJoined_beneath_iff (esp : d.platform = .espIdf)
    (bound : tree.dirs drvFd = some d.rootPath) (operation : Answers → Bytes → Effect)
    (each : ∀ joined, Beneath tree (hostLocation d.rootPath)
      (fun answers => (operation answers joined).calls) ↔
        hostLocation d.rootPath <+: hostLocation joined) :
    Beneath tree (hostLocation d.rootPath)
      (fun answers => (withJoined tree drvFd path (operation answers)).calls) ↔
      (joinFits tree d path = true → reenters (hostLocation d.rootPath) path = true) := by
  simp only [withJoined, joinFromFd_preopen esp bound]
  by_cases fits : joinFits tree d path = true
  · simp only [fits, if_true, forall_true_left]
    rw [each, joins, isPrefix_walk_iff_reenters]
  · exact beneath_refused_iff (fun _ => by simp only [if_neg fits]; rfl) fits

/-- `_OpenAt` on a preopen stays beneath its directory iff it is refused, is the
confined open of the Linux driver, or its path re-enters the directory. -/
lemma openAt_beneath_iff (bound : tree.dirs drvFd = some d.rootPath)
    (relative : isAbsolute path = false) (flags : Oflags) :
    Beneath tree (hostLocation d.rootPath)
      (fun answers => (d.openAt tree answers drvFd path flags).calls) ↔
      (¬ (d.readonly ∧ vfsOIsWrite flags) ∧ joinFits tree d path = true →
        d.platform = .linux ∨ reenters (hostLocation d.rootPath) path = true) := by
  unfold PlatformDriver.openAt
  by_cases refused : d.readonly ∧ vfsOIsWrite flags
  · exact beneath_refused_iff (fun _ => by simp only [if_pos refused]; rfl)
      fun admitted => admitted.1 refused
  simp only [if_neg refused]
  cases onPlatform : d.platform with
  | linux =>
    refine iff_of_true ?_ (fun _ => .inl rfl)
    simp only [Effect.issue]
    rw [beneath_singleton_iff]
    intro object mem
    exact resolveBeneath_preopen bound mem
  | nuttx =>
    have fits : joinFits tree d path = true := by simp [joinFits, onPlatform]
    simp only [Effect.issue, fits, refused, not_false_eq_true, and_self, reduceCtorEq, false_or,
      forall_true_left]
    rw [beneath_singleton_iff]
    simp only [objects, resolveAt_preopen bound relative, toList_some, mem_singleton, forall_eq]
    exact isPrefix_walk_iff_reenters _ _
  | espIdf =>
    simp only [refused, not_false_eq_true, true_and, reduceCtorEq, false_or]
    exact withJoined_beneath_iff joins onPlatform bound _
      (fun joined => espOpen_beneath_iff joined flags)

/-- An operation that changes one entry of a preopen stays beneath its directory iff
it is refused or its path re-enters the directory. -/
lemma mutateAt_beneath_iff (bound : tree.dirs drvFd = some d.rootPath)
    (relative : isAbsolute path = false) {atCall : HostCall} {absoluteCall : Bytes → HostCall}
    (atObjects : atCall.objects tree = (tree.resolveAt drvFd path).toList)
    (absoluteObjects : ∀ joined, (absoluteCall joined).objects tree = [hostLocation joined]) :
    Beneath tree (hostLocation d.rootPath)
      (fun answers => (d.mutateAt tree answers drvFd path atCall absoluteCall).calls) ↔
      (d.readonly = false ∧ joinFits tree d path = true →
        reenters (hostLocation d.rootPath) path = true) := by
  have plain : Beneath tree (hostLocation d.rootPath) (fun _ => [atCall]) ↔
      reenters (hostLocation d.rootPath) path = true := by
    rw [beneath_singleton_iff, atObjects, resolveAt_preopen bound relative]
    simp only [toList_some, mem_singleton, forall_eq]
    exact isPrefix_walk_iff_reenters _ _
  unfold PlatformDriver.mutateAt
  cases readonly : d.readonly with
  | true =>
    exact beneath_refused_iff (fun _ => rfl) (by simp)
  | false =>
    simp only [Bool.false_eq_true, if_false, true_and]
    cases onPlatform : d.platform with
    | linux | nuttx =>
      have fits : joinFits tree d path = true := by simp [joinFits, onPlatform]
      simpa only [Effect.issue, fits, forall_true_left] using plain
    | espIdf =>
      refine withJoined_beneath_iff joins onPlatform bound _ (fun joined => ?_)
      simp only [Effect.issue]
      rw [beneath_singleton_iff, absoluteObjects]
      simp

variable {d : PlatformDriver} {newFd : Int} {c : VfsCtx}

lemma rename_beneath_iff {newPath : Bytes} (bound : tree.dirs drvFd = some d.rootPath)
    (relative : isAbsolute path = false) (newBound : tree.dirs newFd = some d.rootPath)
    (newRelative : isAbsolute newPath = false) :
    Beneath tree (hostLocation d.rootPath)
      (fun answers => (d.rename tree answers drvFd path newFd newPath).calls) ↔
      (d.readonly = false ∧ joinFits tree d path = true ∧ joinFits tree d newPath = true →
        reenters (hostLocation d.rootPath) path = true ∧
          reenters (hostLocation d.rootPath) newPath = true) := by
  have plain : Beneath tree (hostLocation d.rootPath)
      (fun _ => [.renameat drvFd path newFd newPath]) ↔
        reenters (hostLocation d.rootPath) path = true ∧
          reenters (hostLocation d.rootPath) newPath = true := by
    rw [beneath_singleton_iff, objects, resolveAt_preopen bound relative,
      resolveAt_preopen newBound newRelative, ← isPrefix_walk_iff_reenters,
      ← isPrefix_walk_iff_reenters]
    simp
  unfold PlatformDriver.rename
  cases readonly : d.readonly with
  | true =>
    exact beneath_refused_iff (fun _ => rfl) (by simp)
  | false =>
    simp only [Bool.false_eq_true, if_false, true_and]
    cases onPlatform : d.platform with
    | linux | nuttx =>
      have fits : ∀ path, joinFits tree d path = true := fun _ => by simp [joinFits, onPlatform]
      simpa only [Effect.issue, fits, and_self, forall_true_left] using plain
    | espIdf =>
      simp only [withJoined, joinFromFd_preopen onPlatform bound,
        joinFromFd_preopen onPlatform newBound]
      by_cases fits : joinFits tree d path = true
      · by_cases newFits : joinFits tree d newPath = true
        · simp only [fits, newFits, if_true, Effect.issue]
          rw [beneath_singleton_iff, objects, joins, joins,
            ← isPrefix_walk_iff_reenters, ← isPrefix_walk_iff_reenters]
          simp
        · exact beneath_refused_iff (fun _ => by simp only [fits, if_neg newFits]; rfl)
            fun fitted => newFits fitted.2
      · exact beneath_refused_iff (fun _ => by simp only [if_neg fits]; rfl)
          fun fitted => fits fitted.1

end

/-- The platform driver of a descriptor that is a preopen: the descriptor stands for the host
directory its driver was made for. -/
def preopenDriver (tree : HostTree) (c : VfsCtx) (fd : Int) : Option PlatformDriver :=
  match c.slot fd with
  | .platform d drvFd _ _ => if tree.dirs drvFd = some d.rootPath then some d else none
  | _ => none

/-- The slot of a preopen. -/
lemma preopenDriver_slot {tree : HostTree} {fd : Int} (preopen : preopenDriver tree c fd = some d) :
    ∃ drvFd flags path, c.slot fd = .platform d drvFd flags path ∧
      tree.dirs drvFd = some d.rootPath := by
  unfold preopenDriver at preopen
  split at preopen
  · rename_i drvFd flags path slot
    split at preopen
    · rename_i bound
      obtain rfl := Option.some.inj preopen
      exact ⟨drvFd, flags, path, slot, bound⟩
    · cases preopen
  · cases preopen

inductive PathCall where
  | open_ (dirfd : Int) (path : GuestPath) (args : OpenArgs)
  | unlinkFile (fd : Int) (path : GuestPath)
  | createDirectory (fd : Int) (path : GuestPath)
  | removeDirectory (fd : Int) (path : GuestPath)
  | rename (oldFd : Int) (oldPath : GuestPath) (newFd : Int) (newPath : GuestPath)

namespace PathCall

/-- The WASI call. -/
def run (tree : HostTree) (answers : Answers) (env : Subsystems) (ctx : WasiCtx) (m : Memory) :
    PathCall → PathOutcome
  | open_ dirfd path args => wasiPathOpen tree answers env ctx m dirfd path args
  | unlinkFile fd path => wasiPathUnlinkFile tree answers env ctx m fd path
  | createDirectory fd path => wasiPathCreateDirectory tree answers env ctx m fd path
  | removeDirectory fd path => wasiPathRemoveDirectory tree answers env ctx m fd path
  | rename oldFd oldPath newFd newPath =>
    wasiPathRename tree answers env ctx m oldFd oldPath newFd newPath

def descriptors : PathCall → List Int
  | open_ fd _ _ | unlinkFile fd _ | createDirectory fd _ | removeDirectory fd _ => [fd]
  | rename oldFd _ newFd _ => [oldFd, newFd]

/-- The paths a call hands to the virtual file system. -/
def paths (m : Memory) : PathCall → List Bytes
  | open_ _ path _ => [openPath m path]
  | unlinkFile _ path | createDirectory _ path | removeDirectory _ path => [path.hostPath m]
  | rename _ oldPath _ newPath => [oldPath.hostPath m, newPath.hostPath m]

/-- A call that changes one entry passes its own checks. -/
def changeAdmitted (tree : HostTree) (m : Memory) (d : PlatformDriver) (path : GuestPath) : Prop :=
  path.lengthValid ∧ path.rangeValid m ∧ isAbsolute (path.hostPath m) = false ∧
    d.readonly = false ∧ joinFits tree d (path.hostPath m)

/-- A call on preopens with the given driver passes its own checks and reaches the driver's
host call: a relative path of an accepted length in guest memory, the rights and the
read-only check, one driver for both ends of a rename, and a joined path that fits. -/
def admitted (tree : HostTree) (ctx : WasiCtx) (m : Memory) (d : PlatformDriver) : PathCall → Prop
  | open_ dirfd path args =>
    path.lengthValid ∧ exceedsRights ctx dirfd args = false ∧ path.rangeValid m ∧
      (vaddr m args.fdApp 4).isSome ∧ openPath m path ≠ [] ∧
      isAbsolute (openPath m path) = false ∧ ¬ (d.readonly ∧ vfsOIsWrite args.flags) ∧
      joinFits tree d (openPath m path)
  | unlinkFile _ path | createDirectory _ path | removeDirectory _ path =>
    changeAdmitted tree m d path
  | rename _ oldPath newFd newPath =>
    changeAdmitted tree m d oldPath ∧ changeAdmitted tree m d newPath ∧
      preopenDriver tree ctx.vfs newFd = some d

def confinedOpen (d : PlatformDriver) : PathCall → Bool
  | open_ _ _ _ => d.platform = .linux
  | _ => false

end PathCall

/-- The host calls of a path call are those of its operation. -/
@[simp] lemma ofEffect_calls (effect : Effect) (ctx : WasiCtx) (m : Memory) :
    (ofEffect effect ctx m).calls = effect.calls := by
  unfold ofEffect
  split <;> rfl

lemma vfsOpenAt_calls (slot : c.slot fd = .platform d drvFd flags parent) (nonempty : path ≠ [])
    (relative : isAbsolute path = false) (tree : HostTree) (answers : Answers) (env : Subsystems)
    (oflags : Oflags) :
    (vfsOpenAt tree answers env c fd path oflags).1.calls =
      (d.openAt tree answers drvFd path oflags).calls := by
  simp only [vfsOpenAt, if_neg nonempty, slot, relative, Bool.false_eq_true, if_false]
  split <;> rfl

lemma vfsOpenAt_no_calls (slot : c.slot fd = .platform d drvFd flags parent)
    (elsewhere : path = [] ∨ isAbsolute path = true) (tree : HostTree) (answers : Answers)
    (env : Subsystems) (oflags : Oflags) :
    (vfsOpenAt tree answers env c fd path oflags).1.calls = [] := by
  by_cases empty : path = []
  · simp [vfsOpenAt, empty, Effect.refuse]
  have absolute := elsewhere.resolve_left empty
  simp only [vfsOpenAt, if_neg empty, slot, absolute, if_true]
  split <;> rfl

lemma wasiPathOpen_calls (tree : HostTree) (answers : Answers) (env : Subsystems) (ctx : WasiCtx)
    (m : Memory) (dirfd : Int) (path : GuestPath) (args : OpenArgs) :
    (wasiPathOpen tree answers env ctx m dirfd path args).calls =
      if path.lengthValid ∧ exceedsRights ctx dirfd args = false ∧ path.rangeValid m ∧
        (vaddr m args.fdApp 4).isSome
      then (vfsOpenAt tree answers env ctx.vfs dirfd (openPath m path) args.flags).1.calls
      else [] := by
  unfold wasiPathOpen
  by_cases length : path.lengthValid = true
  · by_cases rights : exceedsRights ctx dirfd args = true
    · simp [length, rights, refuse]
    by_cases range : path.rangeValid m = true
    · cases out : vaddr m args.fdApp 4 with
      | none => simp [length, rights, refuse]
      | some fdOut =>
        simp only [length, rights, range, not_true, Bool.false_eq_true, if_false]
        split <;> rfl
    · simp [length, rights, range, refuse]
  · simp [length, refuse]

section

variable {tree : HostTree} {ctx : WasiCtx} {fd : Int} {d : PlatformDriver}

/-- `path_open` on a preopen stays beneath its directory iff its checks refuse it, it
is the confined open, or its path re-enters the directory. -/
lemma open_beneath_iff (joins : tree.JoinResolves)
    (preopen : preopenDriver tree ctx.vfs fd = some d) (env : Subsystems) (m : Memory)
    (path : GuestPath) (args : OpenArgs) :
    Beneath tree (hostLocation d.rootPath)
      (fun answers => (wasiPathOpen tree answers env ctx m fd path args).calls) ↔
      ((PathCall.open_ fd path args).admitted tree ctx m d →
        d.platform = .linux ∨ reenters (hostLocation d.rootPath) (openPath m path) = true) := by
  obtain ⟨_, _, _, slot, bound⟩ := preopenDriver_slot preopen
  simp only [wasiPathOpen_calls]
  by_cases checked : path.lengthValid ∧ exceedsRights ctx fd args = false ∧ path.rangeValid m ∧
      (vaddr m args.fdApp 4).isSome
  swap
  · exact beneath_refused_iff (fun _ => if_neg checked) fun admitted =>
      checked ⟨admitted.1, admitted.2.1, admitted.2.2.1, admitted.2.2.2.1⟩
  simp only [if_pos checked]
  by_cases elsewhere : openPath m path = [] ∨ isAbsolute (openPath m path) = true
  · refine beneath_refused_iff (fun _ => vfsOpenAt_no_calls slot elsewhere ..) fun admitted => ?_
    obtain ⟨-, -, -, -, nonempty, relative, -⟩ := admitted
    rcases elsewhere with empty | absolute
    · exact absurd empty nonempty
    · rw [relative] at absolute
      cases absolute
  obtain ⟨nonempty, relative⟩ := not_or.mp elsewhere
  have relative := Bool.not_eq_true _ ▸ relative
  simp only [vfsOpenAt_calls slot nonempty relative, openAt_beneath_iff joins bound relative]
  constructor
  · intro beneath admitted
    obtain ⟨-, -, -, -, -, -, writable, fits⟩ := admitted
    exact beneath ⟨writable, fits⟩
  · intro beneath reached
    obtain ⟨length, rights, range, out⟩ := checked
    exact beneath ⟨length, rights, range, out, nonempty, relative, reached.1, reached.2⟩

/-- A call that changes one entry of a preopen stays beneath its directory iff its
checks refuse it or its path re-enters the directory. `operation` is the driver's. -/
lemma change_beneath_iff (preopen : preopenDriver tree ctx.vfs fd = some d) (env : Subsystems)
    (m : Memory) (path : GuestPath) (op : RoutedOp)
    (operation : Answers → PlatformDriver → Int → Bytes → Effect)
    (driver : ∀ drvFd, tree.dirs drvFd = some d.rootPath →
      isAbsolute (path.hostPath m) = false →
      (Beneath tree (hostLocation d.rootPath)
        (fun answers => (operation answers d drvFd (path.hostPath m)).calls) ↔
        (d.readonly = false ∧ joinFits tree d (path.hostPath m) = true →
          reenters (hostLocation d.rootPath) (path.hostPath m) = true))) :
    Beneath tree (hostLocation d.rootPath)
      (fun answers => (onePath ctx m path fun hostPath =>
        vfsChange env ctx.vfs fd hostPath (operation answers) op).calls) ↔
      (PathCall.changeAdmitted tree m d path →
        reenters (hostLocation d.rootPath) (path.hostPath m) = true) := by
  obtain ⟨drvFd, _, _, slot, bound⟩ := preopenDriver_slot preopen
  unfold onePath
  by_cases length : path.lengthValid = true
  swap
  · exact beneath_refused_iff (fun _ => by simp only [if_pos length]; rfl)
      fun admitted => length admitted.1
  by_cases range : path.rangeValid m = true
  swap
  · exact beneath_refused_iff
      (fun _ => by simp only [if_neg (not_not_intro length), if_pos range]; rfl)
      fun admitted => range admitted.2.1
  simp only [if_neg (not_not_intro length), if_neg (not_not_intro range), ofEffect_calls,
    vfsChange, slot]
  cases relative : isAbsolute (path.hostPath m) with
  | true =>
    refine beneath_refused_iff (fun _ => rfl) fun admitted => ?_
    obtain ⟨-, -, away, -⟩ := admitted
    rw [relative] at away
    cases away
  | false =>
    simp only [Bool.false_eq_true, if_false]
    rw [driver drvFd bound relative]
    constructor
    · intro beneath admitted
      obtain ⟨-, -, -, writable, fits⟩ := admitted
      exact beneath ⟨writable, fits⟩
    · intro beneath reached
      exact beneath ⟨length, range, relative, reached.1, reached.2⟩

/-- `path_rename` on preopens stays beneath their directory iff its checks refuse it or
both paths re-enter the directory. -/
lemma wasiPathRename_beneath_iff (joins : tree.JoinResolves)
    (preopen : preopenDriver tree ctx.vfs fd = some d)
    (newPreopen : preopenDriver tree ctx.vfs newFd = some newDriver) (env : Subsystems) (m : Memory)
    (oldPath newPath : GuestPath) :
    Beneath tree (hostLocation d.rootPath)
      (fun answers => (wasiPathRename tree answers env ctx m fd oldPath newFd newPath).calls) ↔
      ((PathCall.rename fd oldPath newFd newPath).admitted tree ctx m d →
        reenters (hostLocation d.rootPath) (oldPath.hostPath m) = true ∧
          reenters (hostLocation d.rootPath) (newPath.hostPath m) = true) := by
  obtain ⟨_, _, _, slot, bound⟩ := preopenDriver_slot preopen
  obtain ⟨_, _, _, newSlot, newBound⟩ := preopenDriver_slot newPreopen
  have opened : ¬ (¬ checkFd ctx.vfs fd ∨ ¬ checkFd ctx.vfs newFd) := by
    simp [checkFd, slot, newSlot]
  unfold wasiPathRename
  by_cases lengths : ¬ oldPath.lengthValid ∨ ¬ newPath.lengthValid
  · exact beneath_refused_iff (fun _ => by simp only [if_pos lengths]; rfl) fun admitted =>
      lengths.elim (· admitted.1.1) (· admitted.2.1.1)
  by_cases ranges : ¬ oldPath.rangeValid m ∨ ¬ newPath.rangeValid m
  · exact beneath_refused_iff (fun _ => by simp only [if_neg lengths, if_pos ranges]; rfl)
      fun admitted => ranges.elim (· admitted.1.2.1) (· admitted.2.1.2.1)
  simp only [if_neg lengths, if_neg ranges, ofEffect_calls, vfsRename, if_neg opened, slot, newSlot]
  by_cases absolute : isAbsolute (oldPath.hostPath m) ∨ isAbsolute (newPath.hostPath m)
  · refine beneath_refused_iff (fun _ => by simp only [if_pos absolute]) fun admitted => ?_
    obtain ⟨⟨-, -, oldRelative, -⟩, ⟨-, -, newRelative, -⟩, -⟩ := admitted
    simp [oldRelative, newRelative] at absolute
  by_cases differ : d ≠ newDriver
  · refine beneath_refused_iff (fun _ => by simp only [if_neg absolute, if_pos differ]; rfl)
      fun admitted => ?_
    obtain ⟨-, -, same⟩ := admitted
    rw [newPreopen, Option.some.injEq] at same
    exact differ same.symm
  obtain rfl : d = newDriver := not_not.mp differ
  simp only [if_neg absolute, if_neg differ]
  obtain ⟨oldRelative, newRelative⟩ := not_or.mp absolute
  have oldRelative := Bool.not_eq_true _ ▸ oldRelative
  have newRelative := Bool.not_eq_true _ ▸ newRelative
  rw [rename_beneath_iff joins bound oldRelative newBound newRelative]
  constructor
  · intro beneath admitted
    obtain ⟨⟨-, -, -, writable, fits⟩, ⟨-, -, -, -, newFits⟩, -⟩ := admitted
    exact beneath ⟨writable, fits, newFits⟩
  intro beneath reached
  obtain ⟨writable, fits, newFits⟩ := reached
  have valid := not_or.mp lengths
  have inside := not_or.mp ranges
  exact beneath ⟨⟨not_not.mp valid.1, not_not.mp inside.1, oldRelative, writable, fits⟩,
    ⟨not_not.mp valid.2, not_not.mp inside.2, newRelative, writable, newFits⟩, newPreopen⟩

lemma wasiPathRename_two_drivers (preopen : preopenDriver tree ctx.vfs fd = some d)
    (newPreopen : preopenDriver tree ctx.vfs newFd = some newDriver)
    (differ : d ≠ newDriver) (answers : Answers) (env : Subsystems) (m : Memory)
    (oldPath newPath : GuestPath) :
    (wasiPathRename tree answers env ctx m fd oldPath newFd newPath).calls = [] := by
  obtain ⟨_, _, _, slot, -⟩ := preopenDriver_slot preopen
  obtain ⟨_, _, _, newSlot, -⟩ := preopenDriver_slot newPreopen
  unfold wasiPathRename
  split
  · rfl
  split
  · rfl
  rw [ofEffect_calls]
  simp only [vfsRename, slot, newSlot]
  split
  · rfl
  · split <;> rfl

end

/-- The first descriptor of a call, whose preopen the call acts in. -/
def PathCall.descriptor : PathCall → Int
  | .open_ fd _ _ | .unlinkFile fd _ | .createDirectory fd _ | .removeDirectory fd _ => fd
  | .rename oldFd _ _ _ => oldFd

/-- Every host object that a path call on platform preopens opens, creates, renames or removes
lies beneath the host directory of the preopen, whatever the host answers, iff the
call's own checks refuse it, it is the confined open of the Linux driver, or each of its paths
re-enters the directory it climbs out of. -/
theorem pathCall_beneath_iff (tree : HostTree) (joins : tree.JoinResolves) (env : Subsystems)
    (ctx : WasiCtx) (m : Memory) (call : PathCall)
    (preopens : ∀ fd ∈ call.descriptors, (preopenDriver tree ctx.vfs fd).isSome) :
    (∀ answers, ∀ object ∈ actedOn tree answers (call.run tree answers env ctx m).calls,
      ∀ fd ∈ call.descriptors, ∀ d ∈ preopenDriver tree ctx.vfs fd,
        hostLocation d.rootPath <+: object) ↔
      ∀ d ∈ preopenDriver tree ctx.vfs call.descriptor, call.admitted tree ctx m d →
        call.confinedOpen d ∨
          ∀ path ∈ call.paths m, reenters (hostLocation d.rootPath) path = true := by
  obtain ⟨d, preopen⟩ := isSome_iff_exists.mp
    (preopens call.descriptor (by cases call <;> simp [PathCall.descriptors, PathCall.descriptor]))
  -- a call with one descriptor is about the objects beneath its one preopen
  have single : ∀ fd d, preopenDriver tree ctx.vfs fd = some d →
      ∀ issued : Answers → List HostCall, ((∀ answers, ∀ object ∈ actedOn tree answers (issued answers), ∀ at_ ∈ [fd],
        ∀ d ∈ preopenDriver tree ctx.vfs at_, hostLocation d.rootPath <+: object) ↔
        Beneath tree (hostLocation d.rootPath) issued) := by
    intro fd d preopen issued
    simp [Beneath, preopen]
  cases call with
  | open_ fd path args =>
    replace preopen : preopenDriver tree ctx.vfs fd = some d := preopen
    refine (single fd d preopen _).trans ((open_beneath_iff joins preopen env m path args).trans ?_)
    simp [PathCall.descriptor, preopen, PathCall.confinedOpen, PathCall.paths]
  | unlinkFile fd path | createDirectory fd path | removeDirectory fd path =>
    replace preopen : preopenDriver tree ctx.vfs fd = some d := preopen
    refine (single fd d preopen _).trans ((change_beneath_iff preopen env m path _ _
      fun drvFd bound relative => mutateAt_beneath_iff joins bound relative rfl
        fun _ => rfl).trans ?_)
    simp [PathCall.descriptor, preopen, PathCall.confinedOpen, PathCall.paths, PathCall.admitted]
  | rename fd oldPath newFd newPath =>
    replace preopen : preopenDriver tree ctx.vfs fd = some d := preopen
    obtain ⟨newDriver, newPreopen⟩ :=
      isSome_iff_exists.mp (preopens newFd (by simp [PathCall.descriptors]))
    have both : (∀ answers, ∀ object ∈ actedOn tree answers
        (wasiPathRename tree answers env ctx m fd oldPath newFd newPath).calls,
        ∀ at_ ∈ [fd, newFd], ∀ d ∈ preopenDriver tree ctx.vfs at_, hostLocation d.rootPath <+: object) ↔
        Beneath tree (hostLocation d.rootPath) (fun answers =>
          (wasiPathRename tree answers env ctx m fd oldPath newFd newPath).calls) := by
      by_cases same : d = newDriver
      · subst same
        simp [Beneath, preopen, newPreopen]
      · simp [Beneath, wasiPathRename_two_drivers preopen newPreopen same, actedOn]
    refine both.trans ((wasiPathRename_beneath_iff joins preopen newPreopen env m oldPath
      newPath).trans ?_)
    simp [PathCall.descriptor, preopen, PathCall.confinedOpen, PathCall.paths]

/-! ## A host on which the join has its documented behaviour -/

/-- `cwk_path_join` onto an absolute path: the normalised absolute path of what it names. -/
def cwkPathJoin (base path : Bytes) : Bytes :=
  renderPath (Move.walk (hostLocation base) (moves path))

/-- The normalising join resolves `..` to the parent. -/
lemma hostLocation_cwkPathJoin (base path : Bytes) :
    hostLocation (cwkPathJoin base path) = Move.walk (hostLocation base) (moves path) :=
  hostLocation_renderPath (walk_proper
    (walk_proper (fun _ mem => by cases mem) _ (slash_not_mem_component base))
    _ (slash_not_mem_component path))

/-- A host with one open directory, `/data/app`. -/
def sampleTree : HostTree where
  dirs := fun fd => if fd = 7 then some (ascii "/data/app") else none
  join := cwkPathJoin
  maxPathLen := 256

/-- A writable preopen of `/data/app`. -/
def sampleDriver (platform : Platform) : PlatformDriver := ⟨1, platform, ascii "/data/app", false⟩

def sampleCtx (platform : Platform) : WasiCtx where
  vfs :=
    { fds := [.closed, .closed, .closed, .platform (sampleDriver platform) 7 vfsORdwr (ascii "/app")]
      mounts := [⟨ascii "/", .tarfs⟩, ⟨ascii "/dev", .dev⟩]
      tarfs := false }
  preopens := [⟨3, BitVec.allOnes 64⟩]

def emptySubsystems : Subsystems := ⟨id, fun _ _ _ => .error .enoent, fun _ => false⟩

def memoryWith (text : Bytes) : Memory := ⟨65536, by decide, fun at_ => text.getD (at_ - 16) 0⟩

/-- Creating `logs` in a NuttX preopen acts beneath the preopen's directory. -/
theorem pathCall_beneath_logs : sampleTree.JoinResolves ∧
    ∀ answers, ∀ object ∈ actedOn sampleTree answers
      ((PathCall.createDirectory 3 ⟨16, 4⟩).run sampleTree answers emptySubsystems
        (sampleCtx .nuttx) (memoryWith (ascii "logs"))).calls,
      ∀ fd ∈ [3], ∀ d ∈ preopenDriver sampleTree (sampleCtx .nuttx).vfs fd,
        hostLocation d.rootPath <+: object := by
  refine ⟨hostLocation_cwkPathJoin, (pathCall_beneath_iff sampleTree hostLocation_cwkPathJoin
    emptySubsystems (sampleCtx .nuttx) (memoryWith (ascii "logs"))
    (.createDirectory 3 ⟨16, 4⟩) (by decide)).mpr fun d preopen _ => .inr ?_⟩
  have known : preopenDriver sampleTree (sampleCtx .nuttx).vfs 3 = some (sampleDriver .nuttx) := by
    decide
  obtain rfl : sampleDriver .nuttx = d := Option.some.inj (known.symm.trans preopen)
  decide

/-- Unlinking `../victim` on a Linux preopen of `/data/app` removes `/data/victim`. -/
theorem unlink_escapes_preopen :
    preopenDriver sampleTree (sampleCtx .linux).vfs 3 = some (sampleDriver .linux) ∧
    [ascii "data", ascii "victim"] ∈ actedOn sampleTree allSucceed
      ((PathCall.unlinkFile 3 ⟨16, 9⟩).run sampleTree allSucceed emptySubsystems
        (sampleCtx .linux) (memoryWith (ascii "../victim"))).calls ∧
    ¬ hostLocation (sampleDriver .linux).rootPath <+: [ascii "data", ascii "victim"] := by
  decide +kernel

end WantedEngine.Vfs
