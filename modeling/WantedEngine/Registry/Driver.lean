import WantedEngine.Registry.InstallRef
import WantedEngine.Vfs.Handles
/-!
# The registry driver and its descriptors

A wapp installs through files below `/dev/wanted/reg/images` (`vfs-wanted-registry.c`). An open for
writing names what is installed: the image itself, one layer, a link to a blob, the commit of the
layers, or a signature. The bytes of an image or a layer go to the registry as they are written; the
others are buffered and applied by the close. `VfsDestroy` closes what a wapp left open
(`destroyVfs`), in the order in which the virtual file system closes its handles.

Descriptors that are only read or enumerated are alike here: neither a write nor a close of one
reaches the registry.
-/
namespace WantedEngine.Registry

open List

def maxRegFds : Nat := 8
def regRefMax : Nat := wappMaxNameLen + 1 + wappMaxVersionLen + 1
/-- `REGISTRY_SIG_PAYLOAD_LEN`: a key id and a signature. -/
def registrySigPayloadLen : Nat := 68
/-- `REG_LINK_MAX`: the digits of a digest and a newline. -/
def regLinkMax : Nat := 65
/-- `REG_COMMIT_MAX`: a layer count and a build time. -/
def regCommitMax : Nat := 9
def regSigSuffix : Bytes := ascii ".sig"
def regLinkSuffix : Bytes := ascii ".link"
def regRouteCommit : Bytes := ascii "layers"
def regLayerDigits : Nat := 2

/-- `reg_fd_t` by its kind. -/
inductive RegFd where
  /-- `REG_FD_FREE`. -/
  | free
  /-- A descriptor that is only read or enumerated. -/
  | reading
  /-- `REG_FD_WRITE`: the reference, and whether its first chunk was taken. -/
  | install (ref : Bytes) (started : Bool)
  /-- `REG_FD_SIG`: the payload is applied by the close. -/
  | signature (ref payload : Bytes)
  /-- `REG_FD_LAYER`. -/
  | layer (ref : Bytes) (layer : Nat) (started : Bool)
  /-- `REG_FD_COMMIT`: the payload is applied by the close. -/
  | commit (ref payload : Bytes)
  /-- `REG_FD_LINK`: the payload is applied by the close. -/
  | link (ref : Bytes) (layer : Nat) (payload : Bytes)
  deriving DecidableEq

/-- The driver's descriptors and the registry behind them. -/
structure ControlPlane (σ : Type) where
  fds : List RegFd
  registry : State σ

/-! ### Opening for writing -/

def allocFd (fds : List RegFd) (kind : RegFd) : Rc Nat × List RegFd :=
  match fds.findIdx? (· = .free) with
  | none => (.error .emfile, fds)
  | some fd => (.ok fd, fds.set fd kind)

def decimal (digits : Bytes) : Nat := digits.foldl (fun sum digit => sum * 10 + (digit.toNat - 48)) 0

def endsIn (text suffix : Bytes) : Bool :=
  suffix.length < text.length ∧ text.drop (text.length - suffix.length) = suffix

/-- `openLayerRoute`: `<ref>#<n>`, `<ref>#<n>.link` or `<ref>#layers`. -/
def openLayerRoute (cfg : Config) (fds : List RegFd) (path : Bytes) : Rc Nat × List RegFd :=
  let ref := path.takeWhile (· ≠ 35)
  let route := (path.dropWhile (· ≠ 35)).drop 1
  let linked := endsIn route regLinkSuffix
  let digits := if linked then route.take (route.length - regLinkSuffix.length) else route
  if ref = [] ∨ regRefMax ≤ ref.length then (.error .enametoolong, fds)
  else if validInstallRef ref = false then (.error .einval, fds)
  else if route = regRouteCommit then allocFd fds (.commit ref [])
  else if digits = [] ∨ regLayerDigits < digits.length ∨
      ¬ digits.all (fun digit => 48 ≤ digit ∧ digit ≤ 57) then (.error .einval, fds)
  else if cfg.maxLayers ≤ decimal digits then (.error .einval, fds)
  else
    allocFd fds
      (if linked then .link ref (decimal digits) [] else .layer ref (decimal digits) false)

/-- `openImage` for writing, of a path below `images`. -/
def openImage (cfg : Config) (fds : List RegFd) (path : Bytes) : Rc Nat × List RegFd :=
  if path = [] then (.error .eisdir, fds)
  else if 35 ∈ path then openLayerRoute cfg fds path
  else if endsIn path regSigSuffix then
    let ref := path.take (path.length - regSigSuffix.length)
    if regRefMax ≤ ref.length then (.error .enametoolong, fds)
    else if validInstallRef ref = false then (.error .einval, fds)
    else allocFd fds (.signature ref [])
  else if regRefMax ≤ path.length then (.error .enametoolong, fds)
  else if validInstallRef path = false then (.error .einval, fds)
  else allocFd fds (.install path false)

/-! ### Writing and closing -/

variable {σ : Type} (sys : System σ)

/-- `WantedWriteRegistry` and `WantedWriteRegistryLayer`: the first chunk starts the write, and only
a write that was started goes on. The answer has whether it is started now. -/
def wantedWrite (r : State σ) (plain started : Bool) (ref : Bytes) (layer : Nat) (buf : Bytes)
    (allocated : Bool) : Rc Nat × Bool × State σ :=
  if started then
    let (rc, r) := registryWrite sys r plain .next buf
    (rc, true, r)
  else
    let (rc, r) := registryWrite sys r plain (.start ref layer allocated) buf
    (rc, succeeded rc, r)

def buffered (payload buf : Bytes) (room : Nat) : Option Bytes :=
  if room < payload.length + buf.length then none else some (payload ++ buf)

/-- `_Write`. The allocator's answer is for the first chunk of an image or a layer. -/
def regWrite (p : ControlPlane σ) (fd : Nat) (buf : Bytes) (allocated : Bool) :
    Rc Nat × ControlPlane σ :=
  match p.fds.getD fd .free with
  | .free => (.error .ebadf, p)
  | .reading => (.error .erofs, p)
  | .signature ref payload =>
    match buffered payload buf registrySigPayloadLen with
    | none => (.error .emsgsize, p)
    | some payload => (.ok buf.length, { p with fds := p.fds.set fd (.signature ref payload) })
  | .link ref layer payload =>
    match buffered payload buf regLinkMax with
    | none => (.error .emsgsize, p)
    | some payload => (.ok buf.length, { p with fds := p.fds.set fd (.link ref layer payload) })
  | .commit ref payload =>
    match buffered payload buf regCommitMax with
    | none => (.error .emsgsize, p)
    | some payload => (.ok buf.length, { p with fds := p.fds.set fd (.commit ref payload) })
  | .layer ref layer started =>
    let (rc, started, registry) := wantedWrite sys p.registry false started ref layer buf allocated
    (rc, ⟨p.fds.set fd (.layer ref layer started), registry⟩)
  | .install ref started =>
    let (rc, started, registry) := wantedWrite sys p.registry true started ref 0 buf allocated
    (rc, ⟨p.fds.set fd (.install ref started), registry⟩)

def bigEndian (bytes : Bytes) : Nat := bytes.foldl (fun sum byte => sum * 256 + byte.toNat) 0

/-- `WantedCommitRegistry`: a layer count, and a build time when the payload has one. -/
def wantedCommitRegistry (r : State σ) (ref payload : Bytes) (now : Option UInt64) :
    Rc Unit × State σ :=
  match payload with
  | [count] => registryCommit sys r ref count.toNat none now
  | count :: created =>
    if created.length = 8 then
      registryCommit sys r ref count.toNat (some (bigEndian created).toUInt64) now
    else (.error .einval, r)
  | [] => (.error .einval, r)

/-- `WantedRegistrySetSignature`: the reference must name a version. -/
def wantedRegistrySetSignature (r : State σ) (ref payload : Bytes) : Rc Unit × State σ :=
  if whole : payload.length = registrySigPayloadLen then
    let name := ref.takeWhile (· ≠ 58)
    let version := (ref.dropWhile (· ≠ 58)).drop 1
    if 58 ∉ ref ∨ version = [] ∨ name = [] ∨ wappMaxNameLen ≤ name.length ∨
        wappMaxVersionLen ≤ version.length then (.error .einval, r)
    else
      registryMetaSetSignature sys r ⟨name, version⟩ (bigEndian (payload.take 4)).toUInt32
        ⟨payload.drop 4, by rw [length_drop, whole]; rfl⟩
  else (.error .einval, r)

/-- `WantedLinkRegistryLayer`: the digits of a digest, and perhaps a newline. -/
def wantedLinkRegistryLayer (r : State σ) (ref : Bytes) (layer : Nat) (payload : Bytes) :
    Rc Unit × State σ :=
  let digits := if payload.length = regLinkMax ∧ payload.getLast? = some 10 then payload.dropLast
    else payload
  match registryDigestFromHex digits with
  | none => (.error .einval, r)
  | some digest => registryLinkLayer sys r ref layer digest

/-- What the close of a descriptor does to the registry. -/
def closeEffect (r : State σ) (now : Option UInt64) : RegFd → Rc Unit × State σ
  | .free => (.error .ebadf, r)
  | .reading => (.ok (), r)
  | .signature ref payload =>
    if payload = [] then (.ok (), r) else wantedRegistrySetSignature sys r ref payload
  | .link ref layer payload =>
    if payload = [] then (.ok (), r) else wantedLinkRegistryLayer sys r ref layer payload
  | .commit ref payload =>
    if payload = [] then (.ok (), r) else wantedCommitRegistry sys r ref payload now
  | .layer _ _ started =>
    if started then
      let (rc, r) := registryWrite sys r false (.finish now) []
      (rc.map fun _ => (), r)
    else (.ok (), r)
  | .install _ started =>
    if started then
      let (rc, r) := registryWrite sys r true (.finish now) []
      (rc.map fun _ => (), r)
    else (.ok (), r)

/-- `_Close`: the slot is freed, then what was written is finished or applied. -/
def regClose (p : ControlPlane σ) (fd : Nat) (now : Option UInt64) : Rc Unit × ControlPlane σ :=
  let (rc, registry) := closeEffect sys p.registry now (p.fds.getD fd .free)
  (rc, ⟨p.fds.set fd .free, registry⟩)

/-! ### Tearing down a wapp's file system -/

/-- The descriptors of the driver that `VfsDestroy` closes, in order. The node `/dev/wanted` is the
driver `node` of the file system, and `fildes` has the descriptor of the registry driver behind each
of its own, none for those of its other nodes. -/
def regCloses (node : Nat) (fildes : Int → Option Nat) (v : Vfs.VfsState) : List Nat :=
  ((Vfs.vfsDestroy v).log.drop v.log.length).filterMap fun
    | .closed handle => if handle.driver = node then fildes handle.drvFd else none
    | _ => none

/-- `VfsDestroy`, as far as the registry driver sees it: its descriptors are closed and then its
table is cleared, when the file system owned the node. -/
def destroyVfs (now : Option UInt64) (node : Nat) (fildes : Int → Option Nat) (v : Vfs.VfsState)
    (p : ControlPlane σ) : ControlPlane σ :=
  let closed := (regCloses node fildes v).foldl (fun p fd => (regClose sys p fd now).2) p
  if node ∈ Vfs.ownedDrivers v then { closed with fds := List.replicate maxRegFds .free } else closed

/-- A descriptor whose close does not reach the registry. -/
def RegFd.Quiet : RegFd → Prop
  | .free | .reading => True
  | .install _ started | .layer _ _ started => started = false
  | .signature _ payload | .commit _ payload | .link _ _ payload => payload = []

variable {sys}

/-- The close of a quiet descriptor leaves the registry. -/
lemma closeEffect_quiet {kind : RegFd} (quiet : kind.Quiet) (r : State σ) (now : Option UInt64) :
    (closeEffect sys r now kind).2 = r := by
  cases kind with
  | free => rfl
  | reading => rfl
  | install ref started | layer ref layer started =>
    rw [show started = false from quiet]
    rfl
  | signature ref payload | commit ref payload | link ref layer payload =>
    rw [closeEffect, if_pos (show payload = [] from quiet)]

lemma getD_set_free (fds : List RegFd) (fd other : Nat) :
    (fds.set fd .free).getD other .free = if other = fd then .free else fds.getD other .free := by
  rw [getD_eq_getElem?_getD, getElem?_set, getD_eq_getElem?_getD]
  by_cases same : other = fd
  · subst same
    rw [if_pos rfl, if_pos rfl]
    split <;> rfl
  · rw [if_neg (Ne.symm same), if_neg same]

variable (now : Option UInt64)

lemma closes_quiet (p : ControlPlane σ) (fds : List Nat)
    (quiet : ∀ fd ∈ fds, (p.fds.getD fd .free).Quiet) :
    (fds.foldl (fun p fd => (regClose sys p fd now).2) p).registry = p.registry := by
  induction fds generalizing p with
  | nil => rfl
  | cons fd rest ih =>
    rw [foldl_cons, ih]
    · exact closeEffect_quiet (quiet fd mem_cons_self) p.registry now
    intro other isOther
    show ((p.fds.set fd .free).getD other .free).Quiet
    rw [getD_set_free]
    split
    · exact trivial
    · exact quiet other (mem_cons_of_mem _ isOther)

lemma closes_one (p : ControlPlane σ) {fd : Nat} {fds : List Nat}
    (mem : fd ∈ fds) (quiet : ∀ other ∈ fds, other ≠ fd → (p.fds.getD other .free).Quiet) :
    (fds.foldl (fun p fd => (regClose sys p fd now).2) p).registry =
      (closeEffect sys p.registry now (p.fds.getD fd .free)).2 := by
  induction fds generalizing p with
  | nil => cases mem
  | cons first rest ih =>
    rw [foldl_cons]
    by_cases same : first = fd
    · -- from here on every descriptor is quiet: the one that was closed is free
      subst same
      refine closes_quiet now _ rest fun other isOther => ?_
      show ((p.fds.set first .free).getD other .free).Quiet
      rw [getD_set_free]
      split
      · exact trivial
      · rename_i differs
        exact quiet other (mem_cons_of_mem _ isOther) differs
    · have later := (mem_cons.mp mem).resolve_left (Ne.symm same)
      have firstQuiet := quiet first mem_cons_self same
      rw [ih _ later]
      · show (closeEffect sys (closeEffect sys p.registry now (p.fds.getD first .free)).2 now
          ((p.fds.set first .free).getD fd .free)).2 = _
        rw [closeEffect_quiet firstQuiet, getD_set_free, if_neg (Ne.symm same)]
      intro other isOther differs
      show ((p.fds.set first .free).getD other .free).Quiet
      rw [getD_set_free]
      split
      · exact trivial
      · exact quiet other (mem_cons_of_mem _ isOther) differs

variable {fildes : Int → Option Nat} {v : Vfs.VfsState}

lemma mem_regCloses {node fd : Nat}
    {handle : Vfs.Handle} (held : handle ∈ Vfs.handlesOf v.fds) (isNode : handle.driver = node)
    (behind : fildes handle.drvFd = some fd) : fd ∈ regCloses node fildes v := by
  have closed : Vfs.DriverEvent.closed handle ∈ (Vfs.vfsDestroy v).log.drop v.log.length := by
    simp only [Vfs.vfsDestroy, append_assoc, drop_left, mem_append, mem_map]
    obtain ⟨slot, isSlot, ofSlot⟩ := mem_flatMap.mp held
    by_cases platform : (Vfs.keyOf slot).isSome = true
    · refine .inr (.inl ⟨handle, mem_flatMap.mpr ⟨slot, ?_, ofSlot⟩, rfl⟩)
      exact mem_filter.mpr ⟨isSlot, platform⟩
    · refine .inl ⟨handle, mem_flatMap.mpr ⟨slot, ?_, ofSlot⟩, rfl⟩
      exact mem_filter.mpr ⟨isSlot, by simpa using platform⟩
  refine mem_filterMap.mpr ⟨_, closed, ?_⟩
  dsimp only
  rw [if_pos isNode, behind]

/-- `VfsDestroy` of a file system in which one descriptor of the registry is not quiet does to the
registry what the close of that one does. -/
lemma destroyVfs_registry {node fd : Nat} {p : ControlPlane σ} (mem : fd ∈ regCloses node fildes v)
    (quiet : ∀ other ∈ regCloses node fildes v, other ≠ fd → (p.fds.getD other .free).Quiet) :
    (destroyVfs sys now node fildes v p).registry =
      (closeEffect sys p.registry now (p.fds.getD fd .free)).2 := by
  rw [← closes_one now p mem quiet]
  unfold destroyVfs
  split <;> rfl

end WantedEngine.Registry
