import WantedEngine.Vfs.Handles
/-!
# The preopen table

The preopen table of `src/wasi/wasi-vfs.c` over the descriptor table: the entries of the console
and of the root that `InitWasiContext` seeds, the host directories that `WasiCtxAddPreopen` binds,
and the WASI calls of a guest that change the descriptor table. The root's entry has no descriptor
until the first `fd_prestat_get` or `WasiCtxBindRoot` opens `/` for it.

An entry also keeps the number of the call that opened the descriptor it was bound to. The source
has no such field; it says which descriptor is the entry's own.
-/
namespace WantedEngine.Vfs

open Foundation Foundation.Slots Wasi List VfsState

def wasiMaxPreopens : Nat := 8

def wasiRightsAll : BitVec 64 := BitVec.allOnes 64

/-- `WASI_RIGHTS_WRITE`, by the numbers of its bits. -/
def wasiRightsWrite : BitVec 64 :=
  [0, 6, 8, 9, 10, 11, 12, 16, 17, 19, 20, 22, 23, 24, 25, 26].foldr
    (fun bit mask => BitVec.twoPow 64 bit ||| mask) 0

def wasiRightsReadonly : BitVec 64 := wasiRightsAll &&& ~~~wasiRightsWrite

/-- `WASI_RIGHTS_STDIO`: no seek and no tell. -/
def wasiRightsStdio : BitVec 64 := wasiRightsAll &&& ~~~(BitVec.twoPow 64 2 ||| BitVec.twoPow 64 5)

/-- `wasi_preopen_t`, whose two rights are always the same. -/
structure PreopenEntry where
  /-- The path the guest sees. -/
  path : Bytes
  /-- The descriptor, or -1 until it is opened. -/
  fd : Int
  /-- `rights_base` and `rights_inheriting`. -/
  rights : BitVec 64
  /-- The number of the call that opened the entry's own descriptor. -/
  bound : Option Nat

/-- `wasi_ctx_t`, as far as descriptors go. -/
structure WasiState where
  vfs : VfsState
  preopens : List PreopenEntry

def initWasiContext (v : VfsState) : WasiState where
  vfs := v
  preopens := [⟨ascii "<stdin>", 0, wasiRightsStdio, none⟩,
    ⟨ascii "<stdout>", 1, wasiRightsStdio, none⟩, ⟨ascii "<stderr>", 2, wasiRightsStdio, none⟩,
    ⟨ascii "/", -1, wasiRightsAll, none⟩]

/-- `WasiCtxFindPreopen`. -/
def findPreopen (s : WasiState) (fd : Int) : Option PreopenEntry :=
  s.preopens.find? (·.fd = fd)

/-- The entry with the descriptor that was opened for it. -/
def PreopenEntry.bind (entry : PreopenEntry) (after : VfsState) (fd : Int) : PreopenEntry :=
  { entry with fd, bound := (after.open? fd).map (·.opened) }

/-- The end of `WasiCtxAddPreopen`: bind the host directory, and add its entry or destroy its
driver. -/
def bindPreopen (s : WasiState) (path : Bytes) (platform : Platform) (rootPath : Bytes)
    (hostFd : Int) (readonly : Bool) : Rc Int × WasiState :=
  match vfsBindPlatformFd s.vfs path platform rootPath hostFd readonly with
  | (.error e, after) =>
    (.error e, { s with vfs := after.record (.destroyed s.vfs.drivers) })
  | (.ok fd, after) =>
    let entry : PreopenEntry :=
      ⟨path.take 63, fd, if readonly then wasiRightsReadonly else wasiRightsAll, none⟩
    (.ok 0, { vfs := after, preopens := s.preopens ++ [entry.bind after fd] })

/-- `WasiCtxAddPreopen`, whose driver may find no memory. -/
def wasiCtxAddPreopen (env : Backends) (s : WasiState) (path : Bytes) (platform : Platform)
    (rootPath : Bytes) (hostFd : Int) (readonly : Bool) : Rc Int × WasiState :=
  if wasiMaxPreopens ≤ s.preopens.length then (.error .enospc, s)
  else if ¬ env.allocates s.vfs.calls then (.error .enomem, { s with vfs := s.vfs.tick })
  else bindPreopen s path platform rootPath hostFd readonly

/-- The loop of `resolve_preopen`: the entry of a descriptor, opening the entries on the way that
have none. -/
def resolvePreopen (env : Backends) (fd : Int) :
    VfsState → List PreopenEntry → Option PreopenEntry × List PreopenEntry × VfsState
  | v, [] => (none, [], v)
  | v, entry :: rest =>
    if entry.fd = fd then (some entry, entry :: rest, v)
    else if entry.fd = -1 then
      match vfsOpen env v entry.path vfsODirectory with
      | (.error _, after) =>
        let (found, others, last) := resolvePreopen env fd after rest
        (found, entry :: others, last)
      | (.ok hostFd, after) =>
        if hostFd = fd then (some (entry.bind after hostFd), entry.bind after hostFd :: rest, after)
        else
          let (found, others, last) := resolvePreopen env fd after rest
          (found, entry.bind after hostFd :: others, last)
    else
      let (found, others, last) := resolvePreopen env fd v rest
      (found, entry :: others, last)

/-- `WasiCtxBindRoot`: open the first entry that has no descriptor. -/
def wasiCtxBindRoot (env : Backends) : VfsState → List PreopenEntry → List PreopenEntry × VfsState
  | v, [] => ([], v)
  | v, entry :: rest =>
    if entry.fd ≠ -1 then
      let (others, last) := wasiCtxBindRoot env v rest
      (entry :: others, last)
    else
      match vfsOpen env v entry.path vfsODirectory with
      | (.error _, after) => (entry :: rest, after)
      | (.ok hostFd, after) => (entry.bind after hostFd :: rest, after)

/-! ### The calls of a guest -/

def orDot (path : Bytes) : Bytes := if path = [] then ascii "." else path

/-- A call that is one operation of the virtual file system. -/
def onVfs (s : WasiState) (out : Rc Int × VfsState) : Except WasiError Int × WasiState :=
  (out.1.mapError .vfs, { s with vfs := out.2 })

/-- `wasi_path_open`, with the path and the arguments it reads from guest memory. -/
def pathOpen (env : Backends) (s : WasiState) (dirfd : Int) (path : Bytes) (args : OpenArgs) :
    Except WasiError Int × WasiState :=
  match findPreopen s dirfd with
  | some parent =>
    if ¬ wasiRightsWithin parent.rights args.rightsBase then (.error .notcapable, s)
    else onVfs s (vfsOpenAtFd env s.vfs dirfd (orDot path) args.flags)
  | none => onVfs s (vfsOpenAtFd env s.vfs dirfd (orDot path) args.flags)

/-- `wasi_fd_close`. -/
def fdClose (env : Backends) (s : WasiState) (fd : Int) : Except WasiError Int × WasiState :=
  onVfs s (vfsClose env s.vfs fd)

/-- `wasi_fd_renumber`. -/
def fdRenumber (env : Backends) (s : WasiState) (source target : Int) :
    Except WasiError Int × WasiState :=
  if (findPreopen s source).isSome ∨ (findPreopen s target).isSome then
    (.error (.vfs .enotsup), s)
  else onVfs s (vfsRenumber env s.vfs source target)

/-- The open of `wasi_path_filestat_get`: as a directory, or else as a file. -/
def openForStat (env : Backends) (v : VfsState) (fd : Int) (path : Bytes) : Rc Int × VfsState :=
  match vfsOpenAtFd env v fd path vfsODirectory with
  | (.ok newFd, after) => (.ok newFd, after)
  | (.error _, after) => vfsOpenAtFd env after fd path 0

/-- `wasi_path_filestat_get`. -/
def pathFilestatGet (env : Backends) (s : WasiState) (fd : Int) (path : Bytes) :
    Except WasiError Int × WasiState :=
  match openForStat env s.vfs fd (orDot path) with
  | (.error e, after) => (.error (.vfs e), { s with vfs := after })
  | (.ok newFd, after) => (.ok 0, { s with vfs := (vfsClose env after newFd).2 })

/-- `wasi_path_readlink`: no path is a link, and one that is found is refused. -/
def pathReadlink (env : Backends) (s : WasiState) (fd : Int) (path : Bytes) :
    Except WasiError Int × WasiState :=
  if path = [] ∨ 512 ≤ path.length then (.error .inval, s)
  else
    match vfsStatAt env s.vfs fd path with
    | (.error e, after) => (.error (.vfs e), { s with vfs := after })
    | (.ok _, after) => (.error .inval, { s with vfs := after })

/-- `wasi_fd_prestat_get` and `wasi_fd_prestat_dir_name`, the first of which leaves the console's
descriptors alone. -/
def fdPrestat (env : Backends) (s : WasiState) (fd : Int) (dirName : Bool) :
    Except WasiError Int × WasiState :=
  if ¬ dirName ∧ fd < 3 then (.error (.vfs .ebadf), s)
  else
    let (found, preopens, after) := resolvePreopen env fd s.vfs s.preopens
    (if found.isSome then .ok 0 else .error (.vfs .ebadf), { vfs := after, preopens })

inductive Setup where
  | mountDriver (mountPath : Bytes)
  | registerDev (name : Bytes)
  | registerNet (name : Bytes)
  | register (stream : Nat)
  | attachTarfs

/-- The operation a step of the setup is. -/
def Setup.request : Setup → VfsRequest
  | mountDriver mountPath => .mountDriver mountPath
  | registerDev name => .registerDev name
  | registerNet name => .registerNet name
  | register stream => .register stream
  | attachTarfs => .attachTarfs

/-- A step of the engine for a guest, or a call of the guest. -/
inductive WasiRequest where
  | setup (step : Setup)
  /-- `WasiCtxAddPreopen`. -/
  | addPreopen (path : Bytes) (platform : Platform) (rootPath : Bytes) (hostFd : Int)
      (readonly : Bool)
  /-- `WasiCtxBindRoot`. -/
  | bindRoot
  | pathOpen (dirfd : Int) (path : Bytes) (args : OpenArgs)
  | fdClose (fd : Int)
  | fdRenumber (source target : Int)
  | pathFilestatGet (fd : Int) (path : Bytes)
  | pathReadlink (fd : Int) (path : Bytes)
  | sockAccept (fd : Int) (flags : Oflags)
  | fdPrestat (fd : Int) (dirName : Bool)
  | pathRename (oldFd : Int) (oldPath : Bytes) (newFd : Int) (newPath : Bytes)
  | pathUnlinkFile (fd : Int) (path : Bytes)
  | pathCreateDirectory (fd : Int) (path : Bytes)
  | pathRemoveDirectory (fd : Int) (path : Bytes)

variable (tree : HostTree) (answers : Answers) (env : Backends)

/-- Serve one request. The calls on paths that open nothing leave both tables. -/
def serveWasi (s : WasiState) : WasiRequest → Except WasiError Int × WasiState
  | .setup step => onVfs s (serveVfs env s.vfs step.request)
  | .addPreopen path platform rootPath hostFd readonly =>
    let (result, after) := wasiCtxAddPreopen env s path platform rootPath hostFd readonly
    (result.mapError .vfs, after)
  | .bindRoot =>
    let (preopens, vfs) := wasiCtxBindRoot env s.vfs s.preopens
    (.ok 0, { vfs, preopens })
  | .pathOpen dirfd path args => pathOpen env s dirfd path args
  | .fdClose fd => fdClose env s fd
  | .fdRenumber source target => fdRenumber env s source target
  | .pathFilestatGet fd path => pathFilestatGet env s fd path
  | .pathReadlink fd path => pathReadlink env s fd path
  | .sockAccept fd flags => onVfs s (vfsSockAccept env s.vfs fd flags)
  | .fdPrestat fd dirName => fdPrestat env s fd dirName
  | .pathRename oldFd oldPath newFd newPath =>
    ((vfsRename tree answers env.toSubsystems s.vfs.ctx oldFd oldPath newFd newPath).result.mapError
      .vfs, s)
  | .pathUnlinkFile fd path =>
    ((vfsUnlink tree answers env.toSubsystems s.vfs.ctx fd path).result.mapError .vfs, s)
  | .pathCreateDirectory fd path =>
    ((vfsMkdir tree answers env.toSubsystems s.vfs.ctx fd path).result.mapError .vfs, s)
  | .pathRemoveDirectory fd path =>
    ((vfsRmdir tree answers env.toSubsystems s.vfs.ctx fd path).result.mapError .vfs, s)

def wasiMachine : Machine WasiState WasiRequest (Except WasiError Int) :=
  ⟨serveWasi tree answers env⟩

/-! ### What keeps a descriptor -/

/-- Every open descriptor behind the console's stays. -/
def Keeps (v after : VfsState) : Prop :=
  ∀ pos, rootFd ≤ pos → ∀ open_, v.at pos = some open_ → after.at pos = some open_

/-- What holds of an open: it keeps the descriptors there were, and a new one takes a closed place
behind the console's. -/
def Adds (v : VfsState) (out : Rc Int × VfsState) : Prop :=
  Keeps v out.2 ∧ ∀ fd, out.1 = .ok fd →
    (rootFd : Int) ≤ fd ∧ v.at fd.toNat = none ∧ ∃ open_, out.2.open? fd = some open_

variable {v after : VfsState}

/-- Nothing is lost when the slots stay. -/
lemma Keeps.of_fds (fds : after.fds = v.fds) : Keeps v after := by
  intro pos _ open_ slot
  rw [VfsState.at, fds]
  exact slot

variable {last : VfsState} {open_ : OpenFd}

lemma Keeps.trans (first : Keeps v after) (second : Keeps after last) : Keeps v last :=
  fun pos high open_ slot => second pos high open_ (first pos high open_ slot)

variable {out : Rc Int × VfsState} {s : WasiState} {entry : PreopenEntry} {fd : Int} {pos : Nat}

lemma Keeps.set (within : pos < v.fds.length) (closed : v.at pos = none)
    (fds : after.fds = v.fds.set pos (some open_)) :
    Keeps v after := by
  intro other _ kept slot
  have apart : pos ≠ other := by
    rintro rfl
    rw [closed] at slot
    cases slot
  rw [VfsState.at, fds, getD_set _ _ _ _ _ within, if_neg apart]
  exact slot

lemma Adds.set (high : rootFd ≤ pos) (within : pos < v.fds.length)
    (closed : v.at pos = none) (fds : after.fds = v.fds.set pos (some open_))
    : Adds v (.ok (pos : Int), after) := by
  refine ⟨Keeps.set within closed fds, ?_⟩
  intro fd same
  obtain rfl : (pos : Int) = fd := Except.ok.inj same
  refine ⟨Int.ofNat_le.mpr high, closed, open_, ?_⟩
  rw [open?, if_pos (Int.natCast_nonneg pos), fds, Int.toNat_natCast,
    getD_set _ _ _ _ _ within, if_pos rfl]

lemma adds_openRule (v : VfsState) : OpenRule env (fun during _ => during.fds = v.fds) (Adds v) where
  tick fds := fds
  asked fds _ _ _ := fds
  opened fds driver := (openHandle_fds env _ driver).trans fds
  failed fds _ := ⟨Keeps.of_fds fds, by simp⟩
  closed fds _ := ⟨Keeps.of_fds ((closeHandle_fds env _ _).trans fds), by simp⟩
  claimed := by
    intro during handle fds slot live shared
    rw [claim]
    cases found : findFirstClosedFd during.ctx with
    | error e => exact ⟨Keeps.of_fds ((closeHandle_fds env _ _).trans fds), by simp⟩
    | ok fd =>
      obtain ⟨high, within, closed⟩ := findFirstClosedFd_spec found
      rw [VfsState.at, fds] at closed
      rw [fds] at within
      exact Adds.set high within closed (by rw [← fds])

lemma adds_bindPlatform (v : VfsState) (path : Bytes) (platform : Platform) (rootPath : Bytes)
    (hostFd : Int) (readonly : Bool) :
    Adds v (vfsBindPlatformFd v path platform rootPath hostFd readonly) := by
  rw [vfsBindPlatformFd]
  cases found : findFirstClosedFd v.ctx with
  | error e => exact ⟨Keeps.of_fds rfl, by simp⟩
  | ok fd =>
    obtain ⟨high, within, closed⟩ := findFirstClosedFd_spec found
    exact Adds.set high within closed rfl

lemma Adds.close (adds : Adds v out) (opened : out.1 = .ok fd) : Keeps v (vfsClose env out.2 fd).2 := by
  have new := adds.2 fd opened
  intro pos high old slot
  have apart : fd.toNat ≠ pos := by
    rintro rfl
    rw [new.2.1] at slot
    cases slot
  rw [vfsClose_at env _ apart]
  exact adds.1 pos high old slot

lemma keeps_setup (v : VfsState) (step : Setup) : Keeps v (serveVfs env v step.request).2 := by
  cases step with
  | mountDriver mountPath =>
    apply Keeps.of_fds
    simp only [Setup.request, serveVfs, vfsMountDriver]
    split_ifs <;> rfl
  | registerDev name =>
    apply Keeps.of_fds
    simp only [Setup.request, serveVfs, devFsRegister]
    cases registerNode env v.devfs name v.drivers <;> rfl
  | registerNet name =>
    apply Keeps.of_fds
    simp only [Setup.request, serveVfs, netFsRegister]
    cases registerNode env v.netfs name v.drivers <;> rfl
  | register stream =>
    by_cases outside : rootFd ≤ stream
    · apply Keeps.of_fds
      simp only [Setup.request, serveVfs, vfsRegister, if_pos outside]
      rfl
    -- only a place of the console is written
    intro pos high open_ slot
    have apart : stream ≠ pos := by omega
    simp only [Setup.request, serveVfs, vfsRegister, if_neg outside, VfsState.at]
    rw [getD_set_ne _ apart]
    exact slot
  | attachTarfs => exact Keeps.of_fds rfl

lemma vfsRenumber_at (v : VfsState) (source target : Int) (notSource : source.toNat ≠ pos)
    (notTarget : target.toNat ≠ pos) :
    (vfsRenumber env v source target).2.at pos = v.at pos := by
  refine vfsRenumber_keeps (·.at pos = v.at pos) rfl (vfsClose_at env v notTarget)
    fun after open_ closed => ?_
  simp only [VfsState.at] at closed ⊢
  rw [getD_set_ne _ notSource, getD_set_ne _ notTarget]
  exact closed

/-! ### The entries keep their descriptors -/

/-- An entry names its own descriptor: the one it was bound to, or a console stream. -/
def Names (v : VfsState) (entry : PreopenEntry) : Prop :=
  match entry.bound with
  | some number => ∃ open_, v.open? entry.fd = some open_ ∧ open_.opened = number
  | none => StreamOrClosed (v.open? entry.fd)

/-- Every entry of the preopen table names its own descriptor. -/
def Kept (s : WasiState) : Prop := ∀ entry ∈ s.preopens, Names s.vfs entry

/-- `VfsClose` leaves the slot: it is closed, a console stream, or alone with its driver. -/
def CloseLeaves (v : VfsState) (fd : Int) : Prop :=
  v.open? fd = none ∨ isStream v fd ∨ isPlatformPreopen v fd

/-- The requests that leave the entries their descriptors: every one but the close of a
preopen's descriptor that `VfsClose` gives up. -/
def Safe (s : WasiState) : WasiRequest → Prop
  | .fdClose fd => (findPreopen s fd).isSome → CloseLeaves s.vfs fd
  | _ => True

/-- What holds of the two tables in every run. -/
structure Sound (s : WasiState) : Prop where
  balanced : Balanced s.vfs []
  unbound : ∀ entry ∈ s.preopens, entry.bound = none → entry.fd < rootFd
  bound : ∀ entry ∈ s.preopens, ∀ number, entry.bound = some number → (rootFd : Int) ≤ entry.fd

/-- The console's descriptors are never anything else. -/
lemma Balanced.names_unbound (balanced : Balanced v []) (unbound : entry.bound = none)
    (low : entry.fd < rootFd) : Names v entry := by
  rw [Names, unbound]
  simp only [open?]
  split
  · rename_i sign
    exact balanced.console entry.fd.toNat (by omega)
  · intro open_ none_
    cases none_

lemma Names.keeps (names : Names v entry) {number : Nat} (bound : entry.bound = some number)
    (high : (rootFd : Int) ≤ entry.fd)
    (keeps : ∀ open_, v.at entry.fd.toNat = some open_ → after.at entry.fd.toNat = some open_) :
    Names after entry := by
  rw [Names, bound] at names ⊢
  obtain ⟨open_, found, same⟩ := names
  have slot := keeps open_ (open?_eq_some found).2.symm
  refine ⟨open_, ?_, same⟩
  rw [VfsState.open?, if_pos (by omega)]
  exact slot

lemma Sound.names_keeps (sound : Sound s) (kept : Kept s) (balanced : Balanced after [])
    (mem : entry ∈ s.preopens)
    (keeps : (rootFd : Int) ≤ entry.fd → ∀ open_, s.vfs.at entry.fd.toNat = some open_ →
      after.at entry.fd.toNat = some open_) : Names after entry := by
  cases bound : entry.bound with
  | none => exact balanced.names_unbound bound (sound.unbound entry mem bound)
  | some number =>
    have high := sound.bound entry mem number bound
    exact (kept entry mem).keeps bound high (keeps high)

/-- The entry was bound to a descriptor that is open. -/
def NewlyBound (v : VfsState) (entry : PreopenEntry) : Prop :=
  (rootFd : Int) ≤ entry.fd ∧ ∃ open_, v.open? entry.fd = some open_ ∧
    entry.bound = some open_.opened

/-- A step that keeps every descriptor, and adds or binds entries with open ones. -/
structure Grows (s after : WasiState) : Prop where
  balanced : Balanced after.vfs []
  keeps : Keeps s.vfs after.vfs
  entries : ∀ entry ∈ after.preopens, entry ∈ s.preopens ∨ NewlyBound after.vfs entry

/-- The tables stay sound when they grow. -/
lemma Grows.sound {s after : WasiState} (grows : Grows s after) (sound : Sound s) : Sound after where
  balanced := grows.balanced
  unbound entry mem unbound := by
    obtain old | ⟨-, _, -, bound⟩ := grows.entries entry mem
    · exact sound.unbound entry old unbound
    · rw [bound] at unbound
      cases unbound
  bound entry mem number bound := by
    obtain old | ⟨high, -⟩ := grows.entries entry mem
    · exact sound.bound entry old number bound
    · exact high

lemma Grows.kept {s after : WasiState} (grows : Grows s after) (sound : Sound s) (kept : Kept s)
    : Kept after := by
  intro entry mem
  obtain old | ⟨-, open_, found, bound⟩ := grows.entries entry mem
  · exact sound.names_keeps kept grows.balanced old fun high =>
      grows.keeps entry.fd.toNat (by omega)
  · rw [Names, bound]
    exact ⟨open_, found, rfl⟩

lemma grows_vfs (balanced : Balanced after []) (keeps : Keeps s.vfs after)
    : Grows s { s with vfs := after } :=
  ⟨balanced, keeps, fun _ mem => Or.inl mem⟩

lemma Adds.newlyBound (adds : Adds v out) (opened : out.1 = .ok fd) (entry : PreopenEntry)
    (keeps : Keeps out.2 last)
    : NewlyBound last (entry.bind out.2 fd) := by
  obtain ⟨high, -, open_, found⟩ := adds.2 fd opened
  have slot := keeps fd.toNat (by omega) open_ (open?_eq_some found).2.symm
  refine ⟨high, open_, ?_, ?_⟩
  · simp only [PreopenEntry.bind]
    rw [VfsState.open?, if_pos (by omega)]
    exact slot
  · rw [PreopenEntry.bind, found]
    rfl

lemma entries_cons {first bound : PreopenEntry} {rest others : List PreopenEntry}
    (head : bound = first ∨ NewlyBound v bound)
    (tail : ∀ entry ∈ others, entry ∈ rest ∨ NewlyBound v entry) :
    ∀ entry ∈ bound :: others, entry ∈ first :: rest ∨ NewlyBound v entry := by
  intro entry mem
  obtain rfl | mem := mem_cons.mp mem
  · exact head.imp_left fun same => mem_cons.mpr (.inl same)
  · exact (tail entry mem).imp_left (mem_cons_of_mem _)

lemma opens_spec (env : Backends) (balanced : Balanced v []) (path : Bytes) (flags : Oflags) :
    Adds v (vfsOpen env v path flags) ∧ Balanced (vfsOpen env v path flags).2 [] :=
  ⟨(adds_openRule env v).vfsOpen rfl path flags, (balanced_openRule env).vfsOpen balanced path flags⟩

lemma resolvePreopen_spec (fd : Int) (entries : List PreopenEntry) {v : VfsState}
    (balanced : Balanced v []) :
    let resolved := resolvePreopen env fd v entries
    Balanced resolved.2.2 [] ∧ Keeps v resolved.2.2 ∧
      ∀ entry ∈ resolved.2.1, entry ∈ entries ∨ NewlyBound resolved.2.2 entry := by
  induction entries generalizing v with
  | nil => exact ⟨balanced, Keeps.of_fds rfl, nofun⟩
  | cons first rest ih =>
    simp only [resolvePreopen]
    split
    · exact ⟨balanced, Keeps.of_fds rfl, fun _ mem => Or.inl mem⟩
    split
    · obtain ⟨adds, ledger⟩ := opens_spec env balanced first.path vfsODirectory
      generalize vfsOpen env v first.path vfsODirectory = out at adds ledger ⊢
      rcases out with ⟨_ | _, _⟩
      · obtain ⟨sound, keeps, others⟩ := ih ledger
        exact ⟨sound, adds.1.trans keeps, entries_cons (.inl rfl) others⟩
      dsimp only
      split
      · refine ⟨ledger, adds.1, entries_cons (.inr ?_) fun _ mem => Or.inl mem⟩
        exact adds.newlyBound rfl first (Keeps.of_fds rfl)
      obtain ⟨sound, keeps, others⟩ := ih ledger
      refine ⟨sound, adds.1.trans keeps, entries_cons (.inr ?_) others⟩
      exact adds.newlyBound rfl first keeps
    · obtain ⟨sound, keeps, others⟩ := ih balanced
      exact ⟨sound, keeps, entries_cons (.inl rfl) others⟩

lemma wasiCtxBindRoot_spec (entries : List PreopenEntry) {v : VfsState} (balanced : Balanced v []) :
    let rooted := wasiCtxBindRoot env v entries
    Balanced rooted.2 [] ∧ Keeps v rooted.2 ∧
      ∀ entry ∈ rooted.1, entry ∈ entries ∨ NewlyBound rooted.2 entry := by
  induction entries generalizing v with
  | nil => exact ⟨balanced, Keeps.of_fds rfl, nofun⟩
  | cons first rest ih =>
    simp only [wasiCtxBindRoot]
    split
    · obtain ⟨sound, keeps, others⟩ := ih balanced
      exact ⟨sound, keeps, entries_cons (.inl rfl) others⟩
    obtain ⟨adds, ledger⟩ := opens_spec env balanced first.path vfsODirectory
    generalize vfsOpen env v first.path vfsODirectory = out at adds ledger ⊢
    rcases out with ⟨_ | _, _⟩
    · exact ⟨ledger, adds.1, fun _ mem => Or.inl mem⟩
    · refine ⟨ledger, adds.1, entries_cons (.inr ?_) fun _ mem => Or.inl mem⟩
      exact adds.newlyBound rfl first (Keeps.of_fds rfl)

lemma Sound.grows_addPreopen (sound : Sound s) (path : Bytes) (platform : Platform)
    (rootPath : Bytes) (hostFd : Int) (readonly : Bool) :
    Grows s (wasiCtxAddPreopen env s path platform rootPath hostFd readonly).2 := by
  rw [wasiCtxAddPreopen]
  split
  · exact grows_vfs sound.balanced (Keeps.of_fds rfl)
  split
  · exact grows_vfs sound.balanced.tick (Keeps.of_fds rfl)
  have adds := adds_bindPlatform s.vfs path platform rootPath hostFd readonly
  have ledger := sound.balanced.bindPlatform path platform rootPath hostFd readonly
  rw [bindPreopen]
  cases bound : vfsBindPlatformFd s.vfs path platform rootPath hostFd readonly with
  | mk result after =>
    rw [bound] at adds ledger
    cases result with
    | error e =>
      have made : after = { s.vfs with drivers := s.vfs.drivers + 1 } := by
        rw [vfsBindPlatformFd] at bound
        cases found : findFirstClosedFd s.vfs.ctx with
        | error e =>
          rw [found] at bound
          exact (Prod.mk.inj bound).2.symm
        | ok pos =>
          rw [found] at bound
          cases (Prod.mk.inj bound).1
      rw [made]
      exact grows_vfs sound.balanced.discard (Keeps.of_fds rfl)
    | ok fd =>
      exact ⟨ledger, adds.1, forall_mem_append.mpr ⟨fun _ old => Or.inl old,
        forall_mem_singleton.mpr (.inr (adds.newlyBound rfl _ (Keeps.of_fds rfl)))⟩⟩

lemma balanced_openForStat (balanced : Balanced v []) (fd : Int) (path : Bytes) :
    Balanced (openForStat env v fd path).2 [] := by
  have first := (balanced_openRule env).vfsOpenAtFd balanced fd path vfsODirectory
  rw [openForStat]
  generalize vfsOpenAtFd env v fd path vfsODirectory = out at first ⊢
  rcases out with ⟨_ | _, _⟩
  · exact (balanced_openRule env).vfsOpenAtFd first fd path 0
  · exact first

lemma Adds.after_failure {e : Errno} (failed : Adds v (.error e, after))
    (adds : Adds after out) : Adds v out := by
  refine ⟨failed.1.trans adds.1, ?_⟩
  intro fd opened
  obtain ⟨high, closed, found⟩ := adds.2 fd opened
  refine ⟨high, ?_, found⟩
  cases slot : v.at fd.toNat with
  | none => rfl
  | some open_ =>
    have kept := failed.1 fd.toNat (by omega) open_ slot
    rw [closed] at kept
    cases kept

lemma adds_openForStat (v : VfsState) (fd : Int) (path : Bytes) :
    Adds v (openForStat env v fd path) := by
  have first := (adds_openRule env v).vfsOpenAtFd rfl fd path vfsODirectory
  rw [openForStat]
  generalize vfsOpenAtFd env v fd path vfsODirectory = out at first ⊢
  rcases out with ⟨_ | _, opened⟩
  · exact first.after_failure ((adds_openRule env opened).vfsOpenAtFd rfl fd path 0)
  · exact first

lemma Sound.grows (sound : Sound s) (request : WasiRequest) (notClose : ∀ fd, request ≠ .fdClose fd)
    (notRenumber : ∀ source target, request ≠ .fdRenumber source target) :
    Grows s ((wasiMachine tree answers env).next s request) := by
  have same := grows_vfs sound.balanced (Keeps.of_fds rfl)
  cases request with
  | setup step =>
    exact grows_vfs (balanced_serve env s.vfs step.request sound.balanced) (keeps_setup env s.vfs step)
  | addPreopen path platform rootPath hostFd readonly =>
    exact sound.grows_addPreopen env path platform rootPath hostFd readonly
  | bindRoot =>
    obtain ⟨balanced, keeps, entries⟩ := wasiCtxBindRoot_spec env s.preopens sound.balanced
    exact ⟨balanced, keeps, entries⟩
  | pathOpen dirfd path args =>
    have opened : Grows s (onVfs s (vfsOpenAtFd env s.vfs dirfd (orDot path) args.flags)).2 :=
      grows_vfs ((balanced_openRule env).vfsOpenAtFd sound.balanced dirfd _ _)
        ((adds_openRule env s.vfs).vfsOpenAtFd rfl dirfd _ _).1
    change Grows s (pathOpen env s dirfd path args).2
    rw [pathOpen]
    cases findPreopen s dirfd with
    | none => exact opened
    | some parent =>
      dsimp only
      split
      · exact same
      · exact opened
  | fdClose fd => exact absurd rfl (notClose fd)
  | fdRenumber source target => exact absurd rfl (notRenumber source target)
  | pathFilestatGet fd path =>
    have ledger := balanced_openForStat env sound.balanced fd (orDot path)
    have adds := adds_openForStat env s.vfs fd (orDot path)
    change Grows s (pathFilestatGet env s fd path).2
    rw [pathFilestatGet]
    generalize openForStat env s.vfs fd (orDot path) = out at ledger adds ⊢
    rcases out with ⟨_ | newFd, opened⟩
    · exact grows_vfs ledger adds.1
    · exact grows_vfs (Balanced.close ledger env newFd) (adds.close env rfl)
  | pathReadlink fd path =>
    have ledger := sound.balanced.statAt env fd path
    have keeps := (adds_openRule env s.vfs).vfsStatAt rfl (Keeps s.vfs) And.left (Keeps.of_fds rfl)
      (fun _ _ adds => adds.close env rfl) fd path
    change Grows s (pathReadlink env s fd path).2
    rw [pathReadlink]
    split
    · exact same
    generalize vfsStatAt env s.vfs fd path = out at ledger keeps ⊢
    rcases out with ⟨_ | _, after⟩
    · exact grows_vfs ledger keeps
    · exact grows_vfs ledger keeps
  | sockAccept fd flags =>
    exact grows_vfs ((balanced_openRule env).vfsSockAccept sound.balanced fd flags)
      ((adds_openRule env s.vfs).vfsSockAccept rfl fd flags).1
  | fdPrestat fd dirName =>
    change Grows s (fdPrestat env s fd dirName).2
    rw [fdPrestat]
    split
    · exact same
    · obtain ⟨balanced, keeps, entries⟩ := resolvePreopen_spec env fd s.preopens sound.balanced
      exact ⟨balanced, keeps, entries⟩
  | pathRename oldFd oldPath newFd newPath => exact same
  | pathUnlinkFile fd path => exact same
  | pathCreateDirectory fd path => exact same
  | pathRemoveDirectory fd path => exact same

lemma CloseLeaves.at (leaves : CloseLeaves v fd) (pos : Nat) :
    (vfsClose env v fd).2.at pos = v.at pos := by
  rw [CloseLeaves, isStream, isPlatformPreopen] at leaves
  rw [vfsClose]
  cases found : v.open? fd with
  | none => rfl
  | some open_ =>
    rw [found] at leaves
    obtain ⟨slot, _, _, _⟩ := open_
    cases slot with
    | closed => rfl
    | platform driver drvFd flags path =>
      have lone : ¬ sharesDriver v fd.toNat driver.key := by simpa using leaves
      dsimp only
      rw [if_neg lone]
    | other type flags path =>
      cases type with
      | stream => rfl
      | mountdir | mounted type => simp at leaves

lemma fd_ne_of_findPreopen (missing : ¬ (findPreopen s fd).isSome) (mem : entry ∈ s.preopens)
    : entry.fd ≠ fd := by
  intro same
  apply missing
  rw [findPreopen, find?_isSome]
  exact ⟨entry, mem, decide_eq_true same⟩

lemma Sound.kept_renumber (sound : Sound s) (kept : Kept s) (source target : Int)
    : Kept (fdRenumber env s source target).2 := by
  rw [fdRenumber]
  split
  · exact kept
  rename_i missing
  rw [not_or] at missing
  intro entry mem
  have notSource := fd_ne_of_findPreopen missing.1 mem
  have notTarget := fd_ne_of_findPreopen missing.2 mem
  refine sound.names_keeps kept (sound.balanced.renumber env source target) mem ?_
  intro high open_ slot
  have three : rootFd = 3 := rfl
  rw [← slot]
  exact vfsRenumber_at env s.vfs source target (by omega) (by omega)

lemma Sound.kept_close_iff (sound : Sound s) (kept : Kept s) (fd : Int) :
    Kept (fdClose env s fd).2 ↔ Safe s (.fdClose fd) := by
  have balanced := sound.balanced.close env fd
  constructor
  · intro after some_
    obtain ⟨entry, found⟩ := Option.isSome_iff_exists.mp some_
    have mem := mem_of_find?_eq_some found
    have same : entry.fd = fd := by simpa using find?_some found
    by_contra leaves
    simp only [CloseLeaves, not_or] at leaves
    obtain ⟨isOpen, stream, lone⟩ := leaves
    obtain ⟨open_, slot⟩ := Option.ne_none_iff_exists'.mp isOpen
    have given := vfsClose_given env slot stream lone
    have closed := giveUpSlot_at env (open?_eq_some slot).2 fd.toNat
    rw [← given, if_pos rfl] at closed
    cases bound : entry.bound with
    | none =>
      -- a slot of the console's that is open is a stream
      have low := sound.unbound entry mem bound
      have high := sound.balanced.behindConsole slot stream
      have sign := (open?_eq_some slot).1
      omega
    | some number =>
      have names := after entry mem
      rw [Names, bound] at names
      obtain ⟨_, found, -⟩ := names
      rw [same] at found
      have there := (open?_eq_some found).2
      rw [show (fdClose env s fd).2.vfs = (vfsClose env s.vfs fd).2 from rfl, closed] at there
      cases there
  · intro safe entry mem
    refine sound.names_keeps kept balanced mem ?_
    intro high open_ slot
    rw [← slot]
    by_cases some_ : (findPreopen s fd).isSome
    · exact (safe some_).at env entry.fd.toNat
    have apart := fd_ne_of_findPreopen some_ mem
    have three : rootFd = 3 := rfl
    exact vfsClose_at env s.vfs (by omega)

lemma sound_next (s : WasiState) (request : WasiRequest) (sound : Sound s) :
    Sound ((wasiMachine tree answers env).next s request) := by
  cases request with
  | fdClose fd => exact ⟨sound.balanced.close env fd, sound.unbound, sound.bound⟩
  | fdRenumber source target =>
    change Sound (fdRenumber env s source target).2
    rw [fdRenumber]
    split
    · exact sound
    · exact ⟨sound.balanced.renumber env source target, sound.unbound, sound.bound⟩
  | _ => exact (sound.grows tree answers env _ (by nofun) (by nofun)).sound sound

lemma kept_next_iff (s : WasiState) (request : WasiRequest) (sound : Sound s) (kept : Kept s) :
    Kept ((wasiMachine tree answers env).next s request) ↔ Safe s request := by
  cases request with
  | fdClose fd => exact sound.kept_close_iff env kept fd
  | fdRenumber source target =>
    exact iff_of_true (sound.kept_renumber env kept source target) trivial
  | _ =>
    exact iff_of_true ((sound.grows tree answers env _ (by nofun) (by nofun)).kept sound kept) trivial

lemma sound_init : Sound (initWasiContext vfsInit) where
  balanced := balanced_init
  unbound := by decide
  bound := by
    have unbound : ∀ entry ∈ (initWasiContext vfsInit).preopens, entry.bound = none := by decide
    intro entry mem number bound
    rw [unbound entry mem] at bound
    cases bound

/-- In a run of a guest and of the engine for it, every entry of the preopen table names its own
descriptor in every state iff each `fd_close` of a preopen's descriptor is one that
`VfsClose` leaves. -/
theorem preopens_kept_iff (reqs : List WasiRequest) : (∀ first rest, reqs = first ++ rest →
      Kept ((wasiMachine tree answers env).exec (initWasiContext vfsInit) first)) ↔
      (wasiMachine tree answers env).Obeys Safe (initWasiContext vfsInit) reqs := by
  have start : Kept (initWasiContext vfsInit) := by
    intro entry mem
    have unbound : ∀ entry ∈ (initWasiContext vfsInit).preopens, entry.bound = none := by decide
    have free := unbound entry mem
    exact balanced_init.names_unbound free (sound_init.unbound entry mem free)
  exact (wasiMachine tree answers env).forall_prefix_iff_obeys Sound Kept
    (sound_next tree answers env) (kept_next_iff tree answers env) sound_init start reqs

/-- A guest with an image that closes the root's descriptor and opens a file. -/
def closeRoot : WasiState :=
  (wasiMachine ⟨fun _ => none, fun base _ => base, 0⟩ ⟨fun _ => .ok 0, fun _ => true, .ok 0⟩
    plainBackends).exec (initWasiContext vfsInit)
    [.setup .attachTarfs, .bindRoot, .fdClose 3, .pathOpen 3 (ascii "/f") ⟨0, 2, 0, 0⟩]

/-- The file has the descriptor that the preopen table still reports as the root's. -/
theorem root_descriptor_reused : (findPreopen closeRoot 3).map (·.path) = some (ascii "/") ∧
      (closeRoot.vfs.open? 3).map (·.slot.path) = some (ascii "/f") ∧ ¬ Kept closeRoot := by
  refine ⟨by decide +kernel, by decide +kernel, ?_⟩
  intro kept
  have bound : closeRoot.preopens.map (fun entry => (entry.fd, entry.bound)) =
      [(0, none), (1, none), (2, none), (3, some 0)] := by decide +kernel
  have opened : (closeRoot.vfs.open? 3).map (·.opened) = some 1 := by decide +kernel
  have listed : (3, some 0) ∈ closeRoot.preopens.map fun entry => (entry.fd, entry.bound) := by
    decide
  obtain ⟨root, mem, same⟩ := mem_map.mp listed
  obtain ⟨fd, number⟩ := Prod.mk.inj same
  have names := kept root mem
  rw [Names, number, fd] at names
  obtain ⟨_, found, first⟩ := names
  rw [found, Option.map_some, first] at opened
  cases opened

end WantedEngine.Vfs
