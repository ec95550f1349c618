import WantedEngine.Registry.Interrupted
/-!
# Opening an install

`_Open` of the registry driver tries three routes on a path below `images` that is opened for
writing: a `#` names a layer, the suffix `.sig` a signature, and only what is left is an install.
The grammar of references has no `#`, so no reference that can be installed is taken for a layer. It
does have the full stop, so a reference that ends in `.sig` opens the signature of another one
(`signature_route_taken`), and these are the only references that do not install
(`opens_install_iff`).
-/
namespace WantedEngine.Registry

open Foundation Page List

def regDirImages : Bytes := ascii "images"
def regDirBlobs : Bytes := ascii "blobs"
def regNodeCapacity : Bytes := ascii "capacity"

/-- `takeSegment`: what follows the next segment of a path, when that segment is `name`. -/
def takeSegment (path name : Bytes) : Option Bytes :=
  if path.take name.length = name then
    match path.drop name.length with
    | [] => some []
    | char :: rest => if char = 47 then some rest else none
  else none

/-- `_Open` for writing. -/
def regOpenWrite (cfg : Config) (fds : List RegFd) (path : Bytes) : Rc Nat × List RegFd :=
  let path := path.dropWhile (· = 47)
  if path = [] then (.error .eisdir, fds)
  else
    match takeSegment path regDirImages with
    | some rest => openImage cfg fds rest
    | none =>
      if (takeSegment path regDirBlobs).isSome ∨ takeSegment path regNodeCapacity = some [] then
        (.error .erofs, fds)
      else (.error .enoent, fds)

def imagePath (ref : Bytes) : Bytes := regDirImages ++ 47 :: ref

/-- The route of an image is that of its reference. -/
lemma regOpenWrite_imagePath (cfg : Config) (fds : List RegFd) (ref : Bytes) :
    regOpenWrite cfg fds (imagePath ref) = openImage cfg fds ref := rfl

/-! ### The routes of a reference -/

lemma allocFd_cases (fds : List RegFd) (kind : RegFd) :
    (RegFd.free ∉ fds ∧ allocFd fds kind = (.error .emfile, fds)) ∨
      ∃ fd, fds[fd]? = some .free ∧ allocFd fds kind = (.ok fd, fds.set fd kind) := by
  rw [allocFd]
  split
  · rename_i none_
    exact .inl ⟨fun free => by simpa using findIdx?_eq_none_iff.mp none_ _ free, rfl⟩
  rename_i fd found
  obtain ⟨inside, isFree, -⟩ := findIdx?_eq_some_iff_getElem.mp found
  refine .inr ⟨fd, ?_, rfl⟩
  rw [getElem?_eq_getElem inside]
  exact congrArg some (of_decide_eq_true isFree)

variable {key : Key}

lemma Accepted.no_route (accepted : Accepted key) : (35 : UInt8) ∉ refText key := by
  have plain : ∀ {text maxlen}, validRefComponent text maxlen = true → (35 : UInt8) ∉ text := by
    intro text maxlen valid mem
    exact absurd ((validRefComponent_spec valid).2.2.1 _ mem) (by decide)
  rw [refText]
  split
  · exact plain accepted.name
  rename_i versioned
  have tag := accepted.version.resolve_left versioned
  rw [mem_append, mem_cons]
  rintro (inName | isColon | inVersion)
  · exact plain accepted.name inName
  · exact absurd isColon (by decide)
  · exact plain tag inVersion

lemma Accepted.refText_length (accepted : Accepted key) : (refText key).length < regRefMax := by
  have name := (validRefComponent_spec accepted.name).2.1
  have version := accepted.version_length
  rw [refText]
  split
  · unfold regRefMax
    omega
  rw [length_append, length_cons]
  unfold regRefMax
  omega

lemma cString_of_no_nul {text : Bytes} (terminated : (0 : UInt8) ∉ text) : cString text = text := by
  rw [cString, takeWhile_eq_self_iff]
  intro byte mem
  have differs : byte ≠ 0 := fun zero => terminated (zero ▸ mem)
  simpa using differs

lemma openImage_accepted {ref : Bytes} (terminated : (0 : UInt8) ∉ ref)
    (accepted : validInstallRef ref = true) (cfg : Config) (fds : List RegFd) :
    openImage cfg fds ref =
      if endsIn ref regSigSuffix then
        (if validInstallRef (ref.take (ref.length - regSigSuffix.length)) = false then
          (.error .einval, fds)
        else allocFd fds (.signature (ref.take (ref.length - regSigSuffix.length)) []))
      else allocFd fds (.install ref false) := by
  obtain ⟨key, -, isAccepted, text⟩ := accepted_of_validInstallRef accepted
  rw [cString_of_no_nul terminated] at text
  have noRoute := text ▸ isAccepted.no_route
  have short := text ▸ isAccepted.refText_length
  have nonempty : ref ≠ [] := by
    rintro rfl
    exact absurd accepted (by decide)
  rw [openImage, if_neg nonempty, if_neg noRoute]
  split
  · have shorter : ¬ regRefMax ≤ (ref.take (ref.length - regSigSuffix.length)).length := by
      rw [length_take]
      omega
    rw [if_neg shorter]
  · rw [if_neg (Nat.not_le.mpr short), accepted]
    rfl

/-! ### The install -/

variable {σ ν : Type} [DecidableEq ν] {sys : System σ} {abs : Reading σ ν}

/-- The path of a reference, opened for writing, is an install of that reference, and its close
commits an entry under the key. -/
structure InstallsAs (sys : System σ) (abs : Reading σ ν) (ref : Bytes) (key : Key) : Prop where
  /-- When a slot is free, it becomes an install of the reference. -/
  opens : ∀ fds, RegFd.free ∈ fds → ∃ fd, fds[fd]? = some .free ∧
    regOpenWrite sys.cfg fds (imagePath ref) = (.ok fd, fds.set fd (.install ref false))
  /-- A close that succeeds after bytes were taken has put the record of the key and no other. -/
  commits : ∀ (p : ControlPlane σ) (fd : Nat), Sound sys abs False p.registry →
    p.fds.getD fd .free = .install ref false →
    ∀ first allocated taken, (regWrite sys p fd first allocated).1 = .ok taken →
    ∀ chunks now closed,
      regClose sys (regWrites sys (regWrite sys p fd first allocated).2 fd chunks) fd now =
        (.ok (), closed) →
      ∃ record bytes, readMeta sys closed.registry key = .ok record ∧
        recordsOf abs closed.registry.stores =
          Function.update (recordsOf abs (ensureReady sys p.registry).stores)
            (abs.recName key) (some bytes)

omit [DecidableEq ν] in
/-- A close of an install that succeeds is a finish that succeeds. -/
lemma finish_of_close {r after : State σ} {now : Option UInt64} {ref : Bytes}
    (closes : closeEffect sys r now (.install ref true) = (.ok (), after)) :
    (serve sys r (.write true (.finish now) [])).1.succeeds = true ∧
      (serve sys r (.write true (.finish now) [])).2 = after := by
  rw [closeEffect] at closes
  rw [serve]
  cases finished : registryWrite sys r true (.finish now) [] with
  | mk rc last =>
    rw [finished] at closes
    cases rc with
    | error e => cases closes
    | ok n =>
      cases closes
      exact ⟨rfl, rfl⟩

lemma install_commits (laws : Contract sys.ops abs) {ref : Bytes}
    (accepted : validInstallRef ref = true) (parsed : parseRef ref = .ok key) {p : ControlPlane σ}
    {fd : Nat} (sound : Sound sys abs False p.registry)
    (opened : p.fds.getD fd .free = .install ref false) {first : Bytes} {allocated : Bool}
    {taken : Nat} (wrote : (regWrite sys p fd first allocated).1 = .ok taken) (chunks : List Bytes)
    (now : Option UInt64) {closed : ControlPlane σ}
    (closes : regClose sys (regWrites sys (regWrite sys p fd first allocated).2 fd chunks) fd now =
      (.ok (), closed)) :
    ∃ record bytes, readMeta sys closed.registry key = .ok record ∧
      recordsOf abs closed.registry.stores =
        Function.update (recordsOf abs (ensureReady sys p.registry).stores)
          (abs.recName key) (some bytes) := by
  obtain ⟨answer, slot, written⟩ := regWrites_first opened wrote chunks
  -- the stage that the close finishes was started under the key of the reference
  have writing := (registryWrite_start laws sound ref allocated first).2 taken answer
  obtain ⟨stage, active, isKey⟩ := start_key answer
  rw [parsed] at isKey
  cases isKey
  obtain ⟨_, activeLast, lastKey⟩ := continued_key active chunks
  have writingLast := writing.continued laws chunks
  obtain ⟨_, isPlain, plain, -⟩ := writingLast.stage
  rw [activeLast] at isPlain
  cases isPlain
  have published : publishes (continued sys
      (registryWrite sys p.registry true (.start ref 0 allocated) first).2 chunks)
      (.write true (.finish now) []) = some stage.key := by
    simp [publishes, activeLast, plain, lastKey]
  have effect : closeEffect sys (continued sys
      (registryWrite sys p.registry true (.start ref 0 allocated) first).2 chunks) now
      (.install ref true) = (.ok (), closed.registry) := by
    rw [written, regClose, slot] at closes
    obtain ⟨rc, isClosed⟩ := Prod.mk.inj closes
    exact Prod.ext rc (congrArg ControlPlane.registry isClosed)
  obtain ⟨done, after⟩ := finish_of_close effect
  obtain ⟨record, bytes, isEntry, put⟩ := Installs.installed laws writingLast.sound
    ⟨accepted, parsed, published, done⟩
  have good := (serve_loose laws writingLast.sound (.write true (.finish now) [])).stores.good
  rw [after] at isEntry put good
  exact ⟨record, bytes, (readMeta_of_entryOf laws good isEntry).1,
    by rw [put, writingLast.unchanged.records]⟩

/-- For every reference that the grammar accepts: its path, opened for writing, is an install of
exactly that reference whose close commits an entry of its name and version, iff the
reference does not end in the suffix of the signature route. -/
theorem opens_install_iff (laws : Contract sys.ops abs) {ref : Bytes}
    (terminated : (0 : UInt8) ∉ ref) (accepted : validInstallRef ref = true) :
    (∃ key, refText key = ref ∧ InstallsAs sys abs ref key) ↔
      endsIn ref regSigSuffix = false := by
  obtain ⟨key, parsed, -, text⟩ := accepted_of_validInstallRef accepted
  rw [cString_of_no_nul terminated] at text
  constructor
  · rintro ⟨_, -, installs⟩
    by_contra suffixed
    obtain ⟨fd, -, opened⟩ := installs.opens [.free] (mem_singleton_self _)
    rw [regOpenWrite_imagePath, openImage_accepted terminated accepted,
      if_pos (eq_true_of_ne_false suffixed)] at opened
    split at opened
    · cases opened
    -- the one slot holds a signature
    have slots := (Prod.mk.inj opened).2
    have isZero : fd = 0 := by
      have answer := (Prod.mk.inj opened).1
      exact (Except.ok.inj answer).symm
    subst isZero
    cases slots
  · intro plain
    refine ⟨key, text.symm, ?_, ?_⟩
    · intro fds free
      obtain ⟨fd, isFree, allocated⟩ :=
        (allocFd_cases fds (.install ref false)).resolve_left fun full => full.1 free
      refine ⟨fd, isFree, ?_⟩
      rw [regOpenWrite_imagePath, openImage_accepted terminated accepted,
        if_neg (by rw [plain]; exact Bool.false_ne_true), allocated]
    · intro p fd sound opened first allocated taken wrote chunks now closed closes
      exact install_commits laws accepted parsed sound opened wrote chunks now closes

/-- The path of `app:1` installs `app:1` on the page store. -/
theorem opens_install_app : ∃ key, refText key = ascii "app:1" ∧
    InstallsAs sample wide (ascii "app:1") key :=
  Iff.mpr (opens_install_iff (pageContract fun _ => rfl) (by decide) (by decide)) (by decide)

/-- The grammar accepts `app:1.sig`, and its path opens the signature of `app:1`. -/
theorem signature_route_taken : validInstallRef (ascii "app:1.sig") = true ∧
      regOpenWrite sample.cfg [.free] (imagePath (ascii "app:1.sig")) =
        (.ok 0, [.signature (ascii "app:1") []]) := by
  decide

end WantedEngine.Registry
