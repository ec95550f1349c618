import WantedEngine.Registry.Routes
/-!
# The owner of the stage

The registry has one stage, and the descriptors of its driver carry no more of it than whether they
were started. The calls on descriptors are followed here together with books that the driver does
not keep (`Books`): a serial number for every descriptor that was opened, the bytes accepted on each,
and which of them started the stage. In every sequence of calls a started descriptor is the one that
started the stage, and the stage has taken exactly the bytes accepted on it (`exec_owned`).
-/
namespace WantedEngine.Registry

open Foundation Page List Function

/-! ### Calls on descriptors, and the books -/

/-- A call on the descriptors of the registry driver. -/
inductive FdCall where
  /-- `_Open` of a path for writing. -/
  | openWrite (path : Bytes)
  /-- `_Write`, with what the allocator answers to the first chunk. -/
  | write (fd : Nat) (buf : Bytes) (allocated : Bool)
  /-- `_Close`, with what the clock answers. -/
  | close (fd : Nat) (now : Option UInt64)

/-- What was done so far, by descriptors that were opened. -/
structure Books where
  /-- How many descriptors were opened. -/
  opened : Nat
  /-- The serial number of the descriptor that was opened last in a slot. -/
  serial : Nat → Nat
  /-- The bytes accepted on a descriptor. -/
  accepted : Nat → Bytes
  /-- The descriptor that started the stage in progress. -/
  starter : Option Nat

/-- The driver and its registry, with the books. -/
structure Tracked (σ : Type) where
  plane : ControlPlane σ
  books : Books

/-- Who started the stage after a call: the caller when there was none, nobody when there is none
now. -/
def starterAfter (before after : Option Stage) (caller : Nat) (starter : Option Nat) : Option Nat :=
  match before, after with
  | _, none => none
  | none, some _ => some caller
  | some _, some _ => starter

variable {σ ν : Type} (sys : System σ)

/-- One call, and what it adds to the books. -/
def callFd (s : Tracked σ) : FdCall → Rc Nat × Tracked σ
  | .openWrite path =>
    match regOpenWrite sys.cfg s.plane.fds path with
    | (.error e, fds) => (.error e, ⟨{ s.plane with fds }, s.books⟩)
    | (.ok fd, fds) =>
      (.ok fd, ⟨{ s.plane with fds },
        { opened := s.books.opened + 1
          serial := update s.books.serial fd s.books.opened
          accepted := update s.books.accepted s.books.opened []
          starter := s.books.starter }⟩)
  | .write fd buf allocated =>
    let (rc, plane) := regWrite sys s.plane fd buf allocated
    let serial := s.books.serial fd
    (rc, ⟨plane,
      { s.books with
        accepted := match rc with
          | .ok taken =>
            update s.books.accepted serial (s.books.accepted serial ++ buf.take taken)
          | .error _ => s.books.accepted
        starter := starterAfter s.plane.registry.stage plane.registry.stage serial
          s.books.starter }⟩)
  | .close fd now =>
    let (rc, plane) := regClose sys s.plane fd now
    (rc.map fun _ => 0, ⟨plane,
      { s.books with
        starter := starterAfter s.plane.registry.stage plane.registry.stage (s.books.serial fd)
          s.books.starter }⟩)

def fdMachine : Machine (Tracked σ) FdCall (Rc Nat) := ⟨callFd sys⟩

/-- The driver without an open descriptor, in front of a registry without a stage. -/
def idleDriver (registry : State σ) : Tracked σ :=
  ⟨⟨List.replicate maxRegFds .free, registry⟩, ⟨0, fun _ => 0, fun _ => [], none⟩⟩

/-! ### The owner of the stage -/

/-- What a descriptor of an image or a layer writes. -/
structure Job where
  /-- An image, which its close commits. -/
  plain : Bool
  ref : Bytes
  layer : Nat
  /-- Its first chunk was taken. -/
  started : Bool

/-- The job of a descriptor of an image or a layer. -/
def RegFd.job : RegFd → Option Job
  | .install ref started => some ⟨true, ref, 0, started⟩
  | .layer ref index started => some ⟨false, ref, index, started⟩
  | _ => none

/-- The descriptor with its job started or not. -/
def RegFd.restarted (started : Bool) : RegFd → RegFd
  | .install ref _ => .install ref started
  | .layer ref index _ => .layer ref index started
  | kind => kind

/-- The payload that a descriptor buffers. -/
def RegFd.payload : RegFd → Option Bytes
  | .signature _ payload | .commit _ payload | .link _ _ payload => some payload
  | _ => none

structure StageOf (stage : Stage) (job : Job) (bytes : Bytes) : Prop where
  plain : stage.plain = job.plain
  layer : stage.layer = job.layer
  key : parseRef job.ref = .ok stage.key
  taken : stage.taken = bytes

/-- What the books say of an open descriptor. -/
structure Describes (books : Books) (stage : Option Stage) (kind : RegFd) (serial : Nat) : Prop where
  known : serial < books.opened
  /-- Nothing was accepted before the job was started. -/
  waiting : ∀ job, kind.job = some job → job.started = false → books.accepted serial = []
  /-- A job that was started is that of the stage. -/
  started : ∀ job, kind.job = some job → job.started = true → books.starter = some serial ∧
    ∃ active, stage = some active ∧ StageOf active job (books.accepted serial)
  payload : ∀ payload, kind.payload = some payload → payload = books.accepted serial

/-- The descriptors, the stage and the books agree. -/
structure Owned (s : Tracked σ) : Prop where
  slots : ∀ fd, s.plane.fds.getD fd .free ≠ .free →
    Describes s.books s.plane.registry.stage (s.plane.fds.getD fd .free) (s.books.serial fd)
  apart : ∀ fd other, s.plane.fds.getD fd .free ≠ .free → s.plane.fds.getD other .free ≠ .free →
    s.books.serial fd = s.books.serial other → fd = other
  /-- A stage was started by a descriptor that is open. -/
  staged : ∀ stage, s.plane.registry.stage = some stage → s.plane.registry.stores ≠ [] ∧
    ∃ fd job, (s.plane.fds.getD fd .free).job = some job ∧ job.started = true
  unstaged : s.plane.registry.stage = none → s.books.starter = none
  table : 0 < s.plane.registry.pending.length

variable {sys} {kind : RegFd} {job : Job} {s : Tracked σ} {fd : Nat}

/-- A descriptor with a job is open. -/
lemma used_of_job (isJob : kind.job = some job) : kind ≠ .free := by
  rintro rfl
  cases isJob

lemma starterAfter_same {stage after : Option Stage} {caller : Nat} {starter : Option Nat}
    (same : after = stage) (unstaged : stage = none → starter = none) :
    starterAfter stage after caller starter = starter := by
  subst same
  cases after with
  | none => exact (unstaged rfl).symm
  | some stage => rfl

/-- The books on a descriptor stay right when its bytes are left alone, and the stage and its starter
too or the descriptor has not started. -/
lemma Describes.other {books books' : Books} {stage stage' : Option Stage} {serial : Nat}
    (describes : Describes books stage kind serial) (opened : books.opened ≤ books'.opened)
    (accepted : books'.accepted serial = books.accepted serial)
    (same : (stage' = stage ∧ books'.starter = books.starter) ∨
      ∀ job, kind.job = some job → job.started = false) : Describes books' stage' kind serial := by
  refine ⟨Nat.lt_of_lt_of_le describes.known opened, ?_, ?_, ?_⟩
  · rw [accepted]
    exact describes.waiting
  · intro job isJob started
    rcases same with ⟨sameStage, sameStarter⟩ | none_
    · rw [sameStage, sameStarter, accepted]
      exact describes.started job isJob started
    · rw [none_ job isJob] at started
      cases started
  · rw [accepted]
    exact describes.payload

variable (owned : Owned s)
include owned

lemma Owned.others_idle {other : Nat} {job' : Job}
    (isJob : (s.plane.fds.getD fd .free).job = some job) (started : job.started = true)
    (differs : other ≠ fd) (isOther : (s.plane.fds.getD other .free).job = some job') :
    job'.started = false := by
  refine Bool.eq_false_iff.mpr fun otherStarted => differs ?_
  have first := ((owned.slots fd (used_of_job isJob)).started job isJob started).1
  have second := ((owned.slots other (used_of_job isOther)).started job' isOther otherStarted).1
  rw [first, Option.some.injEq] at second
  exact owned.apart other fd (used_of_job isOther) (used_of_job isJob) second.symm

lemma Owned.not_started (none_ : s.plane.registry.stage = none)
    (isJob : (s.plane.fds.getD fd .free).job = some job) : job.started = false := by
  refine Bool.eq_false_iff.mpr fun started => ?_
  obtain ⟨-, stage, active, -⟩ := (owned.slots fd (used_of_job isJob)).started job isJob started
  rw [none_] at active
  cases active

omit owned

lemma RegFd.eq_of_job (isJob : kind.job = some job) :
    (∃ ref started, kind = .install ref started ∧ job = ⟨true, ref, 0, started⟩) ∨
      ∃ ref index started, kind = .layer ref index started ∧ job = ⟨false, ref, index, started⟩ := by
  cases kind with
  | install ref started =>
    cases isJob
    exact .inl ⟨ref, started, rfl, rfl⟩
  | layer ref index started =>
    cases isJob
    exact .inr ⟨ref, index, started, rfl, rfl⟩
  | _ => cases isJob

lemma RegFd.started_or_idle (kind : RegFd) : (∃ job, kind.job = some job ∧ job.started = true) ∨
      ∀ job, kind.job = some job → job.started = false := by
  refine or_iff_not_imp_left.mpr fun idle job isJob => ?_
  exact Bool.eq_false_iff.mpr fun started => idle ⟨job, isJob, started⟩

variable (isJob : kind.job = some job)
include isJob

lemma RegFd.restarted_job (started : Bool) :
    (kind.restarted started).job = some { job with started } := by
  rcases RegFd.eq_of_job isJob with ⟨ref, before, rfl, rfl⟩ | ⟨ref, _, before, rfl, rfl⟩
  · rfl
  · rfl

lemma RegFd.layer_of_job : (if job.plain then 0 else job.layer) = job.layer := by
  rcases RegFd.eq_of_job isJob with ⟨ref, before, rfl, rfl⟩ | ⟨ref, _, before, rfl, rfl⟩
  · rfl
  · rfl

lemma Describes.of_job {books : Books} {stage : Option Stage} {serial : Nat}
    (known : serial < books.opened) (waiting : job.started = false → books.accepted serial = [])
    (started : job.started = true → books.starter = some serial ∧
      ∃ active, stage = some active ∧ StageOf active job (books.accepted serial)) :
    Describes books stage kind serial := by
  have same : ∀ other, kind.job = some other → job = other := by
    intro other isOther
    rw [isJob, Option.some.injEq] at isOther
    exact isOther
  refine ⟨known, fun other isOther => same other isOther ▸ waiting,
    fun other isOther => same other isOther ▸ started, ?_⟩
  rcases RegFd.eq_of_job isJob with ⟨ref, before, rfl, -⟩ | ⟨ref, _, before, rfl, -⟩
  · nofun
  · nofun

omit isJob

lemma regWrite_job {p : ControlPlane σ} (isJob : (p.fds.getD fd .free).job = some job)
    (buf : Bytes) (allocated : Bool) :
    regWrite sys p fd buf allocated =
      ((wantedWrite sys p.registry job.plain job.started job.ref job.layer buf allocated).1,
        ⟨p.fds.set fd ((p.fds.getD fd .free).restarted
          (wantedWrite sys p.registry job.plain job.started job.ref job.layer buf allocated).2.1),
          (wantedWrite sys p.registry job.plain job.started job.ref job.layer buf allocated).2.2⟩) := by
  unfold regWrite
  rcases RegFd.eq_of_job isJob with ⟨ref, started, kind, rfl⟩ | ⟨ref, _, started, kind, rfl⟩
  · rewrite [kind]
    rfl
  · rewrite [kind]
    rfl

lemma closeEffect_started (isJob : kind.job = some job) (started : job.started = true)
    (r : State σ) (now : Option UInt64) :
    closeEffect sys r now kind =
      ((registryWrite sys r job.plain (.finish now) []).1.map fun _ => (),
        (registryWrite sys r job.plain (.finish now) []).2) := by
  rcases RegFd.eq_of_job isJob with ⟨ref, before, rfl, rfl⟩ | ⟨ref, _, before, rfl, rfl⟩
  · rw [closeEffect, if_pos started]
  · rw [closeEffect, if_pos started]

lemma closeEffect_cases (idle : ∀ job, kind.job = some job → job.started = false) (r : State σ)
    (now : Option UInt64) :
    (closeEffect sys r now kind).2 = r ∨
      (∃ entry keyId signature, (closeEffect sys r now kind).2 =
        (registryMetaSetSignature sys r entry keyId signature).2) ∨
      (∃ ref payload count created, kind = .commit ref payload ∧
        (closeEffect sys r now kind).2 = (registryCommit sys r ref count created now).2) ∨
      ∃ ref index digest, (closeEffect sys r now kind).2 =
        (registryLinkLayer sys r ref index digest).2 := by
  cases kind with
  | free => exact .inl rfl
  | reading => exact .inl rfl
  | install ref started =>
    exact .inl (closeEffect_quiet (show (RegFd.install ref started).Quiet from idle _ rfl) r now)
  | layer ref index started =>
    exact .inl (closeEffect_quiet (show (RegFd.layer ref index started).Quiet from idle _ rfl) r now)
  | signature ref payload =>
    rw [closeEffect]
    unfold wantedRegistrySetSignature
    split
    · exact .inl rfl
    split
    · dsimp only
      split
      · exact .inl rfl
      · exact .inr (.inl ⟨_, _, _, rfl⟩)
    · exact .inl rfl
  | commit ref payload =>
    rw [closeEffect]
    unfold wantedCommitRegistry
    split
    · exact .inl rfl
    split
    · exact .inr (.inr (.inl ⟨ref, _, _, _, rfl, rfl⟩))
    · split
      · exact .inr (.inr (.inl ⟨ref, _, _, _, rfl, rfl⟩))
      · exact .inl rfl
    · exact .inl rfl
  | link ref index payload =>
    rw [closeEffect]
    unfold wantedLinkRegistryLayer
    split
    · exact .inl rfl
    dsimp only
    split
    · exact .inl rfl
    · exact .inr (.inr (.inr ⟨_, _, _, rfl⟩))

lemma closeEffect_frame {kind : RegFd} (idle : ∀ job, kind.job = some job → job.started = false)
    (r : State σ) (now : Option UInt64) : Frame r (closeEffect sys r now kind).2 := by
  rcases closeEffect_cases idle r now with
    same | ⟨_, _, _, same⟩ | ⟨_, _, _, _, -, same⟩ | ⟨_, _, _, same⟩
  · rw [same]
    exact .refl r
  · rw [same]
    exact registryMetaSetSignature_frame sys r _ _ _
  · rw [same]
    exact registryCommit_frame sys r _ _ _ _
  · rw [same]
    exact registryLinkLayer_frame sys r _ _ _

lemma regOpenWrite_cases (cfg : Config) (fds : List RegFd) (path : Bytes) :
    (∃ e, regOpenWrite cfg fds path = (.error e, fds)) ∨
      ∃ fd kind, regOpenWrite cfg fds path = (.ok fd, fds.set fd kind) ∧
        fds[fd]? = some .free ∧ kind.Quiet ∧ kind ≠ .free := by
  have alloc : ∀ kind : RegFd, kind.Quiet → kind ≠ .free →
      (∃ e, allocFd fds kind = (.error e, fds)) ∨
        ∃ fd kind', allocFd fds kind = (.ok fd, fds.set fd kind') ∧ fds[fd]? = some .free ∧
          kind'.Quiet ∧ kind' ≠ .free := by
    intro kind quiet used
    rcases allocFd_cases fds kind with ⟨-, full⟩ | ⟨fd, isFree, allocated⟩
    · exact .inl ⟨.emfile, full⟩
    · exact .inr ⟨fd, kind, allocated, isFree, quiet, used⟩
  unfold regOpenWrite
  dsimp only
  split
  · exact .inl ⟨_, rfl⟩
  split
  · unfold openImage
    split
    · exact .inl ⟨_, rfl⟩
    split
    · unfold openLayerRoute
      dsimp only
      generalize (if endsIn _ regLinkSuffix = true then _ else _) = digits
      split
      · exact .inl ⟨_, rfl⟩
      split
      · exact .inl ⟨_, rfl⟩
      split
      · exact alloc _ rfl nofun
      split
      · exact .inl ⟨_, rfl⟩
      split
      · exact .inl ⟨_, rfl⟩
      split
      · exact alloc _ rfl nofun
      · exact alloc _ rfl nofun
    split
    · dsimp only
      split
      · exact .inl ⟨_, rfl⟩
      split
      · exact .inl ⟨_, rfl⟩
      · exact alloc _ rfl nofun
    split
    · exact .inl ⟨_, rfl⟩
    split
    · exact .inl ⟨_, rfl⟩
    · exact alloc _ rfl nofun
  · split
    · exact .inl ⟨_, rfl⟩
    · exact .inl ⟨_, rfl⟩

include owned

lemma Owned.staged_beside
    (idle : ∀ job, (s.plane.fds.getD fd .free).job = some job → job.started = false) (kind : RegFd)
    {stage : Stage} (active : s.plane.registry.stage = some stage) :
    s.plane.registry.stores ≠ [] ∧
      ∃ other job, ((s.plane.fds.set fd kind).getD other .free).job = some job ∧
        job.started = true := by
  obtain ⟨nonempty, other, job, isJob, started⟩ := owned.staged stage active
  refine ⟨nonempty, other, job, ?_, started⟩
  have differs : other ≠ fd := by
    rintro rfl
    rw [idle job isJob] at started
    cases started
  rw [Slots.getD_set_ne _ (Ne.symm differs)]
  exact isJob

/-- A call that changes one open slot, and the bytes of no descriptor but that one, keeps the books
descriptor has started. -/
lemma Owned.update {s' : Tracked σ} (kind : RegFd) (used : s.plane.fds.getD fd .free ≠ .free)
    (fds : s'.plane.fds = s.plane.fds.set fd kind) (serials : s'.books.serial = s.books.serial)
    (opened : s'.books.opened = s.books.opened) (accepted : ∀ serial, serial ≠ s.books.serial fd →
      s'.books.accepted serial = s.books.accepted serial)
    (same : (s'.plane.registry.stage = s.plane.registry.stage ∧ s'.books.starter = s.books.starter) ∨
      ∀ other job, other ≠ fd → (s.plane.fds.getD other .free).job = some job → job.started = false)
    (self : kind ≠ .free → Describes s'.books s'.plane.registry.stage kind (s.books.serial fd))
    (staged : ∀ stage, s'.plane.registry.stage = some stage → s'.plane.registry.stores ≠ [] ∧
      ∃ fd job, (s'.plane.fds.getD fd .free).job = some job ∧ job.started = true)
    (unstaged : s'.plane.registry.stage = none → s'.books.starter = none)
    (table : s'.plane.registry.pending.length = s.plane.registry.pending.length) : Owned s' := by
  have inside := Slots.getD_ne _ _ _ used
  have here : s'.plane.fds.getD fd .free = kind := by
    rw [fds]
    exact getD_set_self inside kind
  have there : ∀ other, other ≠ fd → s'.plane.fds.getD other .free = s.plane.fds.getD other .free := by
    intro other differs
    rw [fds]
    exact Slots.getD_set_ne _ (Ne.symm differs) kind _
  have wasUsed : ∀ other, s'.plane.fds.getD other .free ≠ .free →
      s.plane.fds.getD other .free ≠ .free := by
    intro other isUsed
    by_cases isFd : other = fd
    · rw [isFd]
      exact used
    · rw [← there other isFd]
      exact isUsed
  refine ⟨?_, ?_, staged, unstaged, table.symm ▸ owned.table⟩
  · intro other isUsed
    rw [serials]
    by_cases isFd : other = fd
    · subst isFd
      rw [here] at isUsed ⊢
      exact self isUsed
    have before := wasUsed other isUsed
    rw [there other isFd]
    refine (owned.slots other before).other (Nat.le_of_eq opened.symm) ?_ ?_
    · refine accepted _ fun shared => isFd ?_
      exact owned.apart other fd before used shared
    · exact same.imp id fun none_ job => none_ other job isFd
  · rw [serials]
    exact fun first second isFirst isSecond =>
      owned.apart first second (wasUsed first isFirst) (wasUsed second isSecond)

/-! ### What one call keeps -/

lemma Owned.openWrite (path : Bytes) : Owned (callFd sys s (.openWrite path)).2 := by
  rcases regOpenWrite_cases sys.cfg s.plane.fds path with
    ⟨e, refused⟩ | ⟨fd, kind, done, isFree, quiet, used⟩
  · rw [callFd, refused]
    exact owned
  rw [callFd, done]
  have inside := (List.getElem?_eq_some_iff.mp isFree).1
  have wasFree : s.plane.fds.getD fd .free = .free := by
    rw [getD_eq_getElem?_getD, isFree]
    rfl
  have notJob : ∀ job, kind.job = some job → job.started = false := by
    intro job isJob
    rcases RegFd.eq_of_job isJob with ⟨ref, before, rfl, rfl⟩ | ⟨ref, index, before, rfl, rfl⟩
    · exact quiet
    · exact quiet
  have noPayload : ∀ payload, kind.payload = some payload → payload = [] := by
    intro payload isPayload
    cases kind with
    | signature ref payload | commit ref payload | link ref index payload =>
      cases isPayload
      exact quiet
    | _ => cases isPayload
  -- the new descriptor has the next serial number, which no other has
  have others : ∀ other, other ≠ fd → (s.plane.fds.set fd kind).getD other .free ≠ .free →
      s.plane.fds.getD other .free ≠ .free ∧ s.books.serial other < s.books.opened := by
    intro other differs isUsed
    rw [Slots.getD_set_ne _ (Ne.symm differs)] at isUsed
    exact ⟨isUsed, (owned.slots other isUsed).known⟩
  refine ⟨?_, ?_, ?_, owned.unstaged, owned.table⟩
  · intro other isUsed
    by_cases isFd : other = fd
    · subst isFd
      dsimp only
      rw [getD_set_self inside, update_self]
      refine ⟨Nat.lt_succ_self _, ?_, ?_, ?_⟩
      · intro job isJob _
        exact update_self _ _ _
      · intro job isJob started
        rw [notJob job isJob] at started
        cases started
      · intro payload isPayload
        rw [noPayload payload isPayload]
        show [] = Function.update s.books.accepted s.books.opened [] s.books.opened
        rw [update_self]
    · obtain ⟨before, known⟩ := others other isFd isUsed
      dsimp only
      rw [Slots.getD_set_ne _ (Ne.symm isFd), update_of_ne isFd]
      refine (owned.slots other before).other (Nat.le_succ _) ?_ (.inl ⟨rfl, rfl⟩)
      exact update_of_ne (Nat.ne_of_lt known) _ _
  · intro first second isFirst isSecond shared
    dsimp only at shared
    by_cases firstNew : first = fd
    · by_cases secondNew : second = fd
      · rw [firstNew, secondNew]
      obtain ⟨-, known⟩ := others second secondNew isSecond
      rw [firstNew, update_self, update_of_ne secondNew] at shared
      omega
    obtain ⟨beforeFirst, _⟩ := others first firstNew isFirst
    by_cases secondNew : second = fd
    · rw [secondNew, update_self, update_of_ne firstNew] at shared
      omega
    obtain ⟨beforeSecond, -⟩ := others second secondNew isSecond
    rw [update_of_ne firstNew, update_of_ne secondNew] at shared
    exact owned.apart first second beforeFirst beforeSecond shared
  · intro stage active
    refine owned.staged_beside (fun job isJob => ?_) kind active
    rw [wasFree] at isJob
    cases isJob

variable {allocated : Bool}

lemma callFd_write_error {buf : Bytes} {e : Errno}
    (refused : regWrite sys s.plane fd buf allocated = (.error e, s.plane)) :
    (callFd sys s (.write fd buf allocated)).2 = s := by
  rw [callFd, refused]
  dsimp only
  rw [starterAfter_same rfl owned.unstaged]

lemma Owned.buffer {payload buf : Bytes} (used : s.plane.fds.getD fd .free ≠ .free)
    (isPayload : (s.plane.fds.getD fd .free).payload = some payload)
    (noJob : (s.plane.fds.getD fd .free).job = none) (sameJob : kind.job = none)
    (isBuffered : kind.payload = some (payload ++ buf))
    (wrote : regWrite sys s.plane fd buf allocated =
      (.ok buf.length, { s.plane with fds := s.plane.fds.set fd kind })) :
    Owned (callFd sys s (.write fd buf allocated)).2 := by
  have before := owned.slots fd used
  have added : Function.update s.books.accepted (s.books.serial fd)
      (s.books.accepted (s.books.serial fd) ++ buf) (s.books.serial fd) = payload ++ buf := by
    rw [update_self, before.payload payload isPayload]
  rw [callFd, wrote]
  dsimp only
  rw [starterAfter_same rfl owned.unstaged, take_length]
  refine owned.update kind used rfl rfl rfl ?_ (.inl ⟨rfl, rfl⟩) ?_ ?_ owned.unstaged rfl
  · exact fun serial differs => update_of_ne differs _ _
  · intro _
    refine ⟨before.known, ?_, ?_, ?_⟩
    · rw [sameJob]
      nofun
    · rw [sameJob]
      nofun
    intro whole isWhole
    rw [isBuffered, Option.some.injEq] at isWhole
    rw [← isWhole]
    exact added.symm
  · intro stage active
    refine owned.staged_beside (fun job isJob => ?_) kind active
    rw [noJob] at isJob
    cases isJob

lemma Owned.start (isJob : (s.plane.fds.getD fd .free).job = some job)
    (waiting : job.started = false) (buf : Bytes) (allocated : Bool) :
    Owned (callFd sys s (.write fd buf allocated)).2 := by
  have used := used_of_job isJob
  have before := owned.slots fd used
  have nothing := before.waiting job isJob waiting
  have idle : ∀ job, (s.plane.fds.getD fd .free).job = some job → job.started = false := by
    intro job' isJob'
    rw [isJob, Option.some.injEq] at isJob'
    rw [← isJob', waiting]
  rw [callFd, regWrite_job isJob, wantedWrite, waiting]
  simp only [Bool.false_eq_true, if_false]
  rcases registryWrite_start_frame sys s.plane.registry job.plain job.ref job.layer allocated buf rfl with
    ⟨taken, key, answer, noStage, nonempty, parsed, frame⟩ | ⟨e, answer, frame⟩
  · -- the stage is new, and nothing was accepted before its first chunk
    rw [RegFd.layer_of_job isJob] at frame
    have newJob := RegFd.restarted_job isJob true
    have added : Function.update s.books.accepted (s.books.serial fd)
        (s.books.accepted (s.books.serial fd) ++ buf.take taken) (s.books.serial fd) =
        buf.take taken := by
      rw [update_self, nothing]
      rfl
    rw [answer, frame.stage, noStage]
    refine owned.update ((s.plane.fds.getD fd .free).restarted true) used rfl rfl rfl ?_
      (.inr fun other _ _ isOther => owned.not_started noStage isOther) ?_ ?_ ?_ frame.table
    · exact fun serial differs => update_of_ne differs _ _
    · intro _
      exact .of_job newJob before.known (by simp) fun _ =>
        ⟨rfl, _, frame.stage, rfl, rfl, parsed, added.symm⟩
    · intro stage _
      refine ⟨frame.nonempty nonempty, fd, { job with started := true }, ?_, rfl⟩
      rw [getD_set_self (Slots.getD_ne _ _ _ used)]
      exact newJob
    · intro none_
      rw [frame.stage] at none_
      cases none_
  · have sameJob := RegFd.restarted_job isJob false
    rw [answer]
    rw [starterAfter_same frame.stage owned.unstaged]
    refine owned.update ((s.plane.fds.getD fd .free).restarted false) used rfl rfl rfl
      (fun _ _ => rfl) (.inl ⟨frame.stage, rfl⟩) ?_ ?_ ?_ frame.table
    · exact fun _ => .of_job sameJob before.known (fun _ => nothing) (by simp)
    · intro stage active
      obtain ⟨nonempty, beside⟩ := owned.staged_beside idle
        ((s.plane.fds.getD fd .free).restarted false) (frame.stage ▸ active)
      exact ⟨frame.nonempty nonempty, beside⟩
    · exact fun none_ => owned.unstaged (frame.stage ▸ none_)

lemma Owned.next (isJob : (s.plane.fds.getD fd .free).job = some job)
    (started : job.started = true) (buf : Bytes) (allocated : Bool) :
    Owned (callFd sys s (.write fd buf allocated)).2 := by
  have used := used_of_job isJob
  have before := owned.slots fd used
  obtain ⟨isStarter, stage, active, own⟩ := before.started job isJob started
  obtain ⟨nonempty, -⟩ := owned.staged stage active
  have newJob := RegFd.restarted_job isJob true
  obtain ⟨stage', plain, key, layer, frame, answered⟩ :=
    registryWrite_next_frame sys active job.plain buf
  have others : ∀ other job', other ≠ fd → (s.plane.fds.getD other .free).job = some job' →
      job'.started = false := fun other job' => owned.others_idle isJob started
  rw [callFd, regWrite_job isJob, wantedWrite, started]
  simp only [if_true]
  rw [frame.stage, active]
  -- what the books say of the descriptor, with the bytes the stage has now
  have self : ∀ accepted : Nat → Bytes, stage'.taken = accepted (s.books.serial fd) →
      Describes { s.books with accepted }
        (registryWrite sys s.plane.registry job.plain .next buf).2.stage
        ((s.plane.fds.getD fd .free).restarted true) (s.books.serial fd) := by
    intro accepted taken
    exact .of_job newJob before.known (by simp) fun _ => ⟨isStarter, stage', frame.stage,
      plain.trans own.plain, layer.trans own.layer, key ▸ own.key, taken⟩
  have staged : (registryWrite sys s.plane.registry job.plain .next buf).2.stores ≠ [] ∧
      ∃ other job', ((s.plane.fds.set fd
        ((s.plane.fds.getD fd .free).restarted true)).getD other .free).job = some job' ∧
          job'.started = true := by
    refine ⟨frame.nonempty nonempty, fd, { job with started := true }, ?_, rfl⟩
    rw [getD_set_self (Slots.getD_ne _ _ _ used)]
    exact newJob
  have notNone : (registryWrite sys s.plane.registry job.plain .next buf).2.stage ≠ none := by
    rw [frame.stage]
    simp
  rcases answered with ⟨taken, answer, grown⟩ | ⟨_, answer, same⟩
  · rw [answer]
    dsimp only
    refine owned.update ((s.plane.fds.getD fd .free).restarted true) used rfl rfl rfl ?_
      (.inr others) (fun _ => self _ ?_) (fun _ _ => staged) (fun none_ => absurd none_ notNone)
      frame.table
    · exact fun serial differs => update_of_ne differs _ _
    · rw [grown, own.taken, update_self]
  · rw [answer]
    refine owned.update ((s.plane.fds.getD fd .free).restarted true) used rfl rfl rfl
      (fun _ _ => rfl) (.inr others) (fun _ => self _ ?_) (fun _ _ => staged)
      (fun none_ => absurd none_ notNone) frame.table
    rw [same, own.taken]

lemma Owned.write (fd : Nat) (buf : Bytes) (allocated : Bool) :
    Owned (callFd sys s (.write fd buf allocated)).2 := by
  -- a payload that does not fit is refused, and one that fits is added to the buffer
  have buffers : ∀ (payload : Bytes) (room : Nat) (kind : Bytes → RegFd),
      s.plane.fds.getD fd .free = kind payload →
      (∀ payload, kind payload ≠ .free ∧ (kind payload).job = none ∧
        (kind payload).payload = some payload) →
      regWrite sys s.plane fd buf allocated =
        (if room < payload.length + buf.length then (.error .emsgsize, s.plane)
          else (.ok buf.length, { s.plane with fds := s.plane.fds.set fd (kind (payload ++ buf)) })) →
      Owned (callFd sys s (.write fd buf allocated)).2 := by
    intro payload room kind isKind spec wrote
    split at wrote
    · rw [callFd_write_error owned wrote]
      exact owned
    obtain ⟨used, noJob, isPayload⟩ := spec payload
    rw [← isKind] at used noJob isPayload
    exact owned.buffer used isPayload noJob (spec _).2.1 (spec _).2.2 wrote
  cases kind : s.plane.fds.getD fd .free with
  | free =>
    have wrote : regWrite sys s.plane fd buf allocated = (.error .ebadf, s.plane) := by
      rw [regWrite, kind]
    rw [callFd_write_error owned wrote]
    exact owned
  | reading =>
    have wrote : regWrite sys s.plane fd buf allocated = (.error .erofs, s.plane) := by
      rw [regWrite, kind]
    rw [callFd_write_error owned wrote]
    exact owned
  | install ref started =>
    have isJob : (s.plane.fds.getD fd .free).job = some ⟨true, ref, 0, started⟩ := by
      rewrite [kind]
      rfl
    cases started with
    | true => exact owned.next isJob rfl buf allocated
    | false => exact owned.start isJob rfl buf allocated
  | layer ref index started =>
    have isJob : (s.plane.fds.getD fd .free).job = some ⟨false, ref, index, started⟩ := by
      rewrite [kind]
      rfl
    cases started with
    | true => exact owned.next isJob rfl buf allocated
    | false => exact owned.start isJob rfl buf allocated
  | signature ref payload =>
    refine buffers payload registrySigPayloadLen (.signature ref) kind (fun _ => ⟨by simp, rfl, rfl⟩) ?_
    rewrite [regWrite, kind]
    dsimp only [Registry.buffered]
    split_ifs <;> rfl
  | commit ref payload =>
    refine buffers payload regCommitMax (.commit ref) kind (fun _ => ⟨by simp, rfl, rfl⟩) ?_
    rewrite [regWrite, kind]
    dsimp only [Registry.buffered]
    split_ifs <;> rfl
  | link ref index payload =>
    refine buffers payload regLinkMax (.link ref index) kind (fun _ => ⟨by simp, rfl, rfl⟩) ?_
    rewrite [regWrite, kind]
    dsimp only [Registry.buffered]
    split_ifs <;> rfl

omit owned

lemma set_free_of_free {fds : List RegFd} (isFree : fds.getD fd .free = .free) :
    fds.set fd .free = fds := by
  conv_lhs => rw [← isFree, Slots.set_getD]

include owned

lemma Owned.close (fd : Nat) (now : Option UInt64) : Owned (callFd sys s (.close fd now)).2 := by
  rw [callFd, regClose]
  dsimp only
  rcases (s.plane.fds.getD fd .free).started_or_idle with ⟨job, isJob, isStarted⟩ | idle
  · -- the close ends the stage, and no other descriptor has started
    obtain ⟨-, stage, active, -⟩ :=
      (owned.slots fd (used_of_job isJob)).started job isJob isStarted
    obtain ⟨nonempty, -⟩ := owned.staged stage active
    have frame := registryWrite_finish_frame sys active nonempty job.plain now
    rw [closeEffect_started isJob isStarted]
    rw [frame.stage]
    refine owned.update .free (used_of_job isJob) rfl rfl rfl (fun _ _ => rfl)
      (.inr fun other job' => owned.others_idle isJob isStarted) (fun used => absurd rfl used) ?_
      (fun _ => rfl) frame.table
    intro stage' active'
    rw [frame.stage] at active'
    cases active'
  · have frame := @closeEffect_frame σ sys _ idle s.plane.registry now
    rw [starterAfter_same frame.stage owned.unstaged]
    by_cases isFree : s.plane.fds.getD fd .free = .free
    · rw [isFree, set_free_of_free isFree]
      exact owned
    refine owned.update .free isFree rfl rfl rfl (fun _ _ => rfl) (.inl ⟨frame.stage, rfl⟩)
      (fun used => absurd rfl used) ?_ ?_ frame.table
    · intro stage active
      obtain ⟨nonempty, beside⟩ := owned.staged_beside idle .free (frame.stage ▸ active)
      exact ⟨frame.nonempty nonempty, beside⟩
    · exact fun none_ => owned.unstaged (frame.stage ▸ none_)

lemma Owned.call (call : FdCall) : Owned (callFd sys s call).2 := by
  cases call with
  | openWrite path => exact owned.openWrite path
  | write fd buf allocated => exact owned.write fd buf allocated
  | close fd now => exact owned.close fd now

omit owned

lemma idleDriver_owned {registry : State σ} (noStage : registry.stage = none)
    (table : 0 < registry.pending.length) : Owned (idleDriver registry) := by
  have free : ∀ fd, (List.replicate maxRegFds RegFd.free).getD fd .free = .free := by
    intro fd
    rw [getD_eq_getElem?_getD, getElem?_replicate]
    split <;> rfl
  refine ⟨fun fd used => absurd (free fd) used, fun fd _ used => absurd (free fd) used, ?_,
    fun _ => rfl, table⟩
  intro stage active
  rw [show (idleDriver registry).plane.registry.stage = none from noStage] at active
  cases active

lemma exec_owned (owned : Owned s) (calls : List FdCall) : Owned ((fdMachine sys).exec s calls) :=
  (fdMachine sys).exec_invariant_of_step Owned (fun _ call owned => owned.call call) owned calls

end WantedEngine.Registry
