import WantedEngine.Registry.Ownership
/-!
# Whose bytes a close publishes

Since a started descriptor owns the stage, a close finishes no stage but its own, and what it
publishes or stages are the bytes accepted on its descriptor (`close_publishes_own`). An image whose
record no listing shows may lose its bytes at the very close that publishes them
(`close_loses_bytes`): the blob of its older record is freed, and no listing says that it is the blob
of the new one.
-/
namespace WantedEngine.Registry

open Foundation Page

variable {σ ν : Type} {sys : System σ}

/-! ### What a close publishes -/

/-- The reference under which the close of a descriptor publishes an entry. -/
def RegFd.publishedRef : RegFd → Option Bytes
  | .install ref true => some ref
  | .commit ref _ => some ref
  | _ => none

/-- A close publishes under a reference whose record a listing shows. -/
def ShownClose (abs : Reading σ ν) (s : Tracked σ) : FdCall → Prop
  | .close fd _ => ∀ ref ∈ (s.plane.fds.getD fd .free).publishedRef, ∀ key,
    parseRef ref = .ok key → abs.listable key
  | _ => True

def linkDigits (payload : Bytes) : Bytes :=
  if payload.length = regLinkMax ∧ payload.getLast? = some 10 then payload.dropLast else payload

/-- The bytes accepted on the descriptor of a slot. -/
def Tracked.own (s : Tracked σ) (fd : Nat) : Bytes := s.books.accepted (s.books.serial fd)

/-- The close of a slot does not touch the stage of another descriptor, and every stage is that of an
open descriptor. -/
structure KeepsOthers (sys : System σ) (s : Tracked σ) (fd : Nat) (now : Option UInt64) : Prop where
  /-- The stage stays when another descriptor started it. -/
  kept : s.books.starter ≠ some (s.books.serial fd) →
    (regClose sys s.plane fd now).2.registry.stage = s.plane.registry.stage
  /-- A stage was started by an open descriptor, and has taken what was accepted on it. -/
  owner : ∀ stage, s.plane.registry.stage = some stage →
    ∃ slot, s.plane.fds.getD slot .free ≠ .free ∧ s.books.starter = some (s.books.serial slot) ∧
      stage.taken = s.own slot

/-- What the close of a slot publishes is what was accepted on its descriptor. -/
structure PublishesOwn (sys : System σ) (abs : Reading σ ν) (s : Tracked σ) (fd : Nat)
    (now : Option UInt64) (after : State σ) : Prop where
  /-- The close of an image makes an entry of its reference with just these bytes. -/
  image : ∀ ref, s.plane.fds.getD fd .free = .install ref true →
    (regClose sys s.plane fd now).1 = .ok () →
    ∃ key, parseRef ref = .ok key ∧ IsImage sys abs after key [s.own fd]
  /-- A close of an image that fails publishes nothing. -/
  refused : ∀ ref e, s.plane.fds.getD fd .free = .install ref true →
    (regClose sys s.plane fd now).1 = .error e →
    recordsOf abs after.stores = recordsOf abs s.plane.registry.stores
  /-- The close of a layer stages just these bytes. -/
  layer : ∀ ref index, s.plane.fds.getD fd .free = .layer ref index true →
    (regClose sys s.plane fd now).1 = .ok () →
    ∃ key staged, parseRef ref = .ok key ∧ pendingFind after.pending key index = some staged ∧
      Holds abs after staged.digest (s.own fd)
  /-- The close of a link stages the blob that these bytes name. -/
  link : ∀ ref index payload, s.plane.fds.getD fd .free = .link ref index payload →
    payload ≠ [] → (regClose sys s.plane fd now).1 = .ok () →
    ∃ key staged, parseRef ref = .ok key ∧ pendingFind after.pending key index = some staged ∧
      registryDigestFromHex (linkDigits (s.own fd)) = some staged.digest
  /-- A job that was not started accepted nothing, and its close does nothing. -/
  idle : ∀ job, (s.plane.fds.getD fd .free).job = some job → job.started = false →
    s.own fd = [] ∧ after = s.plane.registry

variable {now : Option UInt64} {s : Tracked σ}

/-- A close keeps the stages of others. -/
lemma Owned.keepsOthers (owned : Owned s) (fd : Nat) (now : Option UInt64) :
    KeepsOthers sys s fd now := by
  constructor
  · intro notStarter
    refine (@closeEffect_frame σ sys _ (fun job isJob => ?_) s.plane.registry now).stage
    refine Bool.eq_false_iff.mpr fun started => notStarter ?_
    exact ((owned.slots fd (used_of_job isJob)).started job isJob started).1
  intro stage active
  obtain ⟨-, slot, job, isJob, started⟩ := owned.staged stage active
  obtain ⟨starter, _, active', own⟩ :=
    (owned.slots slot (used_of_job isJob)).started job isJob started
  rw [active, Option.some.injEq] at active'
  subst active'
  exact ⟨slot, used_of_job isJob, starter, own.taken⟩

variable {abs : Reading σ ν}

lemma holds_of_present {r : State σ} (digested : Digested sys abs r) {bytes : Bytes}
    (present : Present abs r.resident r.stores (sys.sha256 bytes))
    (collisionFree : Set.InjOn sys.sha256 (heldBytes abs r ∪ {bytes})) :
    Holds abs r (sys.sha256 bytes) bytes := by
  obtain ⟨_, isHeld⟩ := exists_holds present
  have same := collisionFree (.inl ⟨_, isHeld⟩) (.inr rfl) (digested.holds isHeld)
  rw [← same] at isHeld ⊢
  exact isHeld

/-- A write leaves the registry, or makes one request to it that is allowed. -/
lemma regWrite_serves (p : ControlPlane σ) (fd : Nat) (buf : Bytes) (allocated : Bool) :
    (regWrite sys p fd buf allocated).2.registry = p.registry ∨
      ∃ req, Allowed abs True p.registry req ∧
        (serve sys p.registry req).2 = (regWrite sys p fd buf allocated).2.registry := by
  cases isJob : (p.fds.getD fd .free).job with
  | some job =>
    rw [regWrite_job isJob]
    refine .inr ?_
    unfold wantedWrite
    split
    · exact ⟨.write job.plain .next buf, ⟨rfl, fun _ => nofun⟩, rfl⟩
    · exact ⟨.write job.plain (.start job.ref job.layer allocated) buf, ⟨rfl, fun _ => nofun⟩, rfl⟩
  | none =>
    refine .inl ?_
    unfold regWrite
    cases kind : p.fds.getD fd .free with
    | free => rfl
    | reading => rfl
    | install ref started | layer ref index started =>
      rw [kind] at isJob
      cases isJob
    | _ =>
      dsimp only
      split <;> rfl

lemma Owned.close_serves (owned : Owned s) {fd : Nat} (shown : ShownClose abs s (.close fd now)) :
    (regClose sys s.plane fd now).2.registry = s.plane.registry ∨
      ∃ req, Allowed abs True s.plane.registry req ∧
        (serve sys s.plane.registry req).2 = (regClose sys s.plane fd now).2.registry := by
  show (closeEffect sys s.plane.registry now (s.plane.fds.getD fd .free)).2 = _ ∨ ∃ req, _ ∧ _ =
    (closeEffect sys s.plane.registry now (s.plane.fds.getD fd .free)).2
  rcases (s.plane.fds.getD fd .free).started_or_idle with ⟨job, isJob, isStarted⟩ | idle
  · obtain ⟨-, _, active, own⟩ :=
      (owned.slots fd (used_of_job isJob)).started job isJob isStarted
    rw [closeEffect_started isJob isStarted]
    refine .inr ⟨.write job.plain (.finish now) [], ⟨rfl, fun _ key published => ?_⟩, rfl⟩
    simp only [publishes, active, Option.bind_some, own.plain] at published
    rcases RegFd.eq_of_job isJob with ⟨ref, started, kind, rfl⟩ | ⟨ref, index, started, kind, rfl⟩
    · cases published
      refine shown ref ?_ _ own.key
      rewrite [kind, show started = true from isStarted]
      rfl
    · cases published
  · rcases closeEffect_cases idle s.plane.registry now with
      same | ⟨entry, keyId, signature, same⟩ | ⟨ref, payload, count, created, kind, same⟩ |
        ⟨ref, index, digest, same⟩
    · exact .inl same
    · exact .inr ⟨.setSignature entry keyId signature, ⟨rfl, by simp [publishes]⟩, same.symm⟩
    · refine .inr ⟨.commit ref count created now, ⟨rfl, fun _ key published => ?_⟩, same.symm⟩
      refine shown ref ?_ key ?_
      · rewrite [kind]
        rfl
      cases parsed : parseRef ref with
      | error e =>
        rw [publishes, parsed] at published
        cases published
      | ok other =>
        rw [publishes, parsed] at published
        cases published
        rfl
    · exact .inr ⟨.linkLayer ref index digest, ⟨rfl, by simp [publishes]⟩, same.symm⟩

variable [DecidableEq ν]

/-- The books are right and the registry behind the driver is in order. -/
structure InOrder (sys : System σ) (abs : Reading σ ν) (s : Tracked σ) : Prop where
  owned : Owned s
  sound : Sound sys abs True s.plane.registry
  digested : Digested sys abs s.plane.registry

/-- A call is at most one request to the registry. -/
lemma InOrder.call (laws : Contract sys.ops abs) (inOrder : InOrder sys abs s)
    {call : FdCall} (shown : ShownClose abs s call) :
    InOrder sys abs (callFd sys s call).2 := by
  have serves : (callFd sys s call).2.plane.registry = s.plane.registry ∨
      ∃ req, Allowed abs True s.plane.registry req ∧
        (serve sys s.plane.registry req).2 = (callFd sys s call).2.plane.registry := by
    cases call with
    | openWrite path =>
      refine .inl ?_
      rw [callFd]
      split <;> rfl
    | write fd buf allocated => exact regWrite_serves s.plane fd buf allocated
    | close fd now => exact inOrder.owned.close_serves shown
  have owned : Owned (callFd sys s call).2 := inOrder.owned.call call
  rcases serves with same | ⟨req, allowed, served⟩
  · exact ⟨owned, same ▸ inOrder.sound, same ▸ inOrder.digested⟩
  · exact ⟨owned, served ▸ (serve_operates laws inOrder.sound allowed).sound,
      served ▸ serve_digested laws inOrder.sound.loose inOrder.digested req⟩

omit [DecidableEq ν] in
lemma mem_of_pendingFind {pending : List (Option Pending)} {key : Key} {index : Nat}
    {layer : Pending} (found : pendingFind pending key index = some layer) :
    some layer ∈ pending := by
  rw [pendingFind, Option.join_eq_some_iff] at found
  exact List.mem_of_find?_eq_some found

lemma finish_layer (laws : Contract sys.ops abs) {r : State σ}
    (sound : Sound sys abs False r) (ready : r.ready = true) (some_ : r.stores ≠ [])
    {stage : Stage} (active : r.stage = some stage) (notPlain : stage.plain = false)
    (table : 0 < r.pending.length) {plain : Bool}
    (done : succeeded (registryWrite sys r plain (.finish now) []).1 = true) :
    pendingFind (registryWrite sys r plain (.finish now) []).2.pending stage.key stage.layer =
      some (keptLayer sys r stage) := by
  cases stores : r.stores with
  | nil => exact absurd stores some_
  | cons primary others =>
    rcases registryWrite_finish laws sound ready stores active plain now with
      ⟨-, failed, -⟩ | ⟨primary', -, finish⟩
    · rw [exists_error_iff.mp failed] at done
      cases done
    · rw [finish, notPlain]
      exact stageKept_found table primary' stage

lemma link_stages {r after : State σ} (table : 0 < r.pending.length) {ref payload : Bytes}
    {index : Nat} (done : wantedLinkRegistryLayer sys r ref index payload = (.ok (), after)) :
    ∃ key staged, parseRef ref = .ok key ∧ pendingFind after.pending key index = some staged ∧
      registryDigestFromHex (linkDigits payload) = some staged.digest := by
  unfold wantedLinkRegistryLayer at done
  dsimp only at done
  cases named : registryDigestFromHex (linkDigits payload) with
  | none =>
    rw [linkDigits] at named
    rw [named] at done
    cases done
  | some digest =>
    rw [linkDigits] at named
    rw [named] at done
    unfold registryLinkLayer at done
    cases parsed : parseRef ref with
    | error e =>
      rw [parsed] at done
      cases done
    | ok key =>
      rw [parsed] at done
      dsimp only at done
      split at done
      · cases done
      split at done
      · cases done
      rename_i len _
      obtain ⟨-, rfl⟩ := Prod.mk.inj done
      refine ⟨key, ⟨key, index, digest, len, (ensureReady sys r).order + 1⟩, rfl, ?_, rfl⟩
      rw [pendingAdd, dropAllIfFree_only]
      exact pendingFind_added ((ensureReady_frame sys r).table.symm ▸ table)
        ⟨key, index, digest, len, (ensureReady sys r).order + 1⟩

omit [DecidableEq ν] in
lemma InOrder.ready {s : Tracked σ} (inOrder : InOrder sys abs s) {stage : Stage}
    (active : s.plane.registry.stage = some stage) : s.plane.registry.ready = true := by
  cases ready : s.plane.registry.ready with
  | true => rfl
  | false =>
    have none_ := (inOrder.sound.unready ready).1
    rw [active] at none_
    cases none_

lemma InOrder.publishesOwn (laws : Contract sys.ops abs) (inOrder : InOrder sys abs s)
    {fd : Nat} (shown : ShownClose abs s (.close fd now))
    (collisionFree : Set.InjOn sys.sha256
      (heldBytes abs (regClose sys s.plane fd now).2.registry ∪ {s.own fd})) :
    PublishesOwn sys abs s fd now (regClose sys s.plane fd now).2.registry := by
  have after := inOrder.call laws shown
  have sound : Sound sys abs True (regClose sys s.plane fd now).2.registry := after.sound
  have digested : Digested sys abs (regClose sys s.plane fd now).2.registry := after.digested
  have table := inOrder.owned.table
  -- a close of a started job is a finish of the stage of that job
  have finish : ∀ job, (s.plane.fds.getD fd .free).job = some job → job.started = true →
      regClose sys s.plane fd now =
        ((registryWrite sys s.plane.registry job.plain (.finish now) []).1.map fun _ => (),
          ⟨s.plane.fds.set fd .free,
            (registryWrite sys s.plane.registry job.plain (.finish now) []).2⟩) := by
    intro job isJob started
    rw [regClose, closeEffect_started isJob started]
  -- and the stage of an image ends in a refusal or in a record of its bytes
  have install : ∀ ref, s.plane.fds.getD fd .free = .install ref true →
      ∃ stage, (s.plane.fds.getD fd .free).job = some ⟨true, ref, 0, true⟩ ∧
        parseRef ref = .ok stage.key ∧ stage.taken = s.own fd ∧
        Writing sys abs s.plane.registry s.plane.registry ∧
        s.plane.registry.stage = some stage := by
    intro ref kind
    have isJob : (s.plane.fds.getD fd .free).job = some ⟨true, ref, 0, true⟩ := by
      rewrite [kind]
      rfl
    obtain ⟨-, stage, active, own⟩ :=
      (inOrder.owned.slots fd (used_of_job isJob)).started _ isJob rfl
    exact ⟨stage, isJob, own.key, own.taken, ⟨inOrder.sound.loose, inOrder.ready active,
      (inOrder.owned.staged stage active).1, ⟨stage, active, own.plain, own.layer⟩, .refl _⟩,
      active⟩
  refine ⟨?_, ?_, ?_, ?_, ?_⟩
  · intro ref kind done
    obtain ⟨stage, isJob, parsed, taken, writing, active⟩ := install ref kind
    rw [finish _ isJob rfl] at done sound digested collisionFree ⊢
    rcases writing.finish_cases laws table active now with
      ⟨-, failed, -⟩ | ⟨-, -, record, bytes, layers, encoded, put⟩
    · have answered := congrArg succeeded done
      rw [succeeded_map, failed] at answered
      cases answered
    · have installed : entryOf sys.cfg (recordsOf abs (registryWrite sys s.plane.registry true
          (.finish now) []).2.stores) (abs.recName stage.key) = some record :=
        entryOf_of_encode encoded (by rw [put, Function.update_self])
      have read := (readMeta_of_entryOf laws sound.stores.good installed).1
      rw [taken] at layers
      exact ⟨stage.key, parsed,
        (isImage_single_iff laws sound digested read layers collisionFree _).mpr rfl⟩
  · intro ref e kind failed
    obtain ⟨stage, isJob, -, -, writing, active⟩ := install ref kind
    rw [finish _ isJob rfl] at failed ⊢
    rcases writing.finish_cases laws table active now with
      ⟨-, -, records⟩ | ⟨-, done, -⟩
    · exact records
    · have answered := congrArg succeeded failed
      rw [succeeded_map, done] at answered
      cases answered
  · intro ref index kind done
    have isJob : (s.plane.fds.getD fd .free).job = some ⟨false, ref, index, true⟩ := by
      rewrite [kind]
      rfl
    obtain ⟨-, stage, active, own⟩ :=
      (inOrder.owned.slots fd (used_of_job isJob)).started _ isJob rfl
    rw [finish _ isJob rfl] at done sound digested collisionFree ⊢
    have answered := congrArg succeeded done
    rw [succeeded_map] at answered
    have staged := finish_layer laws inOrder.sound.loose (inOrder.ready active)
      (inOrder.owned.staged stage active).1 active own.plain table answered
    rw [own.layer] at staged
    refine ⟨stage.key, keptLayer sys s.plane.registry stage, own.key, staged, ?_⟩
    have pended := sound.pended trivial _ (mem_of_pendingFind staged)
    rw [show s.own fd = stage.taken from own.taken.symm] at collisionFree ⊢
    exact holds_of_present digested pended collisionFree
  · intro ref index payload kind nonempty done
    have used : s.plane.fds.getD fd .free ≠ .free := by
      rw [kind]
      simp
    have own : payload = s.own fd := (inOrder.owned.slots fd used).payload payload (by
      rewrite [kind]
      rfl)
    have effect : closeEffect sys s.plane.registry now (.link ref index payload) =
        wantedLinkRegistryLayer sys s.plane.registry ref index payload := by
      rw [closeEffect, if_neg nonempty]
    rw [regClose, kind, effect] at done ⊢
    rw [← own]
    exact link_stages table (Prod.ext done rfl)
  · intro job isJob waiting
    refine ⟨(inOrder.owned.slots fd (used_of_job isJob)).waiting job isJob waiting, ?_⟩
    refine closeEffect_quiet ?_ _ _
    rcases RegFd.eq_of_job isJob with ⟨ref, started, kind, rfl⟩ | ⟨ref, index, started, kind, rfl⟩
    · rw [kind]
      exact waiting
    · rw [kind]
      exact waiting

/-- For every sequence of opens, writes and closes of descriptors of the registry driver: a close does
not touch a stage that another descriptor started, and in every sequence whose closes publish under
references that a listing shows, what a close publishes are exactly the bytes accepted on its
descriptor. -/
theorem close_publishes_own (laws : Contract sys.ops abs) {registry : State σ}
    (sound : Sound sys abs True registry) (digested : Digested sys abs registry)
    (noStage : registry.stage = none) (table : 0 < registry.pending.length) (calls : List FdCall)
    (fd : Nat) (now : Option UInt64) :
    KeepsOthers sys ((fdMachine sys).exec (idleDriver registry) calls) fd now ∧
      ((fdMachine sys).Obeys (ShownClose abs) (idleDriver registry) (calls ++ [.close fd now]) →
        Set.InjOn sys.sha256
          (heldBytes abs (regClose sys ((fdMachine sys).exec (idleDriver registry) calls).plane fd
            now).2.registry ∪ {((fdMachine sys).exec (idleDriver registry) calls).own fd}) →
        PublishesOwn sys abs ((fdMachine sys).exec (idleDriver registry) calls) fd now
          (regClose sys ((fdMachine sys).exec (idleDriver registry) calls).plane fd
            now).2.registry) := by
  have owned := idleDriver_owned noStage table
  refine ⟨(exec_owned owned calls).keepsOthers fd now, fun obeyed collisionFree => ?_⟩
  rw [Machine.obeys_append] at obeyed
  have inOrder := (fdMachine sys).exec_invariant (InOrder sys abs)
      (fun _ _ inOrder shown => inOrder.call laws shown) ⟨owned, sound, digested⟩ obeyed.1
  exact inOrder.publishesOwn laws obeyed.2.1 collisionFree

/-! ### Examples -/

/-- Two descriptors are written in turn: the first chunk of the second is refused while the first
one writes. -/
def interleavedCalls : List FdCall :=
  [.openWrite (imagePath (ascii "app:1")), .openWrite (imagePath (ascii "lib:1#0")),
    .write 0 [7] true, .write 1 [9] true, .write 0 [8] true]

/-- The close of the first descriptor installs `app:1` as the two chunks written to it. -/
theorem close_publishes_app : ∃ key, parseRef (ascii "app:1") = .ok key ∧ IsImage sample wide
      (regClose sample ((fdMachine sample).exec (idleDriver (sampleRegistry []))
        interleavedCalls).plane 0 none).2.registry key [[7, 8]] := by
  have own : ((fdMachine sample).exec (idleDriver (sampleRegistry []))
      interleavedCalls).own 0 = [7, 8] := by decide +kernel
  have accepted : Accepted ⟨ascii "app", ascii "1"⟩ := ⟨by decide, by decide⟩
  have publishes := (close_publishes_own sampleContract (sampleRegistry_sound True [])
    (sampleRegistry_digested (List.forall_mem_nil _)) rfl (by decide) interleavedCalls 0 none).2 ?_ ?_
  · rw [← own]
    exact publishes.image (ascii "app:1") (by decide +kernel) (by decide +kernel)
  · refine ⟨trivial, trivial, trivial, trivial, trivial, ?_, trivial⟩
    intro ref isRef key parsed
    have isApp : ref = ascii "app:1" := by
      have published : (((fdMachine sample).exec (idleDriver (sampleRegistry []))
          interleavedCalls).plane.fds.getD 0 .free).publishedRef = some (ascii "app:1") := by
        decide +kernel
      exact Option.some.inj (isRef.symm.trans published)
    rw [isApp] at parsed
    cases parsed
    exact (page_listable_iff accepted).mpr (by decide)
  · rw [own]
    have held := @heldBytes_among wideConfig (regClose sample ((fdMachine sample).exec
      (idleDriver (sampleRegistry [])) interleavedCalls).plane 0 none).2.registry
      (by decide +kernel) [[7, 8]] (by decide +kernel)
    refine Set.Subsingleton.injOn (Set.Subsingleton.anti (t := {[7, 8]}) Set.subsingleton_singleton ?_) _
    exact Set.union_subset (fun bytes isHeld => List.mem_singleton.mp (held bytes isHeld)) subset_rfl

/-- An image is installed under a name with an underscore, and the same bytes are written to a second
descriptor of it. -/
def repeatedCalls : List FdCall :=
  [.openWrite (imagePath (ascii "_app:1")), .write 0 [7] true, .close 0 none,
    .openWrite (imagePath (ascii "_app:1")), .write 0 [7] true]

/-- The close of the second descriptor answers success, and the registry holds nothing after it: the
bytes that were accepted are gone, and the entry cannot be loaded. -/
theorem close_loses_bytes :
    ((fdMachine sample).exec (idleDriver (sampleRegistry [])) repeatedCalls).own 0 = [7] ∧
    (regClose sample ((fdMachine sample).exec (idleDriver (sampleRegistry []))
      repeatedCalls).plane 0 none).1 = .ok () ∧
    heldBytes wide (regClose sample ((fdMachine sample).exec
      (idleDriver (sampleRegistry [])) repeatedCalls).plane 0 none).2.registry = ∅ ∧
    loadedBytes (registryMapLayers sample (regClose sample
      ((fdMachine sample).exec (idleDriver (sampleRegistry [])) repeatedCalls).plane 0
      none).2.registry ⟨ascii "_app", ascii "1"⟩).1 = none :=
  ⟨by decide +kernel, by decide +kernel,
    heldBytes_empty (by decide +kernel) (by decide +kernel), by decide +kernel⟩

end WantedEngine.Registry
