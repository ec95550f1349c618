import WantedEngine.Lifecycle.Slots
import WantedEngine.Registry.ReadBack
/-!
# The name and version of the supervisor

The control plane shows the `image` and `version` of the supervisor's wapp. `RegistryLoad` stamps both
from the entry that it resolved, `PlatformWappLoad` sets neither, and `loadSupervisorImage` stamps the
bundled version of the compiled-in image only where the version is empty. The wapp is one structure for
all loads, so what a registry image left stays when the compiled-in image takes its place
(`supervisor_named`, `rollback_keeps_name`).
-/
namespace WantedEngine.Lifecycle

open Foundation Registry

/-- Where the layers of the supervisor come from. -/
inductive Source where
  | builtin
  /-- A platform path other than that of the compiled-in image. -/
  | path
  /-- The entry that `RegistryLoad` resolved. -/
  | registry (key : Key)
  deriving DecidableEq

/-- The engine with the `image` and `version` of the supervisor's wapp. -/
structure Stamped where
  engine : State
  fields : Entry
  /-- The image whose layers are loaded. -/
  loaded : Option Source
  /-- The images that were loaded so far, also those that the gate refused, newest first. -/
  log : List Source

inductive Event where
  /-- `WantedGetCurrentSupervisor`. `resolved` is what `RegistryLoad` resolves the configured image to,
  if it is a registry reference and can be loaded; the gate may refuse it after that. -/
  | current (images : Images) (resolved : Option Key)
  /-- `WantedSupervisorReload`. -/
  | reload
  /-- `WantedSupervisorRollback`. -/
  | rollback
  /-- `WantedSupervisorObserve`. -/
  | observe (running failed exited : Bool)

/-- The image that a load takes. -/
def loadedSource (images : Images) (sup : Supervisor) (resolved : Option Key) : Option Source :=
  (loadSupervisorImage images sup).layers.map fun
    | .builtin => .builtin
    | .staged => resolved.elim .path .registry

/-- What `loadSupervisorImage` does to the fields: a registry reference is tried unless the compiled-in
image is chosen at once. -/
def stamp (bundled : Bytes) (images : Images) (resolved : Option Key) (s : Stamped) : Stamped :=
  let resolved := if supervisorImage images s.engine.sup = .staged then resolved else none
  let loaded := loadedSource images s.engine.sup resolved
  let fields := resolved.elim s.fields entryOfKey
  { s with
    fields :=
      if loaded = some .builtin ∧ fields.version = [] then
        { fields with version := bundled.take (wappMaxVersionLen - 1) }
      else fields
    loaded
    log := loaded.toList ++ (resolved.map Source.registry).toList ++ s.log }

def supervise (bundled : Bytes) (s : Stamped) : Event → Stamped
  | .current images resolved =>
    let loads := s.engine.sup.wapp = none ∨ s.engine.sup.reloadArmed = true
    { (if loads then stamp bundled images resolved s else s) with
      engine := (wantedGetCurrentSupervisor images s.engine).2 }
  | .reload => { s with engine.sup := wantedSupervisorReload s.engine.sup }
  | .rollback => { s with engine.sup := (wantedSupervisorRollback s.engine.sup).2 }
  | .observe running failed exited =>
    { s with engine.sup := (wantedSupervisorObserve running failed exited s.engine.sup).2 }

def supervisorMachine (bundled : Bytes) : Machine Stamped Event Unit :=
  ⟨fun s event => ((), supervise bundled s event)⟩

/-- The engine before the first call, with the wapp's fields zeroed. -/
def unstamped (maxWapps : Nat) : Stamped := ⟨idle maxWapps, ⟨[], []⟩, none, []⟩

/-- The fields of an image: a registry entry's own, the bundled version of the compiled-in image, none
for a path. -/
def Source.fields (bundled : Bytes) : Source → Entry
  | .builtin => ⟨[], bundled⟩
  | .path => ⟨[], []⟩
  | .registry key => ⟨key.name, key.version⟩

/-- The fields name the image that is loaded. -/
def Stamped.Named (bundled : Bytes) (s : Stamped) : Prop :=
  ∀ source, s.loaded = some source → s.fields = source.fields bundled

/-- An entry that is loaded is shown whole, and an image that does not set the fields is loaded before
any that does. -/
def Stamped.Fresh (s : Stamped) : Prop :=
  match s.loaded with
  | none => True
  | some .builtin => ∀ source ∈ s.log, source = .builtin ∨ source = .path
  | some .path => ∀ source ∈ s.log, source = .path
  | some (.registry key) => entryOfKey key = ⟨key.name, key.version⟩

/-- Whether a call of `WantedGetCurrentSupervisor` loads an image: the first one, and one that finds a
reload armed. -/
def Stamped.Loads (s : Stamped) : Prop := s.engine.sup.wapp = none ∨ s.engine.sup.reloadArmed = true

/-- What a call that loads asks of the images so far and of the answers it gets. A configured image that
loads is an entry that fits the fields, or a path before any other kind of image. A compiled-in image that
loads, also in the place of a configured one, comes before any registry entry, also one that the gate
refuses now. -/
def Stamped.Admits (s : Stamped) : Event → Prop
  | .current images resolved =>
    let staged := supervisorImage images s.engine.sup = .staged
    s.Loads →
      (staged → images.stagedLoads = true →
        (∀ key ∈ resolved, FitsEntry key) ∧ (resolved = none → ∀ source ∈ s.log, source = .path)) ∧
      (¬ (staged ∧ images.stagedLoads = true) → images.builtinLoads = true →
        (staged → resolved = none) ∧ ∀ source ∈ s.log, source = .builtin ∨ source = .path)
  | _ => True

/-- The fields name what is loaded, and show at most the bundled version until an entry is. -/
structure Tracked (bundled : Bytes) (s : Stamped) : Prop where
  named : s.Named bundled
  unnamed : (∀ source ∈ s.log, source = .builtin ∨ source = .path) →
    s.fields.name = [] ∧ (s.fields.version = [] ∨ .builtin ∈ s.log ∧ s.fields.version = bundled)

variable {bundled : Bytes} {s : Stamped}

lemma loadedSource_cases (images : Images) (sup : Supervisor) (resolved : Option Key) :
    loadedSource images sup resolved = none ∨ loadedSource images sup resolved = some .builtin ∨
      loadedSource images sup resolved = some (resolved.elim .path .registry) := by
  unfold loadedSource
  rcases (loadSupervisorImage images sup).layers with _ | _ | _
  · exact .inl rfl
  · exact .inr (.inl rfl)
  · exact .inr (.inr rfl)

/-- A load that gets what it asks for is fresh. -/
lemma stamp_fresh {images : Images} {resolved : Option Key} (loads : s.Loads)
    (admits : s.Admits (.current images resolved)) : (stamp bundled images resolved s).Fresh := by
  obtain ⟨configured, compiled⟩ := admits loads
  unfold stamp loadedSource loadSupervisorImage
  cases image : supervisorImage images s.engine.sup with
  | builtin =>
    cases loads : images.builtinLoads with
    | false => trivial
    | true => simpa [image, Stamped.Fresh] using (compiled (by simp [image]) loads).2
  | staged =>
    cases staged : images.stagedLoads with
    | true =>
      obtain ⟨fits, paths⟩ := configured image staged
      cases resolved with
      | none => simpa [Stamped.Fresh] using paths rfl
      | some key => exact entryOfKey_of_fits (fits key rfl)
    | false =>
      cases loads : images.builtinLoads with
      | false => trivial
      | true =>
        obtain ⟨none_, images⟩ := compiled (by simp [staged]) loads
        cases none_ image
        simpa [Stamped.Fresh] using images

/-- A load keeps the fields in step with the image. -/
lemma Tracked.stamp (tracked : Tracked bundled s) (short : bundled.length < wappMaxVersionLen)
    (images : Images) (resolved : Option Key) (fresh : (stamp bundled images resolved s).Fresh) :
    Tracked bundled (stamp bundled images resolved s) := by
  have whole := List.take_of_length_le (Nat.le_sub_one_of_lt short)
  unfold Lifecycle.stamp at fresh ⊢
  dsimp only at fresh ⊢
  generalize (if supervisorImage images s.engine.sup = .staged then resolved else none) = resolved
    at fresh ⊢
  have cases_ := loadedSource_cases images s.engine.sup resolved
  generalize loadedSource images s.engine.sup resolved = loaded at fresh cases_ ⊢
  cases resolved with
  | some key =>
    have stamped : ∀ others, ¬ ∀ source ∈ others ++ [Source.registry key] ++ s.log,
        source = .builtin ∨ source = .path := fun others all => by
      simpa using all (.registry key) (by simp)
    refine ⟨?_, fun all => absurd all (stamped _)⟩
    rcases cases_ with rfl | rfl | rfl
    · exact nofun
    · -- the gate refused the entry after it had stamped the fields
      exact absurd fresh (stamped _)
    · rintro _ ⟨⟩
      exact fresh
  | none =>
    obtain ⟨engine, ⟨_, version⟩, _, log⟩ := s
    obtain ⟨-, unnamed⟩ := tracked
    rcases cases_ with rfl | rfl | rfl
    · exact ⟨nofun, unnamed⟩
    · obtain ⟨rfl, empty⟩ := unnamed fun source mem => fresh source (by simp [mem])
      have same : (if some Source.builtin = some .builtin ∧ version = [] then
          (⟨[], bundled.take (wappMaxVersionLen - 1)⟩ : Entry) else ⟨[], version⟩) =
          ⟨[], bundled⟩ := by
        rcases empty with rfl | ⟨-, rfl⟩
        · rw [whole, if_pos ⟨rfl, rfl⟩]
        · rw [whole, ite_self]
      refine ⟨?_, fun _ => same ▸ ⟨rfl, .inr ⟨List.mem_cons_self, rfl⟩⟩⟩
      rintro _ ⟨⟩
      exact same
    · have paths : ∀ source ∈ log, source = .path := fun source mem => fresh source (by simp [mem])
      obtain ⟨rfl, empty | ⟨stamped, -⟩⟩ := unnamed fun source mem => .inr (paths source mem)
      · cases empty
        refine ⟨?_, fun _ => ⟨rfl, .inl rfl⟩⟩
        rintro _ ⟨⟩
        rfl
      · cases paths _ stamped

/-- Every event keeps the fields in step. -/
lemma supervise_tracked (short : bundled.length < wappMaxVersionLen) (tracked : Tracked bundled s)
    {event : Event} (admits : s.Admits event) : Tracked bundled (supervise bundled s event) := by
  cases event with
  | current images resolved =>
    by_cases loads : s.engine.sup.wapp = none ∨ s.engine.sup.reloadArmed = true
    · simp only [supervise, if_pos loads]
      have after := tracked.stamp short images resolved (stamp_fresh loads admits)
      exact ⟨after.named, after.unnamed⟩
    · simp only [supervise, if_neg loads]
      exact ⟨tracked.named, tracked.unnamed⟩
  | reload | rollback | observe => exact ⟨tracked.named, tracked.unnamed⟩

/-- In every history of loads, reloads, rollbacks and observations in which each load gets what it asks
for: whenever an image is loaded, the fields are those of the image. -/
theorem supervisor_named (short : bundled.length < wappMaxVersionLen) (maxWapps : Nat)
    {events : List Event}
    (admits : (supervisorMachine bundled).Obeys Stamped.Admits (unstamped maxWapps) events) :
    ((supervisorMachine bundled).exec (unstamped maxWapps) events).Named bundled := by
  have start : Tracked bundled (unstamped maxWapps) := ⟨nofun, fun _ => ⟨rfl, .inl rfl⟩⟩
  exact ((supervisorMachine bundled).exec_invariant (Tracked bundled)
    (fun _ _ tracked admits => supervise_tracked short tracked admits) start admits).named

/-- An engine that is configured to run the image `registry:sup`, of which version 2 is installed. -/
def loadsSup : Event := .current ⟨true, false, true, true⟩ (some ⟨ascii "sup", ascii "2"⟩)

theorem supervisor_named_reload :
    ((supervisorMachine (ascii "1.4")).exec (unstamped 4) [loadsSup, .reload, loadsSup]).loaded =
      some (.registry ⟨ascii "sup", ascii "2"⟩) ∧
    ((supervisorMachine (ascii "1.4")).exec (unstamped 4) [loadsSup, .reload, loadsSup]).Named
      (ascii "1.4") :=
  have fits {s : Stamped} (staged : supervisorImage ⟨true, false, true, true⟩ s.engine.sup = .staged) :
      s.Admits loadsSup :=
    fun _ => ⟨fun _ _ => ⟨by decide, by simp⟩, fun refused => absurd ⟨staged, rfl⟩ refused⟩
  ⟨by decide, supervisor_named (by decide) 4 ⟨fits rfl, trivial, fits rfl, trivial⟩⟩

/-- After a rollback the compiled-in image runs under the name and the version of the image that was
given up. -/
theorem rollback_keeps_name :
    ((supervisorMachine (ascii "1.4")).exec (unstamped 4) [loadsSup, .rollback, loadsSup]).loaded =
      some .builtin ∧
    ((supervisorMachine (ascii "1.4")).exec (unstamped 4) [loadsSup, .rollback, loadsSup]).fields =
      ⟨ascii "sup", ascii "2"⟩ := by
  decide

/-! ### What a rollback answers -/

/-- `rollback-supervisor` answers `-EALREADY` iff the compiled-in image is loaded. -/
def AnswersByImage (sup : Supervisor) : Prop :=
  (wantedSupervisorRollback sup).1 = false ↔ sup.layers = some .builtin

/-- A call that loads takes the image that is asked for: the compiled-in one once it is pinned, the configured one
until then. -/
def LoadsAsked (s : Stamped) : Event → Prop
  | .current images _ => s.Loads → (loadSupervisorImage images s.engine.sup).layers =
      some (if s.engine.sup.pinBuiltin = true then .builtin else .staged)
  | _ => True

/-- The compiled-in image is loaded where it is pinned only, and where it is pinned it is loaded or the
reload is still armed. -/
def Pinned (sup : Supervisor) : Prop :=
  (sup.layers = some .builtin → sup.pinBuiltin = true) ∧
    (sup.pinBuiltin = true → sup.layers = some .builtin ∨ sup.reloadArmed = true)

lemma Pinned.rollback {sup : Supervisor} (pinned : Pinned sup) :
    Pinned (wantedSupervisorRollback sup).2 := by
  rw [wantedSupervisorRollback]
  split
  · exact pinned
  · exact ⟨fun _ => rfl, fun _ => .inr rfl⟩

/-- What a load takes depends on the pin and on what there is to load. -/
lemma Pinned.load {images : Images} {sup other : Supervisor}
    (asked : (loadSupervisorImage images sup).layers =
      some (if sup.pinBuiltin = true then .builtin else .staged))
    (pin : other.pinBuiltin = sup.pinBuiltin) : Pinned (loadSupervisorImage images other) := by
  have same : (loadSupervisorImage images other).layers = (loadSupervisorImage images sup).layers ∧
      (loadSupervisorImage images other).pinBuiltin = sup.pinBuiltin := by
    simp only [loadSupervisorImage, supervisorImage, pin]
    split
    · exact ⟨rfl, rfl⟩
    · split <;> exact ⟨rfl, rfl⟩
  rw [Pinned, same.1, same.2, asked]
  cases sup.pinBuiltin with
  | true => exact ⟨fun _ => rfl, fun _ => .inl rfl⟩
  | false => exact ⟨nofun, nofun⟩

/-- Every event keeps the pin in step with the image. -/
lemma supervise_pinned (s : Stamped) (event : Event) (pinned : Pinned s.engine.sup)
    (asked : LoadsAsked s event) : Pinned (supervise bundled s event).engine.sup := by
  cases event with
  | current images resolved =>
    simp only [supervise, wantedGetCurrentSupervisor]
    split
    · split
      · rename_i armed
        exact Pinned.load (asked (.inr armed)) rfl
      · exact pinned
    · rename_i first
      exact Pinned.load (asked (.inl first)) rfl
  | reload => exact ⟨pinned.1, fun _ => .inr rfl⟩
  | rollback => exact pinned.rollback
  | observe running failed exited =>
    simp only [supervise, wantedSupervisorObserve]
    split
    · exact pinned
    split
    · exact pinned
    split
    · exact pinned
    · exact Pinned.rollback ⟨pinned.1, pinned.2⟩

/-- In every history in which each load takes the image that is asked for, `rollback-supervisor` answers
by the image that is loaded, unless a rollback still waits for its reload. -/
theorem rollback_answers_image (maxWapps : Nat) {events : List Event}
    (asked : (supervisorMachine bundled).Obeys LoadsAsked (unstamped maxWapps) events)
    (applied : ((supervisorMachine bundled).exec (unstamped maxWapps) events).engine.sup.pinBuiltin =
      true → ((supervisorMachine bundled).exec (unstamped maxWapps) events).engine.sup.reloadArmed =
      false) :
    AnswersByImage ((supervisorMachine bundled).exec (unstamped maxWapps) events).engine.sup := by
  have start : Pinned (unstamped maxWapps).engine.sup := ⟨nofun, nofun⟩
  have pinned := (supervisorMachine bundled).exec_invariant (fun s => Pinned s.engine.sup)
    supervise_pinned start asked
  generalize ((supervisorMachine bundled).exec (unstamped maxWapps) events).engine.sup = sup at *
  rw [AnswersByImage, wantedSupervisorRollback]
  cases pin : sup.pinBuiltin with
  | true =>
    have loaded := (pinned.2 pin).resolve_right (by simp [applied pin])
    exact iff_of_true rfl loaded
  | false => exact iff_of_false nofun fun loaded => by simp [pinned.1 loaded] at pin

theorem rollback_answers_image_twice :
    (wantedSupervisorRollback ((supervisorMachine (ascii "1.4")).exec (unstamped 4)
      [loadsSup, .rollback, loadsSup]).engine.sup).1 = false ∧
    AnswersByImage ((supervisorMachine (ascii "1.4")).exec (unstamped 4)
      [loadsSup, .rollback, loadsSup]).engine.sup :=
  ⟨by decide, rollback_answers_image 4 ⟨fun _ => rfl, trivial, fun _ => rfl, trivial⟩ fun _ => rfl⟩

/-- The configured image does not load and the compiled-in one runs in its place: a rollback is accepted.
And a second rollback is refused while the configured image still runs. -/
theorem rollback_answers_pin :
    let fallen := ((supervisorMachine (ascii "1.4")).exec (unstamped 4)
      [.current ⟨true, false, false, true⟩ none]).engine.sup
    let rolled := ((supervisorMachine (ascii "1.4")).exec (unstamped 4)
      [loadsSup, .rollback]).engine.sup
    fallen.layers = some .builtin ∧ (wantedSupervisorRollback fallen).1 = true ∧
      rolled.layers = some .staged ∧ (wantedSupervisorRollback rolled).1 = false := by
  decide

end WantedEngine.Lifecycle
