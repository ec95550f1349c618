import WantedEngine.Errno
/-!
# The supervisor image

The part of `wanted.c` that decides which image the supervisor runs: the reload and rollback
flags, the health observations of the run loop and the load of the image with its fall-back
to the compiled-in one. What the platform and the registry answer during a load comes in as
an `Images` value; the mapped layers are kept as the image they came from.
-/
namespace WantedEngine.Lifecycle

def supervisorHealthyTicks : Nat := 10

def maxSupervisorLaunchFailures : Nat := 3

/-- A `wapp_t`: its identity as an allocation and the name it was launched under. -/
structure Wapp where
  /-- The allocation; two wapps are the same pointer when their numbers agree. -/
  id : Nat
  name : Bytes
  deriving DecidableEq

inductive Image where
  /-- The compiled-in image. -/
  | builtin
  /-- The configured image, from the registry or from a platform path. -/
  | staged
  deriving DecidableEq

structure Images where
  /-- Whether the configuration names an image other than the compiled-in one. -/
  configured : Bool
  /-- `bundledSupervisorIsNewer` of the configured image. -/
  bundledNewer : Bool
  /-- Whether the configured image loads (and passes the verify gate). -/
  stagedLoads : Bool
  builtinLoads : Bool
  deriving DecidableEq

/-- The statics of the supervisor: the wapp, its layers and the reload state. -/
structure Supervisor where
  /-- The supervisor's wapp, once the first call made it. -/
  wapp : Option Wapp
  /-- The image whose layers are mapped, if a load succeeded. -/
  layers : Option Image
  /-- `supervisorReloadArmed`. -/
  reloadArmed : Bool
  /-- `supervisorPinBuiltin`. -/
  pinBuiltin : Bool
  /-- `supervisorRanBuiltin`: whether the last load took the compiled-in image. -/
  ranBuiltin : Bool
  /-- Consecutive running observations, up to the healthy span. -/
  healthyTicks : Nat
  /-- Suspect endings in a row. -/
  failures : Nat
  deriving DecidableEq

/-- `supervisorImagePath` with the firmware's own image preferred when it is newer. -/
def supervisorImage (images : Images) (sup : Supervisor) : Image :=
  if sup.pinBuiltin then .builtin
  else if ¬ images.configured then .builtin
  else if images.bundledNewer then .builtin
  else .staged

/-- `loadSupervisorImage`: load the chosen image and fall back to the compiled-in one; a
failed load leaves no layers. -/
def loadSupervisorImage (images : Images) (sup : Supervisor) : Supervisor :=
  match supervisorImage images sup with
  | .builtin =>
    { sup with
      ranBuiltin := true
      layers := if images.builtinLoads then some .builtin else none }
  | .staged =>
    if images.stagedLoads then { sup with ranBuiltin := false, layers := some .staged }
    else
      { sup with
        ranBuiltin := true
        layers := if images.builtinLoads then some .builtin else none }

def wantedSupervisorReload (sup : Supervisor) : Supervisor := { sup with reloadArmed := true }

/-- `WantedSupervisorRollback`: false when the compiled-in image is already pinned. -/
def wantedSupervisorRollback (sup : Supervisor) : Bool × Supervisor :=
  if sup.pinBuiltin then (false, sup)
  else (true, { sup with pinBuiltin := true, reloadArmed := true })

/-- `supervisorStaged`: whether a rollback has somewhere to go. -/
def supervisorStaged (sup : Supervisor) : Bool := !sup.pinBuiltin && !sup.ranBuiltin

/-- `supervisorHealth_t`. -/
inductive Health where
  | healthy | respawn | rolledBack | unrecoverable
  deriving DecidableEq

def wantedSupervisorObserve (running failed exited : Bool) (sup : Supervisor) : Health × Supervisor :=
  if running then
    let ticks := if sup.healthyTicks < supervisorHealthyTicks then sup.healthyTicks + 1
      else sup.healthyTicks
    (.healthy,
      { sup with
        healthyTicks := ticks
        failures := if ticks ≥ supervisorHealthyTicks then 0 else sup.failures })
  else
    let suspect := failed ||
      (exited && supervisorStaged sup && decide (sup.healthyTicks < supervisorHealthyTicks))
    let sup := { sup with healthyTicks := 0 }
    if ¬ suspect then (.respawn, { sup with failures := 0 })
    else if sup.failures + 1 < maxSupervisorLaunchFailures then
      (.respawn, { sup with failures := sup.failures + 1 })
    else
      let (rolled, sup) := wantedSupervisorRollback { sup with failures := 0 }
      (if rolled then .rolledBack else .unrecoverable, sup)

/-- An observation does not make, replace or unload the supervisor. -/
lemma wantedSupervisorObserve_wapp (running failed exited : Bool) (sup : Supervisor) :
    (wantedSupervisorObserve running failed exited sup).2.wapp = sup.wapp := by
  unfold wantedSupervisorObserve wantedSupervisorRollback
  split
  · rfl
  dsimp only
  split
  · rfl
  split
  · rfl
  · split <;> rfl

lemma wantedSupervisorObserve_healthy (running failed exited : Bool) (sup : Supervisor) :
    (wantedSupervisorObserve running failed exited sup).1 = .healthy ↔ running = true := by
  unfold wantedSupervisorObserve
  cases running with
  | true => simp
  | false =>
    simp only [Bool.false_eq_true, ↓reduceIte]
    split
    · simp
    split
    · simp
    · split <;> simp

end WantedEngine.Lifecycle
