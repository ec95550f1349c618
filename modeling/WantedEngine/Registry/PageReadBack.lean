import WantedEngine.Registry.PageContract
import WantedEngine.Registry.PageFrame
/-!
# Reading back a staged blob

What was handed to a stage in any chunks, with other calls of the store in between, is what a mapping of
the blob shows once the stage has ended, after any calls that do not drop the blob, restarts among
them (`staged_blob_maps`).
-/
namespace WantedEngine.Registry.Page

open Foundation

/-- The bytes that a call hands to the stage, none for a call that opens or closes one and for an
adoption. -/
def PageRequest.staged : PageRequest → Option Bytes
  | .stageWrite buf => some buf
  | .blobMap _ _ | .blobUnmap _ | .blobDrop _ | .recPut _ _ | .recDel _ => some []
  | .stageBegin | .stageEnd _ _ | .stageAbort | .adopt _ _ _ | .init => none

/-- An open stage holds the bytes that were handed to it, unless a write failed. -/
def HoldsStaged (cfg : PageConfig) (s : PageStore) (data : Bytes) : Prop :=
  s.stage.active = true → s.stage.failed = false → stageBytes cfg s.disk.flash s.stage = data

variable {cfg : PageConfig} (host : Host) {s : PageStore} {data : Bytes} {digest : Digest}

lemma HoldsStaged.of_same {after : PageStore} (holds : HoldsStaged cfg s data)
    (stage : after.stage = s.stage) (flash : after.disk.flash = s.disk.flash) :
    HoldsStaged cfg after (data ++ []) := by
  rw [List.append_nil, HoldsStaged, stage, flash]
  exact holds

variable (ok : PageOk cfg s)
include ok

lemma next_holds (holds : HoldsStaged cfg s data) {req : PageRequest} {more : Bytes}
    (hands : req.staged = some more) (permitted : Permitted cfg host s req) :
    HoldsStaged cfg ((pageMachine cfg host).next s req) (data ++ more) := by
  cases req with
  | stageWrite buf =>
    obtain ⟨active, sound⟩ := permitted.1 rfl
    obtain ⟨-, -, -, out⟩ := stageWrite_ok host ok active sound buf rfl
    rw [← holds active sound, ← Option.some.inj hands]
    intro _ stillSound
    split at out
    · cases Bool.false_ne_true (stillSound.symm.trans out)
    · exact out.2.2
  | blobMap digest len =>
    cases hands
    obtain ⟨_, only⟩ := blobMap_only cfg host s digest len
    rw [show (pageMachine cfg host).next s (.blobMap digest len) = _ from only]
    exact holds.of_same rfl rfl
  | blobUnmap map =>
    cases hands
    exact holds.of_same rfl rfl
  | blobDrop digest =>
    cases hands
    obtain ⟨-, stage, -, disk⟩ := blobDrop_cases host ok digest
    have flash : (blobDrop cfg host s digest).2.disk.flash = s.disk.flash := by
      rcases disk with same | erased
      · rw [same]
      · rw [erased]
    exact holds.of_same stage flash
  | recPut key record =>
    cases hands
    have call := (recPut_cases cfg host s key record).1
    exact holds.of_same call.stage call.flash
  | recDel key =>
    cases hands
    have call := (recDel_cases cfg host s key).1
    exact holds.of_same call.stage call.flash
  | stageBegin | stageEnd | stageAbort | adopt | init => cases hands

lemma exec_holds (holds : HoldsStaged cfg s data) {reqs : List PageRequest}
    {chunks : List Bytes} (hands : reqs.map PageRequest.staged = chunks.map some)
    (permitted : (pageMachine cfg host).Obeys (Permitted cfg host) s reqs) :
    HoldsStaged cfg ((pageMachine cfg host).exec s reqs) (data ++ chunks.flatten) := by
  induction reqs generalizing s data chunks with
  | nil =>
    cases chunks with
    | nil => exact holds.of_same rfl rfl
    | cons => cases hands
  | cons req rest ih =>
    cases chunks with
    | nil => cases hands
    | cons chunk others =>
      obtain ⟨now, later⟩ := List.cons.inj hands
      have next := next_holds host ok holds now permitted.1
      rw [List.flatten_cons, ← List.append_assoc]
      exact ih (servePage_serves host ok permitted.1).ok next later permitted.2

/-- The end of a stage leaves its bytes under the digest. -/
lemma stageEnd_blobAt (active : s.stage.active = true) (sound : s.stage.failed = false)
    (holds : HoldsStaged cfg s data) {len : Nat}
    (ended : succeeded (stageEnd cfg host s digest len).1 = true)
    (unique : ∀ held, s.disk.blobAt cfg digest = some held → held = data) :
    (stageEnd cfg host s digest len).2.disk.blobAt cfg digest = some data := by
  obtain ⟨-, -, ⟨quiet, present⟩ | ⟨-, -, kept, bytes⟩⟩ :=
    stageEnd_cases host ok active sound digest len rfl
  · obtain ⟨blob, loaded, -⟩ := ok.counted.ok.loads digest (present ended)
    obtain ⟨held, isHeld⟩ := Option.isSome_iff_exists.mp (blobAt_isSome.mpr ⟨blob, loaded⟩)
    rw [quiet.keeps.bytes, isHeld, unique held isHeld]
  · rw [kept.disk, blobAt_insert kept.placed, Function.update_self, bytes, holds active sound]

omit ok

/-- A mapping of a blob shows its bytes, unless the flash refuses to map. -/
lemma blobMap_held (held : s.disk.blobAt cfg digest = some data) (len : Nat) :
    (blobMap cfg host s digest len).1 =
      (callHost host s).1.map fun _ => ⟨host.address s.calls, data, digest⟩ := by
  unfold Disk.blobAt at held
  unfold blobMap
  cases loaded : loadBlob s.disk.blobs digest with
  | error e =>
    rw [loaded] at held
    cases held
  | ok blob =>
    rw [loaded] at held
    cases held
    dsimp only
    split <;> rename_i answer <;> rw [answer] <;> rfl

/-- For every geometry in both modes, every host and every store in order: a stage is opened, handed bytes
in any chunks with other calls in between, and ended with success under a digest that the store holds no
other bytes under. After any calls that do not drop the blob, restarts among them, a mapping of the
digest shows exactly these bytes unless the flash refuses to map. -/
theorem staged_blob_maps (ok : PageOk cfg s) (closed : s.stage.active = false)
    {between after : List PageRequest} {chunks : List Bytes} {len : Nat}
    (hands : between.map PageRequest.staged = chunks.map some)
    (permitted : (pageMachine cfg host).Obeys (Permitted cfg host) s
      (.stageBegin :: (between ++ .stageEnd digest len :: after)))
    (ended : succeeded (stageEnd cfg host
      ((pageMachine cfg host).exec s (.stageBegin :: between)) digest len).1 = true)
    (unique : ∀ held, ((pageMachine cfg host).exec s
      (.stageBegin :: between)).disk.blobAt cfg digest = some held → held = chunks.flatten)
    (kept : ∀ req ∈ after, req ≠ .blobDrop digest) (anyLen : Nat) :
    let mapped := (pageMachine cfg host).exec s
      (.stageBegin :: (between ++ .stageEnd digest len :: after))
    (blobMap cfg host mapped digest anyLen).1 =
      (callHost host mapped).1.map fun _ =>
        ⟨host.address mapped.calls, chunks.flatten, digest⟩ := by
  obtain ⟨begins, permitted⟩ := permitted
  obtain ⟨staging, ending, permitted⟩ := (Machine.obeys_append _ _ _ _ _).mp permitted
  have okBegun := (servePage_serves host ok begins).ok
  have empty : HoldsStaged cfg ((pageMachine cfg host).next s .stageBegin) [] := by
    simp [HoldsStaged, Machine.next, pageMachine, servePage, stageBegin, closed, stageBytes]
  have holds := exec_holds host okBegun empty hands staging
  have okStaged := (exec_serves host okBegun staging).1
  obtain ⟨active, sound⟩ := ending.1 rfl
  have stored := stageEnd_blobAt host okStaged active sound holds ended unique
  have okEnded := (servePage_serves host okStaged ending).ok
  apply blobMap_held
  rw [Machine.exec_cons, Machine.exec_append]
  exact (exec_serves host okEnded permitted).2.2 digest _ kept stored

/-- A blob of two chunks is mapped after another stage, an adoption and a drop. -/
theorem staged_blob_maps_sample :
    let mapped := (pageMachine sampleConfig sampleHost).exec
      (init sampleConfig sampleHost (registryPageStore sampleDisk)) sampleCalls
    (blobMap sampleConfig sampleHost mapped (sampleDigest 1) 3).1 =
      .ok ⟨mapped.calls, [7, 8, 9], sampleDigest 1⟩ := by
  have blank : BlobsOk sampleConfig (registryPageStore sampleDisk).disk.blobs := .empty _
  obtain ⟨started, -, -, stage⟩ := init_ok sampleHost blank fun _ => Nat.succ_pos _
  have hands : [PageRequest.stageWrite [7], .stageWrite [8, 9]].map PageRequest.staged =
      [[7], [8, 9]].map some := rfl
  have absent : ((pageMachine sampleConfig sampleHost).exec
      (init sampleConfig sampleHost (registryPageStore sampleDisk))
      (sampleCalls.take 3)).disk.blobAt sampleConfig (sampleDigest 1) = none := by decide +kernel
  have permitted : (pageMachine sampleConfig sampleHost).Obeys (Permitted sampleConfig sampleHost)
      (init sampleConfig sampleHost (registryPageStore sampleDisk)) sampleCalls := by decide +kernel
  exact staged_blob_maps sampleHost started (by rw [stage]; rfl) hands permitted (by decide +kernel)
    (fun _ held => nomatch absent.symm.trans held) (by decide +kernel) 3

end WantedEngine.Registry.Page
