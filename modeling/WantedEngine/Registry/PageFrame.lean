import WantedEngine.Registry.PageCalls
/-!
# Flash calls stay on the stage's units

The page store over whole runs. Any sequence of calls, with any answers of the host, erases and
writes only units that the stage in progress owns; each write lands on erased bytes; and the
bytes of a blob stay as they are until the blob is dropped.
-/
namespace WantedEngine.Registry.Page

open Foundation

variable (cfg : PageConfig) (host : Host)

/-- The calls that use the stage. -/
def PageRequest.usesStage : PageRequest → Bool
  | .stageWrite _ => true
  | .stageEnd _ _ => true
  | _ => false

/-- How the store may be called: the stage is written and ended while it is open and no write
of it failed, and fewer than 255 blobs share a unit. -/
def Permitted (s : PageStore) (req : PageRequest) : Prop :=
  (req.usesStage = true → s.stage.active = true ∧ s.stage.failed = false) ∧
    ∀ unit < cfg.units,
      blobsOn cfg ((pageMachine cfg host).next s req).disk.blobs unit < 255

instance (s : PageStore) (req : PageRequest) : Decidable (Permitted cfg host s req) :=
  inferInstanceAs (Decidable (_ ∧ _))

/-- What a permitted call does: its steps are confined, and it keeps every blob but one that it
drops. -/
structure Serves (s after : PageStore) (req : PageRequest) : Prop where
  ok : PageOk cfg after
  traced : Traced cfg s after
  /-- A blob that is not dropped keeps its bytes. -/
  keeps : ∀ digest bytes, req ≠ .blobDrop digest →
    s.disk.blobAt cfg digest = some bytes → after.disk.blobAt cfg digest = some bytes

variable {cfg} {s after : PageStore}

/-- A quiet call keeps every blob. -/
lemma Quiet.serves (quiet : Quiet cfg s after)
    (ok : PageOk cfg after) (req : PageRequest) : Serves cfg s after req :=
  ⟨ok, quiet.traced, fun digest _ _ held => (quiet.keeps.bytes digest).trans held⟩

lemma Kept.serves {digest : Digest} {blob : BlobRec}
    (kept : Kept cfg s after digest blob) (ok : PageOk cfg after) (req : PageRequest) :
    Serves cfg s after req := by
  refine ⟨ok, kept.traced, fun other bytes _ held => ?_⟩
  have ne : other ≠ digest := by
    rintro rfl
    unfold Disk.blobAt at held
    split at held
    · cases held
    · rename_i loaded
      exact kept.absent (mem_blobDigests_of_load loaded)
  rw [kept.disk, blobAt_insert kept.placed, Function.update_of_ne ne]
  exact held

lemma EntryCall.serves (call : EntryCall s after)
    (traced : Traced cfg s after) (ok : PageOk cfg s) (req : PageRequest) :
    Serves cfg s after req :=
  ⟨ok.of_same call.blobs call.flash call.alloc call.stage, traced,
    fun digest _ _ held => (call.blobAt digest).trans held⟩

lemma servePage_serves {s : PageStore} (ok : PageOk cfg s) {req : PageRequest}
    (permitted : Permitted cfg host s req) :
    Serves cfg s ((pageMachine cfg host).next s req) req := by
  obtain ⟨allowed, few⟩ := permitted
  cases req with
  | stageBegin =>
    obtain ⟨ok, quiet⟩ := stageBegin_ok ok
    exact quiet.serves ok _
  | stageWrite buf =>
    obtain ⟨active, sound⟩ := allowed rfl
    obtain ⟨ok, quiet, _⟩ := stageWrite_ok host ok active sound buf rfl
    exact quiet.serves ok _
  | stageEnd digest len =>
    obtain ⟨active, sound⟩ := allowed rfl
    obtain ⟨ok, _, ⟨quiet, _⟩ | ⟨_, _, kept, _⟩⟩ :=
      stageEnd_cases host ok active sound digest len rfl
    · exact quiet.serves ok _
    · exact kept.serves ok _
  | stageAbort => exact (freeStageUnits_quiet s).serves (freeStageUnits_ok ok.counted) _
  | blobMap digest len =>
    obtain ⟨ok, quiet⟩ := blobMap_ok host ok digest len
    exact quiet.serves ok _
  | blobUnmap map => exact Quiet.serves (.of_same rfl rfl) ok _
  | blobDrop digest =>
    obtain ⟨ok, _, traced, disk | disk⟩ := blobDrop_cases host ok digest
    · exact Quiet.serves ⟨disk ▸ .refl _, traced⟩ ok _
    refine ⟨ok, traced, fun other bytes ne held => ?_⟩
    have other : other ≠ digest := fun same => ne (same ▸ rfl)
    show (blobDrop cfg host s digest).2.disk.blobAt cfg _ = _
    rw [disk, blobAt_erase, Function.update_of_ne other]
    exact held
  | adopt digest offset length =>
    obtain ⟨ok, quiet | kept⟩ := registryPageAdopt_cases host ok digest offset length rfl few
    · exact quiet.serves ok _
    · exact kept.serves ok _
  | recPut key record =>
    obtain ⟨call, traced, _⟩ := recPut_cases cfg host s key record
    exact call.serves traced ok _
  | recDel key =>
    obtain ⟨call, traced, _⟩ := recDel_cases cfg host s key
    exact call.serves traced ok _
  | init =>
    obtain ⟨ok, disk, log, _⟩ := init_ok host ok.counted.ok ok.counted.few
    exact Quiet.serves (.of_same disk log) ok _

/-- Along a permitted run the store stays in order, its steps are confined, and a blob that is
not dropped keeps its bytes. -/
lemma exec_serves {s : PageStore} (ok : PageOk cfg s) {reqs : List PageRequest}
    (permitted : (pageMachine cfg host).Obeys (Permitted cfg host) s reqs) :
    PageOk cfg ((pageMachine cfg host).exec s reqs) ∧
      ((∀ step ∈ s.log, step.Confined cfg) →
        ∀ step ∈ ((pageMachine cfg host).exec s reqs).log, step.Confined cfg) ∧
      ∀ digest bytes, (∀ req ∈ reqs, req ≠ .blobDrop digest) →
        s.disk.blobAt cfg digest = some bytes →
        ((pageMachine cfg host).exec s reqs).disk.blobAt cfg digest = some bytes := by
  induction reqs generalizing s with
  | nil => exact ⟨ok, id, fun _ _ _ held => held⟩
  | cons req rest ih =>
    have serves := servePage_serves host ok permitted.1
    obtain ⟨_, log, fresh⟩ := serves.traced
    obtain ⟨okAfter, confinedAfter, keepsAfter⟩ := ih serves.ok permitted.2
    refine ⟨okAfter, fun confined => confinedAfter ?_, fun digest bytes kept held => ?_⟩
    · rw [log]
      exact List.forall_mem_append.mpr ⟨confined, fun step now => (fresh step now).1⟩
    · exact keepsAfter digest bytes (fun other mem => kept other (List.mem_cons_of_mem _ mem))
        (serves.keeps digest bytes (kept req List.mem_cons_self) held)

/-- The store that is started on blobs in order is in order. -/
lemma started_ok {disk : Disk} (ok : BlobsOk cfg disk.blobs)
    (few : ∀ unit < cfg.units, blobsOn cfg disk.blobs unit < 255) :
    PageOk cfg (init cfg host (registryPageStore disk)) ∧
      (init cfg host (registryPageStore disk)).log = [] := by
  have everywhere : ∀ unit, blobsOn cfg disk.blobs unit < 255 := by
    intro unit
    by_cases inside : unit < cfg.units
    · exact few unit inside
    · rw [ok.outside (Nat.not_lt.mp inside)]
      decide
  obtain ⟨started, -, log, -⟩ := init_ok host (s := registryPageStore disk) ok everywhere
  exact ⟨started, log⟩

variable (cfg) in
/-- In every run of the started store, each flash erase and each flash write touches only units
of the stage in progress, each write lands on erased bytes, and a blob keeps its bytes until it
is dropped. -/
theorem flash_calls_confined (disk : Disk) (reqs : List PageRequest) (ok : BlobsOk cfg disk.blobs)
    (few : ∀ unit < cfg.units, blobsOn cfg disk.blobs unit < 255)
    (permitted : (pageMachine cfg host).Obeys (Permitted cfg host)
      (init cfg host (registryPageStore disk)) reqs) :
    (∀ step ∈ ((pageMachine cfg host).exec
        (init cfg host (registryPageStore disk)) reqs).log, step.Confined cfg) ∧
      ∀ first rest digest bytes, reqs = first ++ rest →
        (∀ req ∈ rest, req ≠ .blobDrop digest) →
        ((pageMachine cfg host).exec
          (init cfg host (registryPageStore disk)) first).disk.blobAt cfg digest = some bytes →
        ((pageMachine cfg host).exec
          (init cfg host (registryPageStore disk)) reqs).disk.blobAt cfg digest = some bytes := by
  obtain ⟨started, log⟩ := started_ok host ok few
  have none : ∀ step ∈ (init cfg host (registryPageStore disk)).log, step.Confined cfg := by
    rw [log]
    nofun
  refine ⟨(exec_serves host started permitted).2.1 none, ?_⟩
  rintro first rest digest bytes rfl kept held
  rw [Machine.obeys_append] at permitted
  have okFirst := (exec_serves host started permitted.1).1
  rw [Machine.exec_append]
  exact (exec_serves host okFirst permitted.2).2.2 digest bytes kept held

def sampleConfig : PageConfig where
  unit := 2
  units := 4
  scattered := true
  walk := fun name => if (47 : UInt8) ∈ name then none else some name
  unit_pos := by decide
  units_le := by decide
  fits := by decide
  walk_direct := fun _ direct => if_neg direct

def sampleHost : Host := ⟨fun _ => none, fun _ => none, fun _ _ => 0, fun call => call⟩

def sampleDisk : Disk := ⟨⟨fun _ => 0, fun _ => false, nofun⟩, ∅, ∅⟩

def sampleDigest (byte : UInt8) : Digest := ⟨List.replicate 32 byte, rfl⟩

/-- A blob of three bytes is staged; a second stage is dropped after a range was adopted. -/
def sampleCalls : List PageRequest :=
  [.stageBegin, .stageWrite [7], .stageWrite [8, 9], .stageEnd (sampleDigest 1) 3, .stageBegin,
    .stageWrite [5], .adopt (sampleDigest 2) 6 2, .stageAbort, .blobDrop (sampleDigest 2)]

/-- The calls meet the theorem's conditions, and the staged blob reads back at the end. -/
theorem flash_calls_confined_sample : (∀ step ∈ ((pageMachine sampleConfig sampleHost).exec
        (init sampleConfig sampleHost (registryPageStore sampleDisk)) sampleCalls).log,
      step.Confined sampleConfig) ∧
    ((pageMachine sampleConfig sampleHost).exec
      (init sampleConfig sampleHost (registryPageStore sampleDisk)) sampleCalls).disk.blobAt
        sampleConfig (sampleDigest 1) = some [7, 8, 9] := by
  obtain ⟨confined, keeps⟩ := flash_calls_confined sampleConfig sampleHost sampleDisk
    sampleCalls (BlobsOk.empty _) (by decide +kernel) (by decide +kernel)
  exact ⟨confined, keeps (sampleCalls.take 4) (sampleCalls.drop 4) _ _ rfl (by decide +kernel)
    (by decide +kernel)⟩

/-! ### Counts of units -/

variable (cfg) in
/-- The extents of recorded blobs that touch a unit. -/
def extentsOn (blobs : Files) (unit : Nat) : Nat :=
  ((blobDigests blobs).flatMap fun digest =>
    match loadBlob blobs digest with
    | .error _ => []
    | .ok blob => blob.extents).countP fun extent => unit ∈ extent.units cfg

lemma sum_eq_countP {α : Type} {values : List α} {number : α → Nat} {counts : α → Bool}
    (each : ∀ value ∈ values, number value = if counts value then 1 else 0) :
    (values.map number).sum = values.countP counts := by
  induction values with
  | nil => rfl
  | cons value rest ih =>
    rw [List.map_cons, List.sum_cons, List.countP_cons, each value List.mem_cons_self, Nat.add_comm,
      ih fun other mem => each other (List.mem_cons_of_mem _ mem)]

/-- At most one extent of a blob touches a unit, so the extents are counted by blobs. -/
lemma BlobsOk.extentsOn_eq {blobs : Files} (ok : BlobsOk cfg blobs) (unit : Nat) :
    extentsOn cfg blobs unit = blobsOn cfg blobs unit := by
  rw [extentsOn, blobsOn, List.countP_flatMap]
  refine sum_eq_countP fun digest mem => ?_
  obtain ⟨blob, loaded, -, placed⟩ := ok.loads digest mem
  have once := placed.apart.count (a := unit)
  rw [BlobRec.units, List.count_flatMap,
    @sum_eq_countP _ _ _ fun extent => unit ∈ extent.units cfg] at once
  · simpa [touches_of_load loaded, loaded, BlobRec.units] using once
  · intro extent _
    have apart := List.Nodup.count (a := unit) (l := extent.units cfg) (List.nodup_range' ..)
    simpa

variable (cfg)

/-- In every run of the started store: a unit is counted for each extent on it and for the stage
that owns it, the units marked as adopted are those of adopted blobs, and a stage that is aborted, or
whose end fails, gives back the units it took. -/
theorem refs_count (disk : Disk) (reqs : List PageRequest) (ok : BlobsOk cfg disk.blobs)
    (few : ∀ unit < cfg.units, blobsOn cfg disk.blobs unit < 255)
    (permitted : (pageMachine cfg host).Obeys (Permitted cfg host)
      (init cfg host (registryPageStore disk)) reqs)
    (reached : (pageMachine cfg host).exec (init cfg host (registryPageStore disk)) reqs = s) :
    (∀ unit, s.alloc.refs unit =
        extentsOn cfg s.disk.blobs unit + if unit ∈ s.stage.units then 1 else 0) ∧
      (∀ unit, s.alloc.adopted unit = true → ∃ digest blob,
        loadBlob s.disk.blobs digest = .ok blob ∧ blob.adopted = true ∧ unit ∈ blob.units cfg) ∧
      ∀ req, Permitted cfg host s req →
        (req = .stageAbort ∨ (∃ digest len, req = .stageEnd digest len) ∧
          (pageMachine cfg host).answer s req = false) →
        ((pageMachine cfg host).next s req).stage = .none ∧
          ∀ unit, s.alloc.refs unit = ((pageMachine cfg host).next s req).alloc.refs unit +
            if unit ∈ s.stage.units then 1 else 0 := by
  have okAt := reached ▸ (exec_serves host (started_ok host ok few).1 permitted).1
  have counted := okAt.counted
  refine ⟨fun unit => ?_, fun unit => (counted.adopted unit).mp, fun req allowed gives => ?_⟩
  · rw [counted.ok.extentsOn_eq]
    exact counted.refs unit
  have given : ((pageMachine cfg host).next s req).stage = .none ∧
      ((pageMachine cfg host).next s req).disk.blobs = s.disk.blobs := by
    obtain rfl | ⟨⟨digest, len, rfl⟩, failed⟩ := gives
    · exact ⟨rfl, rfl⟩
    obtain ⟨active, sound⟩ := allowed.1 rfl
    obtain ⟨-, none, ⟨quiet, -⟩ | ⟨done, -⟩⟩ :=
      stageEnd_cases host okAt active sound digest len rfl
    · exact ⟨none, quiet.keeps.blobs⟩
    · cases failed.symm.trans (congrArg succeeded done)
  refine ⟨given.1, fun unit => ?_⟩
  rw [counted.refs, (servePage_serves host okAt allowed).ok.counted.refs, given.1, given.2]
  rfl

/-- After the sample's calls the second unit of the staged blob is counted once. -/
theorem refs_count_sample : ((pageMachine sampleConfig sampleHost).exec
      (init sampleConfig sampleHost (registryPageStore sampleDisk)) sampleCalls).alloc.refs 1 = 1 :=
  ((refs_count sampleConfig sampleHost sampleDisk sampleCalls (BlobsOk.empty _) (by decide +kernel)
    (by decide +kernel) rfl).1 1).trans (by decide +kernel)

/-- A stage that is ended after the erase of its second unit failed is a blob on one unit, and the
other stays counted. -/
theorem refs_count_leak : ∃ s, (pageMachine sampleConfig
        { sampleHost with fails := fun call => if call = 2 then some .eio else none }).exec
      (init sampleConfig sampleHost (registryPageStore sampleDisk))
      [.stageBegin, .stageWrite [7, 8], .stageWrite [9], .stageEnd (sampleDigest 1) 2] = s ∧
    s.stage = .none ∧ s.alloc.refs 1 = 1 ∧ extentsOn sampleConfig s.disk.blobs 1 = 0 := by
  refine ⟨_, rfl, ?_⟩
  decide +kernel

end WantedEngine.Registry.Page
