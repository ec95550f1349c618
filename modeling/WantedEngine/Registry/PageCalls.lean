import WantedEngine.Registry.PageStaging
/-!
# What the calls of the page store do

The invariant of the store between two calls (`PageOk`), and one lemma for each call: what it
does to the records, the blobs and the stage, and that its steps are confined.
-/
namespace WantedEngine.Registry.Page

open Foundation List Nat

variable {cfg : PageConfig}

/-! ### The record of a stage -/

lemma unitsBytes_run (flash : Flash) (run : Run) :
    unitsBytes cfg flash run.units = flash.read (run.first * cfg.unit) (run.count * cfg.unit) := by
  obtain ⟨first, count⟩ := run
  unfold Run.units
  induction count with
  | zero => simp [unitsBytes, Flash.read]
  | succ count ih =>
    rw [List.range'_1_concat, unitsBytes_append, ih, Nat.add_mul, Flash.read_add]
    simp [unitsBytes, Nat.add_mul]

lemma extent_units_run {run : Run} (some : 0 < run.count) {length : Nat}
    (low : (run.count - 1) * cfg.unit < length) (high : length ≤ run.count * cfg.unit) :
    (Extent.mk (run.first * cfg.unit) length).units cfg = run.units := by
  obtain ⟨rest, count⟩ := Nat.exists_eq_add_of_lt some
  rw [Nat.zero_add] at count
  rw [count, Nat.add_sub_cancel] at low
  rw [count, Nat.add_mul] at high
  have first : run.first * cfg.unit / cfg.unit = run.first :=
    Nat.mul_div_cancel _ cfg.unit_pos
  have last : (run.first * cfg.unit + length - 1) / cfg.unit = run.first + rest := by
    rw [Nat.div_eq_iff cfg.unit_pos, Nat.add_mul]
    omega
  unfold Extent.units Run.units
  rw [first, last]
  congr 1
  omega

variable (cfg) in
/-- Some bytes fill runs up to a part of the last unit. -/
structure FillsRuns (runs : List Run) (left : Nat) : Prop where
  some : runs ≠ []
  filled : ∀ run ∈ runs, 0 < run.count
  /-- The bytes reach into the last unit. -/
  low : ((runs.map Run.count).sum - 1) * cfg.unit < left
  high : left ≤ (runs.map Run.count).sum * cfg.unit

variable {after : PageStore} {left : Nat} {runs : List Run}

/-- Either one run is left, or the first one is full and the bytes after it fill the rest. -/
lemma FillsRuns.split {run : Run} {rest : List Run} (fills : FillsRuns cfg (run :: rest) left) :
    (rest = [] ∧ (run.count - 1) * cfg.unit < left ∧ left ≤ run.count * cfg.unit) ∨
      (run.count * cfg.unit ≤ left ∧ FillsRuns cfg rest (left - run.count * cfg.unit)) := by
  have low := fills.low
  have high := fills.high
  rw [map_cons, sum_cons] at low high
  cases rest with
  | nil =>
    exact .inl ⟨rfl, low, high⟩
  | cons next later =>
    have second := fills.filled next (by simp)
    have others : 0 < (List.map Run.count (next :: later)).sum := by
      rw [map_cons, sum_cons]
      omega
    rw [Nat.add_sub_assoc (Nat.one_le_of_lt others), Nat.add_mul] at low
    rw [Nat.add_mul] at high
    exact .inr ⟨by omega, by simp, fun run mem => fills.filled run (mem_cons_of_mem _ mem),
      by omega, by omega⟩

lemma stageExtents_spec (fills : FillsRuns cfg runs left) :
    (stageExtents cfg left runs).flatMap (Extent.units cfg) = runs.flatMap Run.units ∧
      ((stageExtents cfg left runs).map Extent.length).sum = left ∧
      ∀ flash : Flash, ((stageExtents cfg left runs).flatMap fun extent =>
        flash.read extent.offset extent.length) =
          (unitsBytes cfg flash (runs.flatMap Run.units)).take left := by
  induction runs generalizing left with
  | nil => exact absurd rfl fills.some
  | cons run rest ih =>
    have some := fills.filled run mem_cons_self
    rw [stageExtents]
    rcases fills.split with ⟨rfl, low, high⟩ | ⟨full, later⟩
    · rw [Nat.min_eq_right high]
      simp only [stageExtents, flatMap_cons, flatMap_nil, append_nil,
        map_cons, map_nil, sum_cons, sum_nil, Nat.add_zero]
      refine ⟨extent_units_run some low high, trivial, fun flash => ?_⟩
      rw [unitsBytes_run, Flash.read_take, Nat.min_eq_left high]
    rw [Nat.min_eq_left full]
    obtain ⟨units, total, bytes⟩ := ih later
    simp only [flatMap_cons, map_cons, sum_cons]
    refine ⟨?_, by rw [total]; omega, fun flash => ?_⟩
    · rw [units, extent_units_run some _ (Nat.le_refl _)]
      rw [Nat.sub_mul]
      have := cfg.unit_pos
      have := Nat.mul_pos some cfg.unit_pos
      omega
    · rw [bytes flash, unitsBytes_append, take_append, unitsBytes_run,
        Flash.read_take, Nat.min_eq_right full]
      simp

lemma mem_stageExtents (fills : FillsRuns cfg runs left)
    {extent : Extent} (mem : extent ∈ stageExtents cfg left runs) :
    extent.length ≠ 0 ∧ ∃ run ∈ runs, extent.offset = run.first * cfg.unit ∧
      extent.length ≤ run.count * cfg.unit := by
  induction runs generalizing left with
  | nil => exact absurd rfl fills.some
  | cons run rest ih =>
    have some := fills.filled run mem_cons_self
    have bytes := Nat.mul_pos some cfg.unit_pos
    rcases mem_cons.mp mem with rfl | mem
    · refine ⟨?_, run, mem_cons_self, rfl, Nat.min_le_left _ _⟩
      have low := fills.low
      show min (run.count * cfg.unit) left ≠ 0
      omega
    · rcases fills.split with ⟨rfl, _⟩ | ⟨full, later⟩
      · cases mem
      rw [Nat.min_eq_left full] at mem
      obtain ⟨filled, other, isRun, pos⟩ := ih later mem
      exact ⟨filled, other, mem_cons_of_mem _ isRun, pos⟩

@[simp] lemma stageExtents_length (left : Nat) (runs : List Run) :
    (stageExtents cfg left runs).length = runs.length := by
  induction runs generalizing left with
  | nil => rfl
  | cons run rest ih => simp [stageExtents, ih]

lemma units_length (stage : PageStage) : stage.units.length = (stage.runs.map Run.count).sum := by
  simp [PageStage.units, Run.units]

lemma Filled.fillsRuns {flash : Flash} {stage : PageStage} (filled : Filled cfg flash stage)
    (shaped : stage.Shaped cfg) (some : stage.total ≠ 0) :
    FillsRuns cfg stage.runs stage.total := by
  rcases filled with ⟨_, _, none⟩ | ⟨_, _, _, filling⟩
  · exact absurd none some
  have count := units_length stage
  rw [filling.units, length_append, length_singleton] at count
  have within := filling.within
  refine ⟨?_, shaped.filled, ?_, ?_⟩
  · intro noRun
    rw [noRun] at count
    cases count
  · rw [← count, filling.total, Nat.add_sub_cancel]
    omega
  · rw [← count, filling.total, Nat.add_mul]
    omega

variable {s : PageStore}

lemma stageBlob_placed (staging : Staging cfg s) (filled : Filled cfg s.disk.flash s.stage)
    (some : s.stage.total ≠ 0) (digest : Digest) :
    (stageBlob cfg s.stage digest s.stage.total).Placed cfg ∧
      (stageBlob cfg s.stage digest s.stage.total).units cfg = s.stage.units ∧
      blobBytes cfg s.disk.flash (stageBlob cfg s.stage digest s.stage.total) =
        stageBytes cfg s.disk.flash s.stage := by
  have fills := filled.fillsRuns staging.shaped some
  obtain ⟨units, total, bytes⟩ := stageExtents_spec fills
  have runs := length_pos_of_ne_nil fills.some
  have whole : cfg.scattered = false → s.stage.runs.length = 1 := fun single => by
    have := staging.shaped.whole single
    omega
  refine ⟨⟨?_, ?_, fun extent mem => (mem_stageExtents fills mem).1,
    fun extent mem => ?_, ?_, total, fun single => ?_⟩, units, ?_⟩
  · exact ne_nil_of_length_pos (by simpa [stageBlob] using runs)
  · simpa [stageBlob] using staging.shaped.few
  · obtain ⟨_, run, isRun, offset, length⟩ := mem_stageExtents fills mem
    have count := staging.shaped.filled run isRun
    -- The last unit of the run is in the partition.
    have owned : run.first + run.count - 1 ∈ s.stage.units :=
      mem_flatMap.mpr ⟨run, isRun, mem_range'_1.mpr (by omega)⟩
    have inside := staging.counted.inside _ owned
    calc extent.offset + extent.length ≤ run.first * cfg.unit + run.count * cfg.unit := by omega
      _ = (run.first + run.count) * cfg.unit := (Nat.add_mul _ _ _).symm
      _ ≤ cfg.units * cfg.unit := Nat.mul_le_mul_right _ (by omega)
  · rw [show (stageBlob cfg s.stage digest s.stage.total).units cfg = s.stage.units from units]
    exact staging.counted.once
  · simpa [stageBlob] using whole single
  · unfold blobBytes
    split
    · have joined : ((stageBlob cfg s.stage digest s.stage.total).extents.flatMap fun extent =>
          s.disk.flash.read extent.offset extent.length) =
          stageBytes cfg s.disk.flash s.stage := bytes s.disk.flash
      rw [joined]
      refine take_of_length_le ?_
      rw [stageBytes, length_take]
      exact Nat.min_le_left _ _
    rename_i single
    rw [Bool.not_eq_true] at single
    obtain ⟨run, runsEq⟩ := length_eq_one_iff.mp (whole single)
    have only := bytes s.disk.flash
    simp only [stageBlob, runsEq, stageExtents, map_cons, map_nil, sum_cons,
      sum_nil, flatMap_cons, flatMap_nil, append_nil,
      Nat.add_zero] at only total ⊢
    rw [total] at only
    rw [only, stageBytes, PageStage.units, runsEq]
    simp

/-! ### The store between two calls -/

variable (cfg) in
/-- The invariant of the store. -/
structure PageOk (s : PageStore) : Prop where
  counted : Counted cfg s.disk.blobs s.alloc s.stage.units
  shaped : s.stage.Shaped cfg
  idle : s.stage.active = false → s.stage = .none
  /-- The units of an open stage are filled, unless a write failed. -/
  filled : s.stage.active = true → s.stage.failed = false →
    Filled cfg s.disk.flash s.stage

/-- No stage has a record to fit in. -/
lemma PageStage.none_shaped : PageStage.none.Shaped cfg :=
  ⟨nofun, zero_le _, fun _ => zero_le _⟩

lemma PageOk.of_idle (counted : Counted cfg s.disk.blobs s.alloc []) (stage : s.stage = .none) :
    PageOk cfg s := by
  refine ⟨?_, ?_, fun _ => stage, fun active => ?_⟩
  · rw [stage]
    exact counted
  · rw [stage]
    exact PageStage.none_shaped
  · rw [stage] at active
    cases active

lemma PageOk.of_same (ok : PageOk cfg s)
    (blobs : after.disk.blobs = s.disk.blobs) (flash : after.disk.flash = s.disk.flash)
    (alloc : after.alloc = s.alloc) (stage : after.stage = s.stage) : PageOk cfg after := by
  refine ⟨?_, ?_, ?_, ?_⟩
  · rw [blobs, alloc, stage]
    exact ok.counted
  · rw [stage]
    exact ok.shaped
  · rw [stage]
    exact ok.idle
  · rw [stage, flash]
    exact ok.filled

lemma PageOk.staging (ok : PageOk cfg s) (active : s.stage.active = true) :
    Staging cfg s := ⟨ok.counted, active, ok.shaped⟩

lemma freeStageUnits_ok (counted : Counted cfg s.disk.blobs s.alloc s.stage.units) :
    PageOk cfg (freeStageUnits s) := .of_idle counted.release rfl

lemma freeStageUnits_quiet (s : PageStore) : Quiet cfg s (freeStageUnits s) :=
  .of_same rfl rfl

lemma callHost_cases (host : Host) (s : PageStore) :
    (∃ e, callHost host s = (.error e, { s with calls := s.calls + 1 })) ∨
      callHost host s = (.ok (), { s with calls := s.calls + 1 }) := by
  unfold callHost
  split
  · exact .inr rfl
  · exact .inl ⟨_, rfl⟩

lemma stageBegin_ok (ok : PageOk cfg s) :
    PageOk cfg (stageBegin cfg s).2 ∧ Quiet cfg s (stageBegin cfg s).2 := by
  unfold stageBegin
  split
  · exact ⟨ok, .of_same rfl rfl⟩
  rename_i closed
  have stage := ok.idle (by simpa using closed)
  have counted := ok.counted
  rw [stage] at counted
  refine ⟨⟨counted, ⟨nofun, zero_le _, fun _ => zero_le _⟩, nofun, fun _ _ => ?_⟩, .of_same rfl rfl⟩
  exact .inl ⟨rfl, rfl, rfl⟩

lemma stageWrite_ok (host : Host) (ok : PageOk cfg s) (active : s.stage.active = true)
    (sound : s.stage.failed = false) (buf : Bytes) {after}
    (wrote : stageWrite cfg host s buf = after) :
    PageOk cfg after.2 ∧ Quiet cfg s after.2 ∧ after.2.stage.active = true ∧
      match after.1 with
      | .error _ => after.2.stage.failed = true
      | .ok taken => taken = buf.length ∧ after.2.stage.failed = false ∧
          stageBytes cfg after.2.disk.flash after.2.stage =
            stageBytes cfg s.disk.flash s.stage ++ buf := by
  subst wrote
  unfold stageWrite
  have spec : Appends cfg s (writeLoop cfg host buf.length s buf).2
      (succeeded (writeLoop cfg host buf.length s buf).1) buf :=
    writeLoop_appends buf.length (le_refl _) (ok.staging active) (ok.filled active sound) rfl
  split
  · rename_i result
    rw [result] at spec
    exact ⟨⟨spec.staging.counted, ⟨spec.staging.shaped.filled, spec.staging.shaped.few,
      spec.staging.shaped.whole⟩, fun closed => absurd (spec.staging.active.symm.trans closed)
        (by simp), by simp⟩, ⟨spec.quiet.keeps, spec.quiet.traced⟩, spec.staging.active, rfl⟩
  rename_i result
  rw [result] at spec
  split
  · refine ⟨⟨spec.staging.counted, spec.staging.shaped, fun closed => ?_,
      fun _ _ => spec.filled rfl⟩, spec.quiet, spec.staging.active, rfl, ?_, spec.bytes rfl⟩
    · exact absurd (spec.staging.active.symm.trans closed) (by simp)
    · exact spec.failed.trans sound
  · exact ⟨⟨spec.staging.counted, ⟨spec.staging.shaped.filled, spec.staging.shaped.few,
      spec.staging.shaped.whole⟩, fun closed => absurd (spec.staging.active.symm.trans closed)
        (by simp), by simp⟩, ⟨spec.quiet.keeps, spec.quiet.traced⟩, spec.staging.active, rfl⟩

/-! ### Records of blobs that come and go -/

lemma Disk.spoil_file {disk : Disk} {event : Event}
    (file : ∀ pos, event.covers cfg pos = false) (debris : Nat → UInt8) :
    disk.spoil cfg event debris = disk := by
  simp [Disk.spoil, Flash.overwrite, file]

variable (cfg) in
/-- A refused change of a file leaves the disk as it was. -/
lemma perform_file (host : Host) (s : PageStore) (event : Event)
    (file : ∀ pos, event.covers cfg pos = false)
    (harmless : (Step.mk s.disk s.stage event).Confined cfg) :
    ∃ calls log, Traced cfg s { s with calls, log } ∧
      ((∃ e, perform cfg host s event = (.error e, { s with calls, log })) ∨
        perform cfg host s event =
          (.ok (), { s with calls, log, disk := s.disk.apply cfg event })) := by
  refine ⟨s.calls + 1, _, ⟨[⟨s.disk, s.stage, event⟩], rfl, fun step mem => ?_⟩, ?_⟩
  · rw [mem_singleton.mp mem]
    exact ⟨harmless, .refl _⟩
  unfold perform
  split
  · exact .inr rfl
  · rw [Disk.spoil_file file]
    exact .inl ⟨_, rfl⟩

lemma blobAt_insert {disk : Disk} {blob : BlobRec} (placed : blob.Placed cfg) (digest : Digest) :
    Disk.blobAt cfg
        { disk with blobs := disk.blobs.insert (registryDigestToHex digest) (encodeBlob blob) } =
      Function.update (disk.blobAt cfg) digest (some (blobBytes cfg disk.flash blob)) := by
  refine Function.eq_update_iff.mpr ⟨?_, fun other same => ?_⟩
  · rw [Disk.blobAt, loadBlob_insert_self _ _ placed]
  · rw [Disk.blobAt, loadBlob_insert_ne _ same, Disk.blobAt]

lemma blobAt_erase (disk : Disk) (digest : Digest) :
    Disk.blobAt cfg { disk with blobs := disk.blobs.erase (registryDigestToHex digest) } =
      Function.update (disk.blobAt cfg) digest none := by
  refine Function.eq_update_iff.mpr ⟨?_, fun other same => ?_⟩
  · rw [Disk.blobAt, loadBlob, regFilesGet, AList.lookup_erase]
  · rw [Disk.blobAt, loadBlob_erase_ne same, Disk.blobAt]

lemma regFilesGet_of_mem {blobs : Files} (ok : BlobsOk cfg blobs) {digest : Digest}
    (mem : digest ∈ blobDigests blobs) :
    ∃ first rest, regFilesGet blobs (registryDigestToHex digest) blobRecMax = .ok (first :: rest) := by
  obtain ⟨blob, loaded, _⟩ := ok.loads digest mem
  unfold loadBlob at loaded
  split at loaded
  · cases loaded
  rename_i bytes content
  cases bytes with
  | nil => cases loaded
  | cons first rest => exact ⟨first, rest, content⟩

variable (cfg) in
/-- A new blob is kept: its record is the one change of the disk. -/
structure Kept (s after : PageStore) (digest : Digest) (blob : BlobRec) : Prop where
  absent : digest ∉ blobDigests s.disk.blobs
  disk : after.disk = { s.disk with
    blobs := s.disk.blobs.insert (registryDigestToHex digest) (encodeBlob blob) }
  traced : Traced cfg s after
  placed : blob.Placed cfg

/-- A stage ends as a blob, or is dropped and the records and blobs stay. -/
lemma stageEnd_cases (host : Host) (ok : PageOk cfg s) (active : s.stage.active = true)
    (sound : s.stage.failed = false) (digest : Digest) (len : Nat) {after}
    (ended : stageEnd cfg host s digest len = after) :
    PageOk cfg after.2 ∧ after.2.stage = .none ∧
      (Quiet cfg s after.2 ∧ (succeeded after.1 = true → digest ∈ blobDigests s.disk.blobs) ∨
        after.1 = .ok () ∧ s.stage.total = len ∧
          Kept cfg s after.2 digest (stageBlob cfg s.stage digest len) ∧
          blobBytes cfg s.disk.flash (stageBlob cfg s.stage digest len) =
            stageBytes cfg s.disk.flash s.stage) := by
  subst ended
  unfold stageEnd
  dsimp only
  split
  · rename_i content
    refine ⟨freeStageUnits_ok ok.counted, rfl, .inl ⟨freeStageUnits_quiet s, fun _ => ?_⟩⟩
    rw [mem_blobDigests, ← AList.lookup_isSome]
    unfold regFilesGet at content
    cases found : s.disk.blobs.lookup (registryDigestToHex digest) with
    | none =>
      rw [found] at content
      cases content
    | some _ => rfl
  · rename_i missing
    have absent : digest ∉ blobDigests s.disk.blobs := by
      intro mem
      obtain ⟨first, rest, content⟩ := regFilesGet_of_mem ok.counted.ok mem
      exact missing first rest content
    split
    · exact ⟨freeStageUnits_ok ok.counted, rfl, .inl ⟨freeStageUnits_quiet s, nofun⟩⟩
    rename_i lengths
    push Not at lengths
    obtain ⟨nonzero, rfl⟩ := lengths
    obtain ⟨placed, units, bytes⟩ :=
      stageBlob_placed (ok.staging active) (ok.filled active sound) nonzero digest
    obtain ⟨e, refused⟩ | ready := callHost_cases host s
    · rw [barrier, refused]
      exact ⟨freeStageUnits_ok ok.counted, rfl, .inl ⟨.of_same rfl rfl, nofun⟩⟩
    rw [barrier, ready]
    dsimp only
    obtain ⟨calls, _, traced, ⟨e, refused⟩ | kept⟩ :=
      perform_file cfg host { s with calls := s.calls + 1 }
        (.putBlob (registryDigestToHex digest)
          (encodeBlob (stageBlob cfg s.stage digest s.stage.total)))
        (fun _ => rfl) trivial
    · rw [refused]
      exact ⟨freeStageUnits_ok ok.counted, rfl, .inl ⟨⟨.refl _, traced⟩, nofun⟩⟩
    · rw [kept]
      refine ⟨.of_idle ?_ rfl, rfl, .inr ⟨rfl, rfl, ⟨absent, rfl, traced, placed⟩, bytes⟩⟩
      exact ok.counted.commit placed (by simp [BlobRec.adopted, stageBlob]) units absent

lemma blobDrop_cases (host : Host) (ok : PageOk cfg s) (digest : Digest) :
    PageOk cfg (blobDrop cfg host s digest).2 ∧
      (blobDrop cfg host s digest).2.stage = s.stage ∧
      Traced cfg s (blobDrop cfg host s digest).2 ∧
      ((blobDrop cfg host s digest).2.disk = s.disk ∨
        (blobDrop cfg host s digest).2.disk =
          { s.disk with blobs := s.disk.blobs.erase (registryDigestToHex digest) }) := by
  unfold blobDrop
  cases loaded : loadBlob s.disk.blobs digest with
  | error e => exact ⟨ok, rfl, .of_log rfl, .inl rfl⟩
  | ok blob =>
    obtain ⟨_, _, traced, ⟨e, refused⟩ | dropped⟩ :=
      perform_file cfg host s (.delBlob (registryDigestToHex digest)) (fun _ => rfl) trivial
    · rw [refused]
      exact ⟨ok.of_same rfl rfl rfl rfl, rfl, traced, .inl rfl⟩
    · rw [dropped]
      exact ⟨⟨ok.counted.drop loaded, ok.shaped, ok.idle, ok.filled⟩, rfl, traced, .inr rfl⟩

@[simp] lemma adoptedBlob_adopted (digest : Digest) (offset length : Nat) :
    (adoptedBlob digest offset length).adopted = true := by
  simp [BlobRec.adopted, adoptedBlob, blobFlagAdopted]

lemma registryPageAdopt_cases (host : Host) (ok : PageOk cfg s) (digest : Digest)
    (offset length : Nat) {after} (done : registryPageAdopt cfg host s digest offset length = after)
    (few : ∀ unit < cfg.units, blobsOn cfg after.2.disk.blobs unit < 255) :
    PageOk cfg after.2 ∧
      (Quiet cfg s after.2 ∨ Kept cfg s after.2 digest (adoptedBlob digest offset length)) := by
  subst done
  revert few
  unfold registryPageAdopt
  split
  · exact fun _ => ⟨ok, .inl (.of_same rfl rfl)⟩
  split
  · exact fun _ => ⟨ok, .inl (.of_same rfl rfl)⟩
  rename_i unknown
  have absent : digest ∉ blobDigests s.disk.blobs := by
    intro mem
    obtain ⟨_, loaded, _⟩ := ok.counted.ok.loads digest mem
    rw [loaded] at unknown
    exact unknown rfl
  dsimp only
  split
  · exact fun _ => ⟨ok, .inl (.of_same rfl rfl)⟩
  rename_i claimed claim
  have placed := adoptedBlob_placed claim
  -- Giving the range back restores the table.
  have released : Counted cfg s.disk.blobs
      (claimed.markRange cfg ⟨offset, length⟩ false true) s.stage.units := by
    have marks := ok.counted.unclaim placed claim
    unfold Alloc.markBlob at marks
    rw [adoptedBlob_adopted] at marks
    exact marks
  obtain ⟨e, refused⟩ | ready := callHost_cases host { s with alloc := claimed }
  · rw [barrier, refused]
    exact fun _ => ⟨⟨released, ok.shaped, ok.idle, ok.filled⟩, .inl (.of_same rfl rfl)⟩
  rw [barrier, ready]
  dsimp only
  obtain ⟨calls, _, traced, ⟨e, refused⟩ | kept⟩ :=
    perform_file cfg host { s with alloc := claimed, calls := s.calls + 1 }
      (.putBlob (registryDigestToHex digest) (encodeBlob (adoptedBlob digest offset length)))
      (fun _ => rfl) trivial
  · rw [refused]
    exact fun _ => ⟨⟨released, ok.shaped, ok.idle, ok.filled⟩, .inl ⟨.refl _, traced⟩⟩
  · rw [kept]
    refine fun few => ⟨⟨?_, ok.shaped, ok.idle, ok.filled⟩, .inr ⟨absent, rfl, traced, placed⟩⟩
    exact ok.counted.adopt placed claim (adoptedBlob_adopted _ _ _) absent few

variable (cfg) in
lemma blobMap_only (host : Host) (s : PageStore) (digest : Digest) (len : Nat) :
    ∃ calls, (blobMap cfg host s digest len).2 = { s with calls } := by
  unfold blobMap
  split
  · exact ⟨s.calls, rfl⟩
  obtain ⟨_, refused⟩ | mapped := callHost_cases host s
  · rw [refused]
    exact ⟨_, rfl⟩
  · rw [mapped]
    exact ⟨_, rfl⟩

lemma blobMap_ok (host : Host) (ok : PageOk cfg s) (digest : Digest) (len : Nat) :
    PageOk cfg (blobMap cfg host s digest len).2 ∧ Quiet cfg s (blobMap cfg host s digest len).2 := by
  obtain ⟨_, only⟩ := blobMap_only cfg host s digest len
  rw [only]
  exact ⟨ok.of_same rfl rfl rfl rfl, .of_same rfl rfl⟩

/-! ### Entry records and starting -/

/-- A call on entry records keeps the flash, the blob records and the memory. -/
structure EntryCall (s after : PageStore) : Prop where
  flash : after.disk.flash = s.disk.flash
  blobs : after.disk.blobs = s.disk.blobs
  alloc : after.alloc = s.alloc
  stage : after.stage = s.stage

/-- The blobs of a store are kept by a call on entry records. -/
lemma EntryCall.blobAt (call : EntryCall s after) (digest : Digest) :
    after.disk.blobAt cfg digest = s.disk.blobAt cfg digest := by
  unfold Disk.blobAt
  rw [call.blobs, call.flash]

/-- What a call that edits the record of a key does: the edit, or nothing. -/
structure EntryEdit (cfg : PageConfig) (s : PageStore) (key : Key) (edit : Bytes → Files → Files)
    (out : Rc Unit × PageStore) : Prop where
  call : EntryCall s out.2
  traced : Traced cfg s out.2
  entries : (∃ file, out.1 = .ok () ∧ recordFile cfg key = .ok file ∧
      out.2.disk.entries = edit file s.disk.entries) ∨
    (∃ e, out.1 = .error e) ∧ out.2.disk.entries = s.disk.entries

section

variable {key : Key} {edit : Bytes → Files → Files}

lemma EntryEdit.refused (e : Errno) (calls : Nat) :
    EntryEdit cfg s key edit (.error e, { s with calls }) :=
  ⟨⟨rfl, rfl, rfl, rfl⟩, .of_log rfl, .inr ⟨⟨e, rfl⟩, rfl⟩⟩

/-- The edit of one file. -/
lemma EntryEdit.performed {file : Bytes} {event : Event} (host : Host) (calls : Nat)
    (found : recordFile cfg key = .ok file) (quiet : ∀ pos, event.covers cfg pos = false)
    (harmless : (Step.mk s.disk s.stage event).Confined cfg)
    (edits : s.disk.apply cfg event = { s.disk with entries := edit file s.disk.entries }) :
    EntryEdit cfg s key edit (perform cfg host { s with calls } event) := by
  obtain ⟨calls, _, traced, ⟨e, refused⟩ | done⟩ :=
    perform_file cfg host { s with calls } event quiet harmless
  · rw [refused]
    exact ⟨⟨rfl, rfl, rfl, rfl⟩, traced, .inr ⟨⟨e, rfl⟩, rfl⟩⟩
  · rw [done, edits]
    exact ⟨⟨rfl, rfl, rfl, rfl⟩, traced, .inl ⟨file, rfl, found, rfl⟩⟩

end

variable (cfg) in
lemma recPut_cases (host : Host) (s : PageStore) (key : Key) (record : Bytes) :
    EntryEdit cfg s key (fun file files => files.insert file record)
      (recPut cfg host s key record) := by
  unfold recPut
  split
  · exact .refused _ s.calls
  obtain ⟨_, refused⟩ | ready := callHost_cases host s
  · rw [barrier, refused]
    exact .refused _ _
  rw [barrier, ready]
  dsimp only
  split
  · exact .refused _ _
  · rename_i found
    exact .performed host _ found (fun _ => rfl) trivial rfl

variable (cfg) in
lemma recDel_cases (host : Host) (s : PageStore) (key : Key) :
    EntryEdit cfg s key (fun file files => files.erase file) (recDel cfg host s key) := by
  unfold recDel
  split
  · exact .refused _ s.calls
  obtain ⟨_, refused⟩ | ready := callHost_cases host s
  · rw [barrier, refused]
    exact .refused _ _
  rw [barrier, ready]
  dsimp only
  split
  · exact .refused _ _
  rename_i found
  split
  · exact .performed host _ found (fun _ => rfl) trivial rfl
  · exact .refused _ _

lemma init_ok (host : Host) (ok : BlobsOk cfg s.disk.blobs)
    (few : ∀ unit, blobsOn cfg s.disk.blobs unit < 255) :
    PageOk cfg (init cfg host s) ∧ (init cfg host s).disk = s.disk ∧
      (init cfg host s).log = s.log ∧ (init cfg host s).stage = .none := by
  obtain ⟨_, result, counted⟩ := init_counted host ok few
  rw [result]
  exact ⟨.of_idle counted rfl, rfl, rfl, rfl⟩

end WantedEngine.Registry.Page
