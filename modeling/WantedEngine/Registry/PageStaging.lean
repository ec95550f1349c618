import WantedEngine.Registry.PageSound
/-!
# Staging on flash

A stage takes free units, erases each one and fills it from its start; the bytes behind the
end of the data stay erased. Every flash call of a stage touches units that the stage owns and
no blob lies on, so the bytes of every blob stay (`Quiet`). The bytes a stage holds are those
written to it (`stageBytes`), and they become the bytes of the blob it ends as.
-/
namespace WantedEngine.Registry.Page

open Foundation List Flash

/-! ### What a call keeps -/

section Keeping

variable (cfg : PageConfig)

def Disk.blobAt (disk : Disk) (digest : Digest) : Option Bytes :=
  match loadBlob disk.blobs digest with
  | .error _ => none
  | .ok blob => some (blobBytes cfg disk.flash blob)

/-- Two disks have the same records and the same blobs. -/
structure Disk.Keeps (disk after : Disk) : Prop where
  entries : after.entries = disk.entries
  blobs : after.blobs = disk.blobs
  bytes : ∀ digest, after.blobAt cfg digest = disk.blobAt cfg digest

/-- The stage of a step owns a unit, and no blob lies on it. -/
def Step.Owns (step : Step) (unit : Nat) : Prop :=
  step.stage.active = true ∧ unit ∈ step.stage.units ∧ blobsOn cfg step.before.blobs unit = 0

/-- A step on flash touches what its stage owns, and writes only what is erased. -/
def Step.Confined (step : Step) : Prop :=
  match step.event with
  | .erase unit => step.Owns cfg unit
  | .write offset data => ∀ place, offset ≤ place → place < offset + data.length →
      step.Owns cfg (place / cfg.unit) ∧ step.before.flash.erased place = true
  | _ => True

/-- A call made confined steps, each on a disk with the blobs and records from before it. -/
def Traced (s after : PageStore) : Prop :=
  ∃ steps, after.log = s.log ++ steps ∧
    ∀ step ∈ steps, step.Confined cfg ∧ s.disk.Keeps cfg step.before

/-- A call that keeps every record and every blob. -/
structure Quiet (s after : PageStore) : Prop where
  keeps : s.disk.Keeps cfg after.disk
  traced : Traced cfg s after

end Keeping

variable {cfg : PageConfig}

/-- A disk keeps its own. -/
@[simp] lemma Disk.Keeps.refl (disk : Disk) : disk.Keeps cfg disk := ⟨rfl, rfl, fun _ => rfl⟩

lemma Disk.Keeps.trans {first second third : Disk} (before : first.Keeps cfg second)
    (after : second.Keeps cfg third) : first.Keeps cfg third :=
  ⟨after.entries.trans before.entries, after.blobs.trans before.blobs,
    fun digest => (after.bytes digest).trans (before.bytes digest)⟩

variable {s after : PageStore} {flash : Flash} {event : Event} {place unit last : Nat}
  {rc : Rc Nat} {host : Host}

lemma Traced.of_log (log : after.log = s.log) : Traced cfg s after :=
  ⟨[], by rw [log, append_nil], nofun⟩

lemma Quiet.of_same (disk : after.disk = s.disk) (log : after.log = s.log) : Quiet cfg s after :=
  ⟨by rw [disk]; exact .refl _, .of_log log⟩

variable {first second third : PageStore}

lemma Quiet.traced_trans (before : Quiet cfg first second)
    (after : Traced cfg second third) : Traced cfg first third := by
  obtain ⟨early, earlyLog, earlySteps⟩ := before.traced
  obtain ⟨late, lateLog, lateSteps⟩ := after
  refine ⟨early ++ late, by rw [lateLog, earlyLog, append_assoc], ?_⟩
  exact forall_mem_append.mpr ⟨earlySteps, fun step mem =>
    ⟨(lateSteps step mem).1, before.keeps.trans (lateSteps step mem).2⟩⟩

lemma Quiet.trans (before : Quiet cfg first second)
    (after : Quiet cfg second third) : Quiet cfg first third :=
  ⟨before.keeps.trans after.keeps, before.traced_trans after.traced⟩

/-! ### Reading flash -/

@[simp] lemma Flash.read_length (flash : Flash) (offset length : Nat) :
    (flash.read offset length).length = length := by
  simp [read]

variable {stage : PageStage} {other : Flash} {chunk : Bytes}

lemma Flash.read_congr {offset length : Nat} (same : ∀ place, offset ≤ place → place < offset + length →
      other.cells place = flash.cells place) :
    other.read offset length = flash.read offset length := by
  refine map_congr_left fun place mem => ?_
  rw [mem_range] at mem
  exact same _ (by omega) (by omega)

lemma Flash.read_add (flash : Flash) (offset first second : Nat) : flash.read offset (first + second) =
      flash.read offset first ++ flash.read (offset + first) second := by
  unfold read
  rw [range_add, map_append, map_map]
  congr 1
  refine map_congr_left fun place _ => ?_
  simp [Nat.add_assoc]

lemma Flash.read_take (flash : Flash) (offset length count : Nat) :
    (flash.read offset length).take count = flash.read offset (min count length) := by
  rcases Nat.le_total count length with shorter | longer
  · obtain ⟨_, rfl⟩ := Nat.exists_eq_add_of_le shorter
    rw [flash.read_add, take_append_of_le_length (by simp), Nat.min_eq_left shorter]
    exact take_of_length_le (by simp)
  · rw [Nat.min_eq_right longer, take_of_length_le (by simp [longer])]

lemma blobBytes_congr {blob : BlobRec} (placed : blob.Placed cfg)
    (same : ∀ place, place / cfg.unit ∈ blob.units cfg → other.cells place = flash.cells place) :
    blobBytes cfg other blob = blobBytes cfg flash blob := by
  have extents : ∀ extent ∈ blob.extents,
      other.read extent.offset extent.length = flash.read extent.offset extent.length :=
    fun extent mem => read_congr fun place above below =>
      same place (BlobRec.unit_mem_units mem above below)
  unfold blobBytes
  split
  · congr 1
    exact flatMap_congr extents
  rename_i single
  rw [Bool.not_eq_true] at single
  obtain ⟨only, extentsEq⟩ := length_eq_one_iff.mp (placed.whole single)
  have total := placed.total
  have read := extents only (by rw [extentsEq]; exact mem_cons_self)
  rw [extentsEq] at total
  rw [extentsEq]
  rw [← total]
  exact read

/-! ### Flash calls of a stage -/

lemma keeps_of_cells {disk after : Disk} (ok : BlobsOk cfg disk.blobs)
    (entries : after.entries = disk.entries) (blobs : after.blobs = disk.blobs)
    (cells : ∀ place, blobsOn cfg disk.blobs (place / cfg.unit) ≠ 0 →
      after.flash.cells place = disk.flash.cells place) : disk.Keeps cfg after := by
  refine ⟨entries, blobs, fun digest => ?_⟩
  unfold Disk.blobAt
  rw [blobs]
  cases loaded : loadBlob disk.blobs digest with
  | error e => rfl
  | ok blob =>
    have same := blobBytes_congr (ok.placed loaded).2 fun place touched =>
      cells place fun zero => blobsOn_eq_zero.mp zero digest blob loaded touched
    dsimp only
    rw [same]

lemma perform_cells (host : Host) (s : PageStore) (outside : event.covers cfg place = false) :
    (perform cfg host s event).2.disk.flash.cells place = s.disk.flash.cells place ∧
      (perform cfg host s event).2.disk.flash.erased place = s.disk.flash.erased place := by
  unfold perform
  split
  · unfold Disk.apply change
    cases event <;> simp [erase, overwrite, outside]
  · simp [Disk.spoil, overwrite, outside]

lemma perform_files (host : Host) (s : PageStore) (flash : s.disk.putFiles event = s.disk) :
    (perform cfg host s event).2.disk.entries = s.disk.entries ∧
      (perform cfg host s event).2.disk.blobs = s.disk.blobs := by
  unfold perform
  split
  · unfold Disk.apply
    rw [flash]
    exact ⟨rfl, rfl⟩
  · exact ⟨rfl, rfl⟩

variable (cfg) in
lemma perform_only (host : Host) (s : PageStore) (event : Event) :
    ∃ disk calls, (perform cfg host s event).2 =
      { s with disk, calls, log := s.log ++ [⟨s.disk, s.stage, event⟩] } := by
  unfold perform
  split <;> exact ⟨_, _, rfl⟩

lemma perform_quiet (host : Host) (counted : Counted cfg s.disk.blobs s.alloc s.stage.units)
    (flash : s.disk.putFiles event = s.disk)
    (owned : ∀ place, event.covers cfg place = true → place / cfg.unit ∈ s.stage.units)
    (confined : (Step.mk s.disk s.stage event).Confined cfg) :
    Quiet cfg s (perform cfg host s event).2 := by
  obtain ⟨entries, blobs⟩ : (perform cfg host s event).2.disk.entries = s.disk.entries ∧
    (perform cfg host s event).2.disk.blobs = s.disk.blobs := perform_files host s flash
  obtain ⟨_, _, only⟩ := perform_only cfg host s event
  refine ⟨keeps_of_cells counted.ok entries blobs fun place touched => ?_,
    [⟨s.disk, s.stage, event⟩], congrArg PageStore.log only, fun step mem => ?_⟩
  · refine (perform_cells host s ?_).1
    rw [Bool.eq_false_iff]
    exact fun covered => touched (counted.free _ (owned place covered))
  · rw [mem_singleton.mp mem]
    exact ⟨confined, .refl _⟩

/-! ### Taking units -/

variable (cfg) in
/-- The runs of a stage, as its record will list them. -/
structure PageStage.Shaped (stage : PageStage) : Prop where
  filled : ∀ run ∈ stage.runs, 0 < run.count
  few : stage.runs.length ≤ registryPageMaxExtents
  whole : cfg.scattered = false → stage.runs.length ≤ 1

variable (cfg) in
/-- A stage is open and owns its units. -/
structure Staging (s : PageStore) : Prop where
  counted : Counted cfg s.disk.blobs s.alloc s.stage.units
  active : s.stage.active = true
  shaped : s.stage.Shaped cfg

variable (cfg) in
/-- The stage took a unit, and nothing else changed. -/
structure Takes (s after : PageStore) (unit : Nat) : Prop where
  staging : Staging cfg after
  units : after.stage.units = s.stage.units ++ [unit]
  disk : after.disk = s.disk
  log : after.log = s.log
  total : after.stage.total = s.stage.total
  failed : after.stage.failed = s.stage.failed

/-- What taking a unit comes to: a refusal changes nothing. -/
def TakesOrStays (cfg : PageConfig) (s after : PageStore) : Rc Nat → Prop
  | .error _ => after = s
  | .ok unit => Takes cfg s after unit

variable (staging : Staging cfg s)
include staging

/-- A run that starts takes a free unit. -/
lemma startRun_takes (allowed : cfg.scattered = false → s.stage.runs = [])
    (taken : startRun cfg s = (rc, after)) : TakesOrStays cfg s after rc := by
  unfold startRun at taken
  split at taken
  · cases taken
    rfl
  rename_i few
  split at taken
  · cases taken
    rfl
  rename_i unit found
  cases taken
  obtain ⟨inside, unused⟩ := freshUnit_free found
  have units : (s.stage.runs ++ [Run.mk unit 1]).flatMap Run.units = s.stage.units ++ [unit] := by
    simp [PageStage.units, Run.units]
  refine ⟨⟨?_, staging.active, ?_, ?_, ?_⟩, units, rfl, rfl, rfl, rfl⟩
  · exact (congrArg (Counted cfg _ _) units).mpr (staging.counted.take inside unused)
  · exact forall_mem_append.mpr ⟨staging.shaped.filled, forall_mem_singleton.mpr Nat.one_pos⟩
  · rw [length_append, length_singleton]
    omega
  intro single
  rw [allowed single]
  exact Nat.le_refl 1

lemma takeUnit_takes (taken : takeUnit cfg s = (rc, after)) : TakesOrStays cfg s after rc := by
  unfold takeUnit at taken
  split at taken
  · rename_i noRun
    exact startRun_takes staging (fun _ => getLast?_eq_none_iff.mp noRun) taken
  rename_i last isLast
  dsimp only at taken
  split at taken
  · rename_i free
    cases taken
    obtain ⟨earlier, runs⟩ := getLast?_eq_some_iff.mp isLast
    have before : s.stage.units = earlier.flatMap Run.units ++ last.units := by
      simp [PageStage.units, runs]
    have units : (s.stage.runs.dropLast ++ [{ last with count := last.count + 1 }]).flatMap
        Run.units = s.stage.units ++ [last.first + last.count] := by
      rw [before, runs]
      simp [Run.units, List.range'_1_concat]
    refine ⟨⟨?_, staging.active, ?_, ?_, ?_⟩, units, rfl, rfl, rfl, rfl⟩
    · exact (congrArg (Counted cfg _ _) units).mpr (staging.counted.take free.1 free.2)
    · exact forall_mem_append.mpr
        ⟨fun run mem => staging.shaped.filled run (dropLast_subset _ mem),
          forall_mem_singleton.mpr (Nat.succ_pos _)⟩
    · have few := staging.shaped.few
      rw [runs] at few ⊢
      simpa using few
    · intro single
      have whole := staging.shaped.whole single
      rw [runs] at whole ⊢
      simpa using whole
  · split at taken
    · cases taken
      rfl
    rename_i joins
    refine startRun_takes staging (fun single => ?_) taken
    rw [single] at joins
    exact absurd Bool.false_ne_true joins

omit staging

/-! ### The bytes of a stage -/

variable (cfg) in
def unitsBytes (flash : Flash) (units : List Nat) : Bytes :=
  units.flatMap fun unit => flash.read (unit * cfg.unit) cfg.unit

variable (cfg) in
def stageBytes (flash : Flash) (stage : PageStage) : Bytes :=
  (unitsBytes cfg flash stage.units).take stage.total

@[simp] lemma unitsBytes_length (flash : Flash) (units : List Nat) :
    (unitsBytes cfg flash units).length = units.length * cfg.unit := by
  simp [unitsBytes]

@[simp] lemma unitsBytes_append (flash : Flash) (front back : List Nat) :
    unitsBytes cfg flash (front ++ back) = unitsBytes cfg flash front ++ unitsBytes cfg flash back := by
  simp [unitsBytes]

lemma place_div (above : unit * cfg.unit ≤ place)
    (below : place < unit * cfg.unit + cfg.unit) : place / cfg.unit = unit := by
  rw [Nat.div_eq_iff cfg.unit_pos]
  omega

lemma unitsBytes_congr {units : List Nat}
    (same : ∀ place, place / cfg.unit ∈ units → other.cells place = flash.cells place) :
    unitsBytes cfg other units = unitsBytes cfg flash units := by
  refine flatMap_congr fun unit mem => read_congr fun place above below => ?_
  exact same place ((place_div above below).symm ▸ mem)

variable (cfg) in
/-- A stage fills its last unit: the units before it are full, and the bytes behind the data
are erased. -/
structure Filling (flash : Flash) (stage : PageStage) (full : List Nat) (last : Nat) : Prop where
  units : stage.units = full ++ [last]
  within : stage.curOff ≤ cfg.unit
  total : stage.total = full.length * cfg.unit + stage.curOff
  erased : ∀ place, last * cfg.unit + stage.curOff ≤ place →
    place < last * cfg.unit + cfg.unit → flash.erased place = true

variable (cfg) in
/-- A stage between two writes: it has no unit yet, or its last unit has data. -/
def Filled (flash : Flash) (stage : PageStage) : Prop :=
  (stage.runs = [] ∧ stage.curOff = cfg.unit ∧ stage.total = 0) ∨
    ∃ full last, 0 < stage.curOff ∧ Filling cfg flash stage full last

/-- The bytes of a stage are those of its full units and the start of the last one. -/
lemma Filling.bytes {full : List Nat} (filling : Filling cfg flash stage full last) :
    stageBytes cfg flash stage =
      unitsBytes cfg flash full ++ flash.read (last * cfg.unit) stage.curOff := by
  unfold stageBytes
  rw [filling.units, unitsBytes_append, filling.total, take_append, unitsBytes_length,
    Nat.add_sub_cancel_left, take_of_length_le (by simp)]
  congr 1
  simp only [unitsBytes, flatMap_cons, flatMap_nil, append_nil]
  rw [read_take, Nat.min_eq_left filling.within]

lemma Filled.full (filled : Filled cfg flash stage) (ended : cfg.unit ≤ stage.curOff)
    : stage.total = stage.units.length * cfg.unit := by
  rcases filled with ⟨noRun, _, none⟩ | ⟨full, _, _, filling⟩
  · rw [none, PageStage.units, noRun]
    simp
  have within := filling.within
  rw [filling.total, filling.units, length_append, length_singleton, Nat.add_mul]
  omega

/-! ### Writing -/

lemma perform_done (done : perform cfg host s event = (.ok (), after)) : after =
      { s with
        disk := s.disk.apply cfg event
        calls := s.calls + 1
        log := s.log ++ [⟨s.disk, s.stage, event⟩] } := by
  unfold perform at done
  split at done
  · cases done
    rfl
  · cases done

lemma covers_erase : (Event.erase unit).covers cfg place = true ↔ place / cfg.unit = unit := by
  have pos := cfg.unit_pos
  simp only [Event.covers, decide_eq_true_eq, Nat.div_eq_iff pos, Nat.add_mul]
  omega

lemma perform_erase_quiet (host : Host) (staging : Staging cfg s) (unit : Nat)
    (mem : unit ∈ s.stage.units) : Quiet cfg s (perform cfg host s (.erase unit)).2 := by
  refine perform_quiet host staging.counted rfl (fun place covered => ?_) ?_
  · rw [covers_erase.mp covered]
    exact mem
  · exact ⟨staging.active, mem, staging.counted.free unit mem⟩

include staging

lemma Staging.of_keeps (keeps : s.disk.Keeps cfg after.disk) (alloc : after.alloc = s.alloc)
    (active : after.stage.active = s.stage.active) (runs : after.stage.runs = s.stage.runs)
    : Staging cfg after := by
  have units : after.stage.units = s.stage.units := congrArg (List.flatMap Run.units) runs
  refine ⟨?_, active.trans staging.active, ?_, ?_, ?_⟩
  · rw [keeps.blobs, alloc, units]
    exact staging.counted
  · rw [runs]
    exact staging.shaped.filled
  · rw [runs]
    exact staging.shaped.few
  · rw [runs]
    exact staging.shaped.whole

lemma erase_fills {full : List Nat} (units : s.stage.units = full ++ [unit])
    (total : s.stage.total = full.length * cfg.unit)
    (done : perform cfg host s (.erase unit) = (.ok (), after)) :
    stageBytes cfg after.disk.flash { after.stage with curOff := 0 } =
        (unitsBytes cfg s.disk.flash full) ∧
      Filling cfg after.disk.flash { after.stage with curOff := 0 } full unit := by
  cases perform_done done
  refine ⟨?_, units, Nat.zero_le _, total, fun place above below => ?_⟩
  · have fresh : unit ∉ full := by
      have once := staging.counted.once
      rw [units] at once
      exact fun earlier => (nodup_append.mp once).2.2 unit earlier unit mem_cons_self rfl
    have older : unitsBytes cfg (s.disk.apply cfg (.erase unit)).flash full =
        unitsBytes cfg s.disk.flash full := by
      refine unitsBytes_congr fun place earlier => ?_
      have outside : ¬ (Event.erase unit).covers cfg place = true :=
        fun covered => fresh (covers_erase.mp covered ▸ earlier)
      simp [Disk.apply, change, erase, outside]
    show (unitsBytes cfg _ s.stage.units).take s.stage.total = _
    rw [units, total, unitsBytes_append, older, take_append_of_le_length (by simp)]
    exact take_of_length_le (by simp)
  · have covered := covers_erase.mpr (place_div above below)
    simp [Disk.apply, change, erase, covered]

/-- A unit with room is the last one; a refused call leaves the stage open. -/
lemma prepareUnit_fills (filled : Filled cfg s.disk.flash s.stage) {rc : Rc Unit}
    (ready : prepareUnit cfg host s = (rc, after)) :
    Quiet cfg s after ∧ Staging cfg after ∧ after.stage.failed = s.stage.failed ∧
      (rc = .ok () →
        stageBytes cfg after.disk.flash after.stage = stageBytes cfg s.disk.flash s.stage ∧
        after.stage.curOff < cfg.unit ∧
        ∃ full last, Filling cfg after.disk.flash after.stage full last) := by
  unfold prepareUnit at ready
  split at ready
  · rename_i room
    cases ready
    refine ⟨.of_same rfl rfl, staging, rfl, fun _ => ⟨rfl, room, ?_⟩⟩
    rcases filled with ⟨_, _, _⟩ | ⟨full, last, _, filling⟩
    · omega
    · exact ⟨full, last, filling⟩
  rename_i ended
  split at ready
  · rename_i takenEq
    cases ready
    cases takeUnit_takes staging takenEq
    exact ⟨.of_same rfl rfl, staging, rfl, nofun⟩
  rename_i unit taken takenEq
  have takes := takeUnit_takes staging takenEq
  have quiet := perform_erase_quiet host takes.staging unit (by simp [takes.units])
  split at ready
  · rename_i erasedEq
    cases ready
    obtain ⟨_, _, only⟩ := perform_only cfg host taken (.erase unit)
    rw [erasedEq] at quiet only
    cases only
    exact ⟨(Quiet.of_same takes.disk takes.log).trans quiet,
      takes.staging.of_keeps quiet.keeps rfl rfl rfl, takes.failed, nofun⟩
  rename_i erasedEq
  cases ready
  have total := filled.full (Nat.le_of_not_lt ended)
  obtain ⟨bytes, filling⟩ := erase_fills takes.staging takes.units (takes.total.trans total) erasedEq
  rw [erasedEq] at quiet
  cases perform_done erasedEq
  refine ⟨(Quiet.of_same takes.disk takes.log).trans ⟨quiet.keeps, quiet.traced⟩,
    takes.staging.of_keeps quiet.keeps rfl rfl rfl, takes.failed,
    fun _ => ⟨bytes.trans ?_, cfg.unit_pos, s.stage.units, unit, filling⟩⟩
  rw [takes.disk, stageBytes, total, take_of_length_le (by simp)]

omit staging

lemma last_unit {run : Run} {full : List Nat} (isLast : stage.runs.getLast? = some run)
    (some : 0 < run.count) (units : stage.units = full ++ [last])
    : run.first + run.count - 1 = last := by
  obtain ⟨_, runs⟩ := getLast?_eq_some_iff.mp isLast
  obtain ⟨rest, count⟩ := Nat.exists_eq_add_of_lt some
  rw [Nat.zero_add] at count
  have ends : stage.units.getLast? = .some (run.first + rest) := by
    rw [PageStage.units, runs, flatMap_append, flatMap_singleton, Run.units, count,
      List.range'_1_concat, ← append_assoc, getLast?_concat]
  rw [units, getLast?_concat, Option.some.injEq] at ends
  omega

lemma covers_write {curOff : Nat} (fits : curOff + chunk.length ≤ cfg.unit) :
    (Event.write (last * cfg.unit + curOff) chunk).covers cfg place = true →
      place / cfg.unit = last := by
  intro covered
  simp only [Event.covers, decide_eq_true_eq] at covered
  exact place_div (by omega) (by omega)

lemma perform_write_quiet (host : Host) (staging : Staging cfg s) {full : List Nat}
    (filling : Filling cfg s.disk.flash s.stage full last)
    (fits : s.stage.curOff + chunk.length ≤ cfg.unit) :
    Quiet cfg s (perform cfg host s (.write (last * cfg.unit + s.stage.curOff) chunk)).2 := by
  have mem : last ∈ s.stage.units := by simp [filling.units]
  refine perform_quiet host staging.counted rfl (fun place covered => ?_) ?_
  · rw [covers_write fits covered]
    exact mem
  intro place above below
  have isLast : place / cfg.unit = last := place_div (by omega) (by omega)
  rw [isLast]
  exact ⟨⟨staging.active, mem, staging.counted.free last mem⟩, filling.erased place above (by omega)⟩

lemma write_fills {full : List Nat} (staging : Staging cfg s)
    (filling : Filling cfg s.disk.flash s.stage full last)
    (fits : s.stage.curOff + chunk.length ≤ cfg.unit)
    (done : perform cfg host s (.write (last * cfg.unit + s.stage.curOff) chunk) =
      (.ok (), after)) (stage : PageStage) (runs : stage.runs = s.stage.runs)
    (curOff : stage.curOff = s.stage.curOff + chunk.length)
    (total : stage.total = s.stage.total + chunk.length) :
    stageBytes cfg after.disk.flash stage = stageBytes cfg s.disk.flash s.stage ++ chunk ∧
      Filling cfg after.disk.flash stage full last := by
  cases perform_done done
  have units := (congrArg (List.flatMap Run.units) runs).trans filling.units
  have fresh : last ∉ full := by
    have once := staging.counted.once
    rw [filling.units] at once
    exact fun earlier => (nodup_append.mp once).2.2 last earlier last mem_cons_self rfl
  -- Where the write does not reach, the partition is as it was.
  have outside : ∀ place, (place < last * cfg.unit + s.stage.curOff ∨
      last * cfg.unit + s.stage.curOff + chunk.length ≤ place) →
      (Event.write (last * cfg.unit + s.stage.curOff) chunk).covers cfg place = false := by
    simp only [Event.covers, decide_eq_false_iff_not]
    omega
  have filled : Filling cfg
      (s.disk.apply cfg (.write (last * cfg.unit + s.stage.curOff) chunk)).flash stage
      full last := by
    refine ⟨units, by omega, by rw [total, filling.total, curOff, Nat.add_assoc],
      fun place above below => ?_⟩
    have apart := outside place (.inr (by omega))
    simp [Disk.apply, Flash.change, Flash.overwrite, apart, filling.erased place (by omega) below]
  refine ⟨?_, filled⟩
  have older : unitsBytes cfg
      (s.disk.apply cfg (.write (last * cfg.unit + s.stage.curOff) chunk)).flash full =
      unitsBytes cfg s.disk.flash full := by
    refine unitsBytes_congr fun place earlier => ?_
    have apart : ¬ (Event.write (last * cfg.unit + s.stage.curOff) chunk).covers cfg place
        = true := fun covered => fresh (covers_write fits covered ▸ earlier)
    simp [Disk.apply, Flash.change, Flash.overwrite, apart]
  have start : (s.disk.apply cfg
      (.write (last * cfg.unit + s.stage.curOff) chunk)).flash.read (last * cfg.unit)
        s.stage.curOff = s.disk.flash.read (last * cfg.unit) s.stage.curOff := by
    refine Flash.read_congr fun place _ below => ?_
    have apart := outside place (.inl below)
    simp [Disk.apply, Flash.change, Flash.overwrite, apart]
  have added : (s.disk.apply cfg
      (.write (last * cfg.unit + s.stage.curOff) chunk)).flash.read
        (last * cfg.unit + s.stage.curOff) chunk.length = chunk := by
    refine ext_getElem (by simp) fun place below inside => ?_
    have blank : s.disk.flash.cells (last * cfg.unit + s.stage.curOff + place) = 0xff :=
      s.disk.flash.blank _ (filling.erased _ (by omega) (by omega))
    have ones : ∀ byte : UInt8, 0xff &&& byte = byte := fun byte => UInt8.neg_one_and
    simp [Flash.read, Disk.apply, Flash.change, Flash.overwrite, Event.covers, inside, blank, ones]
  rw [filled.bytes, filling.bytes, curOff, Flash.read_add, older, start, added, append_assoc]

variable (cfg) in
/-- A part of a write: the stage stays open, and once the part is done it has more bytes. -/
structure Appends (s after : PageStore) (done : Bool) (added : Bytes) : Prop where
  quiet : Quiet cfg s after
  staging : Staging cfg after
  failed : after.stage.failed = s.stage.failed
  filled : done = true → Filled cfg after.disk.flash after.stage
  bytes : done = true → stageBytes cfg after.disk.flash after.stage =
    stageBytes cfg s.disk.flash s.stage ++ added

/-- What one turn comes to: it writes some of the bytes, or fails. -/
def AppendsOrFails (cfg : PageConfig) (s after : PageStore) (buf : Bytes) : Rc Nat → Prop
  | .error _ => Appends cfg s after false buf
  | .ok written => 0 < written ∧ Appends cfg s after true (buf.take written)

lemma writeTurn_appends {buf : Bytes} (some : buf ≠ []) (staging : Staging cfg s)
    (filled : Filled cfg s.disk.flash s.stage)
    (result : writeTurn cfg host s buf = (rc, after)) :
    AppendsOrFails cfg s after buf rc := by
  unfold writeTurn at result
  split at result
  · rename_i refusedEq
    cases result
    obtain ⟨quiet, staging, failed, _⟩ := prepareUnit_fills staging filled refusedEq
    exact ⟨quiet, staging, failed, nofun, nofun⟩
  rename_i ready readyEq
  obtain ⟨quiet, staging, failed, fills⟩ := prepareUnit_fills staging filled readyEq
  obtain ⟨bytes, _, full, last, filling⟩ := fills rfl
  split at result
  · cases result
    exact ⟨quiet, staging, failed, nofun, nofun⟩
  rename_i run isLast
  have count := staging.shaped.filled run (mem_of_getLast? isLast)
  dsimp only at result
  rw [last_unit isLast count filling.units] at result
  have positive := length_pos_of_ne_nil some
  generalize chunkEq : buf.take (cfg.unit - ready.stage.curOff) = chunk at result
  have length : chunk.length = min (cfg.unit - ready.stage.curOff) buf.length := by
    rw [← chunkEq, length_take]
  have front : buf.take chunk.length = chunk := by
    rw [length, ← chunkEq]
    exact take_eq_take_min.symm
  have fits : ready.stage.curOff + chunk.length ≤ cfg.unit := by omega
  have quietWrite := perform_write_quiet host staging filling fits
  split at result
  · rename_i spoiltEq
    cases result
    obtain ⟨_, _, only⟩ := perform_only cfg host ready
      (.write (last * cfg.unit + ready.stage.curOff) chunk)
    rw [spoiltEq] at quietWrite only
    cases only
    exact ⟨quiet.trans quietWrite, staging.of_keeps quietWrite.keeps rfl rfl rfl, failed, nofun, nofun⟩
  rename_i done doneEq
  cases result
  rw [doneEq] at quietWrite
  obtain ⟨bytesWrite, fillingWrite⟩ := write_fills staging filling fits doneEq
    { done.stage with
      curOff := done.stage.curOff + chunk.length, total := done.stage.total + chunk.length }
    (by rw [perform_done doneEq]) (by rw [perform_done doneEq]) (by rw [perform_done doneEq])
  cases perform_done doneEq
  refine ⟨by omega, quiet.trans ⟨quietWrite.keeps, quietWrite.traced⟩,
    staging.of_keeps quietWrite.keeps rfl rfl rfl, failed, fun _ => ?_, fun _ => ?_⟩
  · exact .inr ⟨full, last, by dsimp only; omega, fillingWrite⟩
  · rw [front, ← bytes]
    exact bytesWrite

lemma writeLoop_appends (turns : Nat) {buf : Bytes} {rc : Rc Unit}
    (enough : buf.length ≤ turns) (staging : Staging cfg s)
    (filled : Filled cfg s.disk.flash s.stage)
    (result : writeLoop cfg host turns s buf = (rc, after)) :
    Appends cfg s after (succeeded rc) buf := by
  have done : Appends cfg s s true [] :=
    ⟨.of_same rfl rfl, staging, rfl, fun _ => filled, fun _ => by rw [append_nil]⟩
  induction turns generalizing s buf with
  | zero =>
    cases length_eq_zero_iff.mp (Nat.le_zero.mp enough)
    cases result
    exact done
  | succ turns ih =>
    rw [writeLoop] at result
    split at result
    · rename_i empty
      cases result
      rw [empty]
      exact done
    rename_i more
    split at result
    · rename_i refusedEq
      cases result
      exact writeTurn_appends more staging filled refusedEq
    rename_i turnedEq
    obtain ⟨_, turn⟩ := writeTurn_appends more staging filled turnedEq
    have rest := ih (by rw [length_drop]; omega) turn.staging (turn.filled rfl) result
      ⟨.of_same rfl rfl, turn.staging, rfl, turn.filled,
        fun _ => by rw [append_nil]⟩
    refine ⟨turn.quiet.trans rest.quiet, rest.staging, rest.failed.trans turn.failed,
      rest.filled, fun ok => ?_⟩
    rw [rest.bytes ok, turn.bytes rfl, append_assoc, take_append_drop]

end WantedEngine.Registry.Page
