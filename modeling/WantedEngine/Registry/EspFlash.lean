import WantedEngine.Registry.PageFrame
/-!
# Mapping a blob on ESP-IDF

The flash driver of ESP-IDF (`registry_flash.c`) maps a blob of one extent as a range of the partition,
and one of several as the pages that they cover, which it lists in a table of `MAP_MAX_PAGES`. A stage
knows no such limit: a blob of several extents with more pages is stored and cannot be mapped
(`staged_blob_maps_iff`).
-/
namespace WantedEngine.Registry.Page

open List

def mapMaxPages : Nat := 128

/-- An `esp_err_t` that is not `ESP_OK`. -/
inductive EspError where
  /-- `ESP_ERR_NO_MEM`. -/
  | noMem
  | other
  deriving DecidableEq

/-- What `flashMap` returns for an error. -/
def EspError.errno : EspError → Errno
  | .noMem => .enomem
  | .other => .eio

/-- What ESP-IDF answers. -/
structure EspFlash where
  /-- The helper thread runs or can be started. -/
  helper : Bool
  /-- Where the partition starts on the flash. -/
  address : Nat
  /-- `esp_partition_mmap` of an offset and a size. -/
  mmap : Nat → Nat → Except EspError Unit
  /-- `spi_flash_mmap_pages`. -/
  mmapPages : List Nat → Except EspError Unit

variable (cfg : PageConfig) (esp : EspFlash)

/-- The pages that an extent covers, by the inner loop of `mapPages`. -/
def extentPages (extent : Extent) : List Nat :=
  range' ((esp.address + extent.offset) / cfg.unit)
    ((extent.length + cfg.unit - 1) / cfg.unit)

def addPage (pages : List Nat) (page : Nat) : Option (List Nat) :=
  if mapMaxPages ≤ pages.length then none else some (pages ++ [page])

def mapPages (extents : List Extent) : Except EspError Unit :=
  match (extents.flatMap (extentPages cfg esp)).foldlM addPage [] with
  | none => .error .noMem
  | some pages => esp.mmapPages pages

/-- `flashMap`, and the job that its helper thread does for it. -/
def flashMap (extents : List Extent) (len : Nat) : Rc Unit :=
  if esp.helper then
    (match extents with
      | [extent] => esp.mmap extent.offset len
      | _ => mapPages cfg esp extents).mapError EspError.errno
  else .error .enomem

/-- The extents that `_BlobMap` hands to `flashMap`. -/
def BlobRec.mapped (blob : BlobRec) : List Extent :=
  if cfg.scattered then blob.extents else blob.extents.take 1

/-- `_BlobMap` over `flashMap`. -/
def espBlobMap (s : PageStore) (digest : Digest) : Rc Unit :=
  match loadBlob s.disk.blobs digest with
  | .error e => .error e
  | .ok blob => flashMap cfg esp (blob.mapped cfg) blob.length

/-- The helper thread runs and the MMU has room for every page of some extents. -/
structure EspFlash.HasRoom (extents : List Extent) (len : Nat) : Prop where
  helper : esp.helper = true
  range : ∀ extent, extents = [extent] → esp.mmap extent.offset len = .ok ()
  pages : esp.mmapPages (extents.flatMap (extentPages cfg esp)) = .ok ()

/-- The table takes pages until it is full. -/
lemma foldlM_addPage {pages : List Nat} (within : pages.length ≤ mapMaxPages) (more : List Nat) :
    more.foldlM addPage pages =
      if pages.length + more.length ≤ mapMaxPages then some (pages ++ more) else none := by
  induction more generalizing pages with
  | nil => simp [within]
  | cons page rest ih =>
    rw [foldlM_cons, addPage]
    by_cases full : mapMaxPages ≤ pages.length
    · rw [if_pos full, if_neg (by rw [length_cons]; omega)]
      rfl
    have room : (pages ++ [page]).length ≤ mapMaxPages := by
      rw [length_append, length_singleton]
      omega
    rw [if_neg full]
    refine (ih room).trans ?_
    simp [Nat.add_assoc, Nat.add_comm 1]

variable {cfg esp}

lemma flashMap_iff {extents : List Extent} {len : Nat} (room : esp.HasRoom cfg extents len) :
    flashMap cfg esp extents len = .ok () ↔
      extents.length = 1 ∨ (extents.flatMap (extentPages cfg esp)).length ≤ mapMaxPages := by
  unfold flashMap
  rw [if_pos room.helper]
  split
  · rw [room.range _ rfl]
    exact iff_of_true rfl (.inl rfl)
  rename_i several
  have notOne : extents.length ≠ 1 := fun one => by
    obtain ⟨extent, rfl⟩ := length_eq_one_iff.mp one
    exact several extent rfl
  rw [or_iff_right notOne, mapPages, foldlM_addPage (Nat.zero_le _), length_nil, Nat.zero_add,
    nil_append]
  split_ifs with fits
  · dsimp only
    rw [room.pages]
    exact iff_of_true rfl fits
  · exact iff_of_false nofun fits

/-- For every geometry, every store in order and every blob that is staged and ended with success, when
the MMU has room: the blob can be mapped iff it is one extent or has no more pages than the
table. -/
theorem staged_blob_maps_iff (host : Host) {s : PageStore} (ok : PageOk cfg s)
    (active : s.stage.active = true) (sound : s.stage.failed = false) {digest : Digest} {len : Nat}
    (ended : succeeded (stageEnd cfg host s digest len).1 = true) :
    ∃ blob, loadBlob (stageEnd cfg host s digest len).2.disk.blobs digest = .ok blob ∧
      ∀ esp : EspFlash, esp.HasRoom cfg (blob.mapped cfg) blob.length →
        (espBlobMap cfg esp (stageEnd cfg host s digest len).2 digest = .ok () ↔
          (blob.mapped cfg).length = 1 ∨
            ((blob.mapped cfg).flatMap (extentPages cfg esp)).length ≤ mapMaxPages) := by
  obtain ⟨blob, loaded⟩ : ∃ blob,
      loadBlob (stageEnd cfg host s digest len).2.disk.blobs digest = .ok blob := by
    obtain ⟨-, -, ⟨quiet, present⟩ | ⟨-, -, kept, -⟩⟩ :=
      stageEnd_cases host ok active sound digest len rfl
    · obtain ⟨blob, loaded, -⟩ := ok.counted.ok.loads digest (present ended)
      rw [quiet.keeps.blobs]
      exact ⟨blob, loaded⟩
    · rw [kept.disk]
      exact ⟨_, loadBlob_insert_self _ _ kept.placed⟩
  refine ⟨blob, loaded, fun esp room => ?_⟩
  rw [espBlobMap, loaded]
  exact flashMap_iff room

/-- A partition of 16 MiB. -/
def espConfig : PageConfig :=
  { sampleConfig with
    unit := 65536, units := 256, unit_pos := by decide, units_le := by decide, fits := by decide }

/-- A stage has filled the first unit and some from the third on: a blob was on the second one. -/
def splitStage (count : Nat) : PageStore :=
  { registryPageStore sampleDisk with
    alloc := ⟨fun unit => if unit ∈ 0 :: range' 2 count then 1 else 0, fun _ => false⟩
    stage := ⟨true, [⟨0, 1⟩, ⟨2, count⟩], 65536, (count + 1) * 65536, false⟩ }

lemma splitStage_ok {count : Nat} (fits : count < 254) : PageOk espConfig (splitStage (count + 1)) := by
  have units : (splitStage (count + 1)).stage.units = 0 :: range' 2 (count + 1) := by
    simp [splitStage, PageStage.units, Run.units]
  refine ⟨⟨.empty _, fun unit => ?_, fun _ => Nat.succ_pos _, fun _ =>
    ⟨by rintro ⟨⟩, by rintro ⟨_, _, ⟨⟩, -⟩⟩, ?_, ?_,
    fun _ _ => rfl⟩, ⟨?_, Nat.le_of_ble_eq_true rfl, by rintro ⟨⟩⟩, by rintro ⟨⟩, fun _ _ =>
      .inr ⟨0 :: range' 2 count, count + 2, Nat.succ_pos _, ?_, Nat.le_refl _, ?_,
        fun pos above below => ?_⟩⟩
  · rw [units]
    exact (Nat.zero_add _).symm
  · rw [units]
    simp [nodup_range']
  · rw [units]
    simp [espConfig]
    omega
  · simp [splitStage]
  · rw [units, range'_1_concat]
    simp [Nat.add_comm]
  · simp [splitStage, espConfig]
    omega
  · exact absurd below (Nat.not_lt.mpr above)

/-- The end of that stage. -/
def splitEnd (count : Nat) : Rc Unit × PageStore :=
  stageEnd espConfig sampleHost (splitStage count) (sampleDigest 1) ((count + 1) * 65536)

/-- An ESP-IDF that maps whatever it is asked to. -/
def roomyFlash : EspFlash := ⟨true, 0, fun _ _ => .ok (), fun _ => .ok ()⟩

/-- A blob of two extents and 128 pages is mapped. -/
theorem staged_blob_maps_128 :
    espBlobMap espConfig roomyFlash (splitEnd 127).2 (sampleDigest 1) = .ok () := by
  obtain ⟨blob, loaded, maps⟩ := staged_blob_maps_iff sampleHost (splitStage_ok (by decide))
    rfl rfl (show succeeded (splitEnd 127).1 = true by decide +kernel)
  have isBlob : loadBlob (splitEnd 127).2.disk.blobs (sampleDigest 1) =
      .ok (stageBlob espConfig (splitStage 127).stage (sampleDigest 1) (128 * 65536)) := by
    decide +kernel
  cases isBlob.symm.trans loaded
  exact (maps roomyFlash ⟨rfl, fun _ _ => rfl, rfl⟩).mpr (.inr (by decide +kernel))

/-- One page more: the end of the stage succeeds, and the blob cannot be mapped. -/
theorem staged_blob_unmappable : PageOk espConfig (splitStage 128) ∧ succeeded (splitEnd 128).1 = true ∧
      espBlobMap espConfig roomyFlash (splitEnd 128).2 (sampleDigest 1) = .error .enomem :=
  ⟨splitStage_ok (by decide), by decide +kernel, by decide +kernel⟩

end WantedEngine.Registry.Page
