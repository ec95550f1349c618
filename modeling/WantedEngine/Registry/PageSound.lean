import WantedEngine.Registry.PageAlloc
import Mathlib.Data.List.Perm.Subperm
/-!
# The allocation invariant of the page store

The blob records describe places that do not overlap, adopted blobs apart, and the table in
memory counts exactly the blobs and the stage on each unit (`Counted`). The invariant is
stated over the files, the table and the units the stage owns; each way the store moves a unit
or a record keeps it.
-/
namespace WantedEngine.Registry.Page

open Foundation List

variable {cfg : PageConfig}

/-! ### Records of blobs -/

variable {blobs : Files} {digest : Digest} {blob : BlobRec} {unit : Nat} {alloc claimed : Alloc}
  {owned : List Nat}

lemma mem_blobDigests_of_load (loaded : loadBlob blobs digest = .ok blob) :
    digest ∈ blobDigests blobs := by
  unfold loadBlob regFilesGet at loaded
  rw [mem_blobDigests, ← AList.lookup_isSome]
  cases found : blobs.lookup (registryDigestToHex digest) with
  | none =>
    rw [found] at loaded
    cases loaded
  | some content => rfl

variable {other : Digest}

lemma loadBlob_insert_ne (content : Bytes) (ne : other ≠ digest) :
    loadBlob (blobs.insert (registryDigestToHex digest) content) other = loadBlob blobs other := by
  unfold loadBlob regFilesGet
  rw [AList.lookup_insert_ne fun same => ne (registryDigestToHex_injective same)]

lemma loadBlob_erase_ne (ne : other ≠ digest) :
    loadBlob (blobs.erase (registryDigestToHex digest)) other = loadBlob blobs other := by
  unfold loadBlob regFilesGet
  rw [AList.lookup_erase_ne fun same => ne (registryDigestToHex_injective same)]

lemma loadBlob_erase_iff : loadBlob (blobs.erase (registryDigestToHex digest)) other = .ok blob ↔
      other ≠ digest ∧ loadBlob blobs other = .ok blob := by
  by_cases same : other = digest
  · subst same
    unfold loadBlob regFilesGet
    simp
  · rw [loadBlob_erase_ne same, and_iff_right same]

variable {extent : Extent}

lemma readExtent_encode (offset : extent.offset < 256 ^ 4)
    (length : extent.length < 256 ^ 4) (rest : Bytes) :
    readExtent (encodeExtent extent ++ rest) = some (extent, rest) := by
  simp [readExtent, encodeExtent, readNat_littleEndian_append offset,
    readNat_littleEndian_append length]

@[simp] lemma encodeExtent_length (extent : Extent) : (encodeExtent extent).length = 8 := by
  simp [encodeExtent]

lemma sum_length_le_units (extents : List Extent) :
    (extents.map Extent.length).sum ≤ (extents.flatMap (Extent.units cfg)).length * cfg.unit := by
  induction extents with
  | nil => simp
  | cons extent rest ih =>
    have first : extent.length ≤ (extent.units cfg).length * cfg.unit := by
      by_cases empty : extent.length = 0
      · omega
      unfold Extent.units
      rw [length_range', Nat.sub_mul, Nat.add_mul]
      have low := Nat.div_mul_le_self extent.offset cfg.unit
      have high := Nat.lt_div_mul_add cfg.unit_pos (a := extent.offset + extent.length - 1)
      omega
    rw [flatMap_cons, length_append, Nat.add_mul]
    exact Nat.add_le_add first ih

lemma BlobRec.Placed.length_lt (placed : blob.Placed cfg) : blob.length < 2 ^ 32 := by
  have subset : blob.units cfg ⊆ List.range cfg.units :=
    fun unit mem => mem_range.mpr (placed.units_lt mem)
  have count := (subperm_of_subset placed.apart subset).length_le
  rw [length_range] at count
  calc blob.length = (blob.extents.map Extent.length).sum := placed.total.symm
    _ ≤ (blob.units cfg).length * cfg.unit := sum_length_le_units blob.extents
    _ ≤ cfg.units * cfg.unit := Nat.mul_le_mul_right _ count
    _ < 2 ^ 32 := cfg.fits

lemma decodeBlob_encode (placed : blob.Placed cfg) : decodeBlob (encodeBlob blob) = some blob := by
  have few := placed.few
  have some := length_pos_of_ne_nil placed.some
  unfold registryPageMaxExtents at few
  have count : blob.extents.length.toUInt8.toNat = blob.extents.length := by
    simp only [UInt8.toNat_ofNat']
    omega
  have nonzero : blob.extents.length.toUInt8 ≠ 0 := by
    intro zero
    have := congrArg UInt8.toNat zero
    simp only [UInt8.reduceToNat] at this
    omega
  have each : ∀ extent ∈ blob.extents, ∀ rest,
      readExtent (encodeExtent extent ++ rest) = .some (extent, rest) := by
    intro extent mem rest
    have inside := placed.inside extent mem
    have fits := cfg.fits
    exact readExtent_encode (by omega) (by omega) rest
  have extents := readMany_flatMap blob.extents each []
  rw [append_nil] at extents
  have reserved : ∀ rest : Bytes, readBytes 2 (0 :: 0 :: rest) = .some ([0, 0], rest) :=
    fun rest => readBytes_append (show ([0, 0] : Bytes).length = 2 from rfl) rest
  simp [decodeBlob, encodeBlob, readNat_littleEndian_append (show blobMagic < 256 ^ 4 by decide),
    readNat_littleEndian_append (show blob.length < 256 ^ 4 from placed.length_lt),
    reserved, readFixed_append, count, nonzero, extents, registryPageMaxExtents, few]

lemma encodeBlob_length (placed : blob.Placed cfg) : (encodeBlob blob).length ≤ blobRecMax := by
  have few := placed.few
  have digest := blob.digest.property
  have extents : (blob.extents.flatMap encodeExtent).length = blob.extents.length * 8 := by
    simp [length_flatMap]
  simp only [encodeBlob, blobRecMax, length_append, length_cons, littleEndian_length, length_nil]
  omega

lemma loadBlob_insert_self (blobs : Files) (digest : Digest) (placed : blob.Placed cfg) :
    loadBlob (blobs.insert (registryDigestToHex digest) (encodeBlob blob)) digest = .ok blob := by
  unfold loadBlob regFilesGet
  rw [AList.lookup_insert]
  dsimp only
  rw [if_pos (encodeBlob_length placed)]
  dsimp only
  rw [decodeBlob_encode placed]

/-- What holds of a blob after a record was added holds of one from before or of the new one. -/
lemma exists_load_insert (absent : blob.digest ∉ blobDigests blobs) (placed : blob.Placed cfg)
    (holds : BlobRec → Prop) :
    (∃ digest x, loadBlob (blobs.insert (registryDigestToHex blob.digest) (encodeBlob blob)) digest =
        .ok x ∧ holds x) ↔
      (∃ digest x, loadBlob blobs digest = .ok x ∧ holds x) ∨ holds blob := by
  have self := loadBlob_insert_self blobs blob.digest placed
  constructor
  · rintro ⟨digest, x, loaded, isSo⟩
    by_cases same : digest = blob.digest
    · rw [same, self] at loaded
      cases loaded
      exact .inr isSo
    · rw [loadBlob_insert_ne _ same] at loaded
      exact .inl ⟨digest, x, loaded, isSo⟩
  · rintro (⟨digest, x, loaded, isSo⟩ | isSo)
    · have ne : digest ≠ blob.digest := fun same => absent (same ▸ mem_blobDigests_of_load loaded)
      exact ⟨digest, x, by rw [loadBlob_insert_ne _ ne, loaded], isSo⟩
    · exact ⟨blob.digest, blob, self, isSo⟩

/-! ### What lies on a unit -/

variable (cfg) in
def touches (blobs : Files) (unit : Nat) (digest : Digest) : Bool :=
  match loadBlob blobs digest with
  | .error _ => false
  | .ok blob => decide (unit ∈ blob.units cfg)

variable (cfg) in
/-- How many blobs lie on a unit. -/
def blobsOn (blobs : Files) (unit : Nat) : Nat :=
  (blobDigests blobs).countP (touches cfg blobs unit)

/-- Whether a blob that is read touches a unit. -/
lemma touches_of_load (loaded : loadBlob blobs digest = .ok blob) (unit : Nat) :
    touches cfg blobs unit digest = decide (unit ∈ blob.units cfg) := by
  rw [touches, loaded]

lemma touches_iff : touches cfg blobs unit digest = true ↔
      ∃ blob, loadBlob blobs digest = .ok blob ∧ unit ∈ blob.units cfg := by
  unfold touches
  cases loadBlob blobs digest with
  | error e => simp
  | ok blob => simp

lemma blobsOn_eq_zero : blobsOn cfg blobs unit = 0 ↔
      ∀ digest blob, loadBlob blobs digest = .ok blob → unit ∉ blob.units cfg := by
  unfold blobsOn
  rw [countP_eq_zero]
  constructor
  · intro none digest blob loaded touched
    exact none digest (mem_blobDigests_of_load loaded) (touches_iff.mpr ⟨blob, loaded, touched⟩)
  intro none digest _ touched
  obtain ⟨blob, loaded, touched⟩ := touches_iff.mp touched
  exact none digest blob loaded touched

lemma blobsOn_ne_zero (loaded : loadBlob blobs digest = .ok blob)
    (touched : unit ∈ blob.units cfg) : blobsOn cfg blobs unit ≠ 0 :=
  fun none => blobsOn_eq_zero.mp none digest blob loaded touched

lemma blobsOn_insert (absent : digest ∉ blobDigests blobs) (placed : blob.Placed cfg) (unit : Nat) :
    blobsOn cfg (blobs.insert (registryDigestToHex digest) (encodeBlob blob)) unit =
      blobsOn cfg blobs unit + if unit ∈ blob.units cfg then 1 else 0 := by
  have same : ∀ other ∈ blobDigests blobs,
      (touches cfg (blobs.insert (registryDigestToHex digest) (encodeBlob blob)) unit other
        = true ↔ touches cfg blobs unit other = true) := by
    intro other mem
    have ne : other ≠ digest := fun same => absent (same ▸ mem)
    rw [touches, touches, loadBlob_insert_ne _ ne]
  unfold blobsOn
  rw [blobDigests_insert fun mem => absent (mem_blobDigests.mpr mem), countP_cons,
    countP_congr same, touches_of_load (loadBlob_insert_self blobs digest placed)]
  simp only [decide_eq_true_eq]

lemma blobsOn_erase (loaded : loadBlob blobs digest = .ok blob) (unit : Nat) : blobsOn cfg blobs unit =
      blobsOn cfg (blobs.erase (registryDigestToHex digest)) unit +
        if unit ∈ blob.units cfg then 1 else 0 := by
  have same : ∀ other ∈ blobDigests (blobs.erase (registryDigestToHex digest)),
      (touches cfg blobs unit other = true ↔
        touches cfg (blobs.erase (registryDigestToHex digest)) unit other = true) := by
    intro other mem
    rw [touches, touches, loadBlob_erase_ne (mem_blobDigests_erase.mp mem).1]
  unfold blobsOn
  rw [(blobDigests_erase_perm (mem_blobDigests_of_load loaded)).countP_eq, countP_cons,
    countP_congr same, touches_of_load loaded]
  simp only [decide_eq_true_eq]

/-! ### The invariant -/

variable (cfg) in
/-- The blob records describe places that are apart but where adopted blobs share. -/
structure BlobsOk (blobs : Files) : Prop where
  /-- Every record is read, names its file, and describes a place. -/
  loads : ∀ digest ∈ blobDigests blobs, ∃ blob, loadBlob blobs digest = .ok blob ∧
    blob.digest = digest ∧ blob.Placed cfg
  /-- Blobs that share a unit are adopted. -/
  apart : ∀ {a b : Digest} {x y : BlobRec} {unit : Nat}, loadBlob blobs a = .ok x →
    loadBlob blobs b = .ok y → a ≠ b → unit ∈ x.units cfg → unit ∈ y.units cfg →
    x.adopted = true

variable (cfg) in
/-- The table counts the blobs on each unit and the stage that owns some. -/
structure Counted (blobs : Files) (alloc : Alloc) (owned : List Nat) : Prop where
  ok : BlobsOk cfg blobs
  refs : ∀ unit, alloc.refs unit = blobsOn cfg blobs unit + if unit ∈ owned then 1 else 0
  /-- The counts do not saturate. -/
  few : ∀ unit, blobsOn cfg blobs unit < 255
  /-- The marked units are those of adopted blobs. -/
  adopted : ∀ unit, alloc.adopted unit = true ↔ ∃ digest blob,
    loadBlob blobs digest = .ok blob ∧ blob.adopted = true ∧ unit ∈ blob.units cfg
  once : owned.Nodup
  inside : ∀ unit ∈ owned, unit < cfg.units
  free : ∀ unit ∈ owned, blobsOn cfg blobs unit = 0

variable (cfg) in
/-- A directory with no records is in order. -/
lemma BlobsOk.empty : BlobsOk cfg ∅ := ⟨nofun, nofun⟩

variable (ok : BlobsOk cfg blobs)
include ok

lemma BlobsOk.placed (loaded : loadBlob blobs digest = .ok blob) :
    blob.digest = digest ∧ blob.Placed cfg := by
  obtain ⟨_, again, named, placed⟩ := ok.loads digest (mem_blobDigests_of_load loaded)
  rw [loaded] at again
  cases again
  exact ⟨named, placed⟩

lemma BlobsOk.insert (placed : blob.Placed cfg)
    (shares : ∀ {other x unit}, loadBlob blobs other = .ok x → unit ∈ x.units cfg →
      unit ∈ blob.units cfg → x.adopted = true ∧ blob.adopted = true) :
    BlobsOk cfg (blobs.insert (registryDigestToHex blob.digest) (encodeBlob blob)) := by
  have self := loadBlob_insert_self blobs blob.digest placed
  constructor
  · intro digest mem
    by_cases same : digest = blob.digest
    · subst same
      exact ⟨blob, self, rfl, placed⟩
    rw [mem_blobDigests, AList.mem_insert] at mem
    have before := mem_blobDigests.mpr
      (mem.resolve_left fun eq => same (registryDigestToHex_injective eq))
    obtain ⟨other, loaded, named, otherPlaced⟩ := ok.loads digest before
    exact ⟨other, by rw [loadBlob_insert_ne _ same, loaded], named, otherPlaced⟩
  · intro a b x y unit loadedA loadedB ne touchedX touchedY
    by_cases first : a = blob.digest
    · subst first
      rw [self] at loadedA
      cases loadedA
      rw [loadBlob_insert_ne _ ne.symm] at loadedB
      exact (shares loadedB touchedY touchedX).2
    rw [loadBlob_insert_ne _ first] at loadedA
    by_cases second : b = blob.digest
    · subst second
      rw [self] at loadedB
      cases loadedB
      exact (shares loadedA touchedX touchedY).1
    · rw [loadBlob_insert_ne _ second] at loadedB
      exact ok.apart loadedA loadedB ne touchedX touchedY

lemma BlobsOk.erase (digest : Digest) : BlobsOk cfg (blobs.erase (registryDigestToHex digest)) := by
  constructor
  · intro other mem
    obtain ⟨ne, mem⟩ := mem_blobDigests_erase.mp mem
    obtain ⟨blob, loaded, rest⟩ := ok.loads other mem
    exact ⟨blob, by rw [loadBlob_erase_ne ne, loaded], rest⟩
  · intro a b x y unit loadedA loadedB
    exact ok.apart (loadBlob_erase_iff.mp loadedA).2 (loadBlob_erase_iff.mp loadedB).2

lemma BlobsOk.outside (outside : cfg.units ≤ unit) : blobsOn cfg blobs unit = 0 :=
  blobsOn_eq_zero.mpr fun _ _ loaded touched =>
    absurd ((ok.placed loaded).2.units_lt touched) (Nat.not_lt.mpr outside)

omit ok

variable (counted : Counted cfg blobs alloc owned)
include counted

lemma Counted.used_iff : alloc.unitUsed unit = true ↔ blobsOn cfg blobs unit ≠ 0 ∨ unit ∈ owned := by
  rw [Alloc.unitUsed, counted.refs unit]
  by_cases mem : unit ∈ owned
  · simp [mem]
  · simp [Nat.pos_iff_ne_zero]

lemma Counted.unused (unused : alloc.unitUsed unit = false)
    : blobsOn cfg blobs unit = 0 ∧ unit ∉ owned := by
  have neither := mt counted.used_iff.mpr (Bool.eq_false_iff.mp unused)
  push Not at neither
  exact neither

/-- What is marked has a blob on it. -/
lemma Counted.marked (marked : alloc.adopted unit = true) : blobsOn cfg blobs unit ≠ 0 := by
  obtain ⟨_, _, loaded, _, touched⟩ := (counted.adopted unit).mp marked
  exact blobsOn_ne_zero loaded touched

lemma Counted.room (unit : Nat) : alloc.refs unit < 255 := by
  have refs := counted.refs unit
  have few := counted.few unit
  by_cases mem : unit ∈ owned
  · rw [counted.free unit mem, if_pos mem] at refs
    omega
  · rw [if_neg mem] at refs
    omega

lemma Counted.take (inside : unit < cfg.units) (unused : alloc.unitUsed unit = false) :
    Counted cfg blobs (alloc.setUnit unit true) (owned ++ [unit]) := by
  obtain ⟨empty, fresh⟩ := counted.unused unused
  have zero : alloc.refs unit = 0 := by simpa [Alloc.unitUsed] using unused
  refine ⟨counted.ok, fun other => ?_, counted.few, counted.adopted, ?_, ?_, ?_⟩
  · by_cases same : other = unit
    · simp [same, Alloc.setUnit, zero, empty]
    · simp [same, Alloc.setUnit, counted.refs other]
  · exact concat_eq_append ▸ Nodup.concat fresh counted.once
  · exact forall_mem_append.mpr ⟨counted.inside, forall_mem_singleton.mpr inside⟩
  · exact forall_mem_append.mpr ⟨counted.free, forall_mem_singleton.mpr empty⟩

lemma Counted.release :
    Counted cfg blobs (owned.foldl (fun alloc unit => alloc.setUnit unit false) alloc) [] := by
  refine ⟨counted.ok, fun unit => ?_, counted.few, fun unit => ?_, nodup_nil, nofun, nofun⟩
  · rw [(foldl_setUnit_off counted.once alloc unit).1, counted.refs unit]
    simp
  · rw [(foldl_setUnit_off counted.once alloc unit).2, counted.adopted unit]

lemma Counted.commit (placed : blob.Placed cfg) (plain : blob.adopted = false)
    (same : blob.units cfg = owned) (absent : blob.digest ∉ blobDigests blobs) :
    Counted cfg (blobs.insert (registryDigestToHex blob.digest) (encodeBlob blob)) alloc [] := by
  have on := blobsOn_insert absent placed
  have alone : ∀ {other : Digest} {x : BlobRec} {unit : Nat}, loadBlob blobs other = .ok x →
      unit ∈ x.units cfg → unit ∉ blob.units cfg := by
    intro other x unit loaded touched shared
    exact blobsOn_eq_zero.mp (counted.free unit (same ▸ shared)) other x loaded touched
  refine ⟨counted.ok.insert placed fun loaded touched shared =>
    absurd shared (alone loaded touched), fun unit => ?_, fun unit => ?_, fun unit => ?_,
    nodup_nil, nofun, nofun⟩
  · rw [counted.refs unit, on unit, same]
    simp
  · rw [on unit]
    split
    · rename_i touched
      rw [counted.free unit (same ▸ touched)]
      decide
    · exact counted.few unit
  · rw [counted.adopted unit, exists_load_insert absent placed fun x => x.adopted = true ∧ _]
    simp [plain]

lemma Counted.drop (loaded : loadBlob blobs digest = .ok blob) :
    Counted cfg (blobs.erase (registryDigestToHex digest)) (alloc.markBlob cfg blob false) owned := by
  obtain ⟨_, placed⟩ := counted.ok.placed loaded
  have on : ∀ unit, blobsOn cfg blobs unit =
      blobsOn cfg (blobs.erase (registryDigestToHex digest)) unit +
        if unit ∈ blob.units cfg then 1 else 0 := blobsOn_erase loaded
  have less : ∀ unit, blobsOn cfg (blobs.erase (registryDigestToHex digest)) unit ≤
      blobsOn cfg blobs unit := fun unit => by rw [on unit]; exact Nat.le_add_right _ _
  refine ⟨counted.ok.erase digest, fun unit => ?_, fun unit => ?_, fun unit => ?_, counted.once,
    counted.inside, fun unit mem => ?_⟩
  · rw [markBlob_off_refs placed, counted.refs unit, on unit]
    omega
  · exact Nat.lt_of_le_of_lt (less unit) (counted.few unit)
  · rw [markBlob_off_adopted placed]
    split
    · rename_i touched
      -- Another blob is on the unit when the count stays above zero.
      have count := counted.refs unit
      have free : unit ∉ owned := fun mem =>
        blobsOn_eq_zero.mp (counted.free unit mem) digest blob loaded touched
      rw [if_neg free, on unit, if_pos touched] at count
      rw [Bool.and_eq_true, decide_eq_true_eq]
      constructor
      · rintro ⟨_, _⟩
        have others : blobsOn cfg (blobs.erase (registryDigestToHex digest)) unit ≠ 0 := by
          omega
        rw [Ne, blobsOn_eq_zero] at others
        push Not at others
        obtain ⟨other, x, isOther, touchedOther⟩ := others
        obtain ⟨ne, loadedOther⟩ := loadBlob_erase_iff.mp isOther
        exact ⟨other, x, isOther,
          counted.ok.apart loadedOther loaded ne touchedOther touched, touchedOther⟩
      · rintro ⟨other, x, isOther, rest⟩
        have some := blobsOn_ne_zero isOther rest.2
        exact ⟨(counted.adopted unit).mpr ⟨other, x, (loadBlob_erase_iff.mp isOther).2, rest⟩,
          by omega⟩
    · rename_i untouched
      rw [counted.adopted unit]
      constructor
      · rintro ⟨other, x, loadedOther, adopted, touchedOther⟩
        have ne : other ≠ digest := by
          rintro rfl
          rw [loaded] at loadedOther
          cases loadedOther
          exact untouched touchedOther
        exact ⟨other, x, loadBlob_erase_iff.mpr ⟨ne, loadedOther⟩, adopted, touchedOther⟩
      · rintro ⟨other, x, isOther, rest⟩
        exact ⟨other, x, (loadBlob_erase_iff.mp isOther).2, rest⟩
  · exact Nat.le_zero.mp (counted.free unit mem ▸ less unit)

omit counted

/-! ### Claiming -/

lemma claimBlob_eq_some : alloc.claimBlob cfg blob = some claimed ↔
      (∀ extent ∈ blob.extents, alloc.claimable cfg blob.adopted extent = true) ∧
        claimed = alloc.markBlob cfg blob true := by
  unfold Alloc.claimBlob
  split
  · rename_i able
    rw [Option.some.injEq]
    exact ⟨fun eq => ⟨able, eq.symm⟩, fun claim => claim.2.symm⟩
  · rename_i unable
    exact ⟨nofun, fun claim => absurd claim.1 unable⟩

lemma claimable_iff {adopted : Bool} : alloc.claimable cfg adopted extent = true ↔
      extent.length ≠ 0 ∧ extent.offset + extent.length ≤ cfg.units * cfg.unit ∧
        ∀ unit ∈ extent.units cfg,
          alloc.unitUsed unit = false ∨ (adopted = true ∧ alloc.adopted unit = true) := by
  simp [Alloc.claimable]

lemma adoptedBlob_placed {offset length : Nat}
    (claim : alloc.claimBlob cfg (adoptedBlob digest offset length) = some claimed) :
    (adoptedBlob digest offset length).Placed cfg := by
  have able := (claimBlob_eq_some.mp claim).1 ⟨offset, length⟩ mem_cons_self
  obtain ⟨some, inside, _⟩ := claimable_iff.mp able
  have only : ∀ extent ∈ (adoptedBlob digest offset length).extents,
      extent = ⟨offset, length⟩ := fun extent mem => mem_singleton.mp mem
  refine ⟨by simp [adoptedBlob], by simp [adoptedBlob, registryPageMaxExtents],
    fun extent mem => only extent mem ▸ some,
    fun extent mem => only extent mem ▸ inside, ?_, by simp [adoptedBlob],
    fun _ => rfl⟩
  simp only [BlobRec.units, adoptedBlob, flatMap_cons, flatMap_nil, append_nil]
  exact nodup_range'

include counted

lemma Counted.adopt (placed : blob.Placed cfg)
    (claim : alloc.claimBlob cfg blob = some claimed) (isAdopted : blob.adopted = true)
    (absent : blob.digest ∉ blobDigests blobs) (few : ∀ unit < cfg.units, blobsOn cfg
      (blobs.insert (registryDigestToHex blob.digest) (encodeBlob blob)) unit < 255) :
    Counted cfg (blobs.insert (registryDigestToHex blob.digest) (encodeBlob blob)) claimed owned := by
  obtain ⟨able, rfl⟩ := claimBlob_eq_some.mp claim
  have on := blobsOn_insert absent placed
  -- What is on a unit of the blob is adopted.
  have marked : ∀ {unit}, unit ∈ blob.units cfg → alloc.unitUsed unit = true →
      alloc.adopted unit = true := by
    intro unit touched used
    obtain ⟨extent, mem, touched⟩ := mem_flatMap.mp touched
    obtain ⟨_, _, units⟩ := claimable_iff.mp (able extent mem)
    rcases units unit touched with unused | marked
    · rw [unused] at used
      cases used
    · exact marked.2
  have shares : ∀ {other : Digest} {x : BlobRec} {unit : Nat}, loadBlob blobs other = .ok x →
      unit ∈ x.units cfg → unit ∈ blob.units cfg → x.adopted = true := by
    intro other x unit loaded touchedX touched
    have used := counted.used_iff.mpr (.inl (blobsOn_ne_zero loaded touchedX))
    obtain ⟨third, _, loadedY, adoptedY, touchedY⟩ :=
      (counted.adopted unit).mp (marked touched used)
    by_cases same : other = third
    · rw [same, loadedY] at loaded
      cases loaded
      exact adoptedY
    · exact counted.ok.apart loaded loadedY same touchedX touchedY
  have outside : ∀ unit ∈ owned, unit ∉ blob.units cfg := by
    intro unit mem touched
    have used := counted.used_iff.mpr (.inr mem)
    exact counted.marked (marked touched used) (counted.free unit mem)
  refine ⟨counted.ok.insert placed fun loaded touchedX touched =>
    ⟨shares loaded touchedX touched, isAdopted⟩, fun unit => ?_, fun unit => ?_, fun unit => ?_,
    counted.once, counted.inside, fun unit mem => ?_⟩
  · rw [markBlob_on_refs placed (counted.room unit), counted.refs unit, on unit]
    omega
  · by_cases inside : unit < cfg.units
    · exact few unit inside
    · rw [on unit, if_neg fun touched => inside (placed.units_lt touched)]
      exact counted.few unit
  · rw [markBlob_on_adopted placed, Bool.or_eq_true, counted.adopted unit,
      exists_load_insert absent placed fun x => x.adopted = true ∧ _]
    simp [isAdopted]
  · rw [on unit, if_neg (outside unit mem), counted.free unit mem]

lemma Counted.unclaim (placed : blob.Placed cfg) (claim : alloc.claimBlob cfg blob = some claimed) :
    Counted cfg blobs (claimed.markBlob cfg blob false) owned := by
  obtain ⟨able, rfl⟩ := claimBlob_eq_some.mp claim
  refine ⟨counted.ok, fun unit => ?_, counted.few, fun unit => ?_, counted.once, counted.inside,
    counted.free⟩
  · rw [markBlob_off_refs placed, markBlob_on_refs placed (counted.room unit), counted.refs unit]
    omega
  · rw [markBlob_off_adopted placed, markBlob_on_adopted placed,
      markBlob_on_refs placed (counted.room unit), ← counted.adopted unit]
    split
    · rename_i touched
      obtain ⟨extent, mem, touched⟩ := mem_flatMap.mp touched
      obtain ⟨_, _, units⟩ := claimable_iff.mp (able extent mem)
      rcases units unit touched with unused | ⟨_, marked⟩
      · have zero : alloc.refs unit = 0 := by simpa [Alloc.unitUsed] using unused
        have unmarked :=
          Bool.eq_false_iff.mpr fun marked => counted.marked marked (counted.unused unused).1
        simp [zero, unmarked]
      · have used := of_decide_eq_true (counted.used_iff.mpr (.inl (counted.marked marked)))
        simp [marked, used]
    · rename_i untouched
      simp [untouched]

omit counted

/-! ### Starting -/

variable (cfg) in
/-- The table counts the blobs of some digests. -/
structure Tallied (blobs : Files) (alloc : Alloc) (digests : List Digest) : Prop where
  refs : ∀ unit, alloc.refs unit = digests.countP (touches cfg blobs unit)
  adopted : ∀ unit, alloc.adopted unit = true ↔ ∃ digest ∈ digests, ∃ blob,
    loadBlob blobs digest = .ok blob ∧ blob.adopted = true ∧ unit ∈ blob.units cfg

/-- A further blob can be claimed and is then counted. -/
lemma Tallied.claim (ok : BlobsOk cfg blobs) {digests : List Digest}
    (tallied : Tallied cfg blobs alloc digests) (loaded : loadBlob blobs digest = .ok blob)
    (fresh : digest ∉ digests) (room : ∀ unit, alloc.refs unit < 255) :
    alloc.claimBlob cfg blob = some (alloc.markBlob cfg blob true) ∧
      Tallied cfg blobs (alloc.markBlob cfg blob true) (digests ++ [digest]) := by
  obtain ⟨_, placed⟩ := ok.placed loaded
  refine ⟨claimBlob_eq_some.mpr ⟨fun extent mem => claimable_iff.mpr
    ⟨placed.filled extent mem, placed.inside extent mem, fun unit touched => ?_⟩, rfl⟩,
    fun unit => ?_, fun unit => ?_⟩
  · have touched := mem_flatMap.mpr ⟨extent, mem, touched⟩
    cases used : alloc.unitUsed unit with
    | false => exact .inl rfl
    | true =>
      have some : digests.countP (touches cfg blobs unit) ≠ 0 := by
        rw [← tallied.refs unit]
        simp only [Alloc.unitUsed, decide_eq_true_eq] at used
        omega
      rw [Ne, countP_eq_zero] at some
      push Not at some
      obtain ⟨other, earlier, touchedOther⟩ := some
      obtain ⟨x, loadedOther, touchedOther⟩ := touches_iff.mp touchedOther
      have ne : other ≠ digest := fun same => fresh (same ▸ earlier)
      have adoptedOther := ok.apart loadedOther loaded ne touchedOther touched
      exact .inr ⟨ok.apart loaded loadedOther ne.symm touched touchedOther,
        (tallied.adopted unit).mpr ⟨other, earlier, x, loadedOther, adoptedOther, touchedOther⟩⟩
  · rw [markBlob_on_refs placed (room unit), tallied.refs unit, countP_append,
      countP_singleton, touches_of_load loaded]
    simp only [decide_eq_true_eq]
  · rw [markBlob_on_adopted placed, Bool.or_eq_true, tallied.adopted unit, Bool.and_eq_true,
      decide_eq_true_eq]
    constructor
    · rintro (⟨other, earlier, x, rest⟩ | now)
      · exact ⟨other, mem_append_left _ earlier, x, rest⟩
      · exact ⟨digest, by simp, blob, loaded, now⟩
    rintro ⟨other, mem, x, loadedOther, rest⟩
    rcases mem_append.mp mem with earlier | same
    · exact .inl ⟨other, earlier, x, loadedOther, rest⟩
    rw [mem_singleton.mp same, loaded] at loadedOther
    cases loadedOther
    exact .inr rest

lemma foldl_visitRebuild (host : Host) (ok : BlobsOk cfg blobs) (names : List Bytes)
    {s : PageStore} {done : List Digest} (same : s.disk.blobs = blobs)
    (tallied : Tallied cfg blobs s.alloc done) (visited : ∀ name ∈ names, name ∈ blobs)
    (once : (done ++ names.filterMap registryDigestFromHex).Nodup)
    (few : ∀ unit, (done ++ names.filterMap registryDigestFromHex).countP
      (touches cfg blobs unit) < 255) :
    ∃ alloc, names.foldl (visitRebuild cfg host) s = { s with alloc } ∧
      Tallied cfg blobs alloc (done ++ names.filterMap registryDigestFromHex) := by
  induction names generalizing s done with
  | nil => exact ⟨s.alloc, rfl, by simpa using tallied⟩
  | cons name rest ih =>
    have later : ∀ name ∈ rest, name ∈ blobs :=
      fun other mem => visited other (mem_cons_of_mem _ mem)
    cases read : registryDigestFromHex name with
    | none =>
      rw [filterMap_cons_none read] at once few ⊢
      have skip : visitRebuild cfg host s name = s := by rw [visitRebuild, read]
      rw [foldl_cons, skip]
      exact ih same tallied later once few
    | some digest =>
      rw [filterMap_cons_some read] at once few ⊢
      have present := mem_blobDigests.mpr
        (registryDigestToHex_of_fromHex read ▸ visited name mem_cons_self)
      obtain ⟨blob, loaded, named, _⟩ := ok.loads digest present
      have fresh : digest ∉ done := fun earlier =>
        (nodup_append.mp once).2.2 digest earlier digest mem_cons_self rfl
      have room : ∀ unit, s.alloc.refs unit < 255 := by
        intro unit
        have bound := few unit
        rw [countP_append] at bound
        rw [tallied.refs unit]
        omega
      obtain ⟨claim, tallied⟩ := tallied.claim ok loaded fresh room
      have visit : visitRebuild cfg host s name =
          { s with alloc := s.alloc.markBlob cfg blob true } := by
        rw [visitRebuild, read]
        dsimp only
        rw [same, loaded]
        dsimp only
        rw [if_neg (not_not_intro named), claim]
      rw [foldl_cons, visit]
      have split : done ++ digest :: rest.filterMap registryDigestFromHex =
          (done ++ [digest]) ++ rest.filterMap registryDigestFromHex := by simp
      rw [split] at once few ⊢
      obtain ⟨alloc, result, tallied⟩ :=
        ih (s := { s with alloc := s.alloc.markBlob cfg blob true }) same tallied later once few
      exact ⟨alloc, result, tallied⟩

lemma init_counted (host : Host) {s : PageStore} (ok : BlobsOk cfg s.disk.blobs)
    (few : ∀ unit, blobsOn cfg s.disk.blobs unit < 255) :
    ∃ alloc, init cfg host s = { s with alloc, stage := .none } ∧
      Counted cfg s.disk.blobs alloc [] := by
  have empty : Tallied cfg s.disk.blobs ⟨fun _ => 0, fun _ => false⟩ [] := by
    constructor <;> simp
  have visited : ∀ name ∈ regFilesNames s.disk.blobs, name ∈ s.disk.blobs :=
    fun name mem => mem_of_mem_filter mem
  obtain ⟨alloc, result, tallied⟩ := foldl_visitRebuild host ok (regFilesNames s.disk.blobs)
    (s := { s with alloc := ⟨fun _ => 0, fun _ => false⟩, stage := .none }) rfl empty visited
    (blobDigests_nodup s.disk.blobs) few
  refine ⟨alloc, result, ok, fun unit => ?_, few, fun unit => ?_, nodup_nil, nofun, nofun⟩
  · rw [tallied.refs unit]
    simp [blobsOn, blobDigests]
  rw [tallied.adopted unit]
  constructor
  · rintro ⟨digest, _, blob, rest⟩
    exact ⟨digest, blob, rest⟩
  · rintro ⟨digest, blob, loaded, rest⟩
    exact ⟨digest, mem_blobDigests_of_load loaded, blob, loaded, rest⟩

end WantedEngine.Registry.Page
