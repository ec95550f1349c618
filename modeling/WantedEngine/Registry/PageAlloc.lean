import WantedEngine.Registry.Page
/-!
# Units and their counts

The arithmetic of the page store's allocation table. A blob touches the units its extents lie
on; taking or giving back a blob moves the count of each of those units by one. A unit that is
taken for a stage is one that nothing was on.
-/
namespace WantedEngine.Registry.Page

open Foundation List Alloc

variable {cfg : PageConfig}

/-! ### The units of a range -/

variable {extent : Extent} {unit : Nat} {blob : BlobRec}

lemma mem_extent_units (_ : extent.length ≠ 0) : unit ∈ extent.units cfg ↔
      extent.offset / cfg.unit ≤ unit ∧ unit ≤ (extent.offset + extent.length - 1) / cfg.unit := by
  unfold Extent.units
  rw [mem_range'_1]
  omega

lemma extent_units_lt (some : extent.length ≠ 0)
    (inside : extent.offset + extent.length ≤ cfg.units * cfg.unit)
    (mem : unit ∈ extent.units cfg) : unit < cfg.units := by
  have last := ((mem_extent_units some).mp mem).2
  refine Nat.lt_of_le_of_lt last ?_
  rw [Nat.div_lt_iff_lt_mul cfg.unit_pos]
  omega

/-! ### Blobs in place -/

variable (cfg) in
def BlobRec.units (blob : BlobRec) : List Nat := blob.extents.flatMap (Extent.units cfg)

variable (cfg) in
/-- A blob whose record describes a place for it: its extents lie in the partition on units
that are apart, and hold its bytes. -/
structure BlobRec.Placed (blob : BlobRec) : Prop where
  some : blob.extents ≠ []
  /-- A record has room for the extents. -/
  few : blob.extents.length ≤ registryPageMaxExtents
  filled : ∀ extent ∈ blob.extents, extent.length ≠ 0
  inside : ∀ extent ∈ blob.extents, extent.offset + extent.length ≤ cfg.units * cfg.unit
  apart : (blob.units cfg).Nodup
  total : (blob.extents.map Extent.length).sum = blob.length
  /-- Without joined mappings there is one extent. -/
  whole : cfg.scattered = false → blob.extents.length = 1

/-- A placed blob touches units of the partition. -/
lemma BlobRec.Placed.units_lt (placed : blob.Placed cfg) (mem : unit ∈ blob.units cfg) :
    unit < cfg.units := by
  obtain ⟨extent, isExtent, mem⟩ := mem_flatMap.mp mem
  exact extent_units_lt (placed.filled extent isExtent) (placed.inside extent isExtent) mem

lemma BlobRec.unit_mem_units (mem : extent ∈ blob.extents) {pos : Nat}
    (above : extent.offset ≤ pos) (below : pos < extent.offset + extent.length) :
    pos / cfg.unit ∈ blob.units cfg := by
  refine mem_flatMap.mpr ⟨extent, mem, (mem_extent_units (by omega)).mpr ?_⟩
  exact ⟨Nat.div_le_div_right above, Nat.div_le_div_right (by omega)⟩

/-! ### Marking units -/

lemma markUnit_refs (on adopted : Bool) (alloc : Alloc) (unit other : Nat) :
    (alloc.markUnit on adopted unit).refs other =
      if other = unit then (if on then min (alloc.refs unit + 1) 255 else alloc.refs unit - 1)
      else alloc.refs other := by
  by_cases same : other = unit
  · simp [markUnit, setUnit, same]
  · simp [markUnit, setUnit, same]

lemma markUnit_adopted (on adopted : Bool) (alloc : Alloc) (unit other : Nat) :
    (alloc.markUnit on adopted unit).adopted other =
      if other = unit then
        (adopted && on || alloc.adopted unit) && (alloc.markUnit on adopted unit).unitUsed unit
      else alloc.adopted other := by
  by_cases same : other = unit
  · rw [same]
    simp only [markUnit, Function.update_self]
    rfl
  · simp [markUnit, same]

variable {alloc : Alloc} {units : List Nat}

lemma foldl_markUnit (on adopted : Bool) (apart : units.Nodup) (alloc : Alloc) (unit : Nat) :
    (units.foldl (markUnit on adopted) alloc).refs unit =
        (if unit ∈ units then (alloc.markUnit on adopted unit).refs unit else alloc.refs unit) ∧
      (units.foldl (markUnit on adopted) alloc).adopted unit =
        (if unit ∈ units then (alloc.markUnit on adopted unit).adopted unit
          else alloc.adopted unit) := by
  induction units generalizing alloc with
  | nil => simp
  | cons first rest ih =>
    obtain ⟨absent, apart⟩ := nodup_cons.mp apart
    obtain ⟨refs, marks⟩ := ih apart (alloc.markUnit on adopted first)
    rw [foldl_cons, refs, marks]
    by_cases same : unit = first
    · subst same
      simp [absent]
    · simp only [mem_cons, same, false_or, markUnit_refs, markUnit_adopted, unitUsed, if_false, and_self]

variable (placed : blob.Placed cfg)
include placed

lemma markBlob_eq (alloc : Alloc) (on : Bool) :
    alloc.markBlob cfg blob on = (blob.units cfg).foldl (markUnit on blob.adopted) alloc := by
  have inside : ∀ extent ∈ blob.extents,
      (extent.units cfg).filter (· < cfg.units) = extent.units cfg := by
    intro extent mem
    rw [filter_eq_self]
    intro unit touched
    exact decide_eq_true (extent_units_lt (placed.filled extent mem) (placed.inside extent mem) touched)
  unfold markBlob BlobRec.units
  rw [foldl_flatMap]
  refine foldl_ext _ _ _ fun alloc extent mem => ?_
  rw [markRange, inside extent mem]

lemma markBlob_on_refs (room : alloc.refs unit < 255) : (alloc.markBlob cfg blob true).refs unit =
      alloc.refs unit + if unit ∈ blob.units cfg then 1 else 0 := by
  rw [markBlob_eq placed, (foldl_markUnit true _ placed.apart alloc unit).1, markUnit_refs]
  split
  · rw [if_pos rfl, if_pos rfl]
    omega
  · rw [Nat.add_zero]

lemma markBlob_off_refs (alloc : Alloc) (unit : Nat) : (alloc.markBlob cfg blob false).refs unit =
      alloc.refs unit - if unit ∈ blob.units cfg then 1 else 0 := by
  rw [markBlob_eq placed, (foldl_markUnit false _ placed.apart alloc unit).1, markUnit_refs]
  split <;> simp

lemma markBlob_on_adopted (alloc : Alloc) (unit : Nat) : (alloc.markBlob cfg blob true).adopted unit =
      (alloc.adopted unit || blob.adopted && decide (unit ∈ blob.units cfg)) := by
  rw [markBlob_eq placed, (foldl_markUnit true _ placed.apart alloc unit).2, markUnit_adopted]
  by_cases touched : unit ∈ blob.units cfg
  · have used : (alloc.markUnit true blob.adopted unit).unitUsed unit = true := by
      rw [unitUsed, markUnit_refs, if_pos rfl, if_pos rfl, decide_eq_true_eq]
      omega
    simp [touched, used, Bool.or_comm]
  · simp [touched]

lemma markBlob_off_adopted (alloc : Alloc) (unit : Nat) : (alloc.markBlob cfg blob false).adopted unit =
      if unit ∈ blob.units cfg then alloc.adopted unit && decide (1 < alloc.refs unit)
      else alloc.adopted unit := by
  rw [markBlob_eq placed, (foldl_markUnit false _ placed.apart alloc unit).2, markUnit_adopted,
    unitUsed, markUnit_refs]
  by_cases touched : unit ∈ blob.units cfg
  · have more : 0 < alloc.refs unit - 1 ↔ 1 < alloc.refs unit := by omega
    simp only [if_true, Bool.and_false, Bool.false_or, Bool.false_eq_true, if_false, more]
  · simp [touched]

omit placed

lemma foldl_setUnit_off (apart : units.Nodup) (alloc : Alloc) (unit : Nat) :
    (units.foldl (fun alloc unit => alloc.setUnit unit false) alloc).refs unit =
        alloc.refs unit - (if unit ∈ units then 1 else 0) ∧
      (units.foldl (fun alloc unit => alloc.setUnit unit false) alloc).adopted unit =
        alloc.adopted unit := by
  induction units generalizing alloc with
  | nil => simp
  | cons first rest ih =>
    obtain ⟨absent, apart⟩ := nodup_cons.mp apart
    obtain ⟨refs, marks⟩ := ih apart (alloc.setUnit first false)
    rw [foldl_cons, refs, marks]
    by_cases same : unit = first
    · subst same
      simp [absent, setUnit]
    · simp [same, setUnit]

/-! ### Finding a unit -/

/-- What the loop of `largestRun` has found: the current run and the best one are free. -/
structure RunsFree (alloc : Alloc) (upTo : Nat) (found : Nat × Nat × Nat) : Prop where
  run_le : found.2.2 ≤ upTo
  run_free : ∀ unit, upTo - found.2.2 ≤ unit → unit < upTo → alloc.unitUsed unit = false
  best_free : found.1 ≠ 0 → found.2.1 < upTo ∧ alloc.unitUsed found.2.1 = false

/-- One turn of the loop of `largestRun`. -/
lemma RunsFree.step {upTo : Nat} {found : Nat × Nat × Nat} (free : RunsFree alloc upTo found) :
    RunsFree alloc (upTo + 1) (largestRunStep alloc found upTo) := by
  obtain ⟨_, _, run⟩ := found
  have shorter := free.run_le
  unfold largestRunStep
  dsimp only
  split
  · refine ⟨Nat.zero_le _, fun unit _ _ => by dsimp only at *; omega, fun some => ?_⟩
    exact ⟨Nat.lt_succ_of_lt (free.best_free some).1, (free.best_free some).2⟩
  rename_i unused
  rw [Bool.not_eq_true] at unused
  have longer : ∀ unit, upTo + 1 - (run + 1) ≤ unit → unit < upTo + 1 →
      alloc.unitUsed unit = false := by
    intro unit above below
    by_cases last : unit = upTo
    · rw [last]
      exact unused
    · exact free.run_free unit (by dsimp only; omega) (by omega)
  split
  · refine ⟨Nat.succ_le_succ shorter, longer, fun _ => ?_⟩
    exact ⟨by dsimp only; omega, longer _ (by dsimp only; omega) (by dsimp only; omega)⟩
  · refine ⟨Nat.succ_le_succ shorter, longer, fun some => ?_⟩
    exact ⟨Nat.lt_succ_of_lt (free.best_free some).1, (free.best_free some).2⟩

lemma largestRun_free (alloc : Alloc) (upTo : Nat) :
    RunsFree alloc upTo ((List.range upTo).foldl (largestRunStep alloc) (0, 0, 0)) := by
  induction upTo with
  | zero => exact ⟨Nat.le_refl 0, fun _ _ below => absurd below (Nat.not_lt_zero _), nofun⟩
  | succ upTo ih =>
    rw [range_succ, foldl_append]
    exact ih.step

lemma freshUnit_free (found : freshUnit cfg alloc = some unit) :
    unit < cfg.units ∧ alloc.unitUsed unit = false := by
  unfold freshUnit at found
  split at found
  · unfold firstFree at found
    have free := find?_some found
    have mem := mem_of_find?_eq_some found
    rw [mem_range] at mem
    exact ⟨mem, by simpa using free⟩
  dsimp only at found
  split at found
  · cases found
  rename_i some
  cases found
  exact (largestRun_free alloc cfg.units).best_free some

end WantedEngine.Registry.Page
