import WantedEngine.Vfs.TarBounds
import Mathlib.Data.List.GetD
/-!
# Lookups in a sorted index

The binary searches of `vfs-tarfs.c` find what they look for: on an index in the order of
`indexCmp`, `indexContains`, `indexHasKind` and `findExact` answer as a search through all entries
would, and so does `coveredByNewer`.
-/
namespace WantedEngine.Vfs

open List Nat

/-- The order of `indexCmp`: by path, a file before a marker. -/
def TarEntry.Before (a b : TarEntry) : Prop :=
  a.path < b.path ∨ a.path = b.path ∧ (a.isMarker → b.isMarker)

/-- An index in the order of `indexCmp`. -/
def Ordered (index : List TarEntry) : Prop := index.Pairwise TarEntry.Before

/-- The path at a place, as the searches read it. -/
def pathAt (index : List TarEntry) (pos : Nat) : Bytes :=
  (index.getD pos ⟨[], .opq, 0, 0⟩).path

variable {index : List TarEntry} {key : Bytes}

/-- Paths do not fall along the order. -/
lemma TarEntry.Before.path_le {a b : TarEntry} (before : a.Before b) : a.path ≤ b.path := by
  obtain less | ⟨same, -⟩ := before
  · exact List.le_of_lt less
  · rw [same]
    exact List.le_refl _

lemma TarEntry.Before.trans {a b c : TarEntry} (first : a.Before b) (second : b.Before c) :
    a.Before c := by
  obtain less | ⟨same, marker⟩ := first
  · exact .inl (Std.lt_of_lt_of_le less second.path_le)
  obtain later | ⟨same', marker'⟩ := second
  · left
    rw [same]
    exact later
  · exact .inr ⟨same.trans same', fun marked => marker' (marker marked)⟩

lemma TarEntry.Before.total (a b : TarEntry) : a.Before b ∨ b.Before a := by
  by_cases less : a.path < b.path
  · exact .inl (.inl less)
  by_cases more : b.path < a.path
  · exact .inr (.inl more)
  have same := List.le_antisymm (List.not_lt.mp more) (List.not_lt.mp less)
  cases marked : a.isMarker with
  | false => exact .inl (.inr ⟨same, fun marker => by cases marked.symm.trans marker⟩)
  | true => exact .inr (.inr ⟨same.symm, fun _ => marked⟩)

lemma ordered_sortIndex (c : TarCtx) : Ordered ((sortIndex c).index.map (·.entry)) := by
  have : Std.Total indexLe := ⟨fun a b => TarEntry.Before.total a.entry b.entry⟩
  have : IsTrans Placed indexLe := ⟨fun _ _ _ first second => TarEntry.Before.trans first second⟩
  exact pairwise_map.mpr (pairwise_insertionSort indexLe c.index)

/-! ### Binary searches -/

lemma exists_pathAt (each : TarEntry → Prop) : (∃ entry ∈ index, each entry) ↔
      ∃ pos < index.length, each (index.getD pos ⟨[], .opq, 0, 0⟩) := by
  constructor
  · rintro ⟨entry, mem, holds⟩
    obtain ⟨pos, inside, rfl⟩ := getElem_of_mem mem
    refine ⟨pos, inside, ?_⟩
    rw [getD_eq_getElem _ _ inside]
    exact holds
  · rintro ⟨pos, inside, holds⟩
    rw [getD_eq_getElem _ _ inside] at holds
    exact ⟨index[pos], getElem_mem inside, holds⟩

variable (ordered : Ordered index)
include ordered

lemma Ordered.pathAt_le {first second : Nat} (order : first ≤ second)
    (inside : second < index.length) : pathAt index first ≤ pathAt index second := by
  have inside' := lt_of_le_of_lt order inside
  rw [pathAt, pathAt, getD_eq_getElem _ _ inside, getD_eq_getElem _ _ inside']
  obtain less | rfl := lt_or_eq_of_le order
  · exact (List.pairwise_iff_getElem.mp ordered first second inside' inside less).path_le
  · exact List.le_refl _

lemma lowerBoundFrom_spec (fuel low high : Nat) (enough : high - low < fuel)
    (range : low ≤ high ∧ high ≤ index.length) (below : ∀ pos < low, pathAt index pos < key)
    (above : ∀ pos, high ≤ pos → pos < index.length → key ≤ pathAt index pos) :
    (∀ pos < lowerBoundFrom index key fuel low high, pathAt index pos < key) ∧
      ∀ pos, lowerBoundFrom index key fuel low high ≤ pos → pos < index.length →
        key ≤ pathAt index pos := by
  induction fuel generalizing low high with
  | zero => omega
  | succ fuel ih =>
    rw [lowerBoundFrom]
    split
    · rename_i more
      dsimp only
      split
      · -- the middle is below the key, and with it all before
        rename_i less
        apply ih (low + (high - low) / 2 + 1) high (by omega) (by omega) _ above
        intro pos before
        exact Std.lt_of_le_of_lt (ordered.pathAt_le (le_of_lt_succ before) (by omega)) less
      · rename_i notLess
        apply ih low (low + (high - low) / 2) (by omega) (by omega) below
        intro pos after within
        exact List.le_trans (List.not_lt.mp notLess) (ordered.pathAt_le after within)
    · rename_i done
      have same : low = high := by omega
      exact ⟨below, fun pos after within => above pos (same ▸ after) within⟩

lemma lowerBound_spec (key : Bytes) : (∀ pos < lowerBound index key, pathAt index pos < key) ∧
      ∀ pos, lowerBound index key ≤ pos → pos < index.length → key ≤ pathAt index pos := by
  apply lowerBoundFrom_spec ordered _ _ _ (by omega) ⟨zero_le _, le_refl _⟩
  · intro pos impossible
    cases impossible
  · intro pos after within
    omega

/-- Above a key, the entries at the key come first. -/
lemma takeWhile_path (above : ∀ entry ∈ index, key ≤ entry.path) :
    index.takeWhile (·.path = key) = index.filter (·.path = key) := by
  induction index with
  | nil => rfl
  | cons first rest ih =>
    obtain ⟨before, orderedRest⟩ := pairwise_cons.mp ordered
    obtain ⟨upper, aboveRest⟩ := forall_mem_cons.mp above
    by_cases same : first.path = key
    · rw [takeWhile_cons_of_pos (by simp [same]), filter_cons_of_pos (by simp [same]),
        ih orderedRest aboveRest]
    -- the first path is above the key, and so are all that follow
    have apart : ∀ other ∈ rest, ¬ other.path = key := by
      intro other later here
      have lower := (before other later).path_le
      rw [here] at lower
      exact same (List.le_antisymm lower upper)
    rw [takeWhile_cons_of_neg (by simp [same]), filter_cons_of_neg (by simp [same]),
      filter_eq_nil_iff.mpr (by simpa using apart)]

/-- What a search finds: all entries at the path. -/
lemma takeWhile_lowerBound (key : Bytes) :
    (index.drop (lowerBound index key)).takeWhile (·.path = key) = index.filter (·.path = key) := by
  obtain ⟨below, above⟩ := lowerBound_spec ordered key
  have early : (index.take (lowerBound index key)).filter (·.path = key) = [] := by
    rw [filter_eq_nil_iff]
    intro entry mem same
    obtain ⟨pos, inside, rfl⟩ := mem_take_iff_getElem.mp mem
    have less := below pos (by omega)
    rw [pathAt, getD_eq_getElem _ _ (by omega), of_decide_eq_true same] at less
    exact List.lt_irrefl _ less
  have late : ∀ entry ∈ index.drop (lowerBound index key), key ≤ entry.path := by
    intro entry mem
    obtain ⟨offset, inside, rfl⟩ := mem_drop_iff_getElem.mp mem
    have upper := above (lowerBound index key + offset) (le_add_right _ _) (by omega)
    rw [pathAt, getD_eq_getElem _ _ (by omega)] at upper
    exact upper
  rw [takeWhile_path (ordered.sublist (drop_sublist _ _)) late]
  nth_rewrite 3 [← take_append_drop (lowerBound index key) index]
  rw [filter_append, early, nil_append]

lemma indexHasKind_iff (kind : EntryLayer) : indexHasKind index key kind = true ↔
      ∃ entry ∈ index, entry.path = key ∧ entry.layer = kind := by
  rw [indexHasKind, takeWhile_lowerBound ordered, any_eq_true]
  simp only [mem_filter, decide_eq_true_eq, and_assoc]

lemma containsFrom_iff (fuel low high : Nat) (enough : high - low < fuel)
    (range : low ≤ high ∧ high ≤ index.length) :
    containsFrom index key fuel low high = true ↔
      ∃ pos, low ≤ pos ∧ pos < high ∧ pathAt index pos = key := by
  induction fuel generalizing low high with
  | zero => omega
  | succ fuel ih =>
    rw [containsFrom]
    split
    · rename_i more
      have inside : low + (high - low) / 2 < high := by omega
      change (if pathAt index (low + (high - low) / 2) < key then _
        else if key < pathAt index (low + (high - low) / 2) then _ else _) = true ↔ _
      split
      · rename_i less
        rw [ih _ _ (by omega) (by omega)]
        constructor
        · rintro ⟨pos, after, before, here⟩
          exact ⟨pos, by omega, before, here⟩
        rintro ⟨pos, after, before, here⟩
        refine ⟨pos, ?_, before, here⟩
        by_contra early
        have order := ordered.pathAt_le (Nat.le_of_lt_succ (Nat.lt_of_not_le early)) (by omega)
        rw [here] at order
        exact List.lt_irrefl _ (Std.lt_of_le_of_lt order less)
      · split
        · rename_i greater
          rw [ih _ _ (by omega) (by omega)]
          constructor
          · rintro ⟨pos, after, before, here⟩
            exact ⟨pos, after, by omega, here⟩
          rintro ⟨pos, after, before, here⟩
          refine ⟨pos, after, ?_, here⟩
          by_contra late
          have order := ordered.pathAt_le (Nat.le_of_not_lt late) (by omega)
          rw [here] at order
          exact List.lt_irrefl _ (Std.lt_of_lt_of_le greater order)
        · rename_i notLess notGreater
          have here := List.le_antisymm (List.not_lt.mp notGreater) (List.not_lt.mp notLess)
          simp only [true_iff]
          exact ⟨low + (high - low) / 2, by omega, inside, here⟩
    · rename_i done
      simp only [Bool.false_eq_true, false_iff]
      rintro ⟨pos, after, before, -⟩
      omega

lemma indexContains_iff : indexContains index key = true ↔ ∃ entry ∈ index, entry.path = key := by
  rw [indexContains, containsFrom_iff ordered _ _ _ (by omega) ⟨zero_le _, le_refl _⟩,
    exists_pathAt (·.path = key)]
  constructor
  · rintro ⟨pos, -, inside, here⟩
    exact ⟨pos, inside, here⟩
  · rintro ⟨pos, inside, here⟩
    exact ⟨pos, zero_le _, inside, here⟩

lemma findExact_eq : findExact index key = index.find? (·.path = key) := by
  rw [findExact, ← head?_drop, ← head?_takeWhile, takeWhile_lowerBound ordered, head?_filter]

/-- Where there is a file, a file is found. -/
lemma findExact_file {entry : TarEntry} (mem : entry ∈ index) {number : Nat}
    (file : entry.layer = .layer number) :
    ∃ found, found ∈ index ∧ findExact index entry.path = some found ∧ found.path = entry.path ∧
      ∃ own, found.layer = .layer own := by
  obtain ⟨found, isFound⟩ : ∃ found, findExact index entry.path = some found := by
    rw [findExact_eq ordered, ← Option.isSome_iff_exists, find?_isSome]
    exact ⟨entry, mem, decide_eq_true rfl⟩
  have first := isFound
  rw [findExact_eq ordered, find?_eq_some_iff_append] at first
  obtain ⟨same, front, rest, rfl, apart⟩ := first
  refine ⟨found, by simp, isFound, of_decide_eq_true same, ?_⟩
  have unmarked : found.isMarker = true → entry.isMarker = true := by
    obtain early | rfl | late :=
      (by simpa using mem : entry ∈ front ∨ entry = found ∨ entry ∈ rest)
    · simpa using apart entry early
    · exact id
    · obtain less | ⟨-, marker⟩ :=
        (pairwise_cons.mp (pairwise_append.mp ordered).2.1).1 entry late
      · rw [of_decide_eq_true same] at less
        exact absurd less (List.lt_irrefl _)
      · exact marker
  rw [TarEntry.isMarker, TarEntry.isMarker, file] at unmarked
  cases kind : found.layer with
  | layer own => exact ⟨own, rfl⟩
  | whiteout | opq => simp [kind] at unmarked

omit ordered

/-- In every sorted index, the binary search for a path finds what a scan finds. -/
theorem findExact_sortIndex (c : TarCtx) : findExact ((sortIndex c).index.map (·.entry)) key =
    ((sortIndex c).index.map (·.entry)).find? (·.path = key) := findExact_eq (ordered_sortIndex c)

/-! ### Covering -/

/-- An entry of a newer layer decides a path: it is at the path, it deletes a directory above, or it
is the mark of an opaque directory above. -/
def Covers (entry : TarEntry) (path : Bytes) : Prop :=
  entry.path = path ∨ entry.path = opaqueName ∧ entry.layer = .opq ∨
    ∃ dir rest, path = dir ++ slash :: rest ∧
      (entry.path = dir ∧ entry.layer = .whiteout ∨
        entry.path = dir ++ [slash] ++ opaqueName ∧ entry.layer = .opq)

/-- The slash at a place splits a path. -/
lemma eq_append_slash_iff {path : Bytes} {pos : Nat} (inside : pos < path.length) :
    path.getD pos 0 = slash ↔ ∃ rest, path = path.take pos ++ slash :: rest := by
  rw [getD_eq_getElem _ _ inside]
  constructor
  · intro here
    refine ⟨path.drop (pos + 1), ?_⟩
    rw [← here, getElem_cons_drop inside, take_append_drop]
  rintro ⟨rest, same⟩
  have length := length_take_of_le (Nat.le_of_lt inside)
  have found : path[pos]? = some slash := by
    rw [same, getElem?_append_right (Nat.le_of_eq length), length, Nat.sub_self]
    rfl
  exact (List.getElem?_eq_some_iff.mp found).2

lemma coveredByNewer_iff (ordered : Ordered index) {path : Bytes} (short : path.length ≤ 498) :
    coveredByNewer index path = true ↔ ∃ entry ∈ index, Covers entry path := by
  have room : ∀ pos < path.length, pos + (opaqueName.length + 1) + 1 < probeMax := by
    have mark : opaqueName.length = 12 := by decide
    rw [mark, probeMax]
    omega
  rw [coveredByNewer]
  simp only [decide_eq_true_eq, indexContains_iff ordered, indexHasKind_iff ordered,
    any_eq_true, mem_range, probeCovers, Covers]
  constructor
  · rintro (⟨entry, mem, here⟩ | ⟨entry, mem, here⟩ | ⟨pos, inside, at_slash, -, probe⟩)
    · exact ⟨entry, mem, Or.inl here⟩
    · exact ⟨entry, mem, Or.inr (.inl here)⟩
    obtain ⟨rest, same⟩ := (eq_append_slash_iff inside).mp at_slash
    obtain ⟨entry, mem, here⟩ | ⟨entry, mem, here⟩ := probe
    · exact ⟨entry, mem, Or.inr (.inr ⟨path.take pos, rest, same, Or.inl here⟩)⟩
    · exact ⟨entry, mem, Or.inr (.inr ⟨path.take pos, rest, same, Or.inr here⟩)⟩
  rintro ⟨entry, mem, here | here | ⟨dir, rest, rfl, probe⟩⟩
  · exact .inl ⟨entry, mem, here⟩
  · exact .inr (.inl ⟨entry, mem, here⟩)
  have inside : dir.length < (dir ++ slash :: rest).length := by simp
  have at_slash : (dir ++ slash :: rest).getD dir.length 0 = slash := by simp
  refine .inr (.inr ⟨dir.length, inside, at_slash, room _ inside, ?_⟩)
  rw [take_left]
  obtain here | here := probe
  · exact .inl ⟨entry, mem, here⟩
  · exact .inr ⟨entry, mem, here⟩

end WantedEngine.Vfs
