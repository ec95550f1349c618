import WantedEngine.Foundation.FirstMax
import WantedEngine.Registry.Entries
import Mathlib.Data.List.Nodup
import Mathlib.Order.Nat
/-!
# What a reference finds

`listKeys` gives the keys of the entries in sort order, and a reference without a version takes
the newest entry of its name, the first in sort order among entries that tie. Here the sort is
shown to be one, the scan of `resolve` to be the first maximum of the entries of the name, and
both are said of the registry's own tables, for every store.
-/
namespace WantedEngine.Registry

open Foundation List

/-! ### The order of keys -/

lemma keyBefore_irrefl (key : Key) : keyBefore key key = false := by
  simp [keyBefore]

variable {name : Bytes} {a b : Key}

lemma keyBefore_total (differ : a ≠ b) : keyBefore a b = true ∨ keyBefore b a = true := by
  simp only [keyBefore, decide_eq_true_eq]
  by_cases less : a.name < b.name
  · exact .inl (.inl less)
  by_cases more : b.name < a.name
  · exact .inr (.inl more)
  have name := List.le_antisymm (List.not_lt.mp more) (List.not_lt.mp less)
  by_cases older : a.version < b.version
  · exact .inl (.inr ⟨name, older⟩)
  by_cases newer : b.version < a.version
  · exact .inr (.inr ⟨name.symm, newer⟩)
  have version := List.le_antisymm (List.not_lt.mp newer) (List.not_lt.mp older)
  exact absurd (by cases a; cases b; simp_all) differ

lemma keyBefore_trans {a b c : Key} (first : keyBefore a b = true)
    (second : keyBefore b c = true) : keyBefore a c = true := by
  simp only [keyBefore, decide_eq_true_eq] at *
  rcases first with less | ⟨same, less⟩
  · rcases second with less' | ⟨same', _⟩
    · exact .inl (List.lt_trans less less')
    · exact .inl (same' ▸ less)
  · rcases second with less' | ⟨same', less'⟩
    · exact .inl (same ▸ less')
    · exact .inr ⟨same.trans same', List.lt_trans less less'⟩

lemma keyBefore_asymm (before : keyBefore a b = true) : keyBefore b a = false := by
  by_contra after
  have self := keyBefore_trans before (eq_true_of_ne_false after)
  rw [keyBefore_irrefl] at self
  cases self

lemma keyBefore_of_bare (bare : a.version = []) (name : a.name = b.name)
    (differ : a ≠ b) : keyBefore a b = true := by
  rcases keyBefore_total differ with before | after
  · exact before
  · simp only [keyBefore, bare, List.not_lt_nil, and_false, or_false, decide_eq_true_eq, name,
      List.lt_irrefl] at after

/-- Keys in sort order: none comes before one that stands earlier. -/
def SortedKeys (keys : List Key) : Prop :=
  keys.Pairwise fun earlier later => keyBefore later earlier = false

/-- An insertion keeps the keys. -/
lemma insertKey_perm (key : Key) (keys : List Key) : (insertKey key keys).Perm (key :: keys) := by
  induction keys with
  | nil => exact List.Perm.refl _
  | cons other rest ih =>
    rw [insertKey]
    split
    · exact List.Perm.refl _
    · exact (ih.cons other).trans (List.Perm.swap key other rest)

lemma insertKey_sorted (key : Key) {keys : List Key} (sorted : SortedKeys keys) :
    SortedKeys (insertKey key keys) := by
  induction keys with
  | nil => exact pairwise_singleton _ _
  | cons other rest ih =>
    obtain ⟨first, later⟩ := pairwise_cons.mp sorted
    rw [insertKey]
    by_cases before : keyBefore key other = true
    · rw [if_pos before]
      refine pairwise_cons.mpr ⟨forall_mem_cons.mpr ⟨keyBefore_asymm before, ?_⟩, sorted⟩
      intro after mem
      -- what comes before the key would come before the first of the list
      by_contra earlier
      have both := keyBefore_trans (eq_true_of_ne_false earlier) before
      rw [first after mem] at both
      cases both
    · rw [if_neg before]
      refine pairwise_cons.mpr ⟨?_, ih later⟩
      intro after mem
      rcases mem_cons.mp ((insertKey_perm key rest).mem_iff.mp mem) with rfl | mem
      · exact Bool.eq_false_iff.mpr before
      · exact first after mem

lemma sortKeys_perm (keys : List Key) : (sortKeys keys).Perm keys := by
  have fold : ∀ sorted, (keys.foldl (fun sorted key => insertKey key sorted) sorted).Perm
      (keys ++ sorted) := by
    induction keys with
    | nil => exact fun sorted => List.Perm.refl _
    | cons key rest ih =>
      intro sorted
      have inserted := (ih (insertKey key sorted)).trans
        (List.Perm.append_left rest (insertKey_perm key sorted))
      exact inserted.trans perm_middle
  have whole := fold []
  rwa [append_nil] at whole

lemma sortKeys_sorted (keys : List Key) : SortedKeys (sortKeys keys) := by
  have fold : ∀ sorted, SortedKeys sorted →
      SortedKeys (keys.foldl (fun sorted key => insertKey key sorted) sorted) := by
    induction keys with
    | nil => exact fun _ isSorted => isSorted
    | cons key rest ih => exact fun sorted isSorted => ih _ (insertKey_sorted key isSorted)
  exact fold [] List.Pairwise.nil

/-! ### The keys of a registry -/

variable {σ : Type} {sys : System σ} {keys : List Key} {key : Key} {r : State σ} {record : Meta}

variable {resident : List Resident}

lemma mem_addResidentKeys :
    key ∈ addResidentKeys resident keys ↔ key ∈ keys ∨ ∃ image ∈ resident, image.key = key := by
  induction resident generalizing keys with
  | nil => simp [addResidentKeys]
  | cons image rest ih =>
    rw [addResidentKeys, foldl_cons, ← addResidentKeys, ih]
    by_cases known : image.key ∈ keys
    · have listed : image.key = key → key ∈ keys := fun same => same ▸ known
      rw [if_pos known, exists_mem_cons_iff, ← or_assoc, or_iff_left_of_imp listed]
    rw [if_neg known]
    simp only [mem_append, mem_singleton, exists_mem_cons_iff, or_assoc, eq_comm]

lemma addResidentKeys_nodup (once : keys.Nodup) : (addResidentKeys resident keys).Nodup := by
  induction resident generalizing keys with
  | nil => exact once
  | cons image rest ih =>
    rw [addResidentKeys, foldl_cons]
    by_cases known : image.key ∈ keys
    · rw [if_pos known]
      exact ih once
    · rw [if_neg known]
      exact ih (concat_eq_append ▸ Nodup.concat known once)

lemma listKeys_spec (listed : listKeys sys r = .ok keys) :
    ∃ stored, primaryList sys r = .ok stored ∧ SortedKeys keys ∧
      (∀ key, key ∈ keys ↔
        key ∈ stored.take registryMaxEntries ∨ ∃ image ∈ r.resident, image.key = key) ∧
      (stored.Nodup → keys.Nodup) := by
  unfold listKeys at listed
  split at listed
  · cases listed
  rename_i stored found
  cases listed
  refine ⟨stored, found, sortKeys_sorted _, fun key => ?_, fun once => ?_⟩
  · rw [(sortKeys_perm _).mem_iff, mem_addResidentKeys]
  · rw [(sortKeys_perm _).nodup_iff]
    exact addResidentKeys_nodup (once.sublist (take_sublist _ _))

/-- The entries that a scan for a name reads. -/
def candidates (sys : System σ) (r : State σ) (name : Bytes) (keys : List Key) : List (Key × Meta) :=
  keys.filterMap fun key =>
    if key.name = name then (readMeta sys r key).toOption.map fun record => (key, record) else none

def sequence (entry : Key × Meta) : Nat := entry.2.installSeq.toNat

/-- The candidates are the readable entries of the name. -/
lemma mem_candidates : (key, record) ∈ candidates sys r name keys ↔
      key ∈ keys ∧ key.name = name ∧ readMeta sys r key = .ok record := by
  rw [candidates, mem_filterMap]
  constructor
  · rintro ⟨other, mem, found⟩
    split at found
    · rename_i named
      cases read : readMeta sys r other with
      | error e =>
        rw [read] at found
        cases found
      | ok candidate =>
        rw [read] at found
        cases found
        exact ⟨mem, named, read⟩
    · cases found
  · rintro ⟨mem, named, read⟩
    exact ⟨key, mem, by rw [if_pos named, read]; rfl⟩

lemma newestOf_eq_foldl (r : State σ) (name : Bytes) (best : Option (Key × Meta)) (keys : List Key) :
    newestOf sys r name best keys =
      (candidates sys r name keys).foldl (argAux fun b c => sequence c < sequence b) best := by
  induction keys generalizing best with
  | nil =>
    cases best <;> rfl
  | cons key rest ih =>
    rw [newestOf, candidates, filterMap_cons]
    by_cases named : key.name = name
    case neg =>
      rw [if_pos named, if_neg named]
      exact ih best
    rw [if_neg (not_not_intro named), if_pos named]
    cases read : readMeta sys r key with
    | error e => exact ih best
    | ok candidate =>
      cases best with
      | none => exact ih (some (key, candidate))
      | some found =>
        simp only [ih]
        exact (apply_ite (foldl _ · _) _ _ _).symm

lemma resolve_bare (listed : listKeys sys r = .ok keys) (name : Bytes) : resolve sys r ⟨name, []⟩ =
      match (candidates sys r name keys).argmax sequence with
      | none => .error .enoent
      | some found => .ok found := by
  rw [resolve, listed]
  dsimp only
  rw [newestOf_eq_foldl]
  rfl

lemma candidates_sublist (sys : System σ) (r : State σ) (name : Bytes) (keys : List Key) :
    ((candidates sys r name keys).map Prod.fst).Sublist keys := by
  induction keys with
  | nil => exact List.Sublist.refl _
  | cons key rest ih =>
    rw [candidates, filterMap_cons]
    by_cases named : key.name = name
    · rw [if_pos named]
      cases read : readMeta sys r key with
      | error e => exact ih.cons key
      | ok record => exact ih.cons_cons key
    · rw [if_neg named]
      exact ih.cons key

lemma candidates_sorted (sys : System σ) (r : State σ) (name : Bytes) (sorted : SortedKeys keys) :
    (candidates sys r name keys).Pairwise
      fun earlier later => keyBefore later.1 earlier.1 = false :=
  pairwise_map.mp (sorted.sublist (candidates_sublist sys r name keys))

/-- What a bare name resolves to has the greatest sequence among the readable entries of the name,
and comes first in sort order among those that tie. -/
lemma resolve_bare_max (listed : listKeys sys r = .ok keys) (sorted : SortedKeys keys)
    (resolved : resolve sys r ⟨name, []⟩ = .ok (key, record)) :
    key ∈ keys ∧ key.name = name ∧ readMeta sys r key = .ok record ∧
      ∀ other old, other ∈ keys → other.name = name → readMeta sys r other = .ok old →
        other ≠ key → old.installSeq.toNat < record.installSeq.toNat ∨
          (old.installSeq.toNat = record.installSeq.toNat ∧ keyBefore key other = true) := by
  rw [resolve_bare listed] at resolved
  cases best : (candidates sys r name keys).argmax sequence with
  | none =>
    rw [best] at resolved
    cases resolved
  | some found =>
    rw [best] at resolved
    cases resolved
    obtain ⟨_, _, split, lighter, heavier⟩ := argmax_split best
    have isCandidate : (key, record) ∈ candidates sys r name keys := by
      rw [split]
      simp
    obtain ⟨mem, named, read⟩ := mem_candidates.mp isCandidate
    refine ⟨mem, named, read, ?_⟩
    intro other old isKey otherNamed otherRead differ
    have isOther := mem_candidates.mpr ⟨isKey, otherNamed, otherRead⟩
    have order := candidates_sorted sys r name sorted
    rw [split, mem_append, mem_cons] at isOther
    rcases isOther with early | isFound | late
    · exact .inl (lighter _ early)
    · cases isFound
      exact absurd rfl differ
    have most := heavier _ late
    rcases Nat.lt_or_eq_of_le most with less | tie
    · exact .inl less
    refine .inr ⟨tie, ?_⟩
    rw [split, pairwise_append] at order
    have notBefore := (pairwise_cons.mp order.2.1).1 _ late
    rcases keyBefore_total differ with isBefore | isAfter
    · rw [notBefore] at isBefore
      cases isBefore
    · exact isAfter

lemma resolve_bare_or (listed : listKeys sys r = .ok keys) (name : Bytes) :
    (∃ key record, resolve sys r ⟨name, []⟩ = .ok (key, record)) ∨
      (resolve sys r ⟨name, []⟩ = .error .enoent ∧
        ∀ key ∈ keys, key.name = name → ∀ record, readMeta sys r key ≠ .ok record) := by
  rw [resolve_bare listed]
  cases best : (candidates sys r name keys).argmax sequence with
  | some found => exact .inl ⟨found.1, found.2, rfl⟩
  | none =>
    refine .inr ⟨rfl, ?_⟩
    intro key mem named record read
    have isCandidate := mem_candidates.mpr ⟨mem, named, read⟩
    rw [argmax_eq_none.mp best] at isCandidate
    cases isCandidate

lemma resolve_reads {want : Key} (resolved : resolve sys r want = .ok (key, record)) :
    key.name = want.name ∧ readMeta sys r key = .ok record ∧ (want.version ≠ [] → key = want) := by
  by_cases bare : want.version = []
  · cases listed : listKeys sys r with
    | error e =>
      rw [resolve, if_neg (not_not_intro bare), listed] at resolved
      cases resolved
    | ok keys =>
      obtain ⟨-, -, sorted, -⟩ := listKeys_spec listed
      have isBare : want = ⟨want.name, []⟩ := by rw [← bare]
      rw [isBare] at resolved
      obtain ⟨-, named, read, -⟩ := resolve_bare_max listed sorted resolved
      exact ⟨named, read, fun versioned => absurd bare versioned⟩
  · rw [resolve, if_pos bare] at resolved
    cases read : readMeta sys r want with
    | error e =>
      rw [read] at resolved
      cases resolved
    | ok found =>
      rw [read] at resolved
      cases resolved
      exact ⟨rfl, read, fun _ => rfl⟩

lemma resolve_full (resolved : resolve sys r ⟨name, []⟩ = .ok (key, record)) :
    resolve sys r key = .ok (key, record) := by
  obtain ⟨named, read, -⟩ := resolve_reads resolved
  by_cases unversioned : key.version = []
  · have self : key = ⟨name, []⟩ := by rw [← unversioned, ← show key.name = name from named]
    rw [self] at resolved ⊢
    exact resolved
  · rw [resolve, if_pos unversioned, read]
    rfl

end WantedEngine.Registry
