import WantedEngine.Registry.Holding
/-!
# The registry's invariant

`Sound` says that the stores are sound, that everything staged or mapped is present (in a
strict account), and that the registry's tables follow its stores: its stage is the primary
store's, and a store keeps a blob from being freed only for a mapping in the table. `Continues`
says that an operation ends in a sound state and made only calls the registry may make, with
the number of records it changed. Each function of the registry gets one lemma of that form.
-/
namespace WantedEngine.Registry

open List

variable {σ ν : Type} {sys : System σ} {abs : Reading σ ν} {strict : Prop}

/-- The stage a store must have for the registry's stage. -/
def stageView : Option Stage → StageView
  | none => .idle
  | some stage => if stage.err = none then .writing stage.taken else .broken

structure Sound (sys : System σ) (abs : Reading σ ν) (strict : Prop) (r : State σ) : Prop where
  stores : StoresSound sys abs strict r.resident r.stores
  pended : strict → ∀ layer, some layer ∈ r.pending →
    Present abs r.resident r.stores layer.digest
  mapped : strict → ∀ slot, some slot ∈ r.maps →
    Present abs r.resident r.stores slot.digest
  /-- A mapping is of the blob its slot names. -/
  handles : ∀ slot, some slot ∈ r.maps → slot.map.handle = slot.digest
  /-- The primary store has the registry's stage. -/
  stage : r.ready = true → ∀ p, r.stores.head? = some p →
    (abs.view p).stage = stageView r.stage
  /-- A blob is kept only for a mapping. -/
  busy : r.ready = true → ∀ pos store, r.stores[pos]? = some store →
    ∀ digest, abs.busy store digest →
      ∃ slot, some slot ∈ r.maps ∧ slot.store = some pos ∧ slot.digest = digest
  /-- Before the stores are started the tables are empty. -/
  unready : r.ready = false →
    r.stage = none ∧ (∀ slot ∈ r.pending, slot = none) ∧ ∀ slot ∈ r.maps, slot = none

/-- An operation ends in a sound state by calls the registry may make. -/
structure Continues (sys : System σ) (abs : Reading σ ν) (strict : Prop) (n : Nat)
    (r r' : State σ) : Prop where
  sound : Sound sys abs strict r'
  steps : Evolves sys abs strict r.resident r.stores n r'.stores
  resident : r'.resident = r.resident
  ready : r.ready = true → r'.ready = true

variable {r : State σ}

/-- An operation that does nothing. -/
lemma Sound.continues (sound : Sound sys abs strict r) :
    Continues sys abs strict 0 r r := ⟨sound, .refl, rfl, id⟩

variable {first second third : State σ} {lost : σ → List Digest} {digest : Digest}

lemma Continues.trans {n m : Nat} (before : Continues sys abs strict n first second)
    (after : Continues sys abs strict m second third) :
    Continues sys abs strict (n + m) first third :=
  ⟨after.sound, before.steps.trans (before.resident ▸ after.steps),
    after.resident.trans before.resident, after.ready ∘ before.ready⟩

lemma Continues.then {m : Nat} (before : Continues sys abs strict 0 first second)
    (after : Continues sys abs strict m second third) : Continues sys abs strict m first third :=
  Nat.zero_add m ▸ before.trans after

lemma Sound.tables (sound : Sound sys abs strict r) (ready : r.ready = true)
    (seq order : UInt32) (pending : List (Option Pending)) (maps : List (Option MapSlot))
    (pended : strict → ∀ layer, some layer ∈ pending →
      Present abs r.resident r.stores layer.digest) (mapped : ∀ slot, some slot ∈ maps →
      (strict → Present abs r.resident r.stores slot.digest) ∧
        slot.map.handle = slot.digest) (kept : ∀ slot, some slot ∈ r.maps →
      ∃ slot', some slot' ∈ maps ∧ slot'.store = slot.store ∧ slot'.digest = slot.digest) :
    Continues sys abs strict 0 r { r with seq, order, pending, maps } := by
  refine ⟨⟨sound.stores, pended, fun isStrict slot mem => (mapped slot mem).1 isStrict,
    fun slot mem => (mapped slot mem).2, sound.stage, ?_, ?_⟩, .refl, rfl, id⟩
  · intro _ pos store found digest busy
    obtain ⟨slot, mem, at_, of⟩ := sound.busy ready pos store found digest busy
    obtain ⟨slot', member', sameStore, sameDigest⟩ := kept slot mem
    exact ⟨slot', member', sameStore.trans at_, sameDigest.trans of⟩
  · intro unready
    rw [show r.ready = true from ready] at unready
    cases unready

lemma heldBy_map_iff {stores : List σ} {f : σ → σ}
    (freed : ∀ store ∈ stores, abs.Becomes store (f store)
      { abs.view store with blobs := without (abs.view store).blobs (lost store) })
    (digest : Digest) :
    HeldBy abs (stores.map f) digest ↔
      ∃ store ∈ stores, ((abs.view store).blobs digest).isSome ∧ digest ∉ lost store := by
  constructor
  · rintro ⟨_, mem, has⟩
    obtain ⟨store, isStore, rfl⟩ := mem_map.mp mem
    rw [(freed store isStore).view] at has
    by_cases gone : digest ∈ lost store
    · simp [without, gone] at has
    · simp only [without, if_neg gone] at has
      exact ⟨store, isStore, has, gone⟩
  · rintro ⟨store, isStore, has, stays⟩
    refine ⟨f store, mem_map_of_mem isStore, ?_⟩
    rw [(freed store isStore).view]
    simpa only [without, if_neg stays] using has

lemma held_iff (r : State σ) (digest : Digest) :
    held r digest = true ↔ (∃ layer, some layer ∈ r.pending ∧ layer.digest = digest) ∨
      ∃ slot, some slot ∈ r.maps ∧ slot.digest = digest := by
  simp [held, Option.any_eq_true]

/-- What `dropAllIfFree` frees: the digests that nothing lists, stages or maps. -/
def freeOnes (r : State σ) (refs digests : List Digest) : List Digest :=
  digests.filter fun digest => digest ∉ refs ∧ ¬ held r digest

/-- What is freed is not listed and in no table. -/
lemma freeOnes_unheld {refs digests : List Digest}
    (mem : digest ∈ freeOnes r refs digests) : digest ∉ refs ∧ held r digest = false := by
  simpa [freeOnes] using (mem_filter.mp mem).2

lemma dropAllIfFree_eq {digests refs : List Digest} (listing : listedDigests sys r = some refs) :
    dropAllIfFree sys r digests =
      { r with stores := r.stores.map (dropMany sys (freeOnes r refs digests)) } := by
  unfold dropAllIfFree
  split
  · rename_i none
    subst none
    have same : r.stores.map (dropMany sys []) = r.stores := map_id r.stores
    simp only [freeOnes, filter_nil, same]
  · rw [listing]
    dsimp only
    rw [foldl_map_dropFrom]
    rfl

lemma dropAllIfFree_short (digests : List Digest) (listing : listedDigests sys r = none) :
    dropAllIfFree sys r digests = r := by
  unfold dropAllIfFree
  split
  · rfl
  · rw [listing]

lemma dropAllIfFree_only (r : State σ) (digests : List Digest) :
    dropAllIfFree sys r digests = { r with stores := (dropAllIfFree sys r digests).stores } := by
  unfold dropAllIfFree
  split
  · rfl
  split <;> rfl

lemma Sound.not_busy (sound : Sound sys abs strict r) (ready : r.ready = true)
    (free : held r digest = false) {store : σ} (mem : store ∈ r.stores) :
    ¬ abs.busy store digest := by
  intro busy
  obtain ⟨pos, found⟩ := getElem?_of_mem mem
  obtain ⟨slot, isSlot, _, same⟩ := sound.busy ready pos store found digest busy
  have isHeld := (held_iff r digest).mpr (.inr ⟨slot, isSlot, same⟩)
  rw [free] at isHeld
  cases isHeld

variable [DecidableEq ν]

variable (laws : Contract sys.ops abs) (sound : Sound sys abs strict r)
include laws sound

lemma Sound.trimmed {f : σ → σ} (freed : ∀ store ∈ r.stores, abs.Becomes store (f store)
      { abs.view store with blobs := without (abs.view store).blobs (lost store) })
    (calls : ∀ store ∈ r.stores, Relation.ReflTransGen
      (Act sys abs strict (Lists sys.cfg (recordsOf abs r.stores))) store (f store))
    (unpended : ∀ layer, some layer ∈ r.pending → ∀ store ∈ r.stores, layer.digest ∉ lost store)
    (unmapped : ∀ slot, some slot ∈ r.maps → ∀ store ∈ r.stores, slot.digest ∉ lost store) :
    Continues sys abs strict 0 r { r with stores := r.stores.map f } := by
  have steps : Evolves sys abs strict r.resident r.stores 0 (r.stores.map f) :=
    Evolves.map laws [] r.stores sound.stores.good calls
  have stays : ∀ digest, Present abs r.resident r.stores digest →
      (∀ store ∈ r.stores, digest ∉ lost store) →
      Present abs r.resident (r.stores.map f) digest := by
    intro digest present other
    refine present.imp id fun held => (heldBy_map_iff freed digest).mpr ?_
    obtain ⟨store, mem, has⟩ := held
    exact ⟨store, mem, has, other store mem⟩
  refine ⟨⟨steps.sound laws sound.stores, ?_, ?_, sound.handles, ?_, ?_, sound.unready⟩, steps, rfl, id⟩
  · exact fun isStrict layer mem =>
      stays _ (sound.pended isStrict layer mem) (unpended layer mem)
  · exact fun isStrict slot mem =>
      stays _ (sound.mapped isStrict slot mem) (unmapped slot mem)
  · intro ready p head
    rw [head?_map, Option.map_eq_some_iff] at head
    obtain ⟨store, head, rfl⟩ := head
    rw [(freed store (mem_of_mem_head? head)).view]
    exact sound.stage ready store head
  · intro ready pos store found digest busy
    rw [getElem?_map, Option.map_eq_some_iff] at found
    obtain ⟨before, found, rfl⟩ := found
    exact sound.busy ready pos before found digest
      ((freed before (mem_of_getElem? found)).busy digest busy)

lemma Sound.freed (ready : r.ready = true) (refs digests : List Digest) :
    ∀ store ∈ r.stores, abs.Becomes store
      (dropMany sys (freeOnes r refs digests) store)
      { abs.view store with
        blobs := without (abs.view store).blobs (freeOnes r refs digests) } :=
  fun store mem => dropMany_becomes laws (sound.stores.good store mem)
    fun _ free => sound.not_busy ready (freeOnes_unheld free).2 mem

lemma dropAllIfFree_continues (ready : r.ready = true) (digests : List Digest) :
    Continues sys abs strict 0 r (dropAllIfFree sys r digests) := by
  cases listing : listedDigests sys r with
  | none =>
    rw [dropAllIfFree_short digests listing]
    exact sound.continues
  | some refs =>
    rw [dropAllIfFree_eq listing]
    have unheld : ∀ digest ∈ freeOnes r refs digests, ¬ held r digest = true :=
      fun digest free => by simp [(freeOnes_unheld free).2]
    refine sound.trimmed laws (sound.freed laws ready refs digests) ?_ ?_ ?_
    · intro store mem
      refine dropMany_acts laws (sound.stores.good store mem) ?_ ?_
      · exact fun _ free => sound.not_busy ready (freeOnes_unheld free).2 mem
      intro isStrict digest free listed
      exact (freeOnes_unheld free).1 (mem_listedDigests laws sound.stores isStrict listing listed)
    · exact fun layer mem _ _ free =>
        unheld _ free ((held_iff r _).mpr (.inl ⟨layer, mem, rfl⟩))
    · exact fun slot mem _ _ free =>
        unheld _ free ((held_iff r _).mpr (.inr ⟨slot, mem, rfl⟩))

end WantedEngine.Registry
