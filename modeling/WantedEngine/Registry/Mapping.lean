import WantedEngine.Registry.Steps
/-!
# Mapping keeps the registry sound

A blob is mapped once and shared by its users, so the table has one slot for it. While the slot
is there `held` keeps the blob from being freed; when the last user goes the store is told and
the blob is freed if nothing else uses it.
-/
namespace WantedEngine.Registry

open List Option

variable {σ ν : Type} {sys : System σ} {abs : Reading σ ν} {strict : Prop}

/-! ### Tables of slots -/

variable {α : Type} {table : List (Option α)} {pos : Nat} {stores : List σ} {r : State σ}

variable {value : Option α} {digest : Digest} {x : α} {s : σ}

lemma mem_set_or (mem : some x ∈ table) :
    some x ∈ table.set pos value ∨ table[pos]? = some (some x) := by
  obtain ⟨at_, found⟩ := getElem?_of_mem mem
  by_cases same : at_ = pos
  · exact .inr (same ▸ found)
  · refine .inl (mem_of_getElem? (i := at_) ?_)
    rw [getElem?_set_ne (Ne.symm same), found]

lemma findIdx?_slot {p : Option α → Bool} (found : table.findIdx? p = some pos) :
    ∃ slot, table[pos]? = some slot ∧ p slot := by
  obtain ⟨inside, holds, _⟩ := findIdx?_eq_some_iff_getElem.mp found
  exact ⟨table[pos], getElem?_eq_getElem inside, holds⟩

variable (search : table.findIdx? (fun slot => slot.isNone) = some pos)
include search

lemma getElem?_free : table[pos]? = some none := by
  obtain ⟨slot, at_, isNone⟩ := findIdx?_slot search
  rw [at_, isNone_iff_eq_none.mp isNone]

lemma mem_set_free (mem : some x ∈ table) : some x ∈ table.set pos value := by
  rcases mem_set_or mem with stays | here
  · exact stays
  · rw [getElem?_free search] at here
    cases here

omit search

lemma mem_of_join (found : table[pos]?.join = some x) :
    table[pos]? = some (some x) ∧ some x ∈ table := by
  have at_ := join_eq_some_iff.mp found
  exact ⟨at_, mem_of_getElem? at_⟩

lemma set_split (found : stores[pos]? = some s) :
    stores = stores.take pos ++ s :: stores.drop (pos + 1) ∧
      ∀ s', stores.set pos s' = stores.take pos ++ s' :: stores.drop (pos + 1) := by
  obtain ⟨inside, same⟩ := List.getElem?_eq_some_iff.mp found
  constructor
  · rw [← same, ← drop_eq_getElem_cons inside, take_append_drop]
  · intro s'
    rw [set_eq_take_append_cons_drop, if_pos inside]

lemma Evolves.set (resident : List Resident) {s s' : σ} (found : stores[pos]? = some s)
    (call : Act sys abs strict (Lists sys.cfg (recordsOf abs stores)) s s') :
    Evolves sys abs strict resident stores 0 (stores.set pos s') := by
  obtain ⟨split, replace⟩ := set_split found
  rw [replace s']
  rw [split] at call
  have one : Evolves sys abs strict resident _ 0 _ := Evolves.one _ _ call
  rwa [← split] at one

variable {mapped : MapSlot}

lemma mem_set_users {maps : List (Option MapSlot)} (at_ : maps[pos]? = some (some mapped))
    (users : Nat) (slot : MapSlot) (mem : some slot ∈ maps) :
    ∃ slot', some slot' ∈ maps.set pos (some { mapped with users }) ∧
      slot'.store = slot.store ∧ slot'.digest = slot.digest := by
  rcases mem_set_or mem with stays | here
  · exact ⟨slot, stays, rfl, rfl⟩
  rw [at_] at here
  cases here
  obtain ⟨inside, _⟩ := List.getElem?_eq_some_iff.mp at_
  exact ⟨_, List.mem_set inside _, rfl, rfl⟩

/-- What mapping a blob and unmapping keep, loading an entry keeps. -/
lemma mapLayersLocked_keeps (keeps : State σ → Prop)
    (maps : ∀ r digest len, keeps r → keeps (mapBlob sys r digest len).2)
    (unmaps : ∀ r ptr, keeps r → keeps (unmapPtr sys r ptr)) (holds : keeps r) (entry : Entry) :
    keeps (mapLayersLocked sys r entry).2 := by
  have all : ∀ layers mapped r, keeps r → keeps (mapAll sys r mapped layers).2 := by
    intro layers
    induction layers with
    | nil => exact fun _ _ => id
    | cons layer rest ih =>
      intro mapped r holds
      have first := maps r layer.digest layer.len.toNat holds
      unfold mapAll
      split
      · rename_i result
        rw [result] at first
        exact foldlRecOn mapped _ first fun r holds map _ => unmaps r map.ptr holds
      · rename_i result
        rw [result] at first
        exact ih _ _ first
  unfold mapLayersLocked
  split
  · exact holds
  rename_i record _
  have mapping := all record.layers.reverse [] r holds
  split
  all_goals
    rename_i result
    rw [result] at mapping
    exact mapping

/-- A mapping gets or loses a user that is not its last. -/
lemma Sound.users (sound : Sound sys abs strict r) (ready : r.ready = true)
    (at_ : r.maps[pos]? = some (some mapped)) (users : Nat) :
    Continues sys abs strict 0 r { r with maps := r.maps.set pos (some { mapped with users }) } := by
  refine sound.tables ready r.seq r.order r.pending _ sound.pended (fun slot isSlot => ?_)
    (mem_set_users at_ users)
  rcases mem_or_eq_of_mem_set isSlot with before | new
  · exact ⟨fun isStrict => sound.mapped isStrict slot before, sound.handles slot before⟩
  cases new
  have mem := mem_of_getElem? at_
  exact ⟨fun isStrict => sound.mapped isStrict mapped mem, sound.handles mapped mem⟩

variable [DecidableEq ν]

variable (laws : Contract sys.ops abs)
include laws

lemma Sound.store (sound : Sound sys abs strict r) (ready : r.ready = true) {s s' : σ}
    (found : r.stores[pos]? = some s)
    (call : Act sys abs strict (Lists sys.cfg (recordsOf abs r.stores)) s s')
    (view : abs.view s' = abs.view s) (maps : List (Option MapSlot))
    (mapped : ∀ slot, some slot ∈ maps →
      (strict → Present abs r.resident r.stores slot.digest) ∧
        slot.map.handle = slot.digest) (busy : ∀ digest, abs.busy s' digest →
      ∃ slot, some slot ∈ maps ∧ slot.store = some pos ∧ slot.digest = digest)
    (kept : ∀ slot, some slot ∈ r.maps → slot.store ≠ some pos → some slot ∈ maps) :
    Continues sys abs strict 0 r { r with stores := r.stores.set pos s', maps } := by
  have steps := Evolves.set r.resident found call
  obtain ⟨split, replace⟩ := set_split found
  have stays : ∀ digest, Present abs r.resident r.stores digest →
      Present abs r.resident (r.stores.set pos s') digest := by
    intro digest present
    rw [split] at present
    rw [replace s']
    exact present.replace _ _ fun has => view ▸ has
  refine ⟨⟨steps.sound laws sound.stores, ?_, ?_, ?_, ?_, ?_, ?_⟩, steps, rfl, id⟩
  · exact fun isStrict layer mem => stays _ (sound.pended isStrict layer mem)
  · exact fun isStrict slot mem => stays _ ((mapped slot mem).1 isStrict)
  · exact fun slot mem => (mapped slot mem).2
  · intro _ primary head
    rw [head?_eq_getElem?] at head
    by_cases first : pos = 0
    · subst first
      have same : primary = s' := by
        obtain ⟨inside, _⟩ := List.getElem?_eq_some_iff.mp found
        rw [List.getElem?_set_self inside] at head
        exact (Option.some.inj head).symm
      rw [same, view]
      exact sound.stage ready s (by rw [head?_eq_getElem?]; exact found)
    · rw [getElem?_set_ne first] at head
      exact sound.stage ready primary (by rw [head?_eq_getElem?]; exact head)
  · intro _ at_ store isStore digest isBusy
    by_cases here : pos = at_
    · subst here
      obtain ⟨inside, _⟩ := List.getElem?_eq_some_iff.mp found
      rw [List.getElem?_set_self inside] at isStore
      cases isStore
      exact busy digest isBusy
    · rw [getElem?_set_ne here] at isStore
      obtain ⟨slot, mem, of, same⟩ := sound.busy ready at_ store isStore digest isBusy
      refine ⟨slot, kept slot mem ?_, of, same⟩
      rw [of]
      exact fun eq => here (Option.some.inj eq).symm
  · intro unready
    rw [show r.ready = true from ready] at unready
    cases unready

lemma storeHolding_spec (good : ∀ store ∈ stores, abs.good store)
    (found : storeHolding sys stores digest = some (pos, s)) :
    stores[pos]? = some s ∧ ((abs.view s).blobs digest).isSome := by
  unfold storeHolding at found
  split at found
  · cases found
  rename_i search
  obtain ⟨inside, has, _⟩ := findIdx?_eq_some_iff_getElem.mp search
  rw [getElem?_eq_getElem inside] at found
  obtain ⟨rfl, rfl⟩ := found
  rw [laws.blobHas (good _ (getElem_mem inside))] at has
  exact ⟨getElem?_eq_getElem inside, has⟩

lemma blobPresent_iff (good : ∀ store ∈ r.stores, abs.good store) (digest : Digest) :
    blobPresent sys r digest = true ↔ Present abs r.resident r.stores digest := by
  have stored : (storeHolding sys r.stores digest).isSome = true ↔ HeldBy abs r.stores digest := by
    constructor
    · intro found
      obtain ⟨⟨pos, s⟩, holding⟩ := isSome_iff_exists.mp found
      obtain ⟨at_, has⟩ := storeHolding_spec laws good holding
      exact ⟨s, mem_of_getElem? at_, has⟩
    rintro ⟨store, mem, has⟩
    rw [← laws.blobHas (good store mem)] at has
    obtain ⟨pos, search⟩ := isSome_iff_exists.mp
      ((findIdx?_isSome (p := (sys.ops.blobHas · digest))).trans (any_eq_true.mpr ⟨store, mem, has⟩))
    obtain ⟨inside, -⟩ := findIdx?_eq_some_iff_getElem.mp search
    simp [storeHolding, search, inside]
  rw [blobPresent, Bool.or_eq_true, stored, Present, residentByDigest]
  simp

variable (sound : Sound sys abs strict r) (ready : r.ready = true)
include sound ready

/-- What is known of a store that is found to hold a blob that is not mapped. -/
lemma Sound.holding
    (unmapped : r.maps.findIdx? (fun slot => slot.any fun mapped => mapped.digest = digest) = none)
    (holding : storeHolding sys r.stores digest = some (pos, s)) :
    r.stores[pos]? = some s ∧ abs.good s ∧ ¬ abs.busy s digest ∧
      ∃ bytes, (abs.view s).blobs digest = some bytes := by
  obtain ⟨found, has⟩ := storeHolding_spec laws sound.stores.good holding
  refine ⟨found, sound.stores.good s (mem_of_getElem? found), fun busy => ?_, isSome_iff_exists.mp has⟩
  obtain ⟨slot, mem, _, same⟩ := sound.busy ready pos s found digest busy
  have other := findIdx?_eq_none_iff.mp unmapped (some slot) mem
  simp [same] at other

lemma mapBlob_continues (digest : Digest) (len : Nat) :
    Continues sys abs strict 0 r (mapBlob sys r digest len).2 := by
  have old : ∀ slot, some slot ∈ r.maps →
      (strict → Present abs r.resident r.stores slot.digest) ∧ slot.map.handle = slot.digest :=
    fun slot mem => ⟨fun isStrict => sound.mapped isStrict slot mem, sound.handles slot mem⟩
  unfold mapBlob
  split
  · -- A further user of a mapping.
    split
    · exact sound.continues
    rename_i mapped found
    exact sound.users ready (mem_of_join found).1 (mapped.users + 1)
  rename_i unmapped
  split
  · exact sound.continues
  · -- A resident image.
    rename_i image pos resident search
    have isImage := mem_of_find?_eq_some resident
    refine sound.tables ready r.seq r.order r.pending _ sound.pended (fun slot isSlot => ?_)
      (fun slot isSlot => ⟨slot, mem_set_free search isSlot, rfl, rfl⟩)
    rcases mem_or_eq_of_mem_set isSlot with before | new
    · exact old slot before
    · cases new
      exact ⟨fun _ => .inl ⟨image, isImage, rfl⟩, rfl⟩
  · exact sound.continues
  · exact sound.continues
  · -- A new mapping of a store.
    rename_i pos store freeSlot _ holding search
    obtain ⟨found, good, notBusy, _, held⟩ := sound.holding laws ready unmapped holding
    have has := isSome_of_eq_some held
    have call : Act sys abs strict (Lists sys.cfg (recordsOf abs r.stores)) store
        (sys.ops.blobMap store digest len).2 := .blobMap digest len has notBusy
    obtain ⟨_, view, busy, mapping⟩ := laws.blobMap len good held notBusy
    have before := sound.busy ready pos store found
    split
    · rename_i result
      rw [result] at call view busy
      refine sound.store laws ready found call view r.maps old (fun other isBusy => ?_)
        (fun slot mem _ => mem)
      rcases busy other isBusy with was | ⟨done, _⟩
      · exact before other was
      · cases done
    rename_i map store' result
    rw [result] at call view busy mapping
    refine sound.store laws ready found call view _ (fun slot isSlot => ?_)
      (fun other isBusy => ?_) (fun slot mem _ => mem_set_free search mem)
    · rcases mem_or_eq_of_mem_set isSlot with was | new
      · exact old slot was
      · cases new
        exact ⟨fun _ => .inr ⟨store, mem_of_getElem? found, has⟩, (mapping map rfl).2⟩
    · rcases busy other isBusy with was | ⟨_, same⟩
      · obtain ⟨slot, mem, of, same⟩ := before other was
        exact ⟨slot, mem_set_free search mem, of, same⟩
      · obtain ⟨inside, _⟩ := List.getElem?_eq_some_iff.mp (getElem?_free search)
        exact ⟨_, List.mem_set inside _, rfl, same.symm⟩

omit ready sound laws

/-- The state after a mapping's last user is gone, before its blob is freed. -/
def released (sys : System σ) (r : State σ) (pos : Nat) (mapped : MapSlot) : State σ :=
  { r with stores := releaseMap sys r.stores mapped, maps := r.maps.set pos none }

include laws sound ready

/-- Releasing a mapping and its slot. -/
lemma released_continues (slot : r.maps[pos]? = some (some mapped)) :
    Continues sys abs strict 0 r (released sys r pos mapped) := by
  have old : ∀ slot, some slot ∈ r.maps.set pos none →
      (strict → Present abs r.resident r.stores slot.digest) ∧ slot.map.handle = slot.digest := by
    intro slot mem
    rcases mem_or_eq_of_mem_set mem with before | new
    · exact ⟨fun isStrict => sound.mapped isStrict slot before, sound.handles slot before⟩
    · cases new
  have kept : ∀ other, some other ∈ r.maps → other ≠ mapped → some other ∈ r.maps.set pos none := by
    intro other mem ne
    rcases mem_set_or mem with stays | here
    · exact stays
    rw [slot] at here
    cases here
    exact absurd rfl ne
  -- A slot whose mapping is of none of the stores holds nothing back.
  have forgotten : (∀ at_ store, r.stores[at_]? = some store → mapped.store ≠ some at_) →
      Continues sys abs strict 0 r { r with maps := r.maps.set pos none } := by
    intro foreign
    refine ⟨⟨sound.stores, sound.pended,
      fun isStrict slot mem => (old slot mem).1 isStrict,
      fun slot mem => (old slot mem).2, sound.stage, ?_, ?_⟩, .refl, rfl, id⟩
    · intro _ at_ store found digest busy
      obtain ⟨other, mem, of, same⟩ := sound.busy ready at_ store found digest busy
      refine ⟨other, kept other mem ?_, of, same⟩
      rintro rfl
      exact foreign at_ store found of
    · intro unready
      rw [show r.ready = true from ready] at unready
      cases unready
  unfold released releaseMap
  split
  · rename_i none
    exact forgotten fun _ _ _ => by simp [none]
  rename_i at_ isAt
  cases found : r.stores[at_]? with
  | none =>
    rw [modify_eq_set_getElem?, found]
    refine forgotten fun other store isStore => ?_
    rw [isAt]
    rintro ⟨⟩
    rw [found] at isStore
    cases isStore
  | some store =>
    rw [modify_eq_set_getElem?, found]
    obtain ⟨after, gone⟩ := laws.blobUnmap mapped.map (sound.stores.good store (mem_of_getElem? found))
    refine sound.store laws ready found (.blobUnmap store mapped.map) after.view _ old
      (fun digest busy => ?_) (fun other mem ne => kept other mem ?_)
    · obtain ⟨other, mem, of, same⟩ :=
        sound.busy ready at_ store found digest (after.busy digest busy)
      refine ⟨other, kept other mem ?_, of, same⟩
      rintro rfl
      rw [sound.handles other mem, same] at gone
      exact gone busy
    · rintro rfl
      exact ne isAt

lemma unmapPtr_continues (ptr : Nat) : Continues sys abs strict 0 r (unmapPtr sys r ptr) := by
  unfold unmapPtr
  split
  · exact sound.continues
  split
  · exact sound.continues
  rename_i mapped found
  obtain ⟨at_, _⟩ := mem_of_join found
  split
  · exact sound.users ready at_ (mapped.users - 1)
  · have gone := released_continues laws sound ready at_
    exact gone.then (dropAllIfFree_continues laws gone.sound (gone.ready ready) _)

lemma foldl_unmapPtr_continues (ptrs : List Nat) :
    Continues sys abs strict 0 r (ptrs.foldl (unmapPtr sys) r) :=
  foldlRecOn ptrs _ sound.continues fun _ done ptr _ =>
    done.then (unmapPtr_continues laws done.sound (done.ready ready) ptr)

lemma mapLayersLocked_continues (entry : Entry) :
    Continues sys abs strict 0 r (mapLayersLocked sys r entry).2 :=
  mapLayersLocked_keeps (Continues sys abs strict 0 r)
    (fun _ digest len done =>
      done.then (mapBlob_continues laws done.sound (done.ready ready) digest len))
    (fun _ ptr done => done.then (unmapPtr_continues laws done.sound (done.ready ready) ptr))
    sound.continues entry

end WantedEngine.Registry
