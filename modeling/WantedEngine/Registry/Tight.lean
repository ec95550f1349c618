import WantedEngine.Registry.Safety
import Mathlib.Data.List.Pairwise
import Mathlib.Data.List.Perm.Subperm
/-!
# No blob is left behind

While the records and the digests they list fit the registry's listing, every blob a store holds
is listed by a record, pending, or mapped: whatever replaces, evicts, unmaps or un-lists a
digest hands it to `dropAllIfFree`, and after a restart `reclaim` frees the rest. A listing that
is cut short frees nothing, so the limits are part of the statement.
-/
namespace WantedEngine.Registry

open Foundation List Option Function

variable {σ ν : Type} {dec : DecidableEq ν} {sys : System σ} {abs : Reading σ ν}

/-! ### Listings that are not cut short -/

/-- The records can all be read and listed: there are no more than the registry enumerates, each
fits its buffer, and together they list no more digests than a listing holds. -/
structure RecordsWithin (cfg : Config) (records : ν → Option Bytes) : Prop where
  /-- At most `REGISTRY_MAX_ENTRIES` records. -/
  few : ∃ names : List ν, names.length ≤ registryMaxEntries ∧
    ∀ name, (records name).isSome → name ∈ names
  /-- Each record is read without a fault. -/
  readable : ∀ name bytes, records name = some bytes → bytes.length ≤ registryRecordMax
  /-- At most `MAX_BLOBS` digests are listed. -/
  listed : ∃ digests : List Digest, digests.length ≤ maxBlobs ∧
    ∀ digest, Lists cfg records digest → digest ∈ digests

/-- A set of digests that stays within a bound takes further digests. -/
lemma addDigests_isSome {all refs digests : List Digest} (bound : all.length ≤ maxBlobs)
    (once : refs.Nodup) (within : ∀ digest ∈ refs, digest ∈ all)
    (more : ∀ digest ∈ digests, digest ∈ all) :
    ∃ out, addDigests refs digests = some out ∧ out.Nodup ∧ ∀ digest ∈ out, digest ∈ all := by
  induction digests generalizing refs with
  | nil => exact ⟨refs, rfl, once, within⟩
  | cons first rest ih =>
    have later : ∀ digest ∈ rest, digest ∈ all := fun digest mem =>
      more digest (mem_cons_of_mem _ mem)
    simp only [addDigests]
    split
    · exact ih once within later
    rename_i new
    have once' := concat_eq_append ▸ Nodup.concat new once
    have within' :=
      forall_mem_append.mpr ⟨within, forall_mem_singleton.mpr (more first mem_cons_self)⟩
    have short := (subperm_of_subset once' within').length_le
    rw [length_append, length_singleton] at short
    rw [if_neg (by omega)]
    exact ih once' within' later

variable {r : State σ} {strict : Prop} {digest : Digest} {pending : List (Option Pending)}
  {cfg : Config} {key : Key}

lemma collectDigests_isSome {all refs : List Digest} {keys : List Key} (bound : all.length ≤ maxBlobs)
    (reads : ∀ key ∈ keys, ∃ bytes, primaryGet sys r key = .ok bytes ∧
      ∀ record, registryRecordDecode sys.cfg bytes = some record →
        ∀ digest ∈ record.digests, digest ∈ all) (once : refs.Nodup)
    (within : ∀ digest ∈ refs, digest ∈ all) :
    ∃ out, collectDigests sys r refs keys = some out := by
  induction keys generalizing refs with
  | nil => exact ⟨refs, rfl⟩
  | cons key rest ih =>
    have later : ∀ key ∈ rest, _ := fun other mem => reads other (mem_cons_of_mem _ mem)
    obtain ⟨bytes, read, inside⟩ := reads key mem_cons_self
    simp only [collectDigests, read]
    cases decoded : registryRecordDecode sys.cfg bytes with
    | none => exact ih later once within
    | some record =>
      obtain ⟨out, added, once', within'⟩ :=
        addDigests_isSome bound once within (inside record decoded)
      simp only [added]
      exact ih later once' within'

lemma listedDigests_isSome (laws : Contract sys.ops abs) (good : ∀ store ∈ r.stores, abs.good store)
    (within : RecordsWithin sys.cfg (recordsOf abs r.stores)) :
    ∃ refs, listedDigests sys r = some refs := by
  unfold listedDigests
  split
  · exact ⟨[], rfl⟩
  rename_i p others stores
  have isGood := good p (primary_mem stores)
  obtain ⟨keys, listed, once, there, _⟩ := laws.recList isGood
  obtain ⟨_, few, complete⟩ := within.few
  obtain ⟨_, bound, inside⟩ := within.listed
  have found : ∀ key ∈ keys, (recordsOf abs r.stores (abs.recName key)).isSome := by
    rw [stores]
    exact there
  have short : keys.length ≤ registryMaxEntries := by
    refine Nat.le_trans ?_ few
    rw [← length_map abs.recName]
    refine (subperm_of_subset once fun name mem => ?_).length_le
    obtain ⟨key, isKey, rfl⟩ := mem_map.mp mem
    exact complete _ (found key isKey)
  rw [listed]
  dsimp only
  rw [if_neg (Nat.not_lt.mpr short)]
  refine collectDigests_isSome bound (fun key isKey => ?_) nodup_nil nofun
  obtain ⟨bytes, has⟩ := isSome_iff_exists.mp (found key isKey)
  refine ⟨bytes, ?_, fun record decoded digest mem =>
    inside digest ⟨_, bytes, record, has, decoded, mem⟩⟩
  rw [primaryGet_eq laws good has]
  simp [recordAnswer, within.readable _ bytes has]

/-! ### Freeing leaves nothing behind -/

/-- Every blob the stores hold is in use, or one of some digests. -/
def TightBut (sys : System σ) (abs : Reading σ ν) (r : State σ) (extra : List Digest) : Prop :=
  ∀ digest, HeldBy abs r.stores digest → InUse sys abs r digest ∨ digest ∈ extra

variable (laws : Contract sys.ops abs)
include laws

/-- Calls that change no record leave the records. -/
lemma Evolves.records_eq {resident : List Resident} {n : Nat} {start stores : List σ}
    (steps : Evolves sys abs strict resident start n stores)
    (sound : StoresSound sys abs strict resident start) (none : n = 0) :
    recordsOf abs stores = recordsOf abs start := by
  induction steps with
  | refl => rfl
  | @act _ front back s s' before call ih =>
    have good := (before.sound laws sound).good s (by simp)
    exact (recordsOf_replace front back (call.keeps laws good).2.1).trans (ih none)
  | put => cases none
  | del => cases none

lemma Continues.records_eq {r' : State σ} (done : Continues sys abs strict 0 r r')
    (sound : Sound sys abs strict r) :
    recordsOf abs r'.stores = recordsOf abs r.stores :=
  done.steps.records_eq laws sound.stores rfl

omit laws

lemma InUse.mono {r' : State σ} (inUse : InUse sys abs r digest)
    (records : ∀ digest, Lists sys.cfg (recordsOf abs r.stores) digest →
      Lists sys.cfg (recordsOf abs r'.stores) digest)
    (pending : ∀ layer, some layer ∈ r.pending →
      ∃ layer', some layer' ∈ r'.pending ∧ layer'.digest = layer.digest)
    (maps : ∀ slot, some slot ∈ r.maps → ∃ slot', some slot' ∈ r'.maps ∧ slot'.digest = slot.digest) :
    InUse sys abs r' digest := by
  rcases inUse with listed | ⟨layer, mem, rfl⟩ | ⟨slot, mem, rfl⟩
  · exact .inl (records digest listed)
  · exact .inr (.inl (pending layer mem))
  · exact .inr (.inr (maps slot mem))

lemma dropAllIfFree_tight (laws : Contract sys.ops abs)
    (sound : Sound sys abs False r) (ready : r.ready = true)
    (within : RecordsWithin sys.cfg (recordsOf abs r.stores)) {extra : List Digest}
    (tight : TightBut sys abs r extra) :
    TightBut sys abs (dropAllIfFree sys r extra) [] := by
  have records := (dropAllIfFree_continues laws sound ready extra).records_eq laws sound
  obtain ⟨refs, listing⟩ := listedDigests_isSome laws sound.stores.good within
  rw [dropAllIfFree_eq listing] at records ⊢
  intro digest held
  obtain ⟨store, mem, has, stays⟩ :=
    (heldBy_map_iff (sound.freed laws ready refs extra) digest).mp held
  have inUse : InUse sys abs r digest := by
    rcases tight digest ⟨store, mem, has⟩ with inUse | left
    · exact inUse
    by_cases isListed : digest ∈ refs
    · exact .inl (listedDigests_lists laws sound.stores.good listing isListed)
    by_cases isHeld : Registry.held r digest = true
    · exact .inr ((held_iff r digest).mp isHeld)
    · exact absurd (mem_filter.mpr ⟨left, by simp [isListed, isHeld]⟩) stays
  refine .inl (inUse.mono (fun other => ?_) (fun layer mem => ⟨layer, mem, rfl⟩)
    (fun slot mem => ⟨slot, mem, rfl⟩))
  rw [records]
  exact id

/-! ### The pending table -/

/-- Two slots do not hold the same layer of one entry. -/
def Apart (a b : Option Pending) : Prop :=
  ∀ x y, a = some x → b = some y → x.key = y.key → x.index ≠ y.index

instance : Std.Symm Apart :=
  ⟨fun _ _ apart x y isX isY sameKey sameIndex =>
    apart y x isY isX sameKey.symm sameIndex.symm⟩

/-- The pending table holds each layer of an entry once. -/
structure PendingOk (cfg : Config) (pending : List (Option Pending)) : Prop where
  size : pending.length = maxPending cfg
  index : ∀ layer, some layer ∈ pending → layer.index < cfg.maxLayers
  once : pending.Pairwise Apart

/-- The oldest layer lies in the table. -/
lemma oldestFrom_lt {table : List (Option Pending)} {pos : Nat} {best : Option (Nat × UInt32)}
    {found : Nat × UInt32}
    (known : ∀ earlier, best = some earlier → earlier.1 < pos + table.length)
    (oldest : oldestFrom pos best table = some found) : found.1 < pos + table.length := by
  induction table generalizing pos best with
  | nil => exact known found oldest
  | cons slot rest ih =>
    have shift : pos + 1 + rest.length = pos + (slot :: rest).length := by
      rw [length_cons]
      omega
    rw [← shift] at known ⊢
    have here : ∀ (earlier : Nat × UInt32) (order : UInt32), some (pos, order) = some earlier →
        earlier.1 < pos + 1 + rest.length := by
      rintro _ order ⟨⟩
      omega
    cases slot with
    | none => exact ih known oldest
    | some layer =>
      simp only [oldestFrom] at oldest
      split at oldest
      · exact ih (fun earlier => here earlier _) oldest
      split at oldest
      · exact ih (fun earlier => here earlier _) oldest
      · exact ih known oldest

lemma pendingSlot_lt (some : 0 < pending.length) (key : Key) (index : Nat) :
    pendingSlot pending key index < pending.length := by
  unfold pendingSlot
  split
  · rename_i search
    exact (findIdx?_eq_some_iff_getElem.mp search).1
  split
  · rename_i search
    exact (findIdx?_eq_some_iff_getElem.mp search).1
  cases oldest : oldestFrom 0 none pending with
  | none => exact some
  | some found =>
    have inside := oldestFrom_lt (by simp) oldest
    rw [Nat.zero_add] at inside
    exact inside

lemma pendingAdd_ok (ok : PendingOk cfg r.pending) (key : Key) {index : Nat}
    (within : index < cfg.maxLayers) (digest : Digest) (len : UInt32) :
    PendingOk cfg (pendingAdd sys r key index digest len).pending := by
  unfold pendingAdd
  rw [dropAllIfFree_only]
  refine ⟨by rw [length_set, ok.size], fun layer mem => ?_, ?_⟩
  · rcases mem_or_eq_of_mem_set mem with old | new
    · exact ok.index layer old
    · cases new
      exact within
  -- The new layer meets no other slot with its key and index: its own slot is the one it takes.
  have fresh : ∀ other (inside : other < r.pending.length),
      other ≠ pendingSlot r.pending key index → ∀ y, r.pending[other] = some y →
      key = y.key → index ≠ y.index := by
    rintro other inside elsewhere y found rfl rfl
    have isOwn : isLayer y.key y.index r.pending[other] = true := by simp [found, isLayer]
    unfold pendingSlot at elsewhere
    split at elsewhere
    · rename_i own search
      obtain ⟨ownInside, ownIs, _⟩ := findIdx?_eq_some_iff_getElem.mp search
      cases ownFound : r.pending[own] with
      | none => simp [ownFound, isLayer] at ownIs
      | some x =>
        simp only [ownFound, isLayer, Option.any_some, decide_eq_true_eq] at ownIs
        have pairs := pairwise_iff_getElem.mp ok.once
        rcases Nat.lt_or_gt_of_ne elsewhere with before | after
        · exact pairs other own inside ownInside before y x found ownFound ownIs.1.symm ownIs.2.symm
        · exact pairs own other ownInside inside after x y ownFound found ownIs.1 ownIs.2
    · rename_i search
      have := findIdx?_eq_none_iff.mp search _ (getElem_mem inside)
      rw [isOwn] at this
      cases this
  rw [pairwise_iff_getElem]
  intro i j iInside jInside before x y isX isY
  rw [length_set] at iInside jInside
  rw [getElem_set] at isX isY
  split at isX
  · rename_i here
    rw [if_neg (by omega)] at isY
    cases isX
    exact fresh j jInside (by omega) y isY
  split at isY
  · rename_i here
    cases isY
    intro sameKey sameIndex
    exact fresh i iInside (by omega) x isX sameKey.symm sameIndex.symm
  · exact pairwise_iff_getElem.mp ok.once i j iInside jInside before x y isX isY

include laws

lemma pendingAdd_tight (sound : Sound sys abs False r) (ready : r.ready = true)
    (within : RecordsWithin sys.cfg (recordsOf abs r.stores))
    (ok : PendingOk sys.cfg r.pending) (key : Key) (index : Nat) (len : UInt32)
    (tight : TightBut sys abs r [digest]) :
    TightBut sys abs (pendingAdd sys r key index digest len) [] := by
  have recorded := @pendingRecord_continues _ _ _ _ _ digest _ sound ready key index len nofun
  refine dropAllIfFree_tight laws recorded.sound ready within fun other held => ?_
  have inside :=
    pendingSlot_lt (by rw [ok.size, maxPending]; have := sys.cfg.maxLayers_pos; omega) key index
  have isPending : InUse sys abs { r with
      order := r.order + 1
      pending := r.pending.set (pendingSlot r.pending key index)
        (some ⟨key, index, digest, len, r.order + 1⟩) } digest :=
    .inr (.inl ⟨_, mem_set inside _, rfl⟩)
  rcases tight other held with inUse | isNew
  · rcases inUse with listed | ⟨layer, mem, rfl⟩ | mapped
    · exact .inl (.inl listed)
    · rcases mem_set_or mem with stays | here
      · exact .inl (.inr (.inl ⟨layer, stays, rfl⟩))
      by_cases same : layer.digest = digest
      · rw [same]
        exact .inl isPending
      · refine .inr ?_
        simp [replacedDigest, here, same]
    · exact .inl (.inr (.inr mapped))
  · rw [mem_singleton.mp isNew]
    exact .inl isPending

/-! ### Committing -/

lemma writeMeta_spec (good : ∀ store ∈ r.stores, abs.good store) (key : Key) (record : Meta)
    {after} (wrote : writeMeta sys r key record = after) :
    after.2 = { r with stores := after.2.stores } ∧
      (∀ digest, HeldBy abs after.2.stores digest → HeldBy abs r.stores digest) ∧
      (after.1 = .ok () → ∃ bytes, registryRecordEncode sys.cfg record = some bytes ∧
          recordsOf abs after.2.stores =
            update (recordsOf abs r.stores) (abs.recName key) (some bytes)) ∧
      (∀ e, after.1 = .error e → recordsOf abs after.2.stores = recordsOf abs r.stores) := by
  subst wrote
  unfold writeMeta
  split
  · exact ⟨rfl, fun _ => id, nofun, fun _ _ => rfl⟩
  rename_i p others stores
  split
  · exact ⟨rfl, fun _ => id, nofun, fun _ _ => rfl⟩
  rename_i bytes encoded
  have after := laws.recPut key bytes (good p (primary_mem stores))
  refine ⟨rfl, fun digest held => ?_, fun done => ⟨bytes, encoded, ?_⟩, fun e failed => ?_⟩
  · rw [stores]
    refine HeldBy.replace [] others held fun has => ?_
    rw [after.view] at has
    exact has
  · dsimp only at done ⊢
    rw [stores, recordsOf, after.view, done]
    rfl
  · dsimp only at failed ⊢
    rw [stores, recordsOf, after.view, failed]
    rfl

omit laws

lemma surplusDigests_length (ok : PendingOk cfg pending) (key : Key) (count : Nat) :
    (surplusDigests pending key count).length ≤ cfg.maxLayers := by
  let surplus := pending.filterMap fun slot =>
    slot.bind fun layer => if layer.key = key ∧ count ≤ layer.index then some layer else none
  have isSurplus : ∀ layer, layer ∈ surplus → some layer ∈ pending ∧ layer.key = key := by
    intro layer mem
    obtain ⟨slot, isSlot, chosen⟩ := mem_filterMap.mp mem
    obtain ⟨x, rfl, picked⟩ := bind_eq_some_iff.mp chosen
    split at picked
    · rename_i fits
      cases picked
      exact ⟨isSlot, fits.1⟩
    · cases picked
  have digests : surplusDigests pending key count = surplus.map Pending.digest := by
    rw [map_filterMap]
    unfold surplusDigests
    congr 1
    funext slot
    cases slot with
    | none => rfl
    | some layer =>
      simp only [bind_some]
      split <;> rfl
  have once : (surplus.map Pending.index).Nodup := by
    rw [List.Nodup, pairwise_map, pairwise_filterMap]
    refine ok.once.imp fun {a b} apart x isX y isY => ?_
    obtain ⟨_, rfl, pickedX⟩ := bind_eq_some_iff.mp isX
    obtain ⟨_, rfl, pickedY⟩ := bind_eq_some_iff.mp isY
    split at pickedX
    · rename_i fitsX
      split at pickedY
      · rename_i fitsY
        cases pickedX
        cases pickedY
        exact apart _ _ rfl rfl (fitsX.1.trans fitsY.1.symm)
      · cases pickedY
    · cases pickedX
  have bounded : ∀ index ∈ surplus.map Pending.index, index ∈ List.range cfg.maxLayers := by
    intro index mem
    obtain ⟨layer, isLayer, rfl⟩ := mem_map.mp mem
    exact mem_range.mpr (ok.index layer (isSurplus layer isLayer).1)
  have short := (subperm_of_subset once bounded).length_le
  rw [length_map, length_range] at short
  rw [digests, length_map]
  exact short

lemma freedDigests_length (ok : PendingOk sys.cfg r.pending) (key : Key) (count : Nat) :
    (freedDigests (readMeta sys r key) r.pending key count).length ≤ maxPending sys.cfg := by
  have surplus := surplusDigests_length ok key count
  unfold freedDigests maxPending
  rw [length_append]
  split
  · rename_i record read
    have few : record.digests.length ≤ sys.cfg.maxLayers := by
      rw [Meta.digests, length_map]
      rcases readMeta_cases read with ⟨_, -, decoded⟩ | ⟨_, _, -, -, rfl⟩
      · exact registryRecordDecode_layers decoded
      · exact sys.cfg.maxLayers_pos
    omega
  · rw [length_nil]
    omega

lemma pendingFind_of_mem (ok : PendingOk cfg pending) {layer : Pending}
    (mem : some layer ∈ pending) : pendingFind pending layer.key layer.index = some layer := by
  have isOwn : isLayer layer.key layer.index (some layer) = true := by simp [isLayer]
  cases search : pending.find? (isLayer layer.key layer.index) with
  | none =>
    have := find?_eq_none.mp search _ mem
    exact absurd isOwn this
  | some slot =>
    have isSlot := mem_of_find?_eq_some search
    have same := find?_some search
    rw [pendingFind, search]
    cases slot with
    | none => cases same
    | some other =>
      simp only [isLayer, any_some, decide_eq_true_eq] at same
      by_contra differs
      have apart := ok.once.forall isSlot mem differs
      exact apart other layer rfl rfl same.1 same.2

variable {layers : List Layer}

lemma gatherLayers_complete {size total : UInt32} {pos count : Nat}
    (gathered : gatherLayers pending key size pos count = .ok (layers, total)) {index : Nat}
    (above : pos ≤ index) (below : index < pos + count) :
    ∃ staged, pendingFind pending key index = some staged ∧
      ∃ layer ∈ layers, layer.digest = staged.digest := by
  induction count generalizing size total pos layers with
  | zero => omega
  | succ count ih =>
    simp only [gatherLayers] at gathered
    split at gathered
    · cases gathered
    rename_i staged found
    split at gathered
    · cases gathered
    split at gathered
    · cases gathered
    rename_i later
    simp only [Except.ok.injEq, Prod.mk.injEq] at gathered
    rw [← gathered.1]
    by_cases here : index = pos
    · subst here
      exact ⟨staged, found, _, mem_cons_self, rfl⟩
    · obtain ⟨other, isFound, layer, mem, same⟩ := ih later (by omega) (by omega)
      exact ⟨other, isFound, layer, mem_cons_of_mem _ mem, same⟩

def entryOf (cfg : Config) (records : ν → Option Bytes) (name : ν) : Option Meta :=
  (records name).bind fun bytes =>
    if bytes.length ≤ registryRecordMax then registryRecordDecode cfg bytes else none

include laws

variable (good : ∀ store ∈ r.stores, abs.good store)
include good

variable {record : Meta}

lemma readMeta_of_entryOf (installed : entryOf sys.cfg (recordsOf abs r.stores) (abs.recName key) =
      some record) : readMeta sys r key = .ok record ∧ residentOnly sys r key = false := by
  rw [entryOf, bind_eq_some_iff] at installed
  obtain ⟨_, found, decoded⟩ := installed
  split at decoded
  · rename_i fits
    have answer := primaryGet_eq laws good found
    rw [recordAnswer, if_pos fits] at answer
    rw [readMeta, residentOnly, answer]
    dsimp only
    rw [decoded]
    exact ⟨rfl, by simp [succeeded]⟩
  · cases decoded

variable (within : RecordsWithin sys.cfg (recordsOf abs r.stores))
include within

lemma RecordsWithin.readMeta {bytes : Bytes}
    (found : recordsOf abs r.stores (abs.recName key) = some bytes)
    (decoded : registryRecordDecode sys.cfg bytes = some record) :
    readMeta sys r key = .ok record := by
  refine (readMeta_of_entryOf laws good ?_).1
  rw [entryOf, found, bind_some, if_pos (within.readable _ bytes found)]
  exact decoded

lemma commit_tightBut {r' : State σ} (ok : PendingOk sys.cfg r.pending)
    (tight : TightBut sys abs r []) {count : Nat} {size : UInt32}
    (gathered : gatherLayers r.pending key 0 0 count = .ok (layers, size))
    (lists : record.layers = layers) {bytes : Bytes}
    (encoded : registryRecordEncode sys.cfg record = some bytes)
    (records : recordsOf abs r'.stores = update (recordsOf abs r.stores) (abs.recName key) (some bytes))
    (heldBefore : ∀ digest, HeldBy abs r'.stores digest → HeldBy abs r.stores digest)
    (maps : r'.maps = r.maps) (pending : r'.pending = clearPending r.pending key) :
    TightBut sys abs r' (freedDigests (readMeta sys r key) r.pending key count) := by
  have published : ∀ layer ∈ layers, Lists sys.cfg (recordsOf abs r'.stores) layer.digest := by
    intro layer mem
    refine ⟨abs.recName key, bytes, record, ?_, registryRecordDecode_encode encoded, ?_⟩
    · rw [records, update_self]
    · rw [Meta.digests, lists]
      exact mem_map_of_mem mem
  intro digest held
  rcases (tight digest (heldBefore digest held)).resolve_right (by simp) with
    ⟨name, old, oldRecord, found, decoded, mem⟩ | ⟨layer, mem, rfl⟩ | mapped
  · by_cases same : name = abs.recName key
    · subst same
      rw [within.readMeta laws good found decoded]
      exact .inr (mem_append_left _ mem)
    · refine .inl (.inl ⟨name, old, oldRecord, ?_, decoded, mem⟩)
      rw [records, update_of_ne same]
      exact found
  · by_cases same : layer.key = key
    · subst same
      by_cases committed : layer.index < count
      · obtain ⟨_, isFound, published', isLayer, sameDigest⟩ :=
          gatherLayers_complete gathered (Nat.zero_le layer.index) (by omega)
        rw [pendingFind_of_mem ok mem] at isFound
        cases isFound
        rw [← sameDigest]
        exact .inl (.inl (published published' isLayer))
      · refine .inr (mem_append_right _ (mem_filterMap.mpr ⟨some layer, mem, ?_⟩))
        simp [Nat.le_of_not_lt committed]
    · refine .inl (.inr (.inl ⟨layer, ?_, rfl⟩))
      rw [pending]
      exact mem_clearPending.mpr ⟨mem, same⟩
  · refine .inl (.inr (.inr ?_))
    rw [maps]
    exact mapped

omit within good laws

lemma clearPending_ok (ok : PendingOk cfg pending) (key : Key) :
    PendingOk cfg (clearPending pending key) := by
  refine ⟨by rw [clearPending, length_map, ok.size], fun layer mem =>
    ok.index layer (mem_clearPending.mp mem).1, ?_⟩
  rw [clearPending, pairwise_map]
  refine ok.once.imp fun {a b} apart x y isX isY => ?_
  split at isX
  · cases isX
  split at isY
  · cases isY
  exact apart x y isX isY

/-- The invariant behind the absence of leaks: the pending table is in order, and once the
stores are started every blob they hold is in use. -/
structure Tidy (sys : System σ) (abs : Reading σ ν) (r : State σ) : Prop where
  pending : PendingOk sys.cfg r.pending
  layer : ∀ stage, r.stage = some stage → stage.layer < sys.cfg.maxLayers
  tight : r.ready = true → TightBut sys abs r []

/-- A step that holds no new blob, lists and maps no less and leaves the pending table is tidy. -/
lemma Tidy.frame (tidy : Tidy sys abs r) (ready : r.ready = true) {r' : State σ}
    (pending : r'.pending = r.pending)
    (maps : ∀ slot, some slot ∈ r.maps → ∃ slot', some slot' ∈ r'.maps ∧ slot'.digest = slot.digest)
    (stage : ∀ stage, r'.stage = some stage → stage.layer < sys.cfg.maxLayers)
    (held : ∀ digest, HeldBy abs r'.stores digest → HeldBy abs r.stores digest)
    (records : ∀ digest, Lists sys.cfg (recordsOf abs r.stores) digest →
      Lists sys.cfg (recordsOf abs r'.stores) digest) : Tidy sys abs r' := by
  refine ⟨pending ▸ tidy.pending, stage, fun _ digest isHeld => .inl ?_⟩
  refine ((tidy.tight ready digest (held digest isHeld)).resolve_right (by simp)).mono records
    (fun layer mem => ⟨layer, pending ▸ mem, rfl⟩) maps

lemma commitLocked_tidy (laws : Contract sys.ops abs) (sound : Sound sys abs False r)
    (ready : r.ready = true) (tidy : Tidy sys abs r) (key : Key) (count : Nat)
    (created now : Option UInt64) (within : RecordsWithin sys.cfg (recordsOf abs r.stores))
    (withinAfter : RecordsWithin sys.cfg
      (recordsOf abs (commitLocked sys r key count created now).2.stores)) :
    Tidy sys abs (commitLocked sys r key count created now).2 := by
  revert withinAfter
  unfold commitLocked
  split
  · exact fun _ => tidy
  split
  · exact fun _ => tidy
  split
  · exact fun _ => tidy
  rename_i layers size gathered
  dsimp only
  split
  · exact fun _ => tidy
  obtain ⟨seq, synced⟩ := syncSeq_eq sys r
  rw [synced]
  obtain ⟨_, -, written⟩ :=
    commitWrite_continues laws sound ready nofun gathered seq created now
  have good : ∀ store ∈ ({ r with seq } : State σ).stores, abs.good store := sound.stores.good
  obtain ⟨only, held, done, failed⟩ := writeMeta_spec laws good key
    (commitMeta layers size seq now created) rfl
  split
  · rename_i e r' result
    rw [result] at only held failed
    intro _
    refine tidy.frame ready (by rw [only]) (by rw [only]; exact fun slot mem => ⟨slot, mem, rfl⟩)
      (by rw [only]; exact tidy.layer) held fun digest listed => ?_
    rw [failed e rfl]
    exact listed
  rename_i r' result
  rw [result] at only held done written
  dsimp only at only held written
  obtain ⟨_, encoded, records⟩ := done rfl
  have samePending : r'.pending = r.pending := by rw [only]
  have isReady := written.ready ready
  have cleared := commitClear_continues written.sound isReady key (seq + 1)
  have freed := dropAllIfFree_continues laws cleared.sound isReady
    ((freedDigests (readMeta sys r key) r'.pending key count).take (maxPending sys.cfg))
  intro withinAfter
  replace withinAfter : RecordsWithin sys.cfg (recordsOf abs r'.stores) :=
    (congrArg (RecordsWithin sys.cfg) (freed.records_eq laws cleared.sound)).mp withinAfter
  refine ⟨?_, ?_, fun _ => ?_⟩
  · rw [dropAllIfFree_only]
    exact clearPending_ok (samePending ▸ tidy.pending) key
  · rw [dropAllIfFree_only]
    have same : r'.stage = r.stage := by rw [only]
    exact same ▸ tidy.layer
  · refine dropAllIfFree_tight laws cleared.sound isReady withinAfter ?_
    rw [samePending, take_of_length_le (freedDigests_length tidy.pending key count)]
    exact commit_tightBut laws sound.stores.good within tidy.pending (tidy.tight ready)
      gathered rfl encoded records held (by rw [only]) (by dsimp only)

end WantedEngine.Registry
