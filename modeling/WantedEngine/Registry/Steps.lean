import WantedEngine.Registry.Sound
/-!
# Every operation keeps the registry sound

One lemma for each function of the registry: from a sound state it continues soundly. The
records an operation changes are counted: a commit, a removal and a change of flags or
signature change at most one, and every other operation none.
-/
namespace WantedEngine.Registry

open List

variable {σ ν : Type} {dec : DecidableEq ν} {sys : System σ} {abs : Reading σ ν} {strict : Prop}
variable (laws : Contract sys.ops abs) {r : State σ} (sound : Sound sys abs strict r)
  (ready : r.ready = true)

/-! ### Starting -/

/-- What `reclaim` frees in a store that lists some digests. -/
def reclaimed (refs digests : List Digest) : List Digest :=
  (digests.take maxBlobs).filter fun digest => digest ∉ refs

variable {pending : List (Option Pending)} {layers : List Layer} {s : σ}

/-- Freeing digests that are held, each once. -/
lemma foldl_blobDrop_eq (laws : Contract sys.ops abs) {digests : List Digest}
    (good : abs.good s) (free : ∀ digest, ¬ abs.busy s digest) (once : digests.Nodup)
    (held : ∀ digest ∈ digests, ((abs.view s).blobs digest).isSome) :
    digests.foldl (fun store digest => (sys.ops.blobDrop store digest).2) s =
      dropMany sys digests s := by
  induction digests generalizing s with
  | nil => rfl
  | cons first rest ih =>
    obtain ⟨new, once⟩ := nodup_cons.mp once
    have has := held first mem_cons_self
    have after := laws.blobDrop good has (free first)
    have same : dropFrom sys first s = (sys.ops.blobDrop s first).2 := by
      unfold dropFrom
      rw [laws.blobHas good, if_pos has]
    calc (first :: rest).foldl (fun store digest => (sys.ops.blobDrop store digest).2) s
        = rest.foldl (fun store digest => (sys.ops.blobDrop store digest).2)
            (sys.ops.blobDrop s first).2 := rfl
      _ = dropMany sys rest (sys.ops.blobDrop s first).2 := by
        refine ih after.good (fun digest busy => free digest (after.busy digest busy)) once ?_
        intro digest mem
        have other : digest ≠ first := fun eq => new (eq ▸ mem)
        rw [after.view]
        dsimp only
        rw [Function.update_of_ne other]
        exact held digest (mem_cons_of_mem _ mem)
      _ = dropMany sys (first :: rest) s := by rw [← same]; rfl

/-- The digests a store loses in `reclaim`. -/
def reclaimedIn (sys : System σ) (refs : List Digest) (s : σ) : List Digest :=
  match sys.ops.blobList s with
  | .error _ => []
  | .ok digests => reclaimed refs digests

/-- `reclaim` in one store. -/
lemma reclaimStore_eq (laws : Contract sys.ops abs) (good : abs.good s)
    (free : ∀ digest, ¬ abs.busy s digest) (refs : List Digest) :
    reclaimStore sys refs s = dropMany sys (reclaimedIn sys refs s) s := by
  obtain ⟨_, listed, once, complete⟩ := laws.blobList good
  unfold reclaimStore reclaimedIn
  rw [listed]
  refine foldl_blobDrop_eq laws good free ?_ ?_
  · exact (once.sublist (take_sublist _ _)).filter _
  · intro digest mem
    exact (complete digest).mp (mem_of_mem_take (mem_filter.mp mem).1)

lemma reclaimStore_becomes (laws : Contract sys.ops abs) (good : abs.good s)
    (free : ∀ digest, ¬ abs.busy s digest) (refs : List Digest) :
    abs.Becomes s (reclaimStore sys refs s) { abs.view s with
      blobs := without (abs.view s).blobs (reclaimedIn sys refs s) } := by
  rw [reclaimStore_eq laws good free refs]
  exact dropMany_becomes laws good fun digest _ => free digest

variable {digest : Digest} {p' : σ} {others : List σ} {stage : Stage} {key : Key}

lemma not_mem_of_reclaimedIn {refs : List Digest} {s : σ}
    (mem : digest ∈ reclaimedIn sys refs s) : digest ∉ refs := by
  unfold reclaimedIn at mem
  split at mem
  · cases mem
  · simpa using (mem_filter.mp mem).2

/-- No store has a stage or a mapping. -/
def Idle (abs : Reading σ ν) (stores : List σ) : Prop :=
  ∀ store ∈ stores, (abs.view store).stage = .idle ∧ ∀ digest, ¬ abs.busy store digest

include laws sound

/-- Starting the stores keeps what they hold. -/
lemma startStores_continues (unready : r.ready = false) :
    Continues sys abs strict 0 r (startStores sys r) ∧ Idle abs (startStores sys r).stores := by
  have inits : ∀ store ∈ r.stores, _ := fun store mem =>
    laws.init (sound.stores.good store mem)
  have steps : Evolves sys abs strict r.resident r.stores 0 (r.stores.map sys.ops.init) :=
    Evolves.map laws [] r.stores sound.stores.good fun store _ => .single (.init store)
  have stays : ∀ digest, Present abs r.resident r.stores digest →
      Present abs r.resident (r.stores.map sys.ops.init) digest := by
    intro digest present
    refine present.imp id fun ⟨store, mem, has⟩ => ?_
    refine ⟨sys.ops.init store, mem_map_of_mem mem, ?_⟩
    rw [(inits store mem).1.view]
    exact has
  refine ⟨⟨⟨steps.sound laws sound.stores, ?_, ?_, sound.handles, ?_, ?_, sound.unready⟩,
    steps, rfl, id⟩, ?_⟩
  · exact fun isStrict layer mem => stays _ (sound.pended isStrict layer mem)
  · exact fun isStrict slot mem => stays _ (sound.mapped isStrict slot mem)
  · exact fun ready => absurd ready (by simp [startStores, unready])
  · exact fun ready => absurd ready (by simp [startStores, unready])
  · intro store mem
    obtain ⟨before, isStore, rfl⟩ := mem_map.mp mem
    exact ⟨by rw [(inits before isStore).1.view], (inits before isStore).2⟩

omit laws sound

lemma reclaim_only (r : State σ) : reclaim sys r = { r with stores := (reclaim sys r).stores } := by
  unfold reclaim
  split <;> rfl

/-- Starting leaves the stage, the tables and the resident images. -/
lemma ensureReady_only (r : State σ) : ensureReady sys r = { r with
      seq := (ensureReady sys r).seq
      ready := (ensureReady sys r).ready
      stores := (ensureReady sys r).stores } := by
  unfold ensureReady
  split
  · rfl
  dsimp only
  rw [reclaim_only]
  rfl

include laws sound

lemma reclaim_continues (unready : r.ready = false) (idle : Idle abs r.stores) :
    Continues sys abs strict 0 r (reclaim sys r) ∧ Idle abs (reclaim sys r).stores := by
  unfold reclaim
  cases listing : listedDigests sys r with
  | none => exact ⟨sound.continues, idle⟩
  | some refs =>
    have free : ∀ store ∈ r.stores, ∀ digest, ¬ abs.busy store digest :=
      fun store mem => (idle store mem).2
    have freed := fun store (mem : store ∈ r.stores) =>
      reclaimStore_becomes laws (sound.stores.good store mem) (free store mem) refs
    refine ⟨sound.trimmed laws freed ?_ ?_ ?_, ?_⟩
    · intro store mem
      rw [reclaimStore_eq laws (sound.stores.good store mem) (free store mem) refs]
      refine dropMany_acts laws (sound.stores.good store mem)
        (fun digest _ => free store mem digest) fun isStrict digest lost listed => ?_
      exact not_mem_of_reclaimedIn lost (mem_listedDigests laws sound.stores isStrict listing listed)
    · exact fun layer mem => nomatch (sound.unready unready).2.1 _ mem
    · exact fun slot mem => nomatch (sound.unready unready).2.2 _ mem
    · intro store mem
      obtain ⟨before, isStore, rfl⟩ := mem_map.mp mem
      refine ⟨?_, fun digest busy => free before isStore digest
        ((freed before isStore).busy digest busy)⟩
      rw [(freed before isStore).view]
      exact (idle before isStore).1

omit laws sound

lemma Sound.withSeq {r : State σ} (sound : Sound sys abs strict r) (seq : UInt32) :
    Continues sys abs strict 0 r { r with seq } :=
  ⟨⟨sound.stores, sound.pended, sound.mapped, sound.handles, sound.stage, sound.busy,
    sound.unready⟩, .refl, rfl, id⟩

lemma Sound.start {r : State σ} (sound : Sound sys abs strict r) (unready : r.ready = false)
    (idle : Idle abs r.stores) : Continues sys abs strict 0 r { r with ready := true } := by
  refine ⟨⟨sound.stores, sound.pended, sound.mapped, sound.handles, ?_, ?_, nofun⟩, .refl, rfl,
    fun _ => rfl⟩
  · intro _ p head
    rw [(idle p (mem_of_mem_head? head)).1, (sound.unready unready).1]
    rfl
  · intro _ pos store found digest busy
    exact absurd busy ((idle store (mem_of_getElem? found)).2 digest)

include laws sound

lemma ensureReady_continues :
    Continues sys abs strict 0 r (ensureReady sys r) ∧ (ensureReady sys r).ready = true := by
  unfold ensureReady
  split
  · rename_i ready
    exact ⟨sound.continues, ready⟩
  rename_i unready
  replace unready : r.ready = false := by simpa using unready
  refine ⟨?_, rfl⟩
  obtain ⟨start, idle⟩ := startStores_continues laws sound unready
  have numbered := start.sound.withSeq (startSeq sys (startStores sys r))
  obtain ⟨reclaiming, idle⟩ := reclaim_continues laws numbered.sound unready idle
  have ending := reclaiming.sound.start (by rw [reclaim_only]; exact unready) idle
  exact start.then (numbered.then (reclaiming.then ending))

omit laws sound

/-! ### Pending layers and records -/

lemma pendingRecord_continues {r : State σ} (sound : Sound sys abs strict r)
    (ready : r.ready = true) (key : Key) (index : Nat) (len : UInt32)
    (present : strict → Present abs r.resident r.stores digest) :
    Continues sys abs strict 0 r
      { r with
        order := r.order + 1
        pending := r.pending.set (pendingSlot r.pending key index)
          (some ⟨key, index, digest, len, r.order + 1⟩) } := by
  refine sound.tables ready r.seq (r.order + 1) _ r.maps (fun isStrict layer mem => ?_)
    (fun slot mem =>
      ⟨fun isStrict => sound.mapped isStrict slot mem, sound.handles slot mem⟩)
    (fun slot mem => ⟨slot, mem, rfl, rfl⟩)
  rcases mem_or_eq_of_mem_set mem with old | new
  · exact sound.pended isStrict layer old
  · cases new
    exact present isStrict

include laws sound ready

lemma pendingAdd_continues (key : Key) (index : Nat) (len : UInt32)
    (present : strict → Present abs r.resident r.stores digest) :
    Continues sys abs strict 0 r (pendingAdd sys r key index digest len) := by
  have recorded := pendingRecord_continues sound ready key index len present
  exact recorded.then (dropAllIfFree_continues laws recorded.sound (recorded.ready ready) _)

lemma Sound.primary {n : Nat} {p : σ} (stores : r.stores = p :: others)
    (steps : Evolves sys abs strict r.resident (p :: others) n (p' :: others))
    (keeps : ∀ digest, ((abs.view p).blobs digest).isSome → ((abs.view p').blobs digest).isSome)
    (busy : ∀ digest, abs.busy p' digest → abs.busy p digest)
    {stage : Option Stage} (staged : (abs.view p').stage = stageView stage) :
    Continues sys abs strict n r { r with stores := p' :: others, stage } := by
  have stays : ∀ digest, Present abs r.resident r.stores digest →
      Present abs r.resident (p' :: others) digest := by
    intro digest present
    rw [stores] at present
    exact Present.replace [] others present (keeps digest)
  rw [← stores] at steps
  refine ⟨⟨steps.sound laws sound.stores, ?_, ?_, sound.handles, ?_, ?_, ?_⟩, steps, rfl, id⟩
  · exact fun isStrict layer mem => stays _ (sound.pended isStrict layer mem)
  · exact fun isStrict slot mem => stays _ (sound.mapped isStrict slot mem)
  · rintro _ _ ⟨⟩
    exact staged
  · intro _ pos store found digest isBusy
    cases pos with
    | zero =>
      cases found
      exact sound.busy ready 0 p (by rw [stores]; rfl) digest (busy digest isBusy)
    | succ pos =>
      exact sound.busy ready (pos + 1) store (by rw [stores]; exact found) digest isBusy
  · intro unready
    rw [show r.ready = true from ready] at unready
    cases unready

omit laws sound ready

/-- An operation that changes at most one record. -/
def ContinuesOnce (sys : System σ) (abs : Reading σ ν) (strict : Prop) (r r' : State σ) : Prop :=
  ∃ n ≤ 1, Continues sys abs strict n r r'

/-- An operation that changes no record changes at most one. -/
lemma Continues.once {r r' : State σ} (done : Continues sys abs strict 0 r r') :
    ContinuesOnce sys abs strict r r' := ⟨0, Nat.zero_le 1, done⟩

lemma ContinuesOnce.after {first second third : State σ}
    (before : Continues sys abs strict 0 first second)
    (after : ContinuesOnce sys abs strict second third) : ContinuesOnce sys abs strict first third := by
  obtain ⟨n, few, after⟩ := after
  exact ⟨n, few, before.then after⟩

include laws sound ready

lemma writeMeta_continues {record : Meta}
    (named : strict → ∃ other, abs.listable other ∧ abs.recName other = abs.recName key)
    (present : strict → ∀ digest ∈ record.digests, Present abs r.resident r.stores digest) :
    ContinuesOnce sys abs strict r (writeMeta sys r key record).2 := by
  unfold writeMeta
  split
  · exact sound.continues.once
  rename_i p others stores
  split
  · exact sound.continues.once
  rename_i bytes encoded
  have good := sound.stores.good p (primary_mem stores)
  have after := laws.recPut key bytes good
  have blobs : (abs.view (sys.ops.recPut p key bytes).2).blobs =
      (abs.view p).blobs := by rw [after.view]
  have staged : (abs.view (sys.ops.recPut p key bytes).2).stage = stageView r.stage := by
    rw [after.view]
    exact sound.stage ready p (by rw [stores]; rfl)
  have keeps : ∀ digest, ((abs.view p).blobs digest).isSome →
      ((abs.view (sys.ops.recPut p key bytes).2).blobs digest).isSome :=
    fun digest has => blobs ▸ has
  cases put : (sys.ops.recPut p key bytes).1 with
  | error e =>
    have steps : Evolves sys abs strict r.resident (p :: others) 0
        ((sys.ops.recPut p key bytes).2 :: others) :=
      Evolves.one [] others (.putRefused key bytes put)
    exact (sound.primary laws ready stores steps keeps after.busy staged).once
  | ok _ =>
    have steps : Evolves sys abs strict r.resident (p :: others) 1
        ((sys.ops.recPut p key bytes).2 :: others) := by
      refine Evolves.refl.put put named fun isStrict decodedRecord decoded => ?_
      rw [registryRecordDecode_encode encoded] at decoded
      cases decoded
      rw [← stores]
      exact present isStrict
    exact ⟨1, Nat.le_refl 1, sound.primary laws ready stores steps keeps after.busy staged⟩

omit laws sound ready

/-! ### Committing -/

lemma gatherLayers_pended {size total : UInt32} {pos count : Nat}
    (gathered : gatherLayers pending key size pos count = .ok (layers, total)) :
    ∀ layer ∈ layers, ∃ staged, some staged ∈ pending ∧ staged.digest = layer.digest := by
  induction count generalizing size total pos layers with
  | zero =>
    simp only [gatherLayers, Except.ok.injEq, Prod.mk.injEq] at gathered
    simp [← gathered.1]
  | succ count ih =>
    simp only [gatherLayers] at gathered
    split at gathered
    · cases gathered
    rename_i staged found
    split at gathered
    · cases gathered
    split at gathered
    · cases gathered
    rename_i later
    simp only [Except.ok.injEq, Prod.mk.injEq] at gathered
    intro layer mem
    rw [← gathered.1] at mem
    rcases mem_cons.mp mem with rfl | other
    · refine ⟨staged, ?_, rfl⟩
      exact mem_of_find?_eq_some (Option.join_eq_some_iff.mp found)
    · exact ih later layer other

lemma mem_clearPending {layer : Pending} :
    some layer ∈ clearPending pending key ↔ some layer ∈ pending ∧ layer.key ≠ key := by
  constructor
  · intro mem
    obtain ⟨_, isSlot, same⟩ := mem_map.mp mem
    split at same
    · cases same
    rename_i other
    subst same
    exact ⟨isSlot, by simpa [isOf] using other⟩
  · rintro ⟨mem, other⟩
    exact mem_map.mpr ⟨some layer, mem, by simp [isOf, other]⟩

lemma syncSeq_eq (sys : System σ) (r : State σ) : ∃ seq, syncSeq sys r = { r with seq } := by
  unfold syncSeq
  split
  · exact ⟨r.seq, rfl⟩
  · exact ⟨_, rfl⟩

include laws sound ready

lemma commitWrite_continues (listable : strict → abs.listable key) {count : Nat} {size : UInt32}
    (gathered : gatherLayers r.pending key 0 0 count = .ok (layers, size)) (seq : UInt32)
    (created now : Option UInt64) :
    ContinuesOnce sys abs strict r
      (writeMeta sys { r with seq } key (commitMeta layers size seq now created)).2 := by
  have numbered := sound.withSeq seq
  refine ContinuesOnce.after numbered (writeMeta_continues laws numbered.sound ready
    (fun isStrict => ⟨key, listable isStrict, rfl⟩) fun isStrict digest mem => ?_)
  obtain ⟨layer, isLayer, rfl⟩ := mem_map.mp mem
  obtain ⟨staged, isStaged, same⟩ := gatherLayers_pended gathered layer isLayer
  exact same ▸ sound.pended isStrict staged isStaged

omit laws sound ready

lemma commitClear_continues {r : State σ} (sound : Sound sys abs strict r)
    (ready : r.ready = true) (key : Key) (seq : UInt32) :
    Continues sys abs strict 0 r { r with seq, pending := clearPending r.pending key } :=
  sound.tables ready seq r.order (clearPending r.pending key) r.maps
    (fun isStrict layer mem => sound.pended isStrict layer (mem_clearPending.mp mem).1)
    (fun slot mem =>
      ⟨fun isStrict => sound.mapped isStrict slot mem, sound.handles slot mem⟩)
    (fun slot mem => ⟨slot, mem, rfl, rfl⟩)

include laws sound ready

lemma commitLocked_continues (listable : strict → abs.listable key) (count : Nat)
    (created now : Option UInt64) :
    ContinuesOnce sys abs strict r (commitLocked sys r key count created now).2 := by
  unfold commitLocked
  split
  · exact sound.continues.once
  split
  · exact sound.continues.once
  split
  · exact sound.continues.once
  rename_i gathered
  dsimp only
  split
  · exact sound.continues.once
  obtain ⟨seq, synced⟩ := syncSeq_eq sys r
  rw [synced]
  have written := commitWrite_continues laws sound ready listable gathered seq created now
  split
  · rename_i result
    rw [result] at written
    exact written
  rename_i r' result
  rw [result] at written
  obtain ⟨n, few, written⟩ := written
  have isReady := written.ready ready
  have cleared := commitClear_continues written.sound isReady key (seq + 1)
  have freed := dropAllIfFree_continues laws cleared.sound isReady
    ((freedDigests (readMeta sys r key) r'.pending key count).take (maxPending sys.cfg))
  exact ⟨n, few, written.trans (cleared.then freed)⟩

omit laws sound ready

/-! ### Staging -/

lemma setPrimary_eq {r : State σ} {p : σ} (stores : r.stores = p :: others)
    (store : σ) : setPrimary r store = { r with stores := store :: others } := by
  simp [setPrimary, stores]

/-- An operation on the stage: the primary store makes calls on its stage alone, and the registry's
stage goes with it. -/
inductive Restages (sys : System σ) (abs : Reading σ ν) (strict : Prop) (r : State σ) :
    State σ → Prop where
  | intro {p p' : σ} {others : List σ} (stage : Option Stage)
      (stores : r.stores = p :: others)
      (calls : Relation.ReflTransGen
        (Act sys abs strict (Lists sys.cfg (recordsOf abs (p :: others)))) p
        p')
      (view : abs.view p' = { abs.view p with stage := stageView stage })
      (busy : ∀ digest, abs.busy p' digest → abs.busy p digest) :
      Restages sys abs strict r (setPrimary { r with stage } p')

variable {p : σ} (stores : r.stores = p :: others)
include sound ready stores

/-- Nothing done is such an operation. -/
lemma Sound.restages : Restages sys abs strict r r := by
  have view : abs.view p = { abs.view p with stage := stageView r.stage } := by
    rw [← sound.stage ready p (by rw [stores]; rfl)]
  have same : setPrimary { r with stage := r.stage } p = r := by
    rw [setPrimary_eq (show ({ r with stage := r.stage } : State σ).stores = _ from stores),
      ← stores]
  have nothing : Restages sys abs strict r (setPrimary { r with stage := r.stage } p) :=
    .intro r.stage stores .refl view fun _ => id
  rwa [same] at nothing

lemma Sound.primary_idle (noStage : r.stage = none) : (abs.view p).stage = .idle := by
  rw [sound.stage ready p (by rw [stores]; rfl), noStage]
  rfl

lemma Sound.primary_writing (active : r.stage = some stage) (noErr : stage.err = none) :
    (abs.view p).stage = .writing stage.taken := by
  rw [sound.stage ready p (by rw [stores]; rfl), active]
  simp [stageView, noErr]

include laws

lemma Sound.staging (calls : Relation.ReflTransGen
      (Act sys abs strict (Lists sys.cfg (recordsOf abs (p :: others))))
      p p') (keeps : ∀ digest, ((abs.view p).blobs digest).isSome →
      ((abs.view p').blobs digest).isSome)
    (busy : ∀ digest, abs.busy p' digest → abs.busy p digest)
    (stage : Option Stage) (staged : (abs.view p').stage = stageView stage) :
    Continues sys abs strict 0 r (setPrimary { r with stage } p') := by
  have good := sound.stores.good p (primary_mem stores)
  rw [setPrimary_eq (show ({ r with stage } : State σ).stores = _ from stores)]
  have steps := (Evolves.acts r.resident laws [] others good calls).1
  exact sound.primary laws ready stores steps keeps busy staged

omit stores in
lemma Restages.continues {r' : State σ} (restages : Restages sys abs strict r r') :
    Continues sys abs strict 0 r r' := by
  cases restages with
  | intro stage stores calls view busy =>
    refine sound.staging laws ready stores calls ?_ busy stage (by rw [view])
    intro digest has
    rw [view]
    exact has

omit ready in
lemma stageDrop_restages : Restages sys abs strict r (stageDrop sys r p) := by
  have after := laws.stageAbort (sound.stores.good p (primary_mem stores))
  exact .intro none stores (.single (.stageAbort p)) after.view after.busy

lemma stageWriteLocked_restages (active : r.stage = some stage) (buf : Bytes) :
    Restages sys abs strict r (stageWriteLocked sys r p stage buf).2 ∧
      ∃ stage', (stageWriteLocked sys r p stage buf).2.stage = some stage' ∧
        stage'.plain = stage.plain ∧ stage'.layer = stage.layer := by
  unfold stageWriteLocked
  split
  · exact ⟨sound.restages ready stores, stage, active, rfl, rfl⟩
  rename_i noErr
  have writing := sound.primary_writing ready stores active noErr
  have after := laws.stageWrite buf (sound.stores.good p (primary_mem stores)) writing
  have call : Act sys abs strict (Lists sys.cfg (recordsOf abs (p :: others)))
      p (sys.ops.stageWrite p buf).2 := .stageWrite buf writing
  split
  all_goals
    rename_i result
    rw [result] at after call
    refine ⟨.intro _ stores (.single call) ?_ after.busy, _, rfl, rfl, rfl⟩
    rw [after.view]
    simp [stageView, noErr]

lemma stageEnd_acts
    (active : r.stage = some stage) (noErr : stage.err = none) (nonempty : stage.taken ≠ [])
    {rc : Rc Unit}
    (ended : sys.ops.stageEnd p (sys.sha256 stage.taken) stage.taken.length = (rc, p')) :
    Act sys abs strict (Lists sys.cfg (recordsOf abs (p :: others))) p p' ∧
      abs.Becomes p p'
        { abs.view p with
          stage := .idle
          blobs := if succeeded rc then
              keepBlob (abs.view p).blobs (sys.sha256 stage.taken) stage.taken
            else (abs.view p).blobs } := by
  have writing := sound.primary_writing ready stores active noErr
  have after := laws.stageEnd (sys.sha256 stage.taken)
    (sound.stores.good p (primary_mem stores)) writing nonempty
  have call : Act sys abs strict (Lists sys.cfg (recordsOf abs (p :: others)))
      p (sys.ops.stageEnd p (sys.sha256 stage.taken) stage.taken.length).2 :=
    .stageEnd stage.taken writing nonempty
  rw [ended] at after call
  exact ⟨call, after⟩

omit laws sound ready stores

/-- The store keeps the bytes of a stage that ends. -/
def Keeps (sys : System σ) (p : σ) (stage : Stage) (p' : σ) : Prop :=
  stage.err = none ∧ stage.taken ≠ [] ∧
    sys.ops.stageEnd p (sys.sha256 stage.taken) stage.taken.length = (.ok (), p')

/-- The registry after a stage was kept and its layer is pending. -/
def stageKept (sys : System σ) (r : State σ) (p : σ) (stage : Stage) : State σ :=
  pendingAdd sys (setPrimary { r with stage := none } p) stage.key stage.layer
    (sys.sha256 stage.taken) stage.taken.length.toUInt32

include laws sound ready stores

lemma Keeps.continues (kept : Keeps sys p stage p') (active : r.stage = some stage) :
    Continues sys abs strict 0 r (setPrimary { r with stage := none } p') ∧
      (abs.view p').records = (abs.view p).records ∧
      (abs.view p').blobs = keepBlob (abs.view p).blobs (sys.sha256 stage.taken) stage.taken ∧
      Present abs r.resident (setPrimary { r with stage := none } p').stores
        (sys.sha256 stage.taken) := by
  obtain ⟨noErr, nonempty, ended⟩ := kept
  obtain ⟨call, after⟩ := stageEnd_acts laws sound ready stores active noErr nonempty ended
  refine ⟨sound.staging laws ready stores (.single call) ?_ after.busy none
    (by rw [after.view]; rfl), by rw [after.view], by rw [after.view]; rfl, ?_⟩
  · intro digest has
    rw [after.view]
    exact @keptBlobs_isSome _ _ _ _ true has
  · rw [setPrimary_eq (show ({ r with stage := none } : State σ).stores = _ from stores)]
    refine .inr ⟨p', mem_cons_self, ?_⟩
    rw [after.view]
    exact keepBlob_isSome

/-- `stageFinishLocked` of a stage that the store keeps goes on from the pending layer. -/
lemma stageKept_continues (kept : Keeps sys p stage p') (active : r.stage = some stage) :
    Continues sys abs strict 0 r (stageKept sys r p' stage) := by
  obtain ⟨ended, -, -, present⟩ := kept.continues laws sound ready stores active
  exact ended.then (pendingAdd_continues laws ended.sound (ended.ready ready) stage.key
    stage.layer stage.taken.length.toUInt32 fun _ => present)

/-- A FINISH fails and only ends the stage, or the store keeps the bytes of the stage and they become
a pending layer, which a plain stage commits. -/
lemma stageFinishLocked_cases (active : r.stage = some stage) (now : Option UInt64) :
    ((∀ p', ¬ Keeps sys p stage p') ∧ ∃ e r',
      stageFinishLocked sys r p stage now = (.error e, r') ∧ r'.stage = none ∧
      Restages sys abs strict r r') ∨
    ∃ p', Keeps sys p stage p' ∧
      stageFinishLocked sys r p stage now =
        if stage.plain then commitLocked sys (stageKept sys r p' stage) stage.key 1 none now
        else (.ok (), stageKept sys r p' stage) := by
  have dropped := stageDrop_restages laws sound stores
  unfold stageFinishLocked
  cases noErr : stage.err with
  | some e =>
    exact .inl ⟨fun _ kept => (nomatch noErr.symm.trans kept.1), e, _, rfl, rfl, dropped⟩
  | none =>
    dsimp only
    by_cases empty : stage.taken = []
    · rw [if_pos empty]
      exact .inl ⟨fun _ kept => kept.2.1 empty, _, _, rfl, rfl, dropped⟩
    rw [if_neg empty]
    cases ended : sys.ops.stageEnd p (sys.sha256 stage.taken) stage.taken.length with
    | mk rc p' =>
      cases rc with
      | error e =>
        obtain ⟨call, after⟩ := stageEnd_acts laws sound ready stores active noErr empty ended
        exact .inl ⟨fun _ kept => (nomatch ended.symm.trans kept.2.2), e, _, rfl, rfl,
          .intro none stores (.single call) (by rw [after.view]; rfl) after.busy⟩
      | ok _ => exact .inr ⟨p', ⟨noErr, empty, ended⟩, rfl⟩

lemma stageFinishLocked_continues (active : r.stage = some stage)
    (listable : strict → stage.plain = true → abs.listable stage.key) (now : Option UInt64) :
    ContinuesOnce sys abs strict r (stageFinishLocked sys r p stage now).2 := by
  rcases stageFinishLocked_cases laws sound ready stores active now with
    ⟨-, e, r', finish, -, restages⟩ | ⟨p', isKept, finish⟩
  · rw [finish]
    exact (restages.continues laws sound ready).once
  · have kept := stageKept_continues laws sound ready stores isKept active
    rw [finish]
    split
    · rename_i plain
      exact (commitLocked_continues laws kept.sound (kept.ready ready)
        (fun isStrict => listable isStrict plain) 1 none now).after kept
    · exact kept.once

lemma startWrite_restages (plain : Bool) (ref : Bytes) (layer : Nat) (allocated : Bool) (buf : Bytes) :
    Restages sys abs strict r (startWrite sys r p plain ref layer allocated buf).2 ∧
      match startWrite sys r p plain ref layer allocated buf with
      | (.error _, after) => after.stage = r.stage
      | (.ok taken, after) => ∃ key, parseRef ref = .ok key ∧ layer < sys.cfg.maxLayers ∧
        after.stage = some ⟨plain, none, buf.take taken, key, layer⟩ := by
  have same := sound.restages ready stores
  unfold startWrite
  split
  · exact ⟨same, rfl⟩
  split
  · exact ⟨same, rfl⟩
  rename_i inactive
  split
  · exact ⟨same, rfl⟩
  rename_i key parsed
  split
  · exact ⟨same, rfl⟩
  rename_i within
  split
  · exact ⟨same, rfl⟩
  have noStage : r.stage = none := by simpa using inactive
  have good := sound.stores.good p (primary_mem stores)
  have idle := sound.primary_idle ready stores noStage
  have begun := laws.stageBegin good idle
  have beginning : Act sys abs strict (Lists sys.cfg (recordsOf abs (p :: others)))
      p (sys.ops.stageBegin p).2 := .stageBegin idle
  split
  · rename_i result
    rw [result] at begun beginning
    have done := Restages.intro r.stage stores (.single beginning)
      (by rw [begun.view, noStage]; rfl) begun.busy
    exact ⟨done, rfl⟩
  rename_i p' result
  rw [result] at begun beginning
  have writing : (abs.view p').stage = .writing [] := by
    rw [begun.view]
    rfl
  have wrote := laws.stageWrite buf begun.good writing
  have write : Act sys abs strict (Lists sys.cfg (recordsOf abs (p :: others)))
      p' (sys.ops.stageWrite p' buf).2 := .stageWrite buf writing
  split
  · rename_i p'' result
    rw [result] at wrote write
    have aborted := laws.stageAbort wrote.good
    refine ⟨.intro none stores
      (((Relation.ReflTransGen.single beginning).tail write).tail (.stageAbort p'')) ?_ ?_,
      noStage.symm⟩
    · rw [aborted.view, wrote.view, begun.view]
      rfl
    · exact fun digest busy => begun.busy digest (wrote.busy digest (aborted.busy digest busy))
  · rename_i result
    rw [result] at wrote write
    refine ⟨.intro _ stores ((Relation.ReflTransGen.single beginning).tail write) ?_
      fun digest busy => begun.busy digest (wrote.busy digest busy),
      key, parsed, Nat.lt_of_not_le within, rfl⟩
    rw [wrote.view, begun.view]
    simp [stageView]

omit stores

/-- A write fails and changes nothing, works on the stage alone, or finishes it. -/
lemma writeLayerLocked_cases (state : WriteState) (plain : Bool) (buf : Bytes) :
    (∃ e, writeLayerLocked sys r state plain buf = (.error e, r)) ∨
    ((∀ now, state ≠ .finish now) ∧
      Restages sys abs strict r (writeLayerLocked sys r state plain buf).2 ∧
      ∀ stage', (writeLayerLocked sys r state plain buf).2.stage = some stage' →
        stage'.layer < sys.cfg.maxLayers ∨ r.stage.map Stage.layer = some stage'.layer) ∨
    ∃ now p others stage, state = .finish now ∧ r.stores = p :: others ∧
      r.stage = some stage ∧ writeLayerLocked sys r state plain buf =
        ((stageFinishLocked sys r p stage now).1.map fun _ => 0,
          (stageFinishLocked sys r p stage now).2) := by
  unfold writeLayerLocked
  cases stores : r.stores with
  | nil => exact .inl ⟨_, rfl⟩
  | cons p others =>
    cases state with
    | start ref layer allocated =>
      obtain ⟨restages, started⟩ := startWrite_restages laws sound ready stores plain ref
        (if plain then 0 else layer) allocated buf
      refine .inr (.inl ⟨nofun, restages, fun stage' active => ?_⟩)
      dsimp only at active
      split at started
      · rename_i result
        rw [result, started] at active
        exact .inr (by rw [active]; rfl)
      · rename_i result
        obtain ⟨_, -, within, opened⟩ := started
        rw [result, opened, Option.some.injEq] at active
        exact .inl (active ▸ within)
    | next =>
      cases active : r.stage with
      | none => exact .inl ⟨_, rfl⟩
      | some stage =>
        dsimp only
        split
        · exact .inl ⟨_, rfl⟩
        obtain ⟨restages, stage', active', -, same⟩ :=
          stageWriteLocked_restages laws sound ready stores active buf
        refine .inr (.inl ⟨nofun, restages, fun other isOther => .inr ?_⟩)
        rw [active', Option.some.injEq] at isOther
        rw [← isOther, same]
        rfl
    | finish now =>
      cases active : r.stage with
      | none => exact .inl ⟨_, rfl⟩
      | some stage => exact .inr (.inr ⟨now, p, others, stage, rfl, rfl, rfl, rfl⟩)
    | abort =>
      cases active : r.stage with
      | none => exact .inl ⟨_, rfl⟩
      | some stage => exact .inr (.inl ⟨nofun, stageDrop_restages laws sound stores, nofun⟩)

lemma writeLayerLocked_continues (state : WriteState) (plain : Bool) (buf : Bytes)
    (listable : strict → ∀ now stage, state = .finish now → r.stage = some stage →
      stage.plain = true → abs.listable stage.key) :
    ContinuesOnce sys abs strict r (writeLayerLocked sys r state plain buf).2 := by
  rcases writeLayerLocked_cases laws sound ready state plain buf with
    ⟨e, failed⟩ | ⟨-, restages, -⟩ | ⟨now, p, others, stage, rfl, stores, active, finish⟩
  · rw [failed]
    exact sound.continues.once
  · exact (restages.continues laws sound ready).once
  · rw [finish]
    exact stageFinishLocked_continues laws sound ready stores active
      (fun isStrict => listable isStrict now stage rfl active) now

end WantedEngine.Registry
