import WantedEngine.Registry.Steps
/-!
# What an operation leaves of the stage

The registry's one stage is opened by START, grows by CONTINUE and ends with FINISH; no other
operation touches it, and none changes how many stores or slots for pending layers there are. All of
this holds of every store, whatever its operations answer.
-/
namespace WantedEngine.Registry

open List

variable {σ : Type} (sys : System σ)

/-! ### What operations leave of the stage and the tables -/

/-- The stage, the number of pending slots and the number of stores are those from before. -/
structure Frame (r r' : State σ) : Prop where
  stage : r'.stage = r.stage
  table : r'.pending.length = r.pending.length
  stores : r'.stores.length = r.stores.length

/-- Nothing done. -/
lemma Frame.refl (r : State σ) : Frame r r := ⟨rfl, rfl, rfl⟩

lemma Frame.trans {first second third : State σ} (before : Frame first second)
    (after : Frame second third) : Frame first third :=
  ⟨after.stage.trans before.stage, after.table.trans before.table, after.stores.trans before.stores⟩

lemma Frame.nonempty {r r' : State σ} (frame : Frame r r') (some_ : r.stores ≠ []) :
    r'.stores ≠ [] := by
  intro empty
  have count := frame.stores
  rw [empty] at count
  exact some_ (length_eq_zero_iff.mp count.symm)

variable (r : State σ)
include r

lemma dropAllIfFree_frame (digests : List Digest) : Frame r (dropAllIfFree sys r digests) := by
  cases listing : listedDigests sys r with
  | none =>
    rw [dropAllIfFree_short digests listing]
    exact .refl r
  | some refs =>
    rw [dropAllIfFree_eq listing]
    exact ⟨rfl, rfl, length_map _⟩

lemma ensureReady_frame : Frame r (ensureReady sys r) := by
  unfold ensureReady reclaim
  split
  · exact .refl r
  dsimp only
  split
  · exact ⟨rfl, rfl, length_map _⟩
  · exact ⟨rfl, rfl, by simp [startStores]⟩

lemma pendingAdd_frame_stage (key : Key) (index : Nat) (digest : Digest)
    (len : UInt32) : Frame r (pendingAdd sys r key index digest len) := by
  refine Frame.trans ?_ (dropAllIfFree_frame sys _ _)
  exact ⟨rfl, length_set, rfl⟩

lemma writeMeta_frame (key : Key) (record : Meta) :
    Frame r (writeMeta sys r key record).2 ∧ (writeMeta sys r key record).2.maps = r.maps := by
  unfold writeMeta
  split
  · exact ⟨.refl r, rfl⟩
  rename_i stores
  split
  · exact ⟨.refl r, rfl⟩
  · exact ⟨⟨rfl, rfl, by rw [stores]; rfl⟩, rfl⟩

lemma commitLocked_frame (key : Key) (count : Nat) (created now : Option UInt64) :
    Frame r (commitLocked sys r key count created now).2 ∧
      (commitLocked sys r key count created now).2.maps = r.maps := by
  unfold commitLocked
  split
  · exact ⟨.refl r, rfl⟩
  split
  · exact ⟨.refl r, rfl⟩
  split
  · exact ⟨.refl r, rfl⟩
  rename_i layers size _
  dsimp only
  split
  · exact ⟨.refl r, rfl⟩
  obtain ⟨seq, synced⟩ := syncSeq_eq sys r
  rw [synced]
  have counted : Frame r { r with seq } := ⟨rfl, rfl, rfl⟩
  obtain ⟨frame, maps⟩ :=
    writeMeta_frame sys { r with seq } key (commitMeta layers size seq now created)
  split
  · rename_i result
    rw [result] at frame maps
    exact ⟨counted.trans frame, maps⟩
  rename_i result
  rw [result] at frame maps
  refine ⟨(counted.trans frame).trans (Frame.trans ?_ (dropAllIfFree_frame sys _ _)), ?_⟩
  · exact ⟨rfl, length_map _, rfl⟩
  · rw [dropAllIfFree_only]
    exact maps

lemma registryCommit_frame (ref : Bytes) (count : Nat)
    (created now : Option UInt64) : Frame r (registryCommit sys r ref count created now).2 := by
  unfold registryCommit
  split
  · exact .refl r
  · exact (ensureReady_frame sys r).trans (commitLocked_frame sys _ _ _ _ _).1

lemma registryMetaSetSignature_frame (entry : Entry) (keyId : UInt32)
    (signature : Signature) : Frame r (registryMetaSetSignature sys r entry keyId signature).2 := by
  unfold registryMetaSetSignature
  dsimp only
  split
  · exact ensureReady_frame sys r
  split
  · exact ensureReady_frame sys r
  · exact (ensureReady_frame sys r).trans (writeMeta_frame sys _ _ _).1

lemma registryLinkLayer_frame (ref : Bytes) (layer : Nat) (digest : Digest) :
    Frame r (registryLinkLayer sys r ref layer digest).2 := by
  unfold registryLinkLayer
  split
  · exact .refl r
  split
  · exact .refl r
  dsimp only
  split
  · exact ensureReady_frame sys r
  · exact (ensureReady_frame sys r).trans (pendingAdd_frame_stage sys _ _ _ _ _)

/-! ### What writes do to the stage -/

lemma setPrimary_frame (p : σ) : Frame r (setPrimary r p) :=
  ⟨rfl, rfl, length_set⟩

lemma registryWrite_start_frame (plain : Bool) (ref : Bytes) (layer : Nat)
    (allocated : Bool) (buf : Bytes) {after}
    (wrote : registryWrite sys r plain (.start ref layer allocated) buf = after) :
    (∃ taken key, after.1 = .ok taken ∧ r.stage = none ∧ r.stores ≠ [] ∧ parseRef ref = .ok key ∧
      Frame { r with stage := some ⟨plain, none, buf.take taken, key, if plain then 0 else layer⟩ }
        after.2) ∨ ∃ e, after.1 = .error e ∧ Frame r after.2 := by
  subst wrote
  have start := ensureReady_frame sys r
  rw [registryWrite, writeLayerLocked]
  generalize ensureReady sys r = started at start ⊢
  cases stores : started.stores with
  | nil => exact .inr ⟨_, rfl, start⟩
  | cons p others =>
    have nonempty : r.stores ≠ [] := by
      intro empty
      have count := start.stores
      rw [stores, empty] at count
      cases count
    dsimp only
    generalize (if plain then 0 else layer) = pos
    unfold startWrite
    split
    · exact .inr ⟨_, rfl, start⟩
    split
    · exact .inr ⟨_, rfl, start⟩
    rename_i inactive
    have noStage : started.stage = none := by simpa using inactive
    split
    · exact .inr ⟨_, rfl, start⟩
    rename_i key parsed
    split
    · exact .inr ⟨_, rfl, start⟩
    split
    · exact .inr ⟨_, rfl, start⟩
    split
    · exact .inr ⟨_, rfl, start.trans (setPrimary_frame _ _)⟩
    split
    · refine .inr ⟨_, rfl, start.trans ?_⟩
      exact ⟨noStage.symm, rfl, length_set⟩
    rename_i taken last _
    refine .inl ⟨taken, key, rfl, start.stage ▸ noStage, nonempty, parsed, ?_⟩
    exact ⟨rfl, start.table, length_set.trans start.stores⟩

omit r

lemma registryWrite_next_frame {r : State σ} {stage : Stage} (active : r.stage = some stage)
    (plain : Bool) (buf : Bytes) :
    ∃ stage', stage'.plain = stage.plain ∧ stage'.key = stage.key ∧ stage'.layer = stage.layer ∧
      Frame { r with stage := some stage' } (registryWrite sys r plain .next buf).2 ∧
      ((∃ taken, (registryWrite sys r plain .next buf).1 = .ok taken ∧
          stage'.taken = stage.taken ++ buf.take taken) ∨
        ∃ e, (registryWrite sys r plain .next buf).1 = .error e ∧ stage'.taken = stage.taken) := by
  have start := ensureReady_frame sys r
  rw [registryWrite, writeLayerLocked]
  generalize ensureReady sys r = started at start ⊢
  have same : Frame { r with stage := some stage } started :=
    ⟨start.stage.trans active, start.table, start.stores⟩
  have here := start.stage.trans active
  cases stores : started.stores with
  | nil => exact ⟨stage, rfl, rfl, rfl, same, .inr ⟨_, rfl, rfl⟩⟩
  | cons p others =>
    rw [here]
    dsimp only
    split
    · exact ⟨stage, rfl, rfl, rfl, same, .inr ⟨_, rfl, rfl⟩⟩
    unfold stageWriteLocked
    split
    · exact ⟨stage, rfl, rfl, rfl, same, .inr ⟨_, rfl, rfl⟩⟩
    split
    · rename_i e last _
      exact ⟨{ stage with err := some e }, rfl, rfl, rfl,
        ⟨rfl, start.table, length_set.trans start.stores⟩, .inr ⟨e, rfl, rfl⟩⟩
    · rename_i taken last _
      exact ⟨{ stage with taken := stage.taken ++ buf.take taken }, rfl, rfl, rfl,
        ⟨rfl, start.table, length_set.trans start.stores⟩, .inl ⟨taken, rfl, rfl⟩⟩

lemma registryWrite_finish_frame {r : State σ} {stage : Stage} (active : r.stage = some stage)
    (nonempty : r.stores ≠ []) (plain : Bool) (now : Option UInt64) :
    Frame { r with stage := none } (registryWrite sys r plain (.finish now) []).2 := by
  have start := ensureReady_frame sys r
  rw [registryWrite, writeLayerLocked]
  generalize ensureReady sys r = started at start ⊢
  have here := start.stage.trans active
  cases stores : started.stores with
  | nil =>
    have count := start.stores
    rw [stores] at count
    exact absurd (length_eq_zero_iff.mp count.symm) nonempty
  | cons p others =>
    rw [here]
    dsimp only
    have dropped : ∀ p, Frame { r with stage := none }
        (setPrimary { started with stage := none } p) := fun p =>
      ⟨rfl, start.table, length_set.trans start.stores⟩
    unfold stageFinishLocked
    split
    · exact dropped _
    split
    · exact dropped _
    dsimp only
    split
    · exact dropped _
    rename_i last _
    have added := (dropped last).trans (pendingAdd_frame_stage sys _ stage.key stage.layer
      (sys.sha256 stage.taken) stage.taken.length.toUInt32)
    split
    · exact added.trans (commitLocked_frame sys _ _ _ _ _).1
    · exact added

end WantedEngine.Registry
