import WantedEngine.Registry.Leaks
/-!
# What a request does to the records

An account of one request by its effect on the records alone, for every store that keeps its
contract and whatever keys are published: the records stay, one is removed, one is rewritten
with its layers and its sequence, or one is committed. A commit is told with what it tested (the
entry can be read, or there is room for another) and with the sequence it takes, which follows
every record that a listing shows.
-/
namespace WantedEngine.Registry

open Foundation List Function

variable {σ ν : Type} [DecidableEq ν] {sys : System σ} {abs : Reading σ ν}
variable (laws : Contract sys.ops abs) {r : State σ} (sound : Sound sys abs False r)
  (ready : r.ready = true)

/-! ### Reading records -/

variable {cfg : Config} {record : Meta} {key : Key} {strict : Prop}

lemma registryRecordEncode_length {bytes : Bytes}
    (encoded : registryRecordEncode cfg record = some bytes) :
    bytes.length ≤ registryRecordMax := by
  unfold registryRecordEncode at encoded
  split at encoded
  · cases encoded
  split at encoded
  · cases encoded
  cases encoded
  have each : ∀ layer : Layer, (encodeLayer layer).length = 36 := by
    intro layer
    simp [encodeLayer, layer.digest.property]
  have layers : (record.layers.flatMap encodeLayer).length = record.layers.length * 36 := by
    induction record.layers with
    | nil => rfl
    | cons layer rest ih =>
      rw [flatMap_cons, length_append, each, length_cons]
      omega
  simp only [length_append, length_cons, littleEndian_length, record.signature.property]
  omega

omit [DecidableEq ν] in
lemma entryOf_isSome {records : ν → Option Bytes} {name : ν}
    (installed : entryOf cfg records name = some record) : (records name).isSome := by
  rw [entryOf, Option.bind_eq_some_iff] at installed
  obtain ⟨_, found, -⟩ := installed
  exact Option.isSome_of_eq_some found

omit [DecidableEq ν] in
lemma entryOf_of_encode {records : ν → Option Bytes} {name : ν} {bytes : Bytes}
    (encoded : registryRecordEncode cfg record = some bytes) (found : records name = some bytes) :
    entryOf cfg records name = some record := by
  rw [entryOf, found, Option.bind_some, if_pos (registryRecordEncode_length encoded)]
  exact registryRecordDecode_encode encoded

include laws

lemma readMeta_entryOf {r : State σ} (good : ∀ store ∈ r.stores, abs.good store)
    (read : readMeta sys r key = .ok record) :
    entryOf sys.cfg (recordsOf abs r.stores) (abs.recName key) = some record ∨
      ∃ image, residentFind r key = some image ∧ record = residentMeta image ∧
        residentOnly sys r key = true := by
  rcases readMeta_cases read with ⟨bytes, got, decoded⟩ | ⟨_, image, got, found, same⟩
  · left
    have record' := recordsOf_of_primaryGet laws good got
    have answer := got.symm.trans (primaryGet_eq laws good record')
    have fits : bytes.length ≤ registryRecordMax := by
      unfold recordAnswer at answer
      split at answer
      · assumption
      · cases answer
    rw [entryOf, record', Option.bind_some, if_pos fits]
    exact decoded
  · exact .inr ⟨image, found, same, by rw [residentOnly, found, got]; rfl⟩

omit laws

/-! ### Sequences -/

/-- A sequence is one that the registry started from, or that of a record. -/
def KnownSeq (cfg : Config) (records : ν → Option Bytes) (start seq : UInt32) : Prop :=
  seq = start ∨ seq = 0 ∨ ∃ name old, entryOf cfg records name = some old ∧ seq = old.installSeq

/-- The newest sequence among some keys is at least the one known and those read, and is one of
them. -/
lemma newestSeq_spec (sys : System σ) (r : State σ) (seq : UInt32) (keys : List Key) :
    seq ≤ newestSeq sys r seq keys ∧
      (∀ key ∈ keys, ∀ record, readMeta sys r key = .ok record →
        record.installSeq ≤ newestSeq sys r seq keys) ∧
      (newestSeq sys r seq keys = seq ∨ ∃ key ∈ keys, ∃ record,
        readMeta sys r key = .ok record ∧ newestSeq sys r seq keys = record.installSeq) := by
  induction keys generalizing seq with
  | nil => exact ⟨UInt32.le_refl _, by simp, Or.inl rfl⟩
  | cons key rest ih =>
    -- one key moves the sequence to `next`; the rest is scanned from there
    have first : ∃ next, newestSeq sys r seq (key :: rest) = newestSeq sys r next rest ∧
        seq ≤ next ∧ (∀ record, readMeta sys r key = .ok record → record.installSeq ≤ next) ∧
        (next = seq ∨ ∃ record, readMeta sys r key = .ok record ∧ next = record.installSeq) := by
      refine ⟨_, rfl, ?_⟩
      dsimp only
      cases read : readMeta sys r key with
      | error e => exact ⟨UInt32.le_refl _, by simp, Or.inl rfl⟩
      | ok found =>
        dsimp only
        by_cases newer : seq < found.installSeq
        · rw [if_pos newer]
          refine ⟨UInt32.le_of_lt newer, ?_, Or.inr ⟨found, rfl, rfl⟩⟩
          rintro _ ⟨⟩
          exact UInt32.le_refl _
        · rw [if_neg newer]
          refine ⟨UInt32.le_refl _, ?_, Or.inl rfl⟩
          rintro _ ⟨⟩
          exact UInt32.not_lt.mp newer
    obtain ⟨next, step, above, covers, source⟩ := first
    obtain ⟨low, all, later⟩ := ih next
    rw [step]
    refine ⟨UInt32.le_trans above low, ?_, ?_⟩
    · exact forall_mem_cons.mpr ⟨fun record isRead => UInt32.le_trans (covers record isRead) low, all⟩
    rcases later with same | ⟨other, mem, more⟩
    · rw [same]
      refine source.imp_right ?_
      rintro ⟨record, read, isNext⟩
      exact ⟨key, mem_cons_self, record, read, isNext⟩
    · exact .inr ⟨other, mem_cons_of_mem _ mem, more⟩

include laws

lemma knownSeq_of_read {r : State σ} (good : ∀ store ∈ r.stores, abs.good store)
    (start : UInt32) (read : readMeta sys r key = .ok record) :
    KnownSeq sys.cfg (recordsOf abs r.stores) start record.installSeq := by
  rcases readMeta_entryOf laws good read with installed | ⟨_, -, rfl, -⟩
  · exact .inr (.inr ⟨_, record, installed, rfl⟩)
  · exact .inr (.inl rfl)

lemma primaryList_spec {r : State σ} (good : ∀ store ∈ r.stores, abs.good store)
    (some_ : r.stores ≠ []) :
    ∃ keys, primaryList sys r = .ok keys ∧
      (∀ key, abs.listable key → (recordsOf abs r.stores (abs.recName key)).isSome → key ∈ keys) ∧
      (∀ key ∈ keys, (recordsOf abs r.stores (abs.recName key)).isSome) ∧
      (keys.map abs.recName).Nodup ∧
      ∀ names : List ν, (∀ name, (recordsOf abs r.stores name).isSome → name ∈ names) →
        keys.length ≤ names.length := by
  cases stores : r.stores with
  | nil => exact absurd stores some_
  | cons p others =>
    obtain ⟨keys, listed, once, present, complete⟩ :=
      laws.recList (good p (primary_mem stores))
    refine ⟨keys, by rw [primaryList, stores]; exact listed, complete, present, once, ?_⟩
    intro names all
    have within : keys.map abs.recName ⊆ names := by
      intro name mem
      obtain ⟨key, isKey, rfl⟩ := mem_map.mp mem
      exact all _ (present key isKey)
    have most := (once.subperm within).length_le
    rwa [length_map] at most

omit laws

/-! ### Commits -/

/-- A record is committed under a key: it is put; the entry was read before, or there was room;
and its sequence follows all those of records that a listing shows. -/
structure Committed (sys : System σ) (abs : Reading σ ν) (records : ν → Option Bytes)
    (resident : List Resident) (start : UInt32) (key : Key) (record : Meta)
    (records' : ν → Option Bytes) : Prop where
  put : ∃ bytes, registryRecordEncode sys.cfg record = some bytes ∧
    records' = update records (abs.recName key) (some bytes)
  /-- The entry has a record or a resident image, or fewer records are listed than the registry
  enumerates. -/
  room : (records (abs.recName key)).isSome ∨ (∃ image ∈ resident, image.key = key) ∨
    ∃ keys : List Key, keys.length < registryMaxEntries ∧
      ∀ other, abs.listable other → (records (abs.recName other)).isSome → other ∈ keys
  /-- The sequence is one more than the newest. -/
  newest : ∃ seq, record.installSeq = seq + 1 ∧ KnownSeq sys.cfg records start seq ∧
    ∀ names : List ν, names.length ≤ registryMaxEntries →
      (∀ name, (records name).isSome → name ∈ names) →
      ∀ other old, abs.listable other →
        entryOf sys.cfg records (abs.recName other) = some old → old.installSeq ≤ seq

include laws

/-- The sequence that a commit follows. -/
lemma syncSeq_spec {r : State σ} (good : ∀ store ∈ r.stores, abs.good store) :
    KnownSeq sys.cfg (recordsOf abs r.stores) r.seq (syncSeq sys r).seq ∧
    ∀ names : List ν, names.length ≤ registryMaxEntries →
      (∀ name, (recordsOf abs r.stores name).isSome → name ∈ names) →
      ∀ other old, abs.listable other →
        entryOf sys.cfg (recordsOf abs r.stores) (abs.recName other) = some old →
        old.installSeq ≤ (syncSeq sys r).seq := by
  cases stores : r.stores with
  | nil =>
    have same : syncSeq sys r = r := by rw [syncSeq, primaryList, stores]
    rw [same]
    exact ⟨Or.inl rfl, fun _ _ _ _ _ _ installed => by cases installed⟩
  | cons p others =>
    have some_ : r.stores ≠ [] := by
      rw [stores]
      exact cons_ne_nil _ _
    rw [← stores]
    obtain ⟨keys, listed, complete, -, -, few⟩ := primaryList_spec laws good some_
    have synced : (syncSeq sys r).seq = newestSeq sys r r.seq (keys.take registryMaxEntries) := by
      rw [syncSeq, listed]
    obtain ⟨-, all, source⟩ := newestSeq_spec sys r r.seq (keys.take registryMaxEntries)
    rw [synced]
    constructor
    · rcases source with same | ⟨_, -, _, read, same⟩
      · exact .inl same
      · rw [same]
        exact knownSeq_of_read laws good r.seq read
    · intro names within cover other old listable installed
      have mem := complete other listable (entryOf_isSome installed)
      rw [← take_of_length_le (Nat.le_trans (few names cover) within)] at mem
      exact all other mem old (readMeta_of_entryOf laws good installed).1

/-- What a commit tested: the entry is read, or fewer records are listed than the registry
enumerates. -/
lemma commit_room {r : State σ} (good : ∀ store ∈ r.stores, abs.good store)
    (tested : ¬ (!succeeded (readMeta sys r key) ∧ registryMaxEntries ≤ recordCount sys r)) :
    (recordsOf abs r.stores (abs.recName key)).isSome ∨
      (∃ image ∈ r.resident, image.key = key) ∨
      ∃ keys : List Key, keys.length < registryMaxEntries ∧ ∀ other, abs.listable other →
        (recordsOf abs r.stores (abs.recName other)).isSome → other ∈ keys := by
  cases read : readMeta sys r key with
  | ok record =>
    rcases readMeta_entryOf laws good read with installed | ⟨image, found, -, -⟩
    · exact .inl (entryOf_isSome installed)
    · exact .inr (.inl ⟨image, mem_of_find?_eq_some found,
        by simpa using find?_some found⟩)
  | error e =>
    rw [read] at tested
    have few : recordCount sys r < registryMaxEntries := by
      by_contra many
      exact tested ⟨rfl, Nat.not_lt.mp many⟩
    right
    right
    cases stores : r.stores with
    | nil => exact ⟨[], by decide, fun _ _ isSome => by cases isSome⟩
    | cons p others =>
      have some_ : r.stores ≠ [] := by
        rw [stores]
        exact cons_ne_nil _ _
      rw [← stores]
      obtain ⟨keys, listed, complete, -⟩ := primaryList_spec laws good some_
      rw [recordCount, listed] at few
      exact ⟨keys, few, complete⟩

include sound ready

lemma commitLocked_changes (key : Key) (count : Nat) (created now : Option UInt64) :
    match (commitLocked sys r key count created now).1 with
    | .error _ => recordsOf abs (commitLocked sys r key count created now).2.stores =
        recordsOf abs r.stores
    | .ok _ => ∃ layers size record, gatherLayers r.pending key 0 0 count = .ok (layers, size) ∧
        record.layers = layers ∧
        Committed sys abs (recordsOf abs r.stores) r.resident r.seq key record
          (recordsOf abs (commitLocked sys r key count created now).2.stores) := by
  unfold commitLocked
  by_cases empty : count = 0
  · rw [if_pos empty]
  rw [if_neg empty]
  by_cases many : sys.cfg.maxLayers < count
  · rw [if_pos many]
  rw [if_neg many]
  cases gathered : gatherLayers r.pending key 0 0 count with
  | error e => rfl
  | ok found =>
    obtain ⟨layers, size⟩ := found
    dsimp only
    by_cases full : (!succeeded (readMeta sys r key)) = true ∧ registryMaxEntries ≤ recordCount sys r
    · rw [if_pos full]
    rw [if_neg full]
    obtain ⟨seq, synced⟩ := syncSeq_eq sys r
    have room := commit_room laws sound.stores.good full
    have newest := syncSeq_spec laws sound.stores.good
    rw [synced] at newest ⊢
    have good : ∀ store ∈ ({ r with seq } : State σ).stores, abs.good store :=
      sound.stores.good
    obtain ⟨frame, -, done, failed⟩ :=
      writeMeta_spec laws good key (commitMeta layers size seq now created) rfl
    cases written : writeMeta sys { r with seq } key (commitMeta layers size seq now created) with
    | mk rc after =>
      rw [written] at frame done failed
      cases rc with
      | error e => exact failed e rfl
      | ok _ =>
        obtain ⟨bytes, encoded, records⟩ := done rfl
        have loose : Sound sys abs False after := by
          have continues :=
            commitWrite_continues laws sound ready nofun gathered seq created now
          rw [written] at continues
          exact continues.choose_spec.2.sound
        have isReady := (congrArg State.ready frame).trans ready
        have cleared := commitClear_continues loose isReady key (seq + 1)
        have freed := dropAllIfFree_continues laws cleared.sound isReady
          ((freedDigests (readMeta sys r key) after.pending key count).take (maxPending sys.cfg))
        have same := freed.records_eq laws cleared.sound
        refine ⟨layers, size, commitMeta layers size seq now created, rfl, rfl,
          ⟨bytes, encoded, same.trans records⟩, room, seq, rfl, newest.1, newest.2⟩

/-- A stage that finishes commits its entry when it is plain and succeeds, and leaves the records
otherwise. -/
lemma stageFinishLocked_changes {p : σ} {others : List σ}
    (stores : r.stores = p :: others) {stage : Stage} (active : r.stage = some stage)
    (now : Option UInt64) :
    (recordsOf abs (stageFinishLocked sys r p stage now).2.stores = recordsOf abs r.stores ∧
      (succeeded (stageFinishLocked sys r p stage now).1 = true → stage.plain = false)) ∨
    (stage.plain = true ∧ succeeded (stageFinishLocked sys r p stage now).1 = true ∧
      ∃ record, Committed sys abs (recordsOf abs r.stores) r.resident r.seq stage.key
        record (recordsOf abs (stageFinishLocked sys r p stage now).2.stores)) := by
  rcases stageFinishLocked_cases laws sound ready stores active now with
    ⟨-, e, r', finish, -, restages⟩ | ⟨p', isKept, finish⟩
  · rw [finish]
    exact .inl ⟨(restages.continues laws sound ready).records_eq laws sound, by simp⟩
  have kept := stageKept_continues laws sound ready stores isKept active
  have same := kept.records_eq laws sound
  rw [finish]
  by_cases plain : stage.plain = true
  · rw [if_pos plain]
    have seq : (stageKept sys r p' stage).seq = r.seq := by
      rw [stageKept, pendingAdd, dropAllIfFree_only]
      rfl
    have changes := commitLocked_changes laws kept.sound (kept.ready ready) stage.key 1 none now
    rw [same, kept.resident, seq] at changes
    cases rc : (commitLocked sys (stageKept sys r p' stage) stage.key 1 none now).1 with
    | error e =>
      rw [rc] at changes
      exact .inl ⟨changes, by simp⟩
    | ok _ =>
      rw [rc] at changes
      obtain ⟨-, -, record, -, -, committed⟩ := changes
      exact .inr ⟨plain, rfl, record, committed⟩
  · rw [if_neg plain]
    exact .inl ⟨same, fun _ => Bool.eq_false_iff.mpr plain⟩

omit laws sound ready

/-! ### Requests -/

/-- The answer is a return code that reports success. -/
def Answer.succeeds : Answer → Bool
  | .rc (.ok _) => true
  | .rc (.error _) => false
  | .mapped _ => false
  | .record _ => false

def Request.removes : Request → Bool
  | .remove _ => true
  | _ => false

/-- What a request, answered so, does to the records. -/
inductive Changes (sys : System σ) (abs : Reading σ ν) (r : State σ) (req : Request)
    (answer : Answer) (records' : ν → Option Bytes) : Prop where
  /-- The records stay; a request to publish or to remove was refused. -/
  | kept (same : records' = recordsOf abs r.stores)
      (refused : answer.succeeds = true → publishes r req = none ∧ req.removes = false)
  | removed (entry : Entry) (key : Key) (record : Meta) (request_eq : req = .remove entry)
      (done : answer.succeeds = true)
      (resolved : resolve sys (ensureReady sys r) (keyFromEntry entry) = .ok (key, record))
      (installed : entryOf sys.cfg (recordsOf abs r.stores) (abs.recName key) =
        some record)
      (gone : records' =
        update (recordsOf abs r.stores) (abs.recName key) none)
  /-- The record of an entry is rewritten with its layers and its sequence. -/
  | rewritten (key : Key) (old changed : Meta) (bytes : Bytes)
      (quiet : publishes r req = none ∧ req.removes = false)
      (installed : entryOf sys.cfg (recordsOf abs r.stores) (abs.recName key) =
        some old)
      (sequence_eq : changed.installSeq = old.installSeq) (layers : changed.layers = old.layers)
      (encoded : registryRecordEncode sys.cfg changed = some bytes)
      (put : records' =
        update (recordsOf abs r.stores) (abs.recName key) (some bytes))
  | committed (key : Key) (record : Meta) (published : publishes r req = some key)
      (done : answer.succeeds = true)
      (commit : Committed sys abs (recordsOf abs r.stores) r.resident r.seq key record
        records')

/-- The records of a part of an operation that changes none. -/
lemma Changes.of_continues (laws : Contract sys.ops abs) {r r' : State σ}
    (sound : Sound sys abs strict r) (done : Continues sys abs strict 0 r r')
    {req : Request} {answer : Answer}
    (refused : answer.succeeds = true → publishes r req = none ∧ req.removes = false) :
    Changes sys abs r req answer (recordsOf abs r'.stores) :=
  .kept (done.records_eq laws sound) refused

include laws sound

lemma ensureReady_seq : KnownSeq sys.cfg (recordsOf abs r.stores) r.seq (ensureReady sys r).seq := by
  cases ready : r.ready with
  | true =>
    rw [ensureReady, if_pos ready]
    exact .inl rfl
  | false =>
    obtain ⟨start, -⟩ := startStores_continues laws sound ready
    have same := start.records_eq laws sound
    have seq : (ensureReady sys r).seq = startSeq sys (startStores sys r) := by
      rw [ensureReady, if_neg (by rw [ready]; exact Bool.false_ne_true)]
      simp only [reclaim]
      split <;> rfl
    rw [seq, startSeq]
    split
    · exact .inr (.inl rfl)
    rename_i keys _
    rcases (newestSeq_spec sys (startStores sys r) 0 keys).2.2 with zero | ⟨_, -, _, read, eq⟩
    · exact .inr (.inl zero)
    · rw [eq, ← same]
      exact knownSeq_of_read laws start.sound.stores.good r.seq read

omit laws sound

omit [DecidableEq ν] in
lemma KnownSeq.trans {records : ν → Option Bytes} {start middle seq : UInt32}
    (first : KnownSeq cfg records start middle) (second : KnownSeq cfg records middle seq) :
    KnownSeq cfg records start seq := by
  rcases second with rfl | zero | found
  · exact first
  · exact Or.inr (Or.inl zero)
  · exact Or.inr (Or.inr found)

include laws sound

lemma Committed.of_started {records' : ν → Option Bytes}
    (commit : Committed sys abs (recordsOf abs (ensureReady sys r).stores)
      (ensureReady sys r).resident (ensureReady sys r).seq key record records') :
    Committed sys abs (recordsOf abs r.stores) r.resident r.seq key record records' := by
  obtain ⟨start, -⟩ := ensureReady_continues laws sound
  have seq := ensureReady_seq laws sound
  rw [start.records_eq laws sound, start.resident] at commit
  obtain ⟨put, room, next, eq, known, newest⟩ := commit
  exact ⟨put, room, next, eq, seq.trans known, newest⟩

lemma registryWrite_changes (plain : Bool) (state : WriteState) (buf : Bytes) :
    Changes sys abs r (.write plain state buf) (serve sys r (.write plain state buf)).1
      (recordsOf abs (serve sys r (.write plain state buf)).2.stores) := by
  obtain ⟨start, ready⟩ := ensureReady_continues laws sound
  have stageSame := congrArg State.stage (@ensureReady_only _ sys r)
  show Changes sys abs r _ (.rc (writeLayerLocked sys (ensureReady sys r) state plain buf).1)
    (recordsOf abs (writeLayerLocked sys (ensureReady sys r) state plain buf).2.stores)
  rcases writeLayerLocked_cases laws start.sound ready state plain buf with
    ⟨e, failed⟩ | ⟨goesOn, restages, -⟩ |
      ⟨now, p, others, stage, rfl, stores, active, finish⟩
  · rw [failed]
    exact .of_continues laws sound start nofun
  · refine .of_continues laws sound (start.then (restages.continues laws start.sound ready)) fun _ => ?_
    cases state with
    | finish now => exact absurd rfl (goesOn now)
    | _ => exact ⟨rfl, rfl⟩
  · rw [finish]
    have here : r.stage = some stage := stageSame ▸ active
    have code : ∀ rc : Rc Unit, Answer.succeeds (.rc (rc.map fun _ => 0)) = succeeded rc := by
      intro rc
      cases rc <;> rfl
    rcases stageFinishLocked_changes laws start.sound ready stores active now with
      ⟨same, refused⟩ | ⟨isPlain, done, record, commit⟩
    · refine .kept (same.trans (start.records_eq laws sound)) fun done => ⟨?_, rfl⟩
      have notPlain := refused ((code _).symm.trans done)
      simp [publishes, here, notPlain]
    · refine .committed stage.key record ?_ ((code _).trans done) (commit.of_started laws sound)
      simp [publishes, here, isPlain]

lemma registryCommit_changes (ref : Bytes) (count : Nat) (created now : Option UInt64) :
    Changes sys abs r (.commit ref count created now)
      (.ofUnit (registryCommit sys r ref count created now).1)
      (recordsOf abs (registryCommit sys r ref count created now).2.stores) := by
  unfold registryCommit
  cases parsed : parseRef ref with
  | error e => exact .kept rfl nofun
  | ok key =>
    obtain ⟨start, ready⟩ := ensureReady_continues laws sound
    have changes := commitLocked_changes laws start.sound ready key count created now
    cases rc : (commitLocked sys (ensureReady sys r) key count created now).1 with
    | error e =>
      rw [rc] at changes
      exact .kept (changes.trans (start.records_eq laws sound)) nofun
    | ok _ =>
      rw [rc] at changes
      obtain ⟨-, -, record, -, -, commit⟩ := changes
      have published : publishes r (.commit ref count created now) = some key := by
        rw [publishes, parsed]
        rfl
      exact .committed key record published rfl (commit.of_started laws sound)

lemma registryRemove_changes (entry : Entry) :
    Changes sys abs r (.remove entry) (.ofUnit (registryRemove sys r entry).1)
      (recordsOf abs (registryRemove sys r entry).2.stores) := by
  obtain ⟨start, ready⟩ := ensureReady_continues laws sound
  have same := start.records_eq laws sound
  unfold registryRemove
  generalize started : ensureReady sys r = r' at start ready same
  dsimp only
  split
  · exact .kept same (by rintro ⟨⟩)
  rename_i p others stores
  split
  · exact .kept same (by rintro ⟨⟩)
  rename_i key record resolved
  split
  · exact .kept same (by rintro ⟨⟩)
  rename_i unseeded
  have good := start.sound.stores.good p (primary_mem stores)
  have after := laws.recDel key good
  split
  · rename_i p' result
    rw [result] at after
    have kept : recordsOf abs (p' :: others) = recordsOf abs r'.stores := by
      rw [stores, recordsOf, after.view]
      rfl
    exact .kept (kept.trans same) (by rintro ⟨⟩)
  rename_i p' result
  obtain ⟨_, _, removed⟩ := recDel_continues laws start.sound ready stores result
  rw [result] at after
  have freed := dropAllIfFree_continues laws removed.sound ready record.digests
  have gone : recordsOf abs (p' :: others) =
      update (recordsOf abs r'.stores) (abs.recName key) none := by
    rw [stores, recordsOf, after.view]
    rfl
  -- a resident image reads as seeded, so the record is the entry's own
  have installed : entryOf sys.cfg (recordsOf abs r'.stores) (abs.recName key) = some record := by
    rcases readMeta_entryOf laws start.sound.stores.good (resolve_reads resolved).2.1 with
      installed | ⟨image, -, rfl, -⟩
    · exact installed
    · have seeded : (residentMeta image).has metaSeeded = true :=
        show decide ((metaSeeded ||| metaClockUnset) &&& metaSeeded ≠ 0) = true by decide
      exact absurd seeded unseeded
  rw [same] at gone installed
  rw [← started] at resolved
  exact .removed entry key record rfl rfl resolved installed
    ((freed.records_eq laws removed.sound).trans gone)

omit laws sound

lemma rewrite_changes (laws : Contract sys.ops abs) {r r' : State σ} (sound : Sound sys abs False r')
    (same : recordsOf abs r'.stores = recordsOf abs r.stores) {want : Key} {changed : Meta}
    (resolved : resolve sys r' want = .ok (key, record))
    (notResident : residentOnly sys r' key = false)
    (sequence_eq : changed.installSeq = record.installSeq) (layers : changed.layers = record.layers)
    (req : Request) (answer : Answer)
    (quiet : publishes r req = none ∧ req.removes = false) :
    Changes sys abs r req answer (recordsOf abs (writeMeta sys r' key changed).2.stores) := by
  have good := sound.stores.good
  have installed : entryOf sys.cfg (recordsOf abs r'.stores) (abs.recName key) = some record := by
    rcases readMeta_entryOf laws good (resolve_reads resolved).2.1 with
      installed | ⟨image, -, -, isResident⟩
    · exact installed
    · rw [notResident] at isResident
      cases isResident
  rw [same] at installed
  obtain ⟨-, -, done, failed⟩ := writeMeta_spec laws good key changed rfl
  rw [same] at done failed
  cases rc : (writeMeta sys r' key changed).1 with
  | error e => exact .kept (failed e rc) fun _ => quiet
  | ok _ =>
    obtain ⟨bytes, encoded, put⟩ := done rc
    exact .rewritten key record changed bytes quiet installed sequence_eq layers encoded put

include laws sound

lemma registryMetaSetSignature_changes (entry : Entry) (keyId : UInt32) (signature : Signature)
    (answer : Answer) :
    Changes sys abs r (.setSignature entry keyId signature) answer
      (recordsOf abs (registryMetaSetSignature sys r entry keyId signature).2.stores) := by
  obtain ⟨start, _⟩ := ensureReady_continues laws sound
  have same := start.records_eq laws sound
  unfold registryMetaSetSignature
  dsimp only
  split
  · exact .kept same fun _ => ⟨rfl, rfl⟩
  rename_i resolved
  split
  · exact .kept same fun _ => ⟨rfl, rfl⟩
  rename_i installed
  refine rewrite_changes laws start.sound same resolved (by simpa using installed) ?_ ?_
    (.setSignature entry keyId signature) answer ⟨rfl, rfl⟩
  · rfl
  · rfl

lemma registryMarkSeeded_changes (ref : Bytes) (answer : Answer) :
    Changes sys abs r (.markSeeded ref) answer
      (recordsOf abs (registryMarkSeeded sys r ref).stores) := by
  unfold registryMarkSeeded
  split
  · exact .kept rfl fun _ => ⟨rfl, rfl⟩
  obtain ⟨start, _⟩ := ensureReady_continues laws sound
  have same := start.records_eq laws sound
  dsimp only
  split
  · exact .kept same fun _ => ⟨rfl, rfl⟩
  rename_i resolved
  split
  · exact .kept same fun _ => ⟨rfl, rfl⟩
  rename_i installed
  simp only [Bool.or_eq_true, not_or, Bool.not_eq_true] at installed
  refine rewrite_changes laws start.sound same resolved installed.1 ?_ ?_
    (.markSeeded ref) answer ⟨rfl, rfl⟩
  · rfl
  · rfl

omit laws sound

omit [DecidableEq ν] in
lemma Evolves.ne_nil {resident : List Resident} {n : Nat} {start stores : List σ}
    (steps : Evolves sys abs strict resident start n stores) (some_ : start ≠ []) :
    stores ≠ [] := by
  cases steps with
  | refl => exact some_
  | act before call => simp
  | put before done named present | del before done => exact cons_ne_nil _ _

include laws sound

lemma serve_changes (req : Request) :
    Changes sys abs r req (serve sys r req).1 (recordsOf abs (serve sys r req).2.stores) := by
  obtain ⟨start, ready⟩ := ensureReady_continues laws sound
  cases req with
  | write plain state buf => exact registryWrite_changes laws sound plain state buf
  | commit ref count created now =>
    exact registryCommit_changes laws sound ref count created now
  | remove entry => exact registryRemove_changes laws sound entry
  | mapLayers entry =>
    exact .of_continues laws sound
      (start.then (mapLayersLocked_continues laws start.sound ready entry)) fun _ => ⟨rfl, rfl⟩
  | unmapLayers ptrs =>
    exact .of_continues laws sound (registryUnmapLayers_continues laws sound ptrs)
      fun _ => ⟨rfl, rfl⟩
  | metaRead entry | init => exact .of_continues laws sound start fun _ => ⟨rfl, rfl⟩
  | setSignature entry keyId signature =>
    exact registryMetaSetSignature_changes laws sound entry keyId signature _
  | markSeeded ref => exact registryMarkSeeded_changes laws sound ref _
  | linkLayer ref layer digest =>
    exact .of_continues laws sound
      (registryLinkLayer_continues laws sound ref layer digest) fun _ => ⟨rfl, rfl⟩
  | addResident ref ptr data created allocated =>
    obtain ⟨resident, same⟩ := @serve_residents _ sys r (.addResident ref ptr data created allocated) rfl
    rw [same]
    exact .kept rfl fun _ => ⟨rfl, rfl⟩
  | clearResident | powerCycle => exact .kept rfl fun _ => ⟨rfl, rfl⟩
  | deinit =>
    refine .kept ?_ fun _ => ⟨rfl, rfl⟩
    show recordsOf abs (registryDeinit sys r).stores = _
    unfold registryDeinit
    split
    · rfl
    · exact ((abortStage_evolves r.resident r).trans
        (releaseAll_evolves r.resident _ r.maps)).records_eq laws sound.stores rfl

end WantedEngine.Registry
