import WantedEngine.Registry.Contract
import Mathlib.Logic.Relation
/-!
# Nothing in use is ever freed

What the records list, what is staged for a commit and what is mapped is held by a store or is
a resident image. The part about the records follows from how the registry uses its stores
(`Evolves.sound`); the part about the tables is an invariant of the registry's state (`Sound`),
which every operation keeps.
-/
namespace WantedEngine.Registry

open List Function

section Stores

variable {σ ν : Type} {dec : DecidableEq ν} {sys : System σ} {abs : Reading σ ν} {strict : Prop}
  {resident : List Resident}

/-- The stores are in states they can be in. In a strict account, a listing shows every record,
and everything a record lists is present. -/
structure StoresSound (sys : System σ) (abs : Reading σ ν) (strict : Prop)
    (resident : List Resident) (stores : List σ) : Prop where
  good : ∀ store ∈ stores, abs.good store
  named : strict → ∀ name, (recordsOf abs stores name).isSome →
    ∃ key, abs.listable key ∧ abs.recName key = name
  listed : strict → ∀ digest, Lists sys.cfg (recordsOf abs stores) digest →
    Present abs resident stores digest

variable {s : σ} {digest : Digest} {refs digests : List Digest} {r : State σ}

/-- The primary store is one of the stores. -/
lemma primary_mem {p : σ} {stores others : List σ} (first : stores = p :: others) : p ∈ stores := by
  rw [first]
  exact mem_cons_self

lemma recordsOf_replace (front back : List σ) {s' : σ}
    (same : (abs.view s').records = (abs.view s).records) :
    recordsOf abs (front ++ s' :: back) = recordsOf abs (front ++ s :: back) := by
  cases front with
  | nil => exact same
  | cons => rfl

lemma HeldBy.replace (front back : List σ) {s' : σ} (held : HeldBy abs (front ++ s :: back) digest)
    (kept : ((abs.view s).blobs digest).isSome → ((abs.view s').blobs digest).isSome) :
    HeldBy abs (front ++ s' :: back) digest := by
  obtain ⟨store, mem, has⟩ := held
  rw [mem_append, mem_cons] at mem
  rcases mem with before | rfl | after
  · exact ⟨store, mem_append_left _ before, has⟩
  · exact ⟨s', by simp, kept has⟩
  · exact ⟨store, by simp [after], has⟩

lemma Present.replace (front back : List σ) {s' : σ}
    (present : Present abs resident (front ++ s :: back) digest)
    (kept : ((abs.view s).blobs digest).isSome → ((abs.view s').blobs digest).isSome) :
    Present abs resident (front ++ s' :: back) digest :=
  present.imp id fun held => held.replace front back kept

variable {value : Option Bytes} {keys : List Key}

lemma Lists.of_update {cfg : Config} {records : ν → Option Bytes} {name : ν}
    (listed : Lists cfg (update records name value) digest) :
    (∃ bytes record, value = some bytes ∧ registryRecordDecode cfg bytes = some record ∧
      digest ∈ record.digests) ∨ Lists cfg records digest := by
  obtain ⟨at_, bytes, record, found, decoded, mem⟩ := listed
  by_cases same : at_ = name
  · rw [same, update_self] at found
    exact .inl ⟨bytes, record, found, decoded, mem⟩
  · rw [update_of_ne same] at found
    exact .inr ⟨at_, bytes, record, found, decoded, mem⟩

lemma StoresSound.act (laws : Contract sys.ops abs) {front back : List σ} {s s' : σ}
    (sound : StoresSound sys abs strict resident (front ++ s :: back))
    (call : Act sys abs strict (Lists sys.cfg (recordsOf abs (front ++ s :: back))) s s') :
    StoresSound sys abs strict resident (front ++ s' :: back) := by
  obtain ⟨good, records, keeps⟩ := call.keeps laws (sound.good s (by simp))
  have same := recordsOf_replace front back records
  refine ⟨fun store mem => ?_, fun isStrict name => same ▸ sound.named isStrict name,
    fun isStrict digest listed => ?_⟩
  · rw [mem_append, mem_cons] at mem
    rcases mem with before | rfl | after
    · exact sound.good store (mem_append_left _ before)
    · exact good
    · exact sound.good store (by simp [after])
  · rw [same] at listed
    exact (sound.listed isStrict digest listed).replace front back (keeps digest isStrict listed)

lemma StoresSound.change {p p' : σ} {others : List σ} {name : ν}
    (sound : StoresSound sys abs strict resident (p :: others))
    (after : abs.Becomes p p'
      { abs.view p with
        records := update (abs.view p).records name value })
    (named : strict → value.isSome → ∃ key, abs.listable key ∧ abs.recName key = name)
    (present : strict → ∀ bytes record, value = some bytes →
      registryRecordDecode sys.cfg bytes = some record →
      ∀ digest ∈ record.digests, Present abs resident (p :: others) digest) :
    StoresSound sys abs strict resident (p' :: others) := by
  have records : recordsOf abs (p' :: others) = update (recordsOf abs (p :: others)) name value := by
    simp only [recordsOf, after.view]
  have blobs : (abs.view p').blobs = (abs.view p).blobs := by
    rw [after.view]
  refine ⟨forall_mem_cons.mpr ⟨after.good, (forall_mem_cons.mp sound.good).2⟩,
    fun isStrict at_ found => ?_, fun isStrict digest listed => ?_⟩
  · rw [records] at found
    by_cases same : at_ = name
    · rw [same, update_self] at found
      exact same ▸ named isStrict found
    · rw [update_of_ne same] at found
      exact sound.named isStrict at_ found
  · rw [records] at listed
    have before : Present abs resident ([] ++ p :: others) digest := by
      rcases listed.of_update with ⟨bytes, record, new, decoded, mem⟩ | old
      · exact present isStrict bytes record new decoded digest mem
      · exact sound.listed isStrict digest old
    exact before.replace [] others fun has => blobs ▸ has

lemma Evolves.sound (laws : Contract sys.ops abs) {n : Nat} {start stores : List σ}
    (steps : Evolves sys abs strict resident start n stores)
    (sound : StoresSound sys abs strict resident start) :
    StoresSound sys abs strict resident stores := by
  induction steps with
  | refl => exact sound
  | act _ call ih => exact ih.act laws call
  | @put _ others p key bytes _ done named present ih =>
    have after := laws.recPut key bytes (ih.good p mem_cons_self)
    rw [done] at after
    refine ih.change after (fun isStrict _ => named isStrict) fun isStrict put record same => ?_
    cases same
    exact present isStrict record
  | @del _ others p key _ done ih =>
    have after := laws.recDel key (ih.good p mem_cons_self)
    rw [done] at after
    exact ih.change after (fun _ none => nomatch none) (fun _ _ _ none => nomatch none)

/-! ### The listing -/

variable {out : List Digest} {key : Key}

lemma mem_addDigests (added : addDigests refs digests = some out) (digest : Digest)
    : digest ∈ out ↔ digest ∈ refs ∨ digest ∈ digests := by
  induction digests generalizing refs with
  | nil =>
    cases added
    simp
  | cons first rest ih =>
    simp only [addDigests] at added
    split at added
    · rename_i known
      rw [ih added, mem_cons]
      constructor
      · exact fun found => found.imp_right .inr
      rintro (found | rfl | found)
      · exact .inl found
      · exact .inl known
      · exact .inr found
    · split at added
      · cases added
      · rw [ih added]
        simp [or_assoc]

lemma mem_collectDigests (collected : collectDigests sys r refs keys = some out) (digest : Digest) :
    digest ∈ out ↔ digest ∈ refs ∨ ∃ key ∈ keys, ∃ bytes record,
      primaryGet sys r key = .ok bytes ∧ registryRecordDecode sys.cfg bytes = some record ∧
        digest ∈ record.digests := by
  induction keys generalizing refs with
  | nil =>
    cases collected
    simp
  | cons key rest ih =>
    simp only [collectDigests] at collected
    split at collected
    · rename_i missing
      simp [ih collected, missing]
    · cases collected
    rename_i read
    split at collected
    · rename_i unread
      rw [ih collected]
      simp [read, unread]
    rename_i decoded
    split at collected
    · cases collected
    rename_i added
    rw [ih collected, mem_addDigests added, or_assoc]
    simp [read, decoded]

lemma collectDigests_reads
    (collected : collectDigests sys r refs keys = some out) (mem : key ∈ keys) {e : Errno}
    (failed : primaryGet sys r key = .error e) : e = .enoent := by
  induction keys generalizing refs with
  | nil => cases mem
  | cons first rest ih =>
    simp only [collectDigests] at collected
    rcases mem_cons.mp mem with rfl | later
    · rw [failed] at collected
      split at collected
      · rename_i missing
        exact Except.error.inj missing
      · cases collected
      · rename_i read
        cases read
    split at collected
    · exact ih collected later
    · cases collected
    split at collected
    · exact ih collected later
    split at collected
    · cases collected
    · exact ih collected later

variable (laws : Contract sys.ops abs) (good : ∀ store ∈ r.stores, abs.good store)
include laws good

lemma primaryGet_eq {bytes : Bytes} (found : recordsOf abs r.stores (abs.recName key) = some bytes) :
    primaryGet sys r key = recordAnswer bytes registryRecordMax := by
  unfold primaryGet
  split
  · rename_i none_
    rw [none_] at found
    cases found
  · rename_i p others stores
    rw [stores] at found
    exact laws.recGet key registryRecordMax (good p (primary_mem stores)) found

lemma recordsOf_of_primaryGet {bytes : Bytes} (got : primaryGet sys r key = .ok bytes) :
    recordsOf abs r.stores (abs.recName key) = some bytes := by
  unfold primaryGet at got
  split at got
  · cases got
  rename_i p others stores
  have isGood := good p (primary_mem stores)
  rw [stores]
  cases found : (abs.view p).records (abs.recName key) with
  | none =>
    obtain ⟨_, failed⟩ := laws.recGet_none key registryRecordMax isGood found
    rw [failed] at got
    cases got
  | some record =>
    rw [laws.recGet key registryRecordMax isGood found] at got
    rw [← recordAnswer_ok got]
    exact found

lemma listedDigests_lists (listing : listedDigests sys r = some refs) (mem : digest ∈ refs)
    : Lists sys.cfg (recordsOf abs r.stores) digest := by
  unfold listedDigests at listing
  split at listing
  · cases listing
    cases mem
  split at listing
  · cases listing
  split at listing
  · cases listing
  rcases (mem_collectDigests listing digest).mp mem with
    impossible | ⟨key, -, bytes, record, read, decoded, isListed⟩
  · cases impossible
  · exact ⟨abs.recName key, bytes, record, recordsOf_of_primaryGet laws good read, decoded, isListed⟩

omit good

lemma mem_listedDigests (sound : StoresSound sys abs strict resident r.stores)
    (isStrict : strict) (listing : listedDigests sys r = some refs)
    (isListed : Lists sys.cfg (recordsOf abs r.stores) digest) : digest ∈ refs := by
  obtain ⟨name, bytes, record, found, decoded, mem⟩ := isListed
  obtain ⟨key, listable, rfl⟩ := sound.named isStrict name (by rw [found]; rfl)
  unfold listedDigests at listing
  split at listing
  · rename_i none
    rw [none] at found
    cases found
  rename_i p others stores
  have good := sound.good p (primary_mem stores)
  obtain ⟨keys, listed, _, _, complete⟩ := laws.recList good
  rw [listed] at listing
  dsimp only at listing
  split at listing
  · cases listing
  have answer := primaryGet_eq laws sound.good found
  have isKey : key ∈ keys := by
    refine complete key listable ?_
    rw [stores] at found
    exact Option.isSome_iff_exists.mpr ⟨bytes, found⟩
  refine (mem_collectDigests listing digest).mpr (.inr ⟨key, isKey, bytes, record, ?_, decoded, mem⟩)
  unfold recordAnswer at answer
  split at answer
  · exact answer
  · exact absurd (collectDigests_reads listing isKey answer) (by decide)

omit laws

/-! ### Freeing -/

def without (blobs : Digest → Option Bytes) (digests : List Digest) : Digest → Option Bytes :=
  fun digest => if digest ∈ digests then none else blobs digest

@[simp] lemma without_nil (blobs : Digest → Option Bytes) : without blobs [] = blobs := by
  funext digest
  simp [without]

lemma without_update (blobs : Digest → Option Bytes) (first : Digest) (rest : List Digest) :
    without (update blobs first none) rest = without blobs (first :: rest) := by
  funext digest
  unfold without
  by_cases same : digest = first
  · simp [same]
  · simp [same]

def dropMany (sys : System σ) (digests : List Digest) (store : σ) : σ :=
  digests.foldl (fun store digest => dropFrom sys digest store) store

lemma foldl_map_dropFrom (digests : List Digest) (stores : List σ) :
    digests.foldl (fun stores digest => stores.map (dropFrom sys digest)) stores =
      stores.map (dropMany sys digests) := by
  induction digests generalizing stores with
  | nil => exact (map_id stores).symm
  | cons first rest ih =>
    rw [foldl_cons, ih, map_map]
    rfl

include laws

lemma dropFrom_becomes (good : abs.good s) (free : ¬ abs.busy s digest) :
    abs.Becomes s (dropFrom sys digest s)
      { abs.view s with blobs := update (abs.view s).blobs digest none } := by
  unfold dropFrom
  rw [laws.blobHas good]
  split
  · rename_i has
    exact laws.blobDrop good has free
  rename_i lacks
  have none : (abs.view s).blobs digest = none := by simpa using lacks
  refine ⟨good, ?_, fun _ => id⟩
  rw [← none, update_eq_self]

lemma dropMany_becomes (good : abs.good s) (free : ∀ digest ∈ digests, ¬ abs.busy s digest) :
    abs.Becomes s (dropMany sys digests s)
      { abs.view s with blobs := without (abs.view s).blobs digests } := by
  induction digests generalizing s with
  | nil => exact ⟨good, by rw [without_nil]; rfl, fun _ => id⟩
  | cons first rest ih =>
    have one := dropFrom_becomes laws good (free first mem_cons_self)
    have later := ih one.good fun digest mem busy =>
      free digest (mem_cons_of_mem _ mem) (one.busy digest busy)
    refine ⟨later.good, ?_, fun digest busy => one.busy digest (later.busy digest busy)⟩
    calc abs.view (dropMany sys (first :: rest) s)
        = abs.view (dropMany sys rest (dropFrom sys first s)) := rfl
      _ = _ := by rw [later.view, one.view, without_update]

lemma dropMany_acts {listed : Digest → Prop} (good : abs.good s)
    (free : ∀ digest ∈ digests, ¬ abs.busy s digest)
    (unlisted : strict → ∀ digest ∈ digests, ¬ listed digest) :
    Relation.ReflTransGen (Act sys abs strict listed) s (dropMany sys digests s) := by
  induction digests generalizing s with
  | nil => exact .refl
  | cons first rest ih =>
    have one := dropFrom_becomes laws good (free first mem_cons_self)
    have later := ih one.good
      (fun digest mem busy =>
        free digest (mem_cons_of_mem _ mem) (one.busy digest busy))
      (fun isStrict digest mem => unlisted isStrict digest (mem_cons_of_mem _ mem))
    refine Relation.ReflTransGen.trans ?_ later
    unfold dropFrom
    split
    · rename_i has
      rw [laws.blobHas good] at has
      exact .single (.blobDrop first has (free first mem_cons_self)
        fun isStrict => unlisted isStrict first mem_cons_self)
    · exact .refl

omit laws

lemma Evolves.acts (resident : List Resident) (laws : Contract sys.ops abs)
    (front back : List σ) {s' : σ} (good : abs.good s) (calls : Relation.ReflTransGen
      (Act sys abs strict (Lists sys.cfg (recordsOf abs (front ++ s :: back)))) s s') :
    Evolves sys abs strict resident (front ++ s :: back) 0 (front ++ s' :: back) ∧
      abs.good s' ∧ (abs.view s').records = (abs.view s).records := by
  induction calls with
  | refl => exact ⟨.refl, good, rfl⟩
  | tail _ call ih =>
    obtain ⟨steps, goodBefore, records⟩ := ih
    obtain ⟨goodAfter, same, _⟩ := call.keeps laws goodBefore
    rw [← recordsOf_replace front back records] at call
    exact ⟨steps.act call, goodAfter, same.trans records⟩

lemma Evolves.map (laws : Contract sys.ops abs) {f : σ → σ} (front stores : List σ)
    (good : ∀ store ∈ stores, abs.good store) (calls : ∀ store ∈ stores, Relation.ReflTransGen
      (Act sys abs strict (Lists sys.cfg (recordsOf abs (front ++ stores)))) store (f store)) :
    Evolves sys abs strict resident (front ++ stores) 0 (front ++ stores.map f) := by
  induction stores generalizing front with
  | nil => exact .refl
  | cons store rest ih =>
    obtain ⟨steps, _, records⟩ := Evolves.acts resident laws front rest
      (good store mem_cons_self) (calls store mem_cons_self)
    have same := recordsOf_replace front rest records
    have later := ih (front ++ [f store])
      (fun other mem => good other (mem_cons_of_mem _ mem))
      (fun other mem => by
        rw [append_assoc, singleton_append, same]
        exact calls other (mem_cons_of_mem _ mem))
    rw [append_assoc] at later
    have all := steps.trans later
    simpa using all

end Stores

end WantedEngine.Registry
