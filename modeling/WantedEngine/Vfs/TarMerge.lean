import WantedEngine.Vfs.TarArchive
/-!
# What a TarFS makes visible

`TarFsInit` on well-formed archives. Its scan goes from the newest layer to the oldest and leaves
out what a newer layer covers, and a file is served from the layer that the layers, applied one
over the other, have it from (`servedFrom_eq_merged`).

So it is unless a file of a newer layer takes the place of a directory of an older one:
`coveredByNewer` looks for whiteouts and opaque marks above a path, and for no files. Links, which
are not indexed, hide nothing either.
-/
namespace WantedEngine.Vfs

open Foundation Foundation.Overlay List

/-! ### Headers of a well-formed archive -/

section

variable {bytes header : Bytes} {off size : Nat}

/-- The digits of a size are read into 32 bits. -/
lemma parseOctal_eq (bytes : Bytes) :
    parseOctal bytes = octalValue (bytes.takeWhile isOctal) % 2 ^ 32 := by
  have wraps := foldl_wraps 8 (2 ^ 32) digitValue (bytes.takeWhile isOctal) 0
  rw [Nat.zero_mod] at wraps
  refine (foldl_ext _ _ _ fun value digit mem => ?_).trans wraps
  -- The shifted value ends in three zero bits, and an octal digit has three.
  have small : digitValue digit < 8 := by
    have octal : 48 ≤ digit ∧ digit ≤ 55 := by simpa [isOctal] using mem_takeWhile_imp mem
    exact Nat.lt_of_le_of_lt (Nat.sub_le_sub_right octal.2 48) (by decide)
  omega

variable (ustar : UstarHeader header size)
include ustar

lemma UstarHeader.headerSize_eq : headerSize header = size := by
  obtain ⟨digits, ending, rest, same, octal, ended, value⟩ := ustar.digits
  have stops : isOctal ending = false := by
    obtain rfl | rfl := ended <;> decide
  have run : (digits ++ ending :: rest).takeWhile isOctal = digits := by
    rw [takeWhile_append_of_pos octal, takeWhile_cons, stops]
    simp
  rw [headerSize, same, parseOctal_eq, run, value, Nat.mod_eq_of_lt ustar.small]

lemma UstarHeader.not_zero : isZeroBlock header = false := by
  by_contra zero
  rw [Bool.not_eq_false, isZeroBlock, all_eq_true] at zero
  apply ustar.name.1
  rw [nameField, cString]
  have first : ∀ byte ∈ field header 0 100, byte = 0 := by
    intro byte member
    have within := mem_of_mem_drop (mem_of_mem_take member)
    exact of_decide_eq_true (zero byte within)
  cases whole : field header 0 100 with
  | nil => rfl
  | cons byte rest =>
    have head := first byte (whole ▸ mem_cons_self)
    simp [head]

omit ustar

variable {headers : List Bytes} {path : List Bytes}

lemma Archive.length_le (archive : Archive bytes off headers) :
    off + (headers.length + 2) * tarBlockSize ≤ bytes.length := by
  induction archive with
  | ending inside first second =>
    simpa using inside
  | member ustar later ih =>
    rw [nextOff] at ih
    rw [length_cons, Nat.add_right_comm, Nat.add_mul _ 1]
    omega

lemma headerKind_ustar (ustar : UstarHeader (headerAt bytes off) size)
    (later : Archive bytes (nextOff off size) headers) :
    headerKind bytes off = .member size := by
  have inside := later.length_le
  have aligned : size ≤ alignUp512 size := by
    rw [alignUp512, tarBlockSize]
    omega
  have long : ¬ bytes.length < off + tarBlockSize := by
    rw [nextOff] at inside
    omega
  have fits : ¬ bytes.length - off - tarBlockSize < size := by
    rw [nextOff] at inside
    omega
  have other : ∀ flag : UInt8, 55 < flag → typeflag (headerAt bytes off) ≠ flag := by
    intro flag above same
    obtain zero | ⟨-, most⟩ := ustar.type
    · rw [same] at zero
      rw [zero] at above
      exact absurd above (by decide)
    · rw [same] at most
      exact absurd above (UInt8.not_lt.mpr most)
  rw [headerKind, if_neg long]
  simp only [ustar.headerSize_eq, ustar.not_zero, Bool.false_eq_true, if_false, if_neg fits,
    other 120 (by decide), other 103 (by decide), other 75 (by decide), other 76 (by decide),
    or_self]

lemma headerKind_zero (inside : off + tarBlockSize ≤ bytes.length)
    (zero : isZeroBlock (headerAt bytes off) = true) : headerKind bytes off = .zero := by
  rw [headerKind, if_neg (Nat.not_lt.mpr inside)]
  simp only [zero, if_true]

include ustar

lemma UstarHeader.usable : nameUnusable header = false := by
  obtain ⟨some_, _⟩ := ustar.name
  rw [nameUnusable, decide_eq_false_iff_not]
  rintro (full | empty)
  · omega
  · exact some_ empty

lemma UstarHeader.joined_short : (joinedName header).length ≤ 255 := by
  have front : (prefixField header).length ≤ 155 := by
    refine (takeWhile_sublist _).length_le.trans ?_
    rw [field, length_take]
    exact Nat.min_le_left _ _
  have name := ustar.name.2
  rw [joinedName, length_append, length_append, length_singleton]
  omega

lemma UstarHeader.name_short : (memberName header).length ≤ 255 := by
  have joined := ustar.joined_short
  have name := ustar.name.2
  rw [memberName, length_drop]
  split <;> omega

end

/-! ### Room for a scan -/

/-- The bytes that the path of a member takes in the path pool. -/
def poolNeed (header : Bytes) : Nat :=
  if prefixField header = [] then 0 else (joinedName header).length + 1

/-- A context with room for so many bytes of paths, entries and owned strings: the tables do not
outgrow their 16-bit capacity, and the path pool does not move under the paths in it. -/
structure Room (c : TarCtx) (paths entries strings : Nat) : Prop where
  index : c.index.length + entries ≤ 2 ^ 15
  owned : c.owned + strings ≤ 2 ^ 15
  used : c.poolUsed + paths ≤ 256
  /-- The pool is there, or no entry points into it. -/
  pool : 256 ≤ c.poolCap ∨ c.poolCap = 0 ∧ ∀ placed ∈ c.index, placed.pooled = false

section

variable {host : TarHost} {c : TarCtx} {paths entries strings : Nat}
  (allocates : ∀ number, host.allocates number = true)

/-- Room for less. -/
lemma Room.less (room : Room c paths entries strings) {fewer : Nat} (less : fewer ≤ entries) :
    Room c paths fewer strings :=
  ⟨(Nat.add_le_add_left less _).trans room.index, room.owned, room.used, room.pool⟩

lemma grownCap_le {length initial : Nat} (small : length < 2 ^ 15) :
    length ≤ grownCap length initial := by
  rw [grownCap]
  split
  · omega
  · rw [Nat.mod_eq_of_lt (by omega)]
    omega

include allocates

lemma allocate_ok (c : TarCtx) : allocate host c = .ok { c with allocs := c.allocs + 1 } := by
  rw [allocate, if_pos (allocates _)]

variable (room : Room c paths (entries + 1) strings)
include room

lemma makeRoom_ok : ∃ after, makeRoom host c = .ok after ∧ Room after paths (entries + 1) strings ∧
      after.poolCap = c.poolCap := by
  rw [makeRoom]
  split
  · rename_i full
    have small : c.index.length < 2 ^ 15 := by
      have bound := room.index
      omega
    have grown : ¬ grownCap c.indexCap 16 < c.index.length := by
      rw [← full]
      exact Nat.not_lt.mpr (grownCap_le small)
    rw [growIndex, allocate_ok allocates]
    exact ⟨_, if_neg grown, ⟨room.index, room.owned, room.used, room.pool⟩, rfl⟩
  · exact ⟨c, rfl, room, rfl⟩

lemma addEntry_ok (layerIdx off size : Nat) {found : Draft}
    (pooled : found.pooled = true → 256 ≤ c.poolCap) :
    ∃ after, addEntry host layerIdx found off size c = .ok after ∧
      Room after paths entries strings := by
  obtain ⟨grown, made, roomy, cap⟩ := makeRoom_ok allocates room
  rw [addEntry, made]
  refine ⟨_, rfl, ?_, roomy.owned, roomy.used, ?_⟩
  · have bound := roomy.index
    rw [length_append, length_singleton]
    omega
  by_cases there : 256 ≤ grown.poolCap
  · exact .inl there
  right
  obtain ⟨missing, none_⟩ := roomy.pool.resolve_left there
  refine ⟨missing, forall_mem_append.mpr ⟨none_, forall_mem_singleton.mpr ?_⟩⟩
  rw [cap] at there
  exact Bool.eq_false_iff.mpr fun points => there (pooled points)

omit room

lemma rememberOwned_ok (room : Room c paths entries (strings + 1)) :
    ∃ after, rememberOwned host c = .ok after ∧ Room after paths entries strings := by
  have bound := room.owned
  rw [rememberOwned]
  split
  · rename_i full
    have grown : ¬ grownCap c.ownedCap 4 < c.owned := by
      rw [← full]
      exact Nat.not_lt.mpr (grownCap_le (by omega))
    rw [allocate_ok allocates]
    refine ⟨_, if_neg grown, room.index, ?_, room.used, room.pool⟩
    dsimp only
    omega
  · refine ⟨_, rfl, room.index, ?_, room.used, room.pool⟩
    dsimp only
    omega

lemma internPath_ok {len : Nat} (room : Room c (len + 1 + paths) entries strings) :
    ∃ after, internPath host c len = .ok after ∧ Room after paths entries strings ∧
      256 ≤ after.poolCap := by
  have bound := room.used
  rw [internPath]
  split
  · rename_i short
    obtain ⟨missing, none_⟩ := room.pool.resolve_left (by omega)
    have unpooled : ¬ c.index.any (·.pooled) = true := by simpa using none_
    have cap : grownPool c.poolCap (c.poolUsed + len + 1) = 256 := by
      rw [grownPool, doubled, missing, if_pos rfl, if_neg (by omega)]
    rw [allocate_ok allocates]
    refine ⟨_, if_neg unpooled, ⟨room.index, room.owned, ?_, Or.inl cap.ge⟩, cap.ge⟩
    dsimp only
    omega
  · rename_i fits
    have there : 256 ≤ c.poolCap := by
      obtain there | ⟨missing, -⟩ := room.pool
      · exact there
      · omega
    refine ⟨_, rfl, ⟨room.index, room.owned, ?_, room.pool⟩, there⟩
    dsimp only
    omega

/-! ### A member -/

variable {bytes : Bytes} {s : Scan} {size : Nat} (layerIdx : Nat)

lemma memberPath_ok (ustar : UstarHeader (headerAt bytes s.off) size) (plain : s.overridePath = none)
    (room : Room s.ctx (poolNeed (headerAt bytes s.off) + paths) entries strings) :
    ∃ path after, memberPath host bytes s = .ok (some path, after) ∧
      path.text = memberName (headerAt bytes s.off) ∧ path.terminated = true ∧
      Room after paths entries strings ∧ (path.home = .pool → 256 ≤ after.poolCap) := by
  have short := ustar.joined_short
  rw [poolNeed] at room
  simp only [memberPath, plain, ustar.usable, Bool.false_eq_true, if_false]
  split
  · rename_i unprefixed
    rw [if_pos unprefixed, Nat.zero_add] at room
    refine ⟨_, _, rfl, ?_, rfl, room, by simp⟩
    rw [memberName, if_pos unprefixed]
  rename_i prefixed
  rw [if_neg prefixed] at room
  rw [if_neg (by omega)]
  obtain ⟨after, interned, roomy, there⟩ := internPath_ok allocates room
  rw [interned]
  refine ⟨_, after, rfl, ?_, rfl, roomy, fun _ => there⟩
  rw [memberName, if_neg prefixed]

lemma classify_ok {path : TarPath} (terminated : path.terminated = true)
    (room : Room c paths entries (strings + 1)) (home : path.home = .pool → 256 ≤ c.poolCap) :
    ∃ found after, classify host layerIdx path c = .ok (found, after) ∧
      Room after paths entries strings ∧ (found.pooled = true → 256 ≤ after.poolCap) := by
  have enough : Room c paths entries strings :=
    ⟨room.index, Nat.le_of_succ_le room.owned, room.used, room.pool⟩
  have pooled : decide (path.home = .pool) = true → 256 ≤ c.poolCap :=
    fun points => home (of_decide_eq_true points)
  rw [classify, if_neg (not_not_intro terminated)]
  split
  · exact ⟨_, _, rfl, enough, pooled⟩
  split
  · obtain ⟨after, remembered, roomy⟩ :=
      rememberOwned_ok (c := { c with allocs := c.allocs + 1 }) allocates
        ⟨room.index, room.owned, room.used, room.pool⟩
    refine ⟨⟨makeWhiteoutTarget path.text, .whiteout, false⟩, after, ?_, roomy, by simp⟩
    rw [allocate_ok allocates]
    change (rememberOwned host { c with allocs := c.allocs + 1 } >>= _) = _
    rw [remembered]
    rfl
  · exact ⟨_, _, rfl, enough, pooled⟩

lemma draftEntry_ok (ustar : UstarHeader (headerAt bytes s.off) size)
    (plain : s.overridePath = none) (room : Room s.ctx (poolNeed (headerAt bytes s.off) + paths)
      ((memberItem (headerAt bytes s.off)).toList.length + entries)
      ((memberItem (headerAt bytes s.off)).toList.length + entries)) :
    ∃ found after, draftEntry host layerIdx bytes s = .ok (found, after) ∧
      Room after paths ((memberItem (headerAt bytes s.off)).toList.length + entries) entries ∧
      (found.map fun draft => entryItem draft.path draft.layer) = memberItem (headerAt bytes s.off) ∧
      ∀ draft, found = some draft → Fitting draft.path draft.layer ∧ draft.path.length ≤ 255 ∧
        (draft.pooled = true → 256 ≤ after.poolCap) := by
  obtain ⟨path, first, named, text, terminated, roomy, home⟩ :=
    memberPath_ok allocates ustar plain room
  rw [draftEntry, named]
  by_cases regular : isRegular (headerAt bytes s.off) = true
  · have item : memberItem (headerAt bytes s.off) =
        some (markedItem (components (memberName (headerAt bytes s.off)))) := by
      rw [memberItem, if_pos regular]
    rw [item] at roomy ⊢
    have one : Room first paths (1 + entries) (entries + 1) := by
      rw [Nat.add_comm entries 1]
      exact roomy
    obtain ⟨found, after, classified, left, pooled⟩ :=
      classify_ok allocates layerIdx terminated one home
    obtain ⟨stands, fitting, length⟩ := classify_item classified
    rw [text] at stands length
    refine ⟨some found, after, ?_, left, congrArg some stands, ?_⟩
    · change (if isRegular (headerAt bytes s.off) = true then _ else _) = _
      rw [if_pos regular, classified]
      rfl
    · intro draft same
      obtain rfl := Option.some.inj same
      exact ⟨fitting, length.trans ustar.name_short, pooled⟩
  · have item : memberItem (headerAt bytes s.off) = none := by rw [memberItem, if_neg regular]
    rw [item] at roomy ⊢
    have none_ : Room first paths (0 + entries) entries :=
      ⟨roomy.index, Nat.zero_add entries ▸ roomy.owned, roomy.used, roomy.pool⟩
    change ∃ found after, (if isRegular (headerAt bytes s.off) = true then _ else _) =
      Except.ok (found, after) ∧ _
    rw [if_neg regular]
    split
    · exact ⟨none, first, rfl, none_, rfl, by simp⟩
    · exact ⟨none, _, rfl, ⟨none_.index, none_.owned, none_.used, none_.pool⟩, rfl, by simp⟩

omit allocates

/-! ### A layer -/

def Placed.item (placed : Placed) : Item Bytes := entryItem placed.entry.path placed.entry.layer

/-- An entry with a short path that its item is at. -/
structure Placed.Plain (placed : Placed) : Prop where
  fitting : Fitting placed.entry.path placed.entry.layer
  short : placed.entry.path.length ≤ 255

/-- The entries that a layer adds to those of newer layers: its items, but for those that an item of
a newer layer covers. -/
structure Taken (layerIdx : Nat) (newer : List Placed) (items : List (Item Bytes))
    (new : List Placed) : Prop where
  origin : ∀ placed ∈ new, placed.origin = layerIdx
  plain : ∀ placed ∈ new, placed.Plain
  item : ∀ item, (∃ placed ∈ new, placed.item = item) ↔
    item ∈ items ∧ ¬ ∃ placed ∈ newer, placed.item.Decides (item.place opaqueName)

variable {base : List Placed}

/-- No items, no entries. -/
lemma Taken.nil {layerIdx : Nat} : Taken layerIdx base [] [] := ⟨nofun, nofun, by simp⟩

lemma Taken.append {layerIdx : Nat} {items others : List (Item Bytes)} {new later : List Placed}
    (first : Taken layerIdx base items new) (second : Taken layerIdx base others later) :
    Taken layerIdx base (items ++ others) (new ++ later) where
  origin := forall_mem_append.mpr ⟨first.origin, second.origin⟩
  plain := forall_mem_append.mpr ⟨first.plain, second.plain⟩
  item item := by
    rw [mem_append, or_and_right, ← first.item, ← second.item]
    simp only [mem_append, or_and_right, exists_or]

lemma coveredByNewer_iff_decides (ordered : Ordered (base.map (·.entry)))
    (plain : ∀ placed ∈ base, placed.Plain) {path : Bytes} {layer : EntryLayer}
    (fitting : Fitting path layer) (short : path.length ≤ 255) :
    coveredByNewer (base.map (·.entry)) path = true ↔
      ∃ placed ∈ base, placed.item.Decides ((entryItem path layer).place opaqueName) := by
  rw [coveredByNewer_iff ordered (short.trans (by decide)), fitting]
  simp only [mem_map, exists_exists_and_eq_and]
  refine exists_congr fun placed => and_congr_right fun member => ?_
  exact covers_iff_decides (plain placed member).fitting path

/-- The state of a scan between two members of an archive. -/
def between (c : TarCtx) (off : Nat) : Scan := ⟨c, off, 0, none, 0, false⟩

include allocates in
/-- One round at a member: it is taken unless a newer layer covers it. -/
lemma scanStep_member {off : Nat} {headers : List Bytes} (ustar : UstarHeader (headerAt bytes off) size)
    (later : Archive bytes (nextOff off size) headers)
    (ordered : Ordered (base.map (·.entry))) (plain : ∀ placed ∈ base, placed.Plain)
    {added : List Placed} (index : c.index = base ++ added)
    (room : Room c (poolNeed (headerAt bytes off) + paths)
      ((memberItem (headerAt bytes off)).toList.length + entries)
      ((memberItem (headerAt bytes off)).toList.length + entries)) :
    ∃ after new, scanStep host layerIdx base.length bytes (between c off) =
        .ok (between after (nextOff off size)) ∧
      Room after paths entries entries ∧ after.index = c.index ++ new ∧
      Taken layerIdx base (memberItem (headerAt bytes off)).toList new := by
  obtain ⟨found, drafted, made, roomy, stands, drafts⟩ :=
    draftEntry_ok (s := between c off) allocates layerIdx ustar rfl room
  change Room drafted paths ((memberItem (headerAt bytes off)).toList.length + entries) entries
    at roomy
  change _ = memberItem (headerAt bytes off) at stands
  have kept : drafted.index = c.index := (draftEntry_keeps _ made).1
  have newer_eq : newer drafted base.length = base.map (·.entry) := by
    rw [newer, kept, index, take_left]
  have kind : headerKind bytes (between c off).off = .member size := headerKind_ustar ustar later
  have step : scanStep host layerIdx base.length bytes (between c off) =
      scanMember host layerIdx base.length bytes (between c off) size := by
    rw [scanStep, kind]
    rfl
  rw [step, scanMember, made]
  cases found with
  | none =>
    rw [← stands] at roomy ⊢
    refine ⟨drafted, [], rfl, roomy.less (Nat.le_add_left _ _), ?_, Taken.nil⟩
    rw [kept, append_nil]
  | some draft =>
    obtain ⟨fitting, short, pooled⟩ := drafts draft rfl
    rw [← stands] at roomy ⊢
    have covered := coveredByNewer_iff_decides ordered plain fitting short
    rw [← newer_eq] at covered
    by_cases hit : coveredByNewer (newer drafted base.length) draft.path = true
    · refine ⟨drafted, [], if_pos hit, roomy.less (Nat.le_add_left _ _), ?_, ⟨by simp, by simp, ?_⟩⟩
      · rw [kept, append_nil]
      · simp [covered.mp hit]
    have one : Room drafted paths (entries + 1) entries := by
      rw [Nat.add_comm]
      exact roomy
    obtain ⟨after, extended, left⟩ :=
      addEntry_ok allocates one layerIdx off size pooled
    refine ⟨after, [placedAt layerIdx draft (between c off) size], ?_, left, ?_, ?_⟩
    · refine (if_neg hit).trans ?_
      change (addEntry host layerIdx draft off size drafted >>= _) = _
      rw [extended]
      rfl
    · rw [(addEntry_adds after extended).index, kept]
      rfl
    have undecided := mt covered.mpr hit
    constructor
    · exact forall_mem_singleton.mpr rfl
    · exact forall_mem_singleton.mpr ⟨fitting, short⟩
    intro item
    simp only [mem_singleton, exists_eq_left, Option.map_some, Option.toList_some]
    constructor
    · rintro rfl
      exact ⟨rfl, undecided⟩
    · rintro ⟨rfl, -⟩
      rfl

variable {layers : List Bytes} {sortedLen : Nat}

lemma scanRounds_stopped (stopped : s.stopped = true) (rounds : Nat) :
    scanRounds host layerIdx sortedLen bytes rounds s = .ok s := by
  cases rounds with
  | zero => rfl
  | succ rounds => rw [scanRounds, if_pos stopped]

lemma scanRounds_succ {next : Scan} (running : s.stopped = false)
    (stepped : scanStep host layerIdx sortedLen bytes s = .ok next) (rounds : Nat) :
    scanRounds host layerIdx sortedLen bytes (rounds + 1) s =
      scanRounds host layerIdx sortedLen bytes rounds next := by
  rw [scanRounds, if_neg (Bool.eq_false_iff.mp running), stepped]
  rfl

lemma scanRounds_zeros {sortedLen off : Nat} (first : headerKind bytes off = .zero)
    (second : headerKind bytes (off + tarBlockSize) = .zero) (rounds : Nat) :
    scanRounds host layerIdx sortedLen bytes (rounds + 2) (between c off) =
      .ok ⟨c, off + tarBlockSize, 2, none, 0, true⟩ := by
  have once : scanStep host layerIdx sortedLen bytes (between c off) =
      .ok ⟨c, off + tarBlockSize, 1, none, 0, false⟩ := by
    have kind : headerKind bytes (between c off).off = .zero := first
    rw [scanStep, kind]
    rfl
  have twice : scanStep host layerIdx sortedLen bytes
      ⟨c, off + tarBlockSize, 1, none, 0, false⟩ =
      .ok ⟨c, off + tarBlockSize, 2, none, 0, true⟩ := by
    rw [scanStep, second]
    rfl
  rw [scanRounds_succ layerIdx rfl once, scanRounds_succ layerIdx rfl twice, scanRounds_stopped layerIdx rfl]

include allocates in
lemma scanRounds_archive
    (ordered : Ordered (base.map (·.entry))) (plain : ∀ placed ∈ base, placed.Plain)
    {off : Nat} {headers : List Bytes} (archive : Archive bytes off headers)
    {added : List Placed} (index : c.index = base ++ added)
    (room : Room c ((headers.map poolNeed).sum + paths) ((layerItems headers).length + entries)
      ((layerItems headers).length + entries)) {rounds : Nat} (enough : headers.length + 2 ≤ rounds) :
    ∃ final new, scanRounds host layerIdx base.length bytes rounds (between c off) = .ok final ∧
      Room final.ctx paths entries entries ∧ final.ctx.index = c.index ++ new ∧
      Taken layerIdx base (layerItems headers) new := by
  induction archive generalizing c added rounds with
  | @ending off inside first second =>
    obtain ⟨rounds, rfl⟩ := Nat.exists_eq_add_of_le' enough
    have kind := headerKind_zero (by omega) first
    have kind' := headerKind_zero (by omega) second
    refine ⟨_, [], scanRounds_zeros layerIdx kind kind' rounds, ?_, ?_, Taken.nil⟩
    · simpa [layerItems] using room
    · rw [append_nil]
  | @member off size rest ustar later ih =>
    obtain ⟨rounds, rfl⟩ := Nat.exists_eq_add_of_le' (Nat.one_le_of_lt enough)
    have items : layerItems (headerAt bytes off :: rest) =
        (memberItem (headerAt bytes off)).toList ++ layerItems rest := by
      rw [layerItems, filterMap_cons]
      cases memberItem (headerAt bytes off) <;> rfl
    rw [items, length_append, map_cons, sum_cons, Nat.add_assoc, Nat.add_assoc]
      at room
    obtain ⟨middle, taken, stepped, roomy, grown, first⟩ :=
      scanStep_member allocates layerIdx ustar later ordered plain index room
    have index' : middle.index = base ++ (added ++ taken) := by
      rw [grown, index, append_assoc]
    obtain ⟨final, new, scanned, left, grown', second⟩ := ih index' roomy (Nat.le_of_succ_le_succ enough)
    refine ⟨final, taken ++ new, ?_, left, ?_, ?_⟩
    · rw [scanRounds_succ layerIdx rfl stepped, scanned]
    · rw [grown', grown, append_assoc]
    · rw [items]
      exact first.append second

include allocates in
lemma indexLayer_archive
    (ordered : Ordered (c.index.map (·.entry))) (plain : ∀ placed ∈ c.index, placed.Plain)
    {headers : List Bytes} (archive : Archive bytes 0 headers)
    (room : Room c ((headers.map poolNeed).sum + paths) ((layerItems headers).length + entries)
      ((layerItems headers).length + entries)) :
    ∃ after new, indexLayer host layerIdx bytes c = .ok after ∧
      Room after paths entries entries ∧ after.index = c.index ++ new ∧
      Taken layerIdx c.index (layerItems headers) new := by
  have enough : headers.length + 2 ≤ layerRounds bytes := by
    have long := archive.length_le
    rw [Nat.zero_add] at long
    have blocks := (Nat.le_div_iff_mul_le (by decide)).mpr long
    exact Nat.le_succ_of_le blocks
  obtain ⟨final, new, scanned, roomy, grown, taken⟩ :=
    scanRounds_archive allocates layerIdx ordered plain archive (append_nil _).symm room enough
  refine ⟨final.ctx, new, ?_, roomy, grown, taken⟩
  change (scanRounds host layerIdx c.index.length bytes (layerRounds bytes) (between c 0) >>= _) = _
  rw [scanned]
  rfl

end

/-! ### All layers -/

/-- An entry of an index, by the number of its layer and its item. -/
def TarKept (c : TarCtx) (number : Nat) (item : Item Bytes) : Prop :=
  ∃ placed ∈ c.index, placed.origin = number ∧ placed.item = item

/-- The index of the archives scanned so far. -/
structure Indexed (before : List (List Bytes)) (c : TarCtx) : Prop where
  ordered : Ordered (c.index.map (·.entry))
  plain : ∀ placed ∈ c.index, placed.Plain
  summary : Summary (before.map layerItems) (TarKept c)

section

variable {host : TarHost} {c : TarCtx} {paths entries : Nat}

/-- Sorting leaves the room. -/
lemma Room.sort {strings : Nat} (room : Room c paths entries strings) :
    Room (sortIndex c) paths entries strings where
  index := by
    rw [sortIndex, length_insertionSort]
    exact room.index
  owned := room.owned
  used := room.used
  pool := room.pool.imp_right fun ⟨missing, none_⟩ =>
    ⟨missing, fun placed member => none_ placed (mem_sortIndex.mp member)⟩

lemma Indexed.snoc {before : List (List Bytes)} (indexed : Indexed before c) {after : TarCtx}
    {new : List Placed} (grown : after.index = c.index ++ new)
    (taken : Taken before.length c.index (layerItems headers) new)
    (named : ∀ headers ∈ before, ∀ header ∈ headers, WellNamed header)
    (flat : Flat ((before ++ [headers]).map layerItems)) :
    Indexed (before ++ [headers]) (sortIndex after) where
  ordered := ordered_sortIndex after
  plain placed member := by
    rw [mem_sortIndex, grown] at member
    obtain earlier | added := mem_append.mp member
    · exact indexed.plain placed earlier
    · exact taken.plain placed added
  summary := by
    rw [map_append] at flat ⊢
    have unmarked : ∀ item ∈ (before.map layerItems).flatten, item.Unmarked opaqueName := by
      intro item member
      obtain ⟨_, listed, within⟩ := mem_flatten.mp member
      obtain ⟨headers, earlier, rfl⟩ := mem_map.mp listed
      obtain ⟨header, among, stands⟩ := mem_filterMap.mp within
      exact memberItem_unmarked (named headers earlier header among) stands
    refine indexed.summary.snoc unmarked (fun _ _ newer older => flat.not_above newer older) ?_
    intro number item
    have covered : (∃ number other, TarKept c number other ∧ other.Decides (item.place opaqueName)) ↔
        ∃ placed ∈ c.index, placed.item.Decides (item.place opaqueName) := by
      constructor
      · rintro ⟨number, other, ⟨placed, member, -, rfl⟩, decides⟩
        exact ⟨placed, member, decides⟩
      · rintro ⟨placed, member, decides⟩
        exact ⟨placed.origin, placed.item, ⟨placed, member, rfl, rfl⟩, decides⟩
    rw [covered, ← taken.item, length_map]
    simp only [TarKept, mem_sortIndex, grown, mem_append, or_and_right, exists_or]
    refine or_congr_right ?_
    constructor
    · rintro ⟨placed, member, rfl, same⟩
      exact ⟨taken.origin placed member, placed, member, same⟩
    · rintro ⟨rfl, placed, member, same⟩
      exact ⟨placed, member, taken.origin placed member, same⟩

lemma archives_ne_nil {archives : List (List Bytes)}
    (wellFormed : List.Forall₂ (fun bytes headers => Archive bytes 0 headers) layers archives) :
    ∀ bytes ∈ layers, bytes ≠ [] := by
  induction wellFormed with
  | nil => nofun
  | cons archive _ ih =>
    refine forall_mem_cons.mpr ⟨?_, ih⟩
    rintro rfl
    have long := archive.length_le
    rw [length_nil, tarBlockSize] at long
    omega

lemma indexLayers_archives (allocates : ∀ number, host.allocates number = true)
    {archives before : List (List Bytes)} (indexed : Indexed before c)
    (wellFormed : List.Forall₂ (fun bytes headers => Archive bytes 0 headers) layers archives)
    (named : ∀ headers ∈ before ++ archives, ∀ header ∈ headers, WellNamed header)
    (flat : Flat ((before ++ archives).map layerItems))
    (room : Room c (archives.flatten.map poolNeed).sum (archives.map layerItems).flatten.length
      (archives.map layerItems).flatten.length) :
    ∃ ctx, indexLayers host layers before.length c = .ok ctx ∧ Indexed (before ++ archives) ctx := by
  induction wellFormed generalizing before c with
  | nil =>
    rw [append_nil]
    exact ⟨c, rfl, indexed⟩
  | @cons bytes headers layers archives archive _ ih =>
    rw [flatten_cons, map_append, sum_append, map_cons, flatten_cons, length_append] at room
    obtain ⟨_, _, done, roomy, grown, taken⟩ :=
      indexLayer_archive allocates before.length indexed.ordered indexed.plain archive room
    have split : before ++ headers :: archives = before ++ [headers] ++ archives := by simp
    rw [split] at named flat ⊢
    have flatBefore : Flat ((before ++ [headers]).map layerItems) := by
      rw [map_append] at flat
      exact (pairwise_append.mp flat).1
    have next := indexed.snoc grown taken
      (fun headers member => named headers (by simp [member])) flatBefore
    obtain ⟨ctx, rest, final⟩ := ih next named flat roomy.sort
    refine ⟨ctx, ?_, final⟩
    rw [length_append, length_singleton] at rest
    rw [indexLayers, done]
    exact rest

end

/-! ### What is visible -/

/-- The layer that a file is opened from. -/
def servedFrom (ctx : TarCtx) (path : List Bytes) : Option Nat :=
  match tarFsOpen (ctx.index.map (·.entry)) (renderPath path) 0 with
  | some (.file layer _ _ _) => some layer
  | _ => none

/-- The text of a path of proper names has no slash at its ends. -/
lemma intercalate_ends (proper : ∀ name ∈ path, ProperName name) (some_ : path ≠ []) :
    ([slash].intercalate path).head? ≠ some slash ∧
      ([slash].intercalate path).getLast? ≠ some slash := by
  have free : ∀ name ∈ path, slash ∉ name := fun name member => (proper name member).2.1
  have back := components_intercalate free some_
  have named : [] ∉ path := fun member => (proper [] member).1 rfl
  constructor
  · intro first
    obtain ⟨rest, text⟩ := head?_eq_some_iff.mp first
    rw [text, ← nil_append (slash :: rest), components_append] at back
    apply named
    rw [← back]
    exact mem_append_left _ (by decide)
  · intro last
    obtain ⟨rest, text⟩ := getLast?_eq_some_iff.mp last
    rw [text, components_append] at back
    apply named
    rw [← back]
    exact mem_append_right _ (by decide)

section

variable {index : List TarEntry} {number : Nat}

lemma openStripped_served (ordered : Ordered index) (short : ∀ entry ∈ index, entry.path.length ≤ 512)
    (unique : ∀ first ∈ index, ∀ second ∈ index, first.path = second.path →
      ∀ m n, first.layer = .layer m → second.layer = .layer n → m = n)
    {path : Bytes} (some_ : path ≠ []) :
    (∃ hdrOffset size pos, openStripped index path false 0 = some (.file number hdrOffset size pos)) ↔
      ∃ entry ∈ index, entry.path = path ∧ entry.layer = .layer number := by
  simp only [openStripped_eq_file]
  constructor
  · rintro ⟨hdrOffset, size, pos, -, -, found⟩
    rw [findExact_eq ordered] at found
    exact ⟨_, mem_of_find?_eq_some found, rfl, rfl⟩
  · rintro ⟨entry, member, rfl, served⟩
    obtain ⟨⟨_, _, hdrOffset, size⟩, listed, found, rfl, own, rfl⟩ := findExact_file ordered member served
    have one := unique _ listed entry member rfl own number rfl served
    exact ⟨hdrOffset, size, 0, ⟨short entry member, some_, trivial, by decide⟩, rfl, one ▸ found⟩

lemma tarFsOpen_renderPath (proper : ∀ name ∈ path, ProperName name) (some_ : path ≠ []) :
    tarFsOpen index (renderPath path) 0 = openStripped index ([slash].intercalate path) false 0 := by
  obtain ⟨first, last⟩ := intercalate_ends proper some_
  have stripped : (renderPath path).dropWhile (· = slash) = [slash].intercalate path := by
    rw [renderPath, dropWhile_cons, if_pos (by simp)]
    cases text : [slash].intercalate path with
    | nil => rfl
    | cons byte rest =>
      rw [text, head?_cons] at first
      exact dropWhile_cons_of_neg (by simpa using first)
  have readOnly : ¬ ((0 : Oflags) &&& (vfsOWronly ||| vfsORdwr) ≠ 0 ∨
      (0 : Oflags) &&& (vfsOCreat ||| vfsOTrunc) ≠ 0) := by decide
  rw [tarFsOpen, stripped, if_neg readOnly, if_neg last]

end

lemma servedFrom_iff_kept {layers : List (List Bytes)} {ctx : TarCtx} (indexed : Indexed layers ctx)
    (own : ∀ placed ∈ ctx.index, placed.OwnLayer) (flat : Flat (layers.map layerItems))
    (proper : ∀ name ∈ path, ProperName name) (some_ : path ≠ []) (number : Nat) :
    servedFrom ctx path = some number ↔ TarKept ctx number (.file path) := by
  have free : ∀ name ∈ path, slash ∉ name := fun name member => (proper name member).2.1
  have kept : ∀ placed ∈ ctx.index, ∀ n, placed.entry.layer = .layer n →
      TarKept ctx n (.file (components placed.entry.path)) := by
    intro placed member n file
    refine ⟨placed, member, (own placed member n file).symm, ?_⟩
    rw [Placed.item, file]
    rfl
  have unique : ∀ first ∈ ctx.index.map (·.entry), ∀ second ∈ ctx.index.map (·.entry),
      first.path = second.path →
      ∀ m n, first.layer = .layer m → second.layer = .layer n → m = n := by
    simp only [forall_mem_map]
    intro placed member other listed same m n firstFile secondFile
    -- both are the one file of the merged tree
    have here := (indexed.summary.file_iff_merged flat m _).mp (kept placed member m firstFile)
    have there := (indexed.summary.file_iff_merged flat n _).mp (kept other listed n secondFile)
    rw [same, there] at here
    exact (Option.some.inj here).symm
  have short : ∀ entry ∈ ctx.index.map (·.entry), entry.path.length ≤ 512 :=
    forall_mem_map.mpr fun placed listed => (indexed.plain placed listed).short.trans (by decide)
  have text : [slash].intercalate path ≠ [] := by
    intro empty
    have back := components_intercalate free some_
    rw [empty] at back
    exact (proper [] (back ▸ (by decide))).1 rfl
  have served : servedFrom ctx path = some number ↔ ∃ hdrOffset size pos,
      tarFsOpen (ctx.index.map (·.entry)) (renderPath path) 0 =
        some (.file number hdrOffset size pos) := by
    rw [servedFrom]
    constructor
    · intro found
      split at found
      · rename_i hdrOffset size pos opened
        obtain rfl := Option.some.inj found
        exact ⟨hdrOffset, size, pos, opened⟩
      · cases found
    · rintro ⟨hdrOffset, size, pos, opened⟩
      rw [opened]
  rw [served, tarFsOpen_renderPath proper some_, openStripped_served indexed.ordered short unique text]
  constructor
  · rintro ⟨_, listed, here, file⟩
    obtain ⟨placed, member, rfl⟩ := mem_map.mp listed
    have found := kept placed member number file
    rw [here, components_intercalate free some_] at found
    exact found
  rintro ⟨placed, member, rfl, item⟩
  rw [Placed.item] at item
  cases file : placed.entry.layer with
  | layer n =>
    rw [file] at item
    obtain rfl := own placed member n file
    have same := Item.file.inj item
    have text := components_inj (same.trans (components_intercalate free some_).symm)
    exact ⟨placed.entry, mem_map_of_mem member, text, file⟩
  | whiteout | opq =>
    rw [file] at item
    cases item

lemma memberItem_ne_nil {header : Bytes} (stands : memberItem header = some (.file path))
    : path ≠ [] := by
  rw [memberItem] at stands
  split at stands
  · have item := Option.some.inj stands
    rw [markedItem] at item
    split_ifs at item
    obtain rfl := Item.file.inj item
    exact components_ne_nil _
  · cases stands

/-- On well-formed ustar archives that fit the tables, with well-named members and no file of a
newer layer above a file of an older one: `TarFsInit` makes an index, and every path is served from
the layer that the archives, applied from the oldest to the newest, have it from. -/
theorem servedFrom_eq_merged (host : TarHost) (allocates : ∀ number, host.allocates number = true)
    (layers : List Bytes) (archives : List (List Bytes))
    (wellFormed : List.Forall₂ (fun bytes headers => Archive bytes 0 headers) layers archives)
    (count : layers ≠ [] ∧ layers.length ≤ host.maxLayers)
    (named : ∀ headers ∈ archives, ∀ header ∈ headers, WellNamed header)
    (flat : Flat (archives.map layerItems))
    (table : (archives.map layerItems).flatten.length ≤ 2 ^ 15)
    (pool : (archives.flatten.map poolNeed).sum ≤ 256) :
    ∃ ctx, tarFsInit host layers = .ok ctx ∧
      ∀ path, (∀ name ∈ path, ProperName name) →
        servedFrom ctx path = merged (archives.map layerItems) path := by
  have start : Indexed [] { TarCtx.empty with allocs := TarCtx.empty.allocs + 1 } :=
    ⟨List.Pairwise.nil, nofun, Summary.nil nofun⟩
  have room : Room { TarCtx.empty with allocs := TarCtx.empty.allocs + 1 }
      (archives.flatten.map poolNeed).sum (archives.map layerItems).flatten.length
      (archives.map layerItems).flatten.length := by
    simp only [TarCtx.empty]
    refine ⟨?_, ?_, ?_, Or.inr ⟨rfl, nofun⟩⟩
    · simpa using table
    · simpa using table
    · simpa using pool
  obtain ⟨ctx, done, indexed⟩ := indexLayers_archives allocates start wellFormed named flat room
  have filled : ¬ layers.any (· = []) = true := by
    rw [any_eq_true]
    rintro ⟨bytes, member, empty⟩
    exact archives_ne_nil wellFormed bytes member (of_decide_eq_true empty)
  have made : tarFsInit host layers = .ok ctx := by
    have arguments := not_or.mpr ⟨count.1, Nat.not_lt.mpr count.2⟩
    rw [tarFsInit, if_neg arguments, allocate_ok allocates]
    exact (if_neg filled).trans done
  refine ⟨ctx, made, ?_⟩
  intro path proper
  by_cases root : path = []
  · -- the root is a directory, and no member is there
    obtain rfl := root
    cases found : merged (archives.map layerItems) [] with
    | none => rfl
    | some number =>
      obtain ⟨⟨_, listed, member⟩, -⟩ := merged_eq_some_iff.mp found
      obtain ⟨headers, -, rfl⟩ := mem_map.mp (mem_of_getElem? listed)
      obtain ⟨header, -, stands⟩ := mem_filterMap.mp member
      exact absurd rfl (memberItem_ne_nil stands)
  · have files := servedFrom_iff_kept indexed (tarFsInit_ownLayer made) flat proper root
    apply Option.ext
    intro number
    rw [files number]
    exact indexed.summary.file_iff_merged flat number path

def emptyMembers (headers : List Bytes) : Bytes :=
  headers.flatten ++ List.replicate (2 * tarBlockSize) 0

/-- Empty members make an archive. -/
lemma archive_emptyMembers (headers : List Bytes)
    (each : ∀ header ∈ headers, header.length = tarBlockSize ∧ UstarHeader header 0) :
    Archive (emptyMembers headers) 0 headers := by
  suffices later : ∀ before : Bytes,
      Archive (before ++ emptyMembers headers) before.length headers from later []
  induction headers with
  | nil =>
    intro before
    have text : before ++ emptyMembers [] =
        before ++ (List.replicate tarBlockSize 0 ++ List.replicate tarBlockSize 0) := by
      rw [emptyMembers, flatten_nil, nil_append, ← replicate_add, Nat.two_mul]
    rw [text]
    apply Archive.ending
    · simp only [length_append, length_replicate]
      omega
    · rw [headerAt, field, drop_left, take_append_of_le_length (by simp)]
      decide +kernel
    rw [headerAt, field, ← append_assoc, drop_append_of_le_length (by simp)]
    have none_ : (before ++ List.replicate tarBlockSize 0).drop (before.length + tarBlockSize) =
        [] := drop_eq_nil_of_le (by simp)
    rw [none_]
    decide +kernel
  | cons header rest ih =>
    intro before
    obtain ⟨whole, ustar⟩ := each header mem_cons_self
    have text : before ++ emptyMembers (header :: rest) = (before ++ header) ++ emptyMembers rest := by
      rw [emptyMembers, flatten_cons, emptyMembers, append_assoc, append_assoc]
    have here : headerAt (before ++ emptyMembers (header :: rest)) before.length = header := by
      rw [text, headerAt, field, append_assoc, drop_left, ← whole, take_left]
    have next : nextOff before.length 0 = (before ++ header).length := by
      rw [length_append, whole]
      rfl
    have later := ih (fun other member => each other (mem_cons_of_mem _ member)) (before ++ header)
    rw [← text, ← next] at later
    have first := Archive.member (here.symm ▸ ustar) later
    rw [here] at first
    exact first

/-- The headers of a layer with a file `a` and a whiteout of `b`. -/
def newerHeaders : List Bytes := [plainHeader "a" "0" 48, plainHeader ".wh.b" "0" 48]

/-- The headers of a layer with a link `l` and the files `a`, `b/x` and `d/c`. -/
def olderHeaders : List Bytes :=
  [plainHeader "l" "0" 50, plainHeader "./a" "0" 48, plainHeader "b/x" "0" 48,
    plainHeader "d/c" "0" 48]

/-- A header of an empty member, as far as it is read. -/
def EmptyHeader (header : Bytes) : Prop :=
  header.length = tarBlockSize ∧ nameField header ≠ [] ∧ (nameField header).length < 100 ∧
    (typeflag header = 0 ∨ 48 ≤ typeflag header ∧ typeflag header ≤ 55) ∧
    field header 124 12 = 48 :: List.replicate 11 0

instance (header : Bytes) : Decidable (EmptyHeader header) :=
  inferInstanceAs (Decidable (_ ∧ _ ∧ _ ∧ _ ∧ _))

/-- Headers of empty members make an archive. -/
lemma archive_of_emptyHeaders (each : ∀ header ∈ headers, EmptyHeader header)
    : Archive (emptyMembers headers) 0 headers := by
  apply archive_emptyMembers
  intro header member
  obtain ⟨whole, some_, short, type, digits⟩ := each header member
  have octal : ∀ digit ∈ [48], isOctal digit = true := forall_mem_singleton.mpr rfl
  have size : UstarHeader header 0 :=
    ⟨⟨some_, short⟩, type, ⟨[48], 0, List.replicate 10 0, digits, octal, Or.inl rfl, rfl⟩,
      Nat.two_pow_pos 32⟩
  exact ⟨whole, size⟩

/-- Two layers: `a` is served from the newer one, `d/c` from the older one, what was beneath `b` is
deleted, and the link `l` is not served. -/
theorem servedFrom_two_layers :
    ∃ ctx, tarFsInit plainTarget [emptyMembers newerHeaders, emptyMembers olderHeaders] = .ok ctx ∧
      servedFrom ctx [ascii "a"] = some 0 ∧ servedFrom ctx [ascii "d", ascii "c"] = some 1 ∧
      servedFrom ctx [ascii "b", ascii "x"] = none ∧ servedFrom ctx [ascii "l"] = none := by
  have items : [newerHeaders, olderHeaders].map layerItems =
      [[.file [ascii "a"], .whiteout [ascii "b"]],
        [.file [ascii "a"], .file [ascii "b", ascii "x"], .file [ascii "d", ascii "c"]]] := by
    decide +kernel
  have newer : Archive (emptyMembers newerHeaders) 0 newerHeaders :=
    archive_of_emptyHeaders (by decide +kernel)
  have older : Archive (emptyMembers olderHeaders) 0 olderHeaders :=
    archive_of_emptyHeaders (by decide +kernel)
  have named : ∀ headers ∈ [newerHeaders, olderHeaders], ∀ header ∈ headers, WellNamed header := by
    decide +kernel
  have flat : Flat ([newerHeaders, olderHeaders].map layerItems) := by
    rw [items]
    refine pairwise_pair.mpr ?_
    intro own path inNewer inOlder
    obtain rfl : own = [ascii "a"] := by simpa using inNewer
    have among : path ∈ [[ascii "a"], [ascii "b", ascii "x"], [ascii "d", ascii "c"]] := by
      simpa using inOlder
    have apart : ∀ path ∈ [[ascii "a"], [ascii "b", ascii "x"], [ascii "d", ascii "c"]],
        ¬ Above [ascii "a"] path := by decide
    exact apart path among
  obtain ⟨ctx, made, served⟩ := servedFrom_eq_merged plainTarget (fun _ => rfl)
    [emptyMembers newerHeaders, emptyMembers olderHeaders] [newerHeaders, olderHeaders]
    (.cons newer (.cons older .nil)) ⟨by simp, by decide⟩ named flat (by rw [items]; decide)
    (by decide +kernel)
  refine ⟨ctx, made, ?_, ?_, ?_, ?_⟩
  · rw [served _ (by decide)]
    decide
  · rw [served _ (by decide)]
    decide
  · rw [served _ (by decide)]
    decide
  · rw [served _ (by decide)]
    decide

/-- The headers of a layer with one member `a` of a type. -/
def aboveHeaders (type : UInt8) : List Bytes := [plainHeader "a" "0" type]

/-- The headers of a layer with a file `a/b`. -/
def beneathHeaders : List Bytes := [plainHeader "a/b" "0" 48]

/-- What is served of `a` and `a/b` from a layer with a member `a` over a layer with a file
`a/b`. -/
def servedOver (type : UInt8) : Option (Option Nat × Option Nat) :=
  (tarFsInit plainTarget
    [emptyMembers (aboveHeaders type), emptyMembers beneathHeaders]).toOption.map fun ctx =>
      (servedFrom ctx [ascii "a"], servedFrom ctx [ascii "a", ascii "b"])

/-- A link `a` over an older layer with a file `a/b`: the link is not served, and `a/b` is still
there, where a tree with `a` in it has nothing beneath. It is the same with a file `a`. -/
theorem link_hides_nothing :
    (∀ type ∈ [48, 50], Archive (emptyMembers (aboveHeaders type)) 0 (aboveHeaders type)) ∧
      Archive (emptyMembers beneathHeaders) 0 beneathHeaders ∧
      servedOver 50 = some (none, some 1) ∧ servedOver 48 = some (some 0, some 1) ∧
      merged [[.file [ascii "a"]], layerItems beneathHeaders] [ascii "a", ascii "b"] = none := by
  have headers : ∀ type ∈ [48, 50], ∀ header ∈ aboveHeaders type, EmptyHeader header := by
    decide +kernel
  refine ⟨?_, archive_of_emptyHeaders (by decide +kernel), by decide +kernel, by decide +kernel,
    by decide +kernel⟩
  intro type member
  exact archive_of_emptyHeaders (headers type member)

end WantedEngine.Vfs
