import WantedEngine.Vfs.TarBounds
/-!
# That a scan ends

`indexLayer` loops over the headers of a layer, and `parsePaxData` over the records of a PAX header.
The header loop moves by a block or more in every round. A record moves the record loop on iff
its offset and its length together fit `size_t`: the sum is not checked, and one that wraps leads back.
-/
namespace WantedEngine.Vfs

variable {host : TarHost} {layerIdx sortedLen size : Nat} {bytes data : Bytes} {s next : Scan} {c : TarCtx}

/-! ### Records -/

/-- The number in the value of a PAX record, or at the start of one. -/
def decimalNumber (value : Bytes) : Nat :=
  (value.takeWhile isDecimal).foldl (fun value digit => value * 10 + digitValue digit) 0

/-- A number is read into the bits it is kept in. -/
lemma parseDecimal_eq (bits : Nat) (value : Bytes) :
    parseDecimal bits value = decimalNumber value % 2 ^ bits := by
  have wraps := Foundation.foldl_wraps 10 (2 ^ bits) digitValue (value.takeWhile isDecimal) 0
  rwa [Nat.zero_mod] at wraps

/-- The records that the loop over the data of a PAX header comes to, by their offsets. -/
inductive Visits (sizeBits : Nat) (data : Bytes) : Nat → Prop where
  | start : Visits sizeBits data 0
  | next {pos after : Nat} {overrides set : PaxOverrides} (visited : Visits sizeBits data pos)
      (inside : pos < data.length)
      (record : paxRecord sizeBits data pos overrides = some (after, set)) : Visits sizeBits data after

/-- The length of the record at an offset does not wrap when it is added to the offset. -/
def Fits (sizeBits : Nat) (data : Bytes) (pos : Nat) : Prop :=
  pos + parseDecimal sizeBits (data.drop pos) < 2 ^ sizeBits

/-- A record moves on iff its length does not wrap, and never past the data. -/
lemma paxRecord_moves {sizeBits pos after : Nat} {overrides set : PaxOverrides}
    (record : paxRecord sizeBits data pos overrides = some (after, set)) :
    (pos < after ↔ Fits sizeBits data pos) ∧ after ≤ data.length := by
  obtain ⟨ends, positive, bound⟩ : after = (pos + parseDecimal sizeBits (data.drop pos)) % 2 ^ sizeBits ∧
      parseDecimal sizeBits (data.drop pos) ≠ 0 ∧ after ≤ data.length := by
    grind [paxRecord]
  have small : parseDecimal sizeBits (data.drop pos) < 2 ^ sizeBits := by
    rw [parseDecimal_eq]
    exact Nat.mod_lt _ (Nat.two_pow_pos _)
  refine ⟨⟨fun later => ?_, fun fits => ?_⟩, bound⟩
  · by_contra wraps
    have back := Nat.mod_le (pos + parseDecimal sizeBits (data.drop pos) - 2 ^ sizeBits) (2 ^ sizeBits)
    rw [← Nat.mod_eq_sub_mod (Nat.le_of_not_lt wraps)] at back
    omega
  · rw [ends, Nat.mod_eq_of_lt fits]
    omega

/-- More rounds than bytes are enough for records that do not wrap. -/
lemma parsePaxData_ends {sizeBits rounds pos : Nat} {overrides : PaxOverrides}
    (fits : ∀ pos overrides after set, Visits sizeBits data pos → pos < data.length →
      paxRecord sizeBits data pos overrides = some (after, set) → Fits sizeBits data pos)
    (visited : Visits sizeBits data pos) (enough : data.length < pos + rounds) :
    pos ≤ data.length → parsePaxData sizeBits data rounds pos overrides ≠ none := by
  induction rounds generalizing pos overrides with
  | zero => omega
  | succ rounds ih =>
    intro within
    rw [parsePaxData]
    split
    · rename_i inside
      split
      · nofun
      rename_i after set record
      obtain ⟨moves, bound⟩ := paxRecord_moves record
      have later := moves.mpr (fits pos overrides after set visited inside record)
      exact ih (visited.next inside record) (by omega) bound
    · nofun

/-! ### Headers -/

lemma scanMember_off : Results (fun next => next.off = nextOff s.off size)
    (scanMember host layerIdx sortedLen bytes s size) := by
  refine draftEntry_keeps.bind fun ⟨found, c⟩ kept => ?_
  dsimp only
  split
  · exact .ok rfl
  split
  · exact .ok rfl
  · exact addEntry_adds.bind fun ctx added => .ok rfl

/-- Every round that goes on starts at a whole header and moves by a block or more. -/
lemma scanStep_advances (ok : scanStep host layerIdx sortedLen bytes s = .ok next) :
    next.stopped = true ∨ s.off + 512 ≤ bytes.length ∧ s.off + 512 ≤ next.off := by
  have moves (size : Nat) : s.off + 512 ≤ nextOff s.off size := Nat.le_add_right ..
  rw [scanStep] at ok
  by_cases short : bytes.length < s.off + tarBlockSize
  · rw [headerKind, if_pos short] at ok
    cases ok
    exact .inl rfl
  have whole := Nat.le_of_not_lt short
  split at ok
  · cases ok
    exact .inl rfl
  · split at ok
    · cases ok
      exact .inl rfl
    · cases ok
      exact .inr ⟨whole, le_rfl⟩
  · exact .inr ⟨whole, (moves _).trans_eq (scanPax_keeps next ok).2.symm⟩
  · cases ok
    exact .inr ⟨whole, moves _⟩
  · cases ok
    exact .inr ⟨whole, moves _⟩
  · exact .inr ⟨whole, (moves _).trans_eq (scanMember_off next ok).symm⟩

/-- The rounds left reach past the end of the layer. -/
lemma scanRounds_stops {rounds : Nat}
    (enough : s.stopped = true ∨ 0 < rounds ∧ bytes.length < s.off + 512 * rounds)
    (ok : scanRounds host layerIdx sortedLen bytes rounds s = .ok next) : next.stopped = true := by
  induction rounds generalizing s with
  | zero =>
    cases ok
    exact enough.resolve_right (fun left => left.1.false)
  | succ rounds ih =>
    rw [scanRounds] at ok
    split at ok
    · cases ok
      assumption
    rename_i running
    obtain ⟨_, stepped, rest⟩ := bind_eq_ok ok
    refine ih ((scanStep_advances stepped).imp_right fun advanced => ?_) rest
    obtain ⟨whole, later⟩ := advanced
    have left := (enough.resolve_left running).2
    omega

/-! ### Whole layers -/

/-- A computation that comes to an end, whatever the end is. -/
def Ends {α : Type} (m : Except Halt α) : Prop := m ≠ .error .endless

lemma Ends.bind {α β : Type} {first : Except Halt α} {rest : α → Except Halt β} (made : Ends first)
    (then_ : ∀ value, first = .ok value → Ends (rest value)) : Ends (first >>= rest) := by
  cases first with
  | error halt =>
    intro same
    cases same
    exact made rfl
  | ok value => exact then_ value rfl

lemma Ends.ok {α : Type} (value : α) : Ends (.ok value) := by
  simp [Ends]

lemma allocate_ends : Ends (allocate host c) := by
  grind [allocate, Ends]

lemma internPath_ends {len : Nat} : Ends (internPath host c len) := by
  rw [internPath]
  split
  · exact allocate_ends.bind fun after _ => by grind [Ends]
  · exact .ok _

lemma draftEntry_ends : Ends (draftEntry host layerIdx bytes s) := by
  have path : Ends (memberPath host bytes s) := by
    have joined := @internPath_ends host s.ctx (joinedName (headerAt bytes s.off)).length
    grind [memberPath, Ends.bind, Ends]
  refine path.bind fun named _ => ?_
  obtain ⟨path, c⟩ := named
  have owned (c : TarCtx) : Ends (rememberOwned host c) := by
    grind [rememberOwned, Ends.bind, Ends, @allocate_ends host c]
  have classified (path : TarPath) : Ends (classify host layerIdx path c) := by
    rw [classify]
    split_ifs
    · exact .ok _
    · exact allocate_ends.bind fun c _ => (owned c).bind fun _ _ => .ok _
    · exact .ok _
    · simp [Ends]
  grind [Ends.bind, Ends]

lemma addEntry_ends {found : Draft} {off : Nat} : Ends (addEntry host layerIdx found off size c) := by
  have grown : Ends (growIndex host c) := allocate_ends.bind fun after _ => by grind [Ends]
  have room : Ends (makeRoom host c) := by grind [makeRoom, Ends]
  exact room.bind fun _ _ => .ok _

/-- A round ends when the records of its PAX header do. -/
lemma scanStep_ends (records : ∀ size, headerKind bytes s.off = .pax size → ∀ overrides,
      parsePaxData host.sizeBits (dataAt bytes s.off size) host.rounds 0 overrides ≠ none) :
    Ends (scanStep host layerIdx sortedLen bytes s) := by
  rw [scanStep]
  split
  · exact .ok _
  · split
    · exact .ok _
    · exact .ok _
  · rename_i size kind
    rw [scanPax]
    split
    · rename_i endless
      exact absurd endless (records size kind _)
    dsimp only
    split
    · exact .ok _
    split
    · exact .ok _
    · exact internPath_ends.bind fun _ _ => .ok _
  · exact .ok _
  · exact .ok _
  · refine draftEntry_ends.bind fun drafted _ => ?_
    obtain ⟨found, c⟩ := drafted
    dsimp only
    split
    · exact .ok _
    split
    · exact .ok _
    · exact addEntry_ends.bind fun _ _ => .ok _

/-- The states that the header loop comes to. -/
inductive Scanned (host : TarHost) (layerIdx : Nat) (bytes : Bytes) (c : TarCtx) : Scan → Prop where
  | start : Scanned host layerIdx bytes c (scanStart c)
  | step {s next : Scan} (reached : Scanned host layerIdx bytes c s) (running : s.stopped = false)
      (ok : scanStep host layerIdx c.index.length bytes s = .ok next) : Scanned host layerIdx bytes c next

/-- Each record that the scan of a layer comes to, with the data it lies in, its offset and that of the
next one. -/
def EachRecord (host : TarHost) (layerIdx : Nat) (bytes : Bytes) (c : TarCtx)
    (holds : Bytes → Nat → Nat → Prop) : Prop :=
  ∀ s size, Scanned host layerIdx bytes c s → s.stopped = false → headerKind bytes s.off = .pax size →
    ∀ pos overrides after set, Visits host.sizeBits (dataAt bytes s.off size) pos →
      pos < (dataAt bytes s.off size).length →
      paxRecord host.sizeBits (dataAt bytes s.off size) pos overrides = some (after, set) →
      holds (dataAt bytes s.off size) pos after

/-- A PAX header with two records. -/
def wrappedLayer : Bytes := plainHeader "x" "32" 120 ++ ascii "5 a=\n18446744073709551611 "

end WantedEngine.Vfs
