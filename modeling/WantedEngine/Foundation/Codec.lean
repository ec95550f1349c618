import Mathlib.Algebra.GroupWithZero.Nat
import Mathlib.Data.List.Basic
/-!
# Little-endian fields of byte records

Records are written as byte strings, field after field, with numbers in little-endian order.
A reader takes one field off the front of a byte string and returns the bytes after it, or
fails when there are too few. Each writer is undone by its reader in front of any bytes; a
record's round trip is a chain of these laws.
-/
namespace WantedEngine.Foundation

open List

/-- Digits read with a cut after each are the number they write, cut once. -/
lemma foldl_wraps {α : Type*} (base cut : Nat) (value : α → Nat) (digits : List α) (start : Nat) :
    digits.foldl (fun n digit => (n * base + value digit) % cut) (start % cut) =
      digits.foldl (fun n digit => n * base + value digit) start % cut := by
  induction digits generalizing start with
  | nil => rfl
  | cons digit rest ih =>
    rw [foldl_cons, foldl_cons, ← ih]
    simp [Nat.add_mod, Nat.mul_mod]

/-- `count` little-endian bytes of a number. -/
def littleEndian : (count : Nat) → Nat → List UInt8
  | 0, _ => []
  | count + 1, n => (n % 256).toUInt8 :: littleEndian count (n / 256)

/-- The number of little-endian bytes. -/
def fromLittleEndian : List UInt8 → Nat
  | [] => 0
  | byte :: rest => byte.toNat + 256 * fromLittleEndian rest

@[simp] lemma littleEndian_length (count n : Nat) : (littleEndian count n).length = count := by
  induction count generalizing n with
  | zero => rfl
  | succ count ih => simp [littleEndian, ih]

/-- The bytes of a number that fits give back the number. -/
lemma fromLittleEndian_littleEndian {count n : Nat} (fits : n < 256 ^ count) :
    fromLittleEndian (littleEndian count n) = n := by
  induction count generalizing n with
  | zero =>
    simp only [Nat.pow_zero, Nat.lt_one_iff] at fits
    simp [littleEndian, fromLittleEndian, fits]
  | succ count ih =>
    have quotient : n / 256 < 256 ^ count := by
      exact Nat.div_lt_of_lt_mul (by rw [Nat.mul_comm]; exact fits)
    have digit : (n % 256).toUInt8.toNat = n % 256 := by
      simp [Nat.toUInt8]
    rw [littleEndian, fromLittleEndian, ih quotient]
    omega

abbrev FixedBytes (count : Nat) := { bytes : List UInt8 // bytes.length = count }

/-- A reader of one field: the field and the bytes after it. -/
abbrev Reader (α : Type) := List UInt8 → Option (α × List UInt8)

def readBytes (count : Nat) : Reader (List UInt8) := fun bytes =>
  if count ≤ bytes.length then some (bytes.take count, bytes.drop count) else none

/-- Read a little-endian number. -/
def readNat (count : Nat) : Reader Nat := fun bytes =>
  (readBytes count bytes).map fun read => (fromLittleEndian read.1, read.2)

/-- Read a byte string of a fixed length. -/
def readFixed (count : Nat) : Reader (FixedBytes count) := fun bytes =>
  if enough : count ≤ bytes.length then
    some (⟨bytes.take count, by simp [enough]⟩, bytes.drop count)
  else none

def readByte : Reader UInt8
  | [] => none
  | byte :: rest => some (byte, rest)

/-- Read a number of fields of one kind. -/
def readMany {α : Type} (field : Reader α) : Nat → Reader (List α)
  | 0, bytes => some ([], bytes)
  | count + 1, bytes =>
    match field bytes with
    | none => none
    | some (first, rest) =>
      match readMany field count rest with
      | none => none
      | some (others, after) => some (first :: others, after)

@[simp] lemma readByte_cons (byte : UInt8) (rest : List UInt8) :
    readByte (byte :: rest) = some (byte, rest) := rfl

variable {count : Nat}

/-- Reading as many bytes as were put in front returns them. -/
lemma readBytes_append {front : List UInt8} (exactly : front.length = count) (rest : List UInt8)
    : readBytes count (front ++ rest) = some (front, rest) := by
  subst exactly
  simp [readBytes]

/-- Reading a byte string of a fixed length returns it. -/
lemma readFixed_append (front : FixedBytes count) (rest : List UInt8) :
    readFixed count (front.val ++ rest) = some (front, rest) := by
  obtain ⟨front, exactly⟩ := front
  subst exactly
  simp [readFixed]

/-- Reading the bytes of a number that fits returns the number. -/
lemma readNat_littleEndian_append {count n : Nat} (fits : n < 256 ^ count) (rest : List UInt8)
    : readNat count (littleEndian count n ++ rest) = some (n, rest) := by
  rw [readNat, readBytes_append (littleEndian_length count n), Option.map_some,
    fromLittleEndian_littleEndian fits]

/-- Reading the encodings of some fields returns the fields when each field is read back. -/
lemma readMany_flatMap {α : Type} {field : Reader α} {encode : α → List UInt8} (values : List α)
    (each : ∀ value ∈ values, ∀ rest, field (encode value ++ rest) = some (value, rest))
    (rest : List UInt8) :
    readMany field values.length (values.flatMap encode ++ rest) = some (values, rest) := by
  induction values with
  | nil => rfl
  | cons value others ih =>
    have first := each value mem_cons_self (others.flatMap encode ++ rest)
    have later := ih fun other mem => each other (mem_cons_of_mem _ mem)
    rw [flatMap_cons, append_assoc, length_cons, readMany, first]
    dsimp only
    rw [later]

/-- As many fields are read as were asked for. -/
lemma readMany_length {α : Type} {field : Reader α} {bytes : List UInt8} {values : List α}
    {rest : List UInt8} (read : readMany field count bytes = some (values, rest))
    : values.length = count := by
  induction count generalizing bytes values rest with
  | zero =>
    simp only [readMany, Option.some.injEq, Prod.mk.injEq] at read
    simp [← read.1]
  | succ count ih =>
    simp only [readMany] at read
    split at read
    · cases read
    split at read
    · cases read
    rename_i found
    simp only [Option.some.injEq, Prod.mk.injEq] at read
    rw [← read.1, length_cons, ih found]

/-- A field behind its length is told apart from what follows it. -/
lemma framed_inj {a b rest rest' : List UInt8} (short : a.length < 256) (short' : b.length < 256)
    (same : a.length.toUInt8 :: (a ++ rest) = b.length.toUInt8 :: (b ++ rest')) :
    a = b ∧ rest = rest' := by
  obtain ⟨sizes, bytes⟩ := cons.inj same
  have lengths := congrArg UInt8.toNat sizes
  simp only [UInt8.toNat_ofNat', Nat.mod_eq_of_lt short, Nat.mod_eq_of_lt short']
    at lengths
  exact append_inj bytes lengths

/-- Fields of one length are told apart by their bytes together. -/
lemma flatMap_val_inj (positive : 0 < count) {fields fields' : List (FixedBytes count)}
    (same : fields.flatMap Subtype.val = fields'.flatMap Subtype.val) : fields = fields' := by
  induction fields generalizing fields' with
  | nil =>
    cases fields' with
    | nil => rfl
    | cons field rest =>
      have none := congrArg length same
      simp [field.property] at none
      omega
  | cons field rest ih =>
    cases fields' with
    | nil =>
      have none := congrArg length same
      simp [field.property] at none
      omega
    | cons field' rest' =>
      obtain ⟨first, others⟩ := append_inj same (field.property.trans field'.property.symm)
      rw [Subtype.ext first, ih others]

end WantedEngine.Foundation
