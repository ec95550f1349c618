import WantedEngine.Foundation.Codec
import WantedEngine.Vfs.TarIndex
/-!
# Headers of an archive

How `vfs-tarfs.c` reads one 512-byte header of a layer: the octal size, the kind of the header,
the records of a PAX header, and the path a header names. The bytes are arbitrary; every number
is one that the layer's author chose.

`size_t` has `sizeBits` bits, and the record lengths of a PAX header wrap there; the loop over the
records is given a number of rounds, because a record length that wraps can lead back to an
earlier record. Offsets into a layer are natural numbers: a layer lies in memory and ends before
the last kilobyte of the address space.
-/
namespace WantedEngine.Vfs

def tarBlockSize : Nat := 512

def field (bytes : Bytes) (offset length : Nat) : Bytes := (bytes.drop offset).take length

/-- One byte; past the end there is none to read, and zero stands for it. -/
def byteAt (bytes : Bytes) (place : Nat) : UInt8 := bytes.getD place 0

/-- The digits `0` to `7`. -/
def isOctal (byte : UInt8) : Bool := 48 ≤ byte ∧ byte ≤ 55

/-- The digits `0` to `9`. -/
def isDecimal (byte : UInt8) : Bool := 48 ≤ byte ∧ byte ≤ 57

def digitValue (byte : UInt8) : Nat := byte.toNat - 48

/-- `parseOctal`: the leading octal digits, shifted into 32 bits. -/
def parseOctal (bytes : Bytes) : Nat :=
  (bytes.takeWhile isOctal).foldl (fun value digit => value * 8 % 2 ^ 32 + digitValue digit) 0

def parseDecimal (bits : Nat) (bytes : Bytes) : Nat :=
  (bytes.takeWhile isDecimal).foldl (fun value digit => (value * 10 + digitValue digit) % 2 ^ bits) 0

def alignUp512 (size : Nat) : Nat := (size + (tarBlockSize - 1)) / tarBlockSize * tarBlockSize

def isZeroBlock (block : Bytes) : Bool := block.all (· = 0)

/-! ### The kind of a header -/

/-- What the loop of `indexLayer` finds at an offset. -/
inductive HeaderKind where
  /-- No whole header is left, or its data would leave the layer. -/
  | ending
  | zero
  /-- A PAX header of the next member. -/
  | pax (size : Nat)
  /-- A GNU long name of the next member. -/
  | longName (size : Nat)
  /-- A global PAX header or a GNU long link name. -/
  | unused (size : Nat)
  /-- A member, with the size its header gives. -/
  | member (size : Nat)
  deriving DecidableEq

def headerAt (bytes : Bytes) (off : Nat) : Bytes := field bytes off tarBlockSize

/-- `typeflag` of a header. -/
def typeflag (header : Bytes) : UInt8 := byteAt header 156

def headerSize (header : Bytes) : Nat := parseOctal (field header 124 12)

/-- The tests at the head of the loop of `indexLayer`. -/
def headerKind (bytes : Bytes) (off : Nat) : HeaderKind :=
  if bytes.length < off + tarBlockSize then .ending
  else
    let header := headerAt bytes off
    let size := headerSize header
    if isZeroBlock header then .zero
    else if bytes.length - off - tarBlockSize < size then .ending
    else if typeflag header = 120 then .pax size
    else if typeflag header = 103 ∨ typeflag header = 75 then .unused size
    else if typeflag header = 76 then .longName size
    else .member size

/-- The offset of the header after one with so much data. -/
def nextOff (off size : Nat) : Nat := off + tarBlockSize + alignUp512 size

def dataAt (bytes : Bytes) (off size : Nat) : Bytes := field bytes (off + tarBlockSize) size

/-! ### PAX records -/

/-- What a PAX header sets for the next member. -/
structure PaxOverrides where
  path : Option Bytes
  size : Nat
  deriving DecidableEq

/-- The effect of one record. -/
def PaxOverrides.set (overrides : PaxOverrides) (key value : Bytes) : PaxOverrides :=
  if key = ascii "path" then { overrides with path := some value }
  else if key = ascii "size" then { overrides with size := parseDecimal 32 value }
  else overrides

/-- One record of `parsePaxData`: where the next one starts and what is set by then, or nothing
when the loop ends here. -/
def paxRecord (sizeBits : Nat) (data : Bytes) (pos : Nat) (overrides : PaxOverrides) :
    Option (Nat × PaxOverrides) :=
  let recLen := parseDecimal sizeBits (data.drop pos)
  let blank := pos + ((data.drop pos).takeWhile isDecimal).length
  if recLen = 0 ∨ data.length ≤ blank ∨ byteAt data blank ≠ 32 then none
  else
    let recEnd := (pos + recLen) % 2 ^ sizeBits
    if data.length < recEnd then none
    else
      let key := ((data.take recEnd).drop (blank + 1)).takeWhile fun byte => byte ≠ 61 ∧ byte ≠ 10
      let equals := blank + 1 + key.length
      if recEnd ≤ equals ∨ byteAt data equals ≠ 61 then some (recEnd, overrides)
      else
        let valueLen := if equals + 1 < recEnd - 1 then recEnd - 1 - (equals + 1) else 0
        some (recEnd, overrides.set key (field data (equals + 1) valueLen))

/-- The loop of `parsePaxData`. Without a result it does not end within its rounds. -/
def parsePaxData (sizeBits : Nat) (data : Bytes) : Nat → Nat → PaxOverrides → Option PaxOverrides
  | 0, _, _ => none
  | rounds + 1, pos, overrides =>
    if pos < data.length then
      match paxRecord sizeBits data pos overrides with
      | none => some overrides
      | some (next, after) => parsePaxData sizeBits data rounds next after
    else some overrides

/-! ### Paths -/

/-- Where the bytes of a path lie. -/
inductive PathHome where
  | layer
  | pool
  /-- In a block of their own. -/
  | owned
  deriving DecidableEq

/-- A pointer to a path: the string it leads to. -/
structure TarPath where
  /-- The bytes before the first NUL. -/
  text : Bytes
  home : PathHome
  /-- A NUL follows them. A string in the layer may run on to the end of the layer. -/
  terminated : Bool
  deriving DecidableEq

/-- The length of what is left out at the start of a path: `./` or `/`. -/
def leadLength (path : Bytes) : Nat :=
  if path.take 2 = ascii "./" then 2 else if path.head? = some slash then 1 else 0

/-- The path of a GNU long name: a string that starts in the data. -/
def longNamePath (bytes : Bytes) (off size : Nat) : Option TarPath :=
  let name := cString (dataAt bytes off size)
  if size = 0 ∨ bytes.length ≤ off + tarBlockSize ∨ name.length ≤ leadLength name then none
  else
    let rest := bytes.drop (off + tarBlockSize + leadLength name)
    some ⟨cString rest, .layer, 0 ∈ rest⟩

def nameField (header : Bytes) : Bytes := cString (field header 0 100)

def prefixField (header : Bytes) : Bytes := cString (field header 345 155)

/-- The bytes of a path that `indexLayer` joins from the two fields, when the prefix is there. -/
def joinedName (header : Bytes) : Bytes := prefixField header ++ [slash] ++ nameField header

/-- A header whose name field is empty, or has no NUL. -/
def nameUnusable (header : Bytes) : Bool :=
  (nameField header).length = 100 ∨ nameField header = []

def pathBasename (path : Bytes) : Bytes := (path.reverse.takeWhile (· ≠ slash)).reverse

def opaqueName : Bytes := ascii ".wh..wh..opq"

def isOpaquePath (path : Bytes) : Bool := pathBasename path = opaqueName

def isWhiteoutPath (path : Bytes) : Bool :=
  ¬ isOpaquePath path ∧ (pathBasename path).take 4 = ascii ".wh." ∧ 4 < (pathBasename path).length

/-- `makeWhiteoutTarget`: the path that a whiteout deletes. -/
def makeWhiteoutTarget (path : Bytes) : Bytes :=
  path.take (path.length - (pathBasename path).length) ++ (pathBasename path).drop 4

end WantedEngine.Vfs
