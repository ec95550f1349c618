import WantedEngine.Errno
import WantedEngine.Foundation.Codec
/-!
# Entry records of the registry

An installed image is one record: the layers it holds and what each hashes to, when it was
installed, and the signature over them (`registry-meta.h`). `registry-record.c` writes a
record field after field in little-endian order and reads two forms, the current one and the
structure dump of older firmware. A record that was written is read back whole.
-/
namespace WantedEngine.Registry

open Foundation List Option

/-- What a build fixes: `CONFIG_WANTED_MAX_LAYERS` and `CONFIG_WANTED_MAX_WAPPS`. -/
structure Config where
  /-- `REGISTRY_META_MAX_LAYERS`. -/
  maxLayers : Nat
  /-- An image has at least one layer. -/
  maxLayers_pos : 0 < maxLayers
  /-- `REGISTRY_RECORD_ABS_MAX_LAYERS` bounds every build. -/
  maxLayers_le : maxLayers ≤ 16
  /-- Wapps the engine runs at once, the supervisor included. -/
  maxWapps : Nat
  /-- The supervisor takes a slot. -/
  maxWapps_pos : 0 < maxWapps

/-- A SHA-256 digest: `REGISTRY_META_DIGEST_LEN` bytes. -/
abbrev Digest := FixedBytes 32

instance : LawfulBEq Digest := inferInstance

/-- A signature: `REGISTRY_META_SIG_LEN` bytes. -/
abbrev Signature := FixedBytes 64

/-- `registry_key_t`: the name and the version of an entry. -/
structure Key where
  name : Bytes
  /-- The version, empty in a bare reference. -/
  version : Bytes
  deriving DecidableEq

/-- One layer of a record: its length and its digest. -/
structure Layer where
  len : UInt32
  digest : Digest
  deriving DecidableEq

/-- `REGISTRY_META_SEEDED`: a firmware-carried image. -/
def metaSeeded : UInt8 := 0x01
/-- `REGISTRY_META_SIGNED`: the record carries a signature. -/
def metaSigned : UInt8 := 0x02
/-- `REGISTRY_META_CLOCK_UNSET`: the clock was not valid at install. -/
def metaClockUnset : UInt8 := 0x04

/-- `registry_meta_t`: layers run base-first. -/
structure Meta where
  /-- The total of the layer lengths. -/
  size : UInt32
  /-- The key that signed the record. -/
  keyId : UInt32
  /-- The order of installs, the highest being newest. -/
  installSeq : UInt32
  /-- When it was installed: Unix seconds as 64 bits, zero when unknown. -/
  installed : UInt64
  /-- When the image was built: Unix seconds as 64 bits, zero when unknown. -/
  created : UInt64
  /-- Seeded, signed, clock unset. -/
  flags : UInt8
  /-- `layerCount` lengths and digests. -/
  layers : List Layer
  /-- The signature over name, version and digests. -/
  signature : Signature
  deriving DecidableEq

/-- The digests a record lists, base-first. -/
def Meta.digests (record : Meta) : List Digest := record.layers.map Layer.digest

def Meta.has (record : Meta) (flag : UInt8) : Bool := record.flags &&& flag ≠ 0

/-- `REGISTRY_META_MAGIC`, "WAP4". -/
def registryMetaMagic : Nat := 0x57415034
/-- `REGISTRY_META_MAGIC_V3`, "WAP3". -/
def registryMetaMagicV3 : Nat := 0x57415033
/-- `REGISTRY_RECORD_MAX`: the longest record any build writes. -/
def registryRecordMax : Nat := 36 + 16 * 36 + 64

/-- A signature of zeros, as `memset` leaves it. -/
def Signature.zero : Signature := ⟨List.replicate 64 0, length_replicate⟩

def encodeLayer (layer : Layer) : Bytes := littleEndian 4 layer.len.toNat ++ layer.digest.val

/-- `RegistryRecordEncode`: the stored form, or none where the source returns 0. The room is
the registry's record buffer. -/
def registryRecordEncode (cfg : Config) (record : Meta) : Option Bytes :=
  if cfg.maxLayers < record.layers.length then none
  else if registryRecordMax < 36 + record.layers.length * 36 + 64 then none
  else
    some (littleEndian 4 registryMetaMagic ++
      (record.flags :: record.layers.length.toUInt8 :: (littleEndian 2 0 ++
      (littleEndian 4 record.keyId.toNat ++ (littleEndian 4 record.installSeq.toNat ++
      (littleEndian 4 record.size.toNat ++ (littleEndian 8 record.installed.toNat ++
      (littleEndian 8 record.created.toNat ++ (record.layers.flatMap encodeLayer ++
      record.signature.val)))))))))

def readLayer : Reader Layer := fun bytes => do
  let (len, bytes) ← readNat 4 bytes
  let (digest, bytes) ← readFixed 32 bytes
  some (⟨len.toUInt32, digest⟩, bytes)

/-- `decodeV3`, after the magic: size, key id, layer count, flags, two pad bytes, a digest for
each layer slot, the signature. -/
def decodeV3 (cfg : Config) (bytes : Bytes) : Option Meta := do
  let (size, bytes) ← readNat 4 bytes
  let (keyId, bytes) ← readNat 4 bytes
  let (count, bytes) ← readByte bytes
  let (flags, bytes) ← readByte bytes
  let (_, bytes) ← readBytes 2 bytes
  let (slots, bytes) ← readMany (readFixed 32) cfg.maxLayers bytes
  let (signature, _) ← readFixed 64 bytes
  if cfg.maxLayers < count.toNat then none
  else
    -- Only a one-layer dump says how long its layer is.
    let len : UInt32 := if count = 1 then size.toUInt32 else 0
    some
      { size := size.toUInt32, keyId := keyId.toUInt32, installSeq := 0, installed := 0
        created := 0, flags := flags ||| metaClockUnset
        layers := (slots.take count.toNat).map fun digest => ⟨len, digest⟩
        signature }

/-- The current form after the magic. -/
def decodeV4 (cfg : Config) (bytes : Bytes) : Option Meta := do
  let (flags, bytes) ← readByte bytes
  let (count, bytes) ← readByte bytes
  let (_, bytes) ← readBytes 2 bytes
  let (keyId, bytes) ← readNat 4 bytes
  let (installSeq, bytes) ← readNat 4 bytes
  let (size, bytes) ← readNat 4 bytes
  let (installed, bytes) ← readNat 8 bytes
  let (created, bytes) ← readNat 8 bytes
  if cfg.maxLayers < count.toNat then none
  else
    let (layers, bytes) ← readMany readLayer count.toNat bytes
    let (signature, _) ← readFixed 64 bytes
    some
      { size := size.toUInt32, keyId := keyId.toUInt32, installSeq := installSeq.toUInt32
        installed := installed.toUInt64, created := created.toUInt64, flags, layers, signature }

/-- `RegistryRecordDecode`: none for a short record, an unknown magic, or more layers than
this build holds. -/
def registryRecordDecode (cfg : Config) (bytes : Bytes) : Option Meta := do
  let (magic, bytes) ← readNat 4 bytes
  if magic = registryMetaMagicV3 then decodeV3 cfg bytes
  else if magic ≠ registryMetaMagic then none
  else decodeV4 cfg bytes

/-- A layer that was written is read back. -/
lemma readLayer_encodeLayer (layer : Layer) (rest : Bytes) :
    readLayer (encodeLayer layer ++ rest) = some (layer, rest) := by
  have fits : layer.len.toNat < 256 ^ 4 := layer.len.toNat_lt
  simp [readLayer, encodeLayer, readNat_littleEndian_append fits, readFixed_append]

variable {cfg : Config}

lemma registryRecordDecode_encode {record : Meta} {bytes : Bytes}
    (encoded : registryRecordEncode cfg record = some bytes) :
    registryRecordDecode cfg bytes = some record := by
  simp only [registryRecordEncode] at encoded
  split at encoded
  · cases encoded
  rename_i few
  split at encoded
  · cases encoded
  cases encoded
  have small : record.layers.length < 256 := by
    have := cfg.maxLayers_le
    omega
  have count : record.layers.length.toUInt8.toNat = record.layers.length := by
    simp [Nat.mod_eq_of_lt small]
  have keyId : record.keyId.toNat < 256 ^ 4 := record.keyId.toNat_lt
  have installSeq : record.installSeq.toNat < 256 ^ 4 := record.installSeq.toNat_lt
  have size : record.size.toNat < 256 ^ 4 := record.size.toNat_lt
  have installed : record.installed.toNat < 256 ^ 8 := record.installed.toNat_lt
  have created : record.created.toNat < 256 ^ 8 := record.created.toNat_lt
  have magic : registryMetaMagic < 256 ^ 4 := by decide
  have other : registryMetaMagic ≠ registryMetaMagicV3 := by decide
  have layers := readMany_flatMap record.layers
    (fun layer _ => readLayer_encodeLayer layer) record.signature.val
  have signature := readFixed_append record.signature []
  rw [append_nil] at signature
  simp only [registryRecordDecode, decodeV4, readNat_littleEndian_append magic,
    readNat_littleEndian_append keyId, readNat_littleEndian_append installSeq,
    readNat_littleEndian_append size, readNat_littleEndian_append installed,
    readNat_littleEndian_append created, readBytes_append (littleEndian_length 2 0),
    readByte_cons, bind_eq_bind, bind_some, count, layers, signature,
    if_neg other, if_neg few]
  simp

lemma registryRecordDecode_layers {bytes : Bytes} {record : Meta}
    (decoded : registryRecordDecode cfg bytes = some record) :
    record.layers.length ≤ cfg.maxLayers := by
  simp only [registryRecordDecode, bind_eq_bind, bind_eq_some_iff] at decoded
  obtain ⟨⟨_, bytes⟩, -, decoded⟩ := decoded
  split at decoded
  · simp only [decodeV3, bind_eq_bind, bind_eq_some_iff] at decoded
    obtain ⟨⟨_, _⟩, -, ⟨_, _⟩, -, ⟨count, _⟩, -, ⟨_, _⟩, -, ⟨_, _⟩, -, ⟨_, _⟩, read, ⟨_, _⟩, -,
      decoded⟩ := decoded
    split at decoded
    · cases decoded
    cases decoded
    have := readMany_length read
    simp only [length_map, length_take]
    omega
  · split at decoded
    · cases decoded
    simp only [decodeV4, bind_eq_bind, bind_eq_some_iff] at decoded
    obtain ⟨⟨_, _⟩, -, ⟨count, _⟩, -, ⟨_, _⟩, -, ⟨_, _⟩, -, ⟨_, _⟩, -, ⟨_, _⟩, -, ⟨_, _⟩, -,
      ⟨_, _⟩, -, decoded⟩ := decoded
    dsimp only at decoded
    split at decoded
    · cases decoded
    simp only [bind_eq_some_iff] at decoded
    obtain ⟨⟨layers, _⟩, read, ⟨_, _⟩, -, decoded⟩ := decoded
    cases decoded
    have := readMany_length read
    dsimp only
    omega

end WantedEngine.Registry
