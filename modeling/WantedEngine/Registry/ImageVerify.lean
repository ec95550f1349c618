import WantedEngine.Registry.Lookup
/-!
# Image verification

Every load of a registry image is followed by `WantedImageVerifyGate`: the layers that were mapped are
hashed and compared with the record of the entry, and the signature of the record is verified under a
key that the firmware carries (`wanted-image-verify.c`). The gate reads the record again under the
reference that was asked for. It builds the signed message from that reference, and a bare name has
no version to put in it (`bare_name_verdict_iff`).
-/
namespace WantedEngine.Registry

open Foundation Page

variable {σ : Type} (sys : System σ)

/-- `PLATFORM_ED25519_KEY_LEN` bytes. -/
abbrev PublicKey := FixedBytes 32

/-- What verification takes from the firmware and the platform. -/
structure Verifier where
  /-- The ids and keys that `parseKeyring` finds in `CONFIG_WANTED_IMAGE_SIGNING_KEYS`. -/
  keyring : List (UInt32 × PublicKey)
  /-- Whether `PlatformEd25519Verify` returns 0 for a key, a signature and a message. -/
  ed25519Verify : PublicKey → Signature → Bytes → Bool
  /-- Whether `PlatformSha256New` has a context for the layer at an index. -/
  sha256New : Nat → Bool
  /-- `WantedImageVerifyEnforced`. -/
  enforced : Bool

def keyById (v : Verifier) (id : UInt32) : Option PublicKey :=
  (v.keyring.find? fun key => key.1 = id).map Prod.snd

def signedMessageMax (cfg : Config) : Nat :=
  1 + wappMaxNameLen + 1 + wappMaxVersionLen + 1 + cfg.maxLayers * 32

/-- `WantedImageSignedMessage`: none where it returns 0. -/
def wantedImageSignedMessage (cfg : Config) (entry : Entry) (record : Meta) : Option Bytes :=
  let name := (cString entry.name).take wappMaxNameLen
  let version := (cString entry.version).take wappMaxVersionLen
  let need := 1 + name.length + 1 + version.length + 1 + record.layers.length * 32
  if name = [] ∨ version = [] ∨ record.layers = [] ∨ signedMessageMax cfg < need then none
  else
    some (name.length.toUInt8 :: (name ++ version.length.toUInt8 :: (version ++
      record.layers.length.toUInt8 :: record.digests.flatMap Subtype.val)))

/-- The loop of `digestsMatch`: each layer can be hashed and hashes to its digest. -/
def hashesTo (v : Verifier) (i : Nat) : List Bytes → List Digest → Bool
  | layer :: layers, digest :: digests =>
    v.sha256New i && sys.sha256 layer = digest && hashesTo v (i + 1) layers digests
  | _, _ => true

/-- `digestsMatch`: the layers run topmost-first, the record base-first. -/
def digestsMatch (v : Verifier) (record : Meta) (layers : List Bytes) : Bool :=
  layers ≠ [] ∧ layers.length = record.layers.length ∧ hashesTo sys v 0 layers record.digests.reverse

/-- `image_verify_state_t`. -/
inductive VerifyState where
  | ok | seeded | noRecord | digestMismatch | noSignature | unknownKey | badSignature
  deriving DecidableEq

def wantedImageVerifyErrno : VerifyState → Rc Unit
  | .ok => .ok ()
  | .seeded => .ok ()
  | .noRecord => .error .enoent
  | .digestMismatch => .error .ebadmsg
  | .noSignature => .error .enomsg
  | .unknownKey => .error .eacces
  | .badSignature => .error .eilseq

/-- The checks that `WantedVerifyImage` makes on the record it read. -/
def checkRecord (v : Verifier) (entry : Entry) (record : Meta) (layers : List Bytes) : VerifyState :=
  if record.has metaSeeded then .seeded
  else if !digestsMatch sys v record layers then .digestMismatch
  else if !record.has metaSigned then .noSignature
  else
    match keyById v record.keyId, wantedImageSignedMessage sys.cfg entry record with
    | none, _ => .unknownKey
    | some _, none => .badSignature
    | some key, some message =>
      if v.ed25519Verify key record.signature message then .ok else .badSignature

def wantedVerifyImage (v : Verifier) (r : State σ) (entry : Entry) (layers : List Bytes) :
    VerifyState × State σ :=
  match registryMetaRead sys r entry with
  | (.error _, r) => (.noRecord, r)
  | (.ok record, r) => (checkRecord sys v entry record layers, r)

def wantedImageVerifyGate (v : Verifier) (r : State σ) (entry : Entry) (layers : List Bytes) :
    Rc Unit × State σ :=
  let (state, r) := wantedVerifyImage sys v r entry layers
  if v.enforced then (wantedImageVerifyErrno state, r) else (.ok (), r)

variable {sys} (v : Verifier)

/-- What the image of a reference is found to be. -/
lemma wantedVerifyImage_eq (r : State σ) (entry : Entry) (layers : List Bytes) :
    (wantedVerifyImage sys v r entry layers).1 =
      match resolve sys (ensureReady sys r) (keyFromEntry entry) with
      | .error _ => .noRecord
      | .ok (_, record) => checkRecord sys v entry record layers := by
  show (match ((resolve sys (ensureReady sys r) (keyFromEntry entry)).map Prod.snd, _) with
    | (.error _, r) => ((.noRecord, r) : VerifyState × State σ)
    | (.ok record, r) => (checkRecord sys v entry record layers, r)).1 = _
  cases resolve sys (ensureReady sys r) (keyFromEntry entry) with
  | error e => rfl
  | ok found => rfl

lemma wantedImageVerifyGate_eq (r : State σ) (entry : Entry) (layers : List Bytes) :
    (wantedImageVerifyGate sys v r entry layers).1 =
      if v.enforced then wantedImageVerifyErrno (wantedVerifyImage sys v r entry layers).1
      else .ok () := by
  unfold wantedImageVerifyGate
  dsimp only
  split
  · rfl
  · rfl

/-! ### Bare names -/

/-- The signature of a record verifies, under a key of the keyring, over the message of a reference. -/
structure Verifies (sys : System σ) (v : Verifier) (entry : Entry) (record : Meta) : Prop where
  signed : record.has metaSigned = true
  verified : ∃ key message, keyById v record.keyId = some key ∧
    wantedImageSignedMessage sys.cfg entry record = some message ∧
    v.ed25519Verify key record.signature message = true

/-- A signed install: the layers hash to the digests of a record that is not a seeded one and whose
signature verifies. -/
structure ValidlySigned (sys : System σ) (v : Verifier) (entry : Entry) (record : Meta)
    (layers : List Bytes) : Prop where
  /-- The record is that of an install. -/
  installed : record.has metaSeeded = false
  hashed : digestsMatch sys v record layers = true
  verifies : Verifies sys v entry record

/-- The state `ok` is that of the signed installs. -/
lemma checkRecord_ok_iff (entry : Entry) (record : Meta) (layers : List Bytes) :
    checkRecord sys v entry record layers = .ok ↔ ValidlySigned sys v entry record layers := by
  constructor
  · intro accepted
    unfold checkRecord at accepted
    split_ifs at accepted with seeded differs unsigned
    split at accepted
    · cases accepted
    · cases accepted
    rename_i key message known built
    split_ifs at accepted with verified
    exact ⟨by simpa using seeded, by simpa using differs, by simpa using unsigned,
      key, message, known, built, verified⟩
  · intro valid
    obtain ⟨signed, key, message, known, built, verified⟩ := valid.verifies
    simp [checkRecord, valid.installed, valid.hashed, signed, known, built, verified]

/-- A bare name has no message, and is found to be what the full reference is but for the signed
installs. -/
lemma checkRecord_bare_iff (name : Bytes) (entry : Entry) (record : Meta) (layers : List Bytes) :
    checkRecord sys v ⟨name, []⟩ record layers = checkRecord sys v entry record layers ↔
      ¬ ValidlySigned sys v entry record layers := by
  have noMessage : wantedImageSignedMessage sys.cfg ⟨name, []⟩ record = none :=
    if_pos (.inr (.inl rfl))
  rw [← checkRecord_ok_iff]
  unfold checkRecord
  rw [noMessage]
  split_ifs with seeded differs unsigned
  · simp
  · simp
  · simp
  cases known : keyById v record.keyId with
  | none => simp
  | some key =>
    cases built : wantedImageSignedMessage sys.cfg entry record with
    | none => simp
    | some message => by_cases verified : v.ed25519Verify key record.signature message <;> simp [verified]

/-- For every registry and every name: a load by the bare name is the load by the full reference that
the name resolves to, and for all layers that a start may have loaded, both references are found to be
the same and get the same answer iff the image is not a signed install. -/
theorem bare_name_verdict_iff (v : Verifier) (r : State σ) {name : Bytes} {key : Key} {record : Meta}
    (resolved : resolve sys (ensureReady sys r) (keyFromEntry ⟨name, []⟩) = .ok (key, record))
    (whole : keyFromEntry ⟨key.name, key.version⟩ = key) :
    registryMapLayers sys r ⟨name, []⟩ = registryMapLayers sys r ⟨key.name, key.version⟩ ∧
    ∀ layers,
      ((wantedVerifyImage sys v r ⟨name, []⟩ layers).1 =
          (wantedVerifyImage sys v r ⟨key.name, key.version⟩ layers).1 ∧
        (wantedImageVerifyGate sys v r ⟨name, []⟩ layers).1 =
          (wantedImageVerifyGate sys v r ⟨key.name, key.version⟩ layers).1) ↔
      ¬ ValidlySigned sys v ⟨key.name, key.version⟩ record layers := by
  have full : resolve sys (ensureReady sys r) (keyFromEntry ⟨key.name, key.version⟩) =
      .ok (key, record) := by
    rw [whole]
    exact resolve_full resolved
  refine ⟨?_, fun layers => ?_⟩
  · unfold registryMapLayers mapLayersLocked
    rw [resolved, full]
  rw [wantedImageVerifyGate_eq, wantedImageVerifyGate_eq, wantedVerifyImage_eq,
    wantedVerifyImage_eq, resolved, full]
  rw [← checkRecord_bare_iff v name]
  constructor
  · intro same
    exact same.1
  · intro same
    exact ⟨same, by simp only [same]⟩

/-- The message that the signature of `app:1` with the one layer `[7]` covers. -/
def appMessage : Bytes := [3] ++ ascii "app" ++ [1] ++ ascii "1" ++ [1] ++ (sampleSha256 [7]).val

/-- A firmware that carries one key, number 5, under which a signature of zeros is that of `app:1`. -/
def sampleVerifier : Verifier where
  keyring := [(5, ⟨List.replicate 32 0, List.length_replicate⟩)]
  ed25519Verify _ signature message := signature = Signature.zero ∧ message = appMessage
  sha256New _ := true
  enforced := true

/-- A registry on which `app:1` was installed. -/
def installedApp : State PageStore :=
  sampleAfter [] (installOf (ascii "app:1"))

/-- The record of that install, which has no clock. -/
def appRecord : Meta :=
  { size := 1, keyId := 0, installSeq := 1, installed := 0, created := 0, flags := metaClockUnset
    layers := [⟨1, sampleSha256 [7]⟩], signature := Signature.zero }

/-- An image without a signature is refused under its bare name as under its full reference. -/
theorem bare_name_verdict_app :
    (wantedVerifyImage sample sampleVerifier installedApp ⟨ascii "app", []⟩ [[7]]).1 =
      (wantedVerifyImage sample sampleVerifier installedApp ⟨ascii "app", ascii "1"⟩ [[7]]).1 := by
  have resolved : resolve sample (ensureReady sample installedApp)
      (keyFromEntry ⟨ascii "app", []⟩) = .ok (⟨ascii "app", ascii "1"⟩, appRecord) := by
    decide +kernel
  have unsigned : appRecord.has metaSigned ≠ true := by decide
  exact (((bare_name_verdict_iff sampleVerifier installedApp resolved (by decide)).2 [[7]]).mpr
    fun valid => unsigned valid.verifies.signed).1

/-- The same registry after the signature of the image was attached. -/
def signedApp : State PageStore :=
  (registryMachine sample).exec installedApp
    [.setSignature ⟨ascii "app", ascii "1"⟩ 5 Signature.zero]

/-- The image whose signature verifies under `app:1` is refused when it is started as `app`. -/
theorem signed_app_refused_bare :
    loadedBytes (registryMapLayers sample signedApp ⟨ascii "app", []⟩).1 = some [[7]] ∧
    (wantedImageVerifyGate sample sampleVerifier signedApp ⟨ascii "app", ascii "1"⟩ [[7]]).1 = .ok () ∧
    (wantedImageVerifyGate sample sampleVerifier signedApp ⟨ascii "app", []⟩ [[7]]).1 =
      .error .eilseq := by
  decide +kernel

/-- The message that is signed determines the image: the name, the version and every layer digest in
order. The two images may be of builds with different limits on the layers. -/
theorem signed_message_determines {cfg config' : Config} {entry entry' : Entry}
    {record record' : Meta} {message : Bytes}
    (signed : wantedImageSignedMessage cfg entry record = some message)
    (signed' : wantedImageSignedMessage config' entry' record' = some message) :
    keyFromEntry entry = keyFromEntry entry' ∧ record.digests = record'.digests := by
  have short : ∀ text : Bytes, (text.take 15).length < 256 := fun text => by
    rw [List.length_take]
    omega
  simp only [wantedImageSignedMessage] at signed signed'
  split_ifs at signed signed'
  rw [← signed', Option.some.injEq] at signed
  obtain ⟨names, rest⟩ := framed_inj (short _) (short _) signed
  obtain ⟨versions, rest⟩ := framed_inj (short _) (short _) rest
  exact ⟨congrArg₂ Key.mk names versions, flatMap_val_inj (by decide) (List.cons.inj rest).2⟩

/-- A name that ends before its buffer does signs the same message, and is the same key. -/
theorem signed_message_app :
    keyFromEntry ⟨ascii "app", ascii "1"⟩ = keyFromEntry ⟨ascii "app" ++ [0, 9], ascii "1"⟩ := by
  have signed : wantedImageSignedMessage sample.cfg ⟨ascii "app", ascii "1"⟩ appRecord =
      some appMessage := by
    decide +kernel
  have signed' : wantedImageSignedMessage sample.cfg
      ⟨ascii "app" ++ [0, 9], ascii "1"⟩ appRecord = some appMessage := by
    decide +kernel
  exact (signed_message_determines signed signed').1

end WantedEngine.Registry
