import WantedEngine.Foundation.Machine
import WantedEngine.Vfs.TarScan
/-!
# What a TarFS reads of its layers

The files of an index are read with `TarFs_Open`, `TarFs_Seek` and `TarFs_Read`. Every entry of an
index lies inside its layer, header and data, iff no PAX header gave a member that was
indexed a size beyond the end of the layer; then no read takes a byte outside the layer. The size
of a header is checked against the layer, the size of a PAX header is not.
-/
namespace WantedEngine.Vfs

open Foundation List

/-! ### Reading a file -/

/-- `tarfs_file_ctx_t`. -/
inductive TarHandle where
  /-- A file: its layer, the offset of its header, its size and the read position. -/
  | file (layer hdrOffset size pos : Nat)
  /-- A directory, by the beginning that the paths below it share. -/
  | dir (begins : Bytes)
  deriving DecidableEq

/-- `findExact`: the first entry at a path. -/
def findExact (index : List TarEntry) (path : Bytes) : Option TarEntry :=
  (index[lowerBound index path]?).filter (·.path = path)

/-- `directoryExists`: a file lies below a directory. -/
def directoryExists (index : List TarEntry) (begins : Bytes) : Bool :=
  ((index.drop (lowerBound index begins)).takeWhile (begins.isPrefixOf ·.path)).any (¬ ·.isMarker)

/-- The end of `openLocked`: a path that names no file may be a directory. -/
def openDirectory (index : List TarEntry) (path : Bytes) : Option TarHandle :=
  if directoryExists index (path ++ [slash]) then some (.dir (path ++ [slash])) else none

/-- The middle of `openLocked`: an entry at the path is a file, or marks that there is none. -/
def openEntry (index : List TarEntry) (path : Bytes) (flags : Oflags) (entry : TarEntry) :
    Option TarHandle :=
  match entry.layer with
  | .layer layer =>
    if flags &&& vfsODirectory ≠ 0 then none
    else some (.file layer entry.hdrOffset entry.size 0)
  | .whiteout | .opq => openDirectory index path

/-- `openLocked` of a path without slashes at its ends. -/
def openStripped (index : List TarEntry) (path : Bytes) (trailing : Bool) (flags : Oflags) :
    Option TarHandle :=
  if 512 < path.length then none
  else if path = [] then some (.dir [])
  else if trailing then openDirectory index path
  else (findExact index path).elim (openDirectory index path) (openEntry index path flags)

/-- `TarFs_Open`, when there is memory for the handle. -/
def tarFsOpen (index : List TarEntry) (path : Bytes) (flags : Oflags) : Option TarHandle :=
  let path := path.dropWhile (· = slash)
  if flags &&& (vfsOWronly ||| vfsORdwr) ≠ 0 ∨ flags &&& (vfsOCreat ||| vfsOTrunc) ≠ 0 then none
  else if path.getLast? = some slash then openStripped index path.dropLast true flags
  else openStripped index path false flags

/-- A read or a seek on a handle. -/
inductive TarRequest where
  | read (nbyte : Nat)
  | seek (off : Int) (whence : Whence)
  deriving DecidableEq

/-- The bytes a read takes: the layer, the first byte and the number of bytes. -/
structure TarAccess where
  layer : Nat
  /-- The offset of the first byte. -/
  start : Nat
  /-- How many bytes are copied. -/
  count : Nat
  deriving DecidableEq

/-- `TarFs_Read`: the bytes it takes, and the handle after it. -/
def tarFsRead (handle : TarHandle) (nbyte : Nat) : Option TarAccess × TarHandle :=
  match handle with
  | .dir begins => (none, .dir begins)
  | .file layer hdrOffset size pos =>
    if size ≤ pos then (none, .file layer hdrOffset size pos)
    else
      let count := min (min nbyte (size - pos)) (2 ^ 31 - 1)
      (some ⟨layer, hdrOffset + tarBlockSize + pos, count⟩, .file layer hdrOffset size (pos + count))

/-- `TarFs_Seek`: the position is kept between the start and the end of the file. -/
def tarFsSeek (handle : TarHandle) (off : Int) (whence : Whence) : TarHandle :=
  match handle with
  | .dir begins => .dir begins
  | .file layer hdrOffset size pos =>
    let target : Int :=
      match whence with
      | .set => off
      | .cur => pos + off
      | .end_ => size + off
    if target < 0 then .file layer hdrOffset size pos
    else .file layer hdrOffset size (min target.toNat size)

def tarReader : Machine TarHandle TarRequest (Option TarAccess) where
  step handle
    | .read nbyte => tarFsRead handle nbyte
    | .seek off whence => (none, tarFsSeek handle off whence)

/-! ### Bounds -/

/-- An entry with its header and data inside the layer it was found in. -/
def Placed.Inside (layers : List Bytes) (placed : Placed) : Prop :=
  placed.entry.hdrOffset + tarBlockSize + placed.entry.size ≤ (layers.getD placed.origin []).length

def TarAccess.Inside (layers : List Bytes) (access : TarAccess) : Prop :=
  access.start + access.count ≤ (layers.getD access.layer []).length

/-- A member that would be indexed has no PAX size beyond the end of the layer. -/
def OverrideFits (host : TarHost) (layerIdx sortedLen : Nat) (bytes : Bytes) (s : Scan) : Prop :=
  ∀ size found c, headerKind bytes s.off = .member size →
    draftEntry host layerIdx bytes { s with emptyRun := 0 } = .ok (some found, c) →
    coveredByNewer (newer c sortedLen) found.path = false →
    s.overrideSize ≤ bytes.length - s.off - tarBlockSize

def RoundsFit (host : TarHost) (layerIdx sortedLen : Nat) (bytes : Bytes) : Nat → Scan → Prop
  | 0, _ => True
  | rounds + 1, s =>
    s.stopped = false → OverrideFits host layerIdx sortedLen bytes s ∧
      ∀ next, scanStep host layerIdx sortedLen bytes s = .ok next →
        RoundsFit host layerIdx sortedLen bytes rounds next

/-- So it is in the scan of every layer. -/
def LayersFit (host : TarHost) : List Bytes → Nat → TarCtx → Prop
  | [], _, _ => True
  | bytes :: rest, layerIdx, c =>
    RoundsFit host layerIdx c.index.length bytes (layerRounds bytes) (scanStart c) ∧
      ∀ after, indexLayer host layerIdx bytes c = .ok after →
        LayersFit host rest (layerIdx + 1) (sortIndex after)

/-- No PAX header gives a member that is indexed a size beyond the end of its layer. -/
def OverridesFit (host : TarHost) (layers : List Bytes) : Prop :=
  ∀ c, allocate host .empty = .ok c → LayersFit host layers 0 c

section

variable {host : TarHost} {layerIdx sortedLen : Nat} {bytes : Bytes} {c after : TarCtx} {s next : Scan}

/-- What a result of a computation that may halt is made from. -/
lemma bind_eq_ok {α β : Type} {first : Except Halt α} {rest : α → Except Halt β} {result : β}
    (ok : (first >>= rest) = .ok result) : ∃ value, first = .ok value ∧ rest value = .ok result := by
  cases first with
  | error halt => cases ok
  | ok value => exact ⟨value, rfl, ok⟩

/-! ### What leaves the index -/

/-- Every result of a computation that may halt meets a condition. -/
def Results {α : Type} (post : α → Prop) (m : Except Halt α) : Prop := ∀ value, m = .ok value → post value

lemma Results.ok {α : Type} {post : α → Prop} {value : α} (meets : post value) :
    Results post (.ok value)
  | _, rfl => meets

lemma Results.error {α : Type} {post : α → Prop} {halt : Halt} : Results post (.error halt) := nofun

lemma Results.bind {α β : Type} {between : α → Prop} {post : β → Prop} {first : Except Halt α}
    {rest : α → Except Halt β} (made : Results between first)
    (then_ : ∀ value, between value → Results post (rest value)) : Results post (first >>= rest) := by
  intro result ok
  obtain ⟨value, isFirst, isRest⟩ := bind_eq_ok ok
  exact then_ value (made value isFirst) result isRest

/-- The entries and the entry point are left as they are. -/
def KeepsEntries (c after : TarCtx) : Prop := after.index = c.index ∧ after.entrypoint = c.entrypoint

lemma KeepsEntries.refl : KeepsEntries c c := ⟨rfl, rfl⟩

lemma KeepsEntries.trans {middle : TarCtx} (first : KeepsEntries c middle) (second : KeepsEntries middle after) :
    KeepsEntries c after :=
  ⟨second.1.trans first.1, second.2.trans first.2⟩

lemma allocate_keeps : Results (KeepsEntries c) (allocate host c) := by
  rw [allocate]
  split
  · exact .ok .refl
  · exact .error

lemma growIndex_keeps : Results (KeepsEntries c) (growIndex host c) := by
  refine allocate_keeps.bind fun after kept => ?_
  dsimp only
  split
  · exact .error
  · exact .ok kept

lemma rememberOwned_keeps : Results (KeepsEntries c) (rememberOwned host c) := by
  rw [rememberOwned]
  split
  · refine allocate_keeps.bind fun after kept => ?_
    dsimp only
    split
    · exact .error
    · exact .ok kept
  · exact .ok .refl

lemma internPath_keeps {len : Nat} : Results (KeepsEntries c) (internPath host c len) := by
  rw [internPath]
  split
  · refine allocate_keeps.bind fun after kept => ?_
    split
    · exact .error
    · exact .ok kept
  · exact .ok .refl

lemma memberPath_keeps : Results (fun named => KeepsEntries s.ctx named.2) (memberPath host bytes s) := by
  rw [memberPath]
  cases s.overridePath with
  | some given => exact .ok .refl
  | none =>
    split_ifs
    · exact .ok .refl
    · exact .ok .refl
    · exact .ok .refl
    · exact internPath_keeps.bind fun ctx kept => .ok kept

lemma classify_keeps {path : TarPath} :
    Results (fun found => KeepsEntries c found.2) (classify host layerIdx path c) := by
  rw [classify]
  split_ifs
  · exact .ok .refl
  · exact allocate_keeps.bind fun first kept =>
      rememberOwned_keeps.bind fun second also => .ok (kept.trans also)
  · exact .ok .refl
  · exact .error

lemma draftEntry_keeps :
    Results (fun drafted => KeepsEntries s.ctx drafted.2) (draftEntry host layerIdx bytes s) := by
  refine memberPath_keeps.bind fun ⟨path, c⟩ kept => ?_
  cases path with
  | none => exact .ok kept
  | some path =>
    dsimp only
    split_ifs
    · exact classify_keeps.bind fun found also => .ok (kept.trans also)
    · exact .ok kept
    · exact .ok kept

variable {size : Nat} {layers : List Bytes}

/-- An entry is added at the end, and is the entry point if it is the first file `app.wasm`. -/
structure AddsEntry (layerIdx : Nat) (placed : Placed) (c after : TarCtx) : Prop where
  index : after.index = c.index ++ [placed]
  entrypoint : after.entrypoint =
    if placed.entry.layer = .layer layerIdx ∧ placed.entry.path = ascii "app.wasm" ∧
      c.entrypoint = none then some ⟨layerIdx, placed.entry.hdrOffset, placed.entry.size⟩
    else c.entrypoint

lemma addEntry_adds {found : Draft} {off : Nat} : Results
    (AddsEntry layerIdx ⟨⟨found.path, found.layer, off, size⟩, layerIdx, found.pooled⟩ c)
    (addEntry host layerIdx found off size c) := by
  have room : Results (KeepsEntries c) (makeRoom host c) := by
    rw [makeRoom]
    split
    · exact growIndex_keeps
    · exact .ok .refl
  exact room.bind fun grown kept => .ok ⟨by rw [← kept.1], rfl⟩

lemma scanPax_keeps : Results (fun next => KeepsEntries s.ctx next.ctx ∧ next.off = nextOff s.off size)
      (scanPax host bytes s size) := by
  rw [scanPax]
  split
  · exact .error
  dsimp only
  split
  · exact .ok ⟨.refl, rfl⟩
  split
  · exact .ok ⟨.refl, rfl⟩
  · exact internPath_keeps.bind fun ctx kept => .ok ⟨kept, rfl⟩

/-! ### One round -/

lemma headerKind_member {off : Nat} (kind : headerKind bytes off = .member size) :
    off + tarBlockSize ≤ bytes.length ∧ size ≤ bytes.length - off - tarBlockSize := by
  rw [headerKind] at kind
  dsimp only at kind
  split_ifs at kind with short zero large
  obtain rfl := HeaderKind.member.inj kind
  exact ⟨Nat.le_of_not_lt short, Nat.le_of_not_lt large⟩

lemma effSize_fits {room : Nat} (fits : size ≤ room) :
    effSize s size ≤ room ↔ s.overrideSize ≤ room := by
  rw [effSize]
  split
  · rename_i zero
    rw [zero]
    exact ⟨fun _ => Nat.zero_le room, fun _ => fits⟩
  · exact Iff.rfl

/-- The entry that a member becomes. -/
def placedAt (layerIdx : Nat) (draft : Draft) (s : Scan) (size : Nat) : Placed :=
  ⟨⟨draft.path, draft.layer, s.off, effSize s size⟩, layerIdx, draft.pooled⟩

/-- What a round does: a header that is no member leaves the entries, and a member is added unless it
stands for no entry or a newer layer decides its path. -/
lemma scanStep_cases (ok : scanStep host layerIdx sortedLen bytes s = .ok next) :
    (KeepsEntries s.ctx next.ctx ∧ ∀ size, headerKind bytes s.off ≠ .member size) ∨
      ∃ size found drafted, headerKind bytes s.off = .member size ∧
        draftEntry host layerIdx bytes { s with emptyRun := 0 } = .ok (found, drafted) ∧
        (KeepsEntries s.ctx next.ctx ∧
            (∀ draft, found = some draft → coveredByNewer (newer drafted sortedLen) draft.path = true) ∨
          ∃ draft, found = some draft ∧
            coveredByNewer (newer drafted sortedLen) draft.path = false ∧
            AddsEntry layerIdx (placedAt layerIdx draft s size) s.ctx next.ctx) := by
  rw [scanStep] at ok
  cases kind : headerKind bytes s.off with
  | ending | unused size | longName size =>
    rw [kind] at ok
    cases ok
    exact .inl ⟨.refl, nofun⟩
  | zero =>
    rw [kind] at ok
    dsimp only at ok
    split at ok
    · cases ok
      exact .inl ⟨.refl, nofun⟩
    · cases ok
      exact .inl ⟨.refl, nofun⟩
  | pax size =>
    rw [kind] at ok
    exact .inl ⟨(scanPax_keeps (s := { s with emptyRun := 0 }) next ok).1, nofun⟩
  | member size =>
    rw [kind] at ok
    obtain ⟨⟨found, drafted⟩, made, ok⟩ := bind_eq_ok ok
    have kept := draftEntry_keeps _ made
    refine .inr ⟨size, found, drafted, rfl, made, ?_⟩
    cases found with
    | none =>
      cases ok
      exact .inl ⟨kept, nofun⟩
    | some draft =>
      dsimp only at ok
      split at ok
      · rename_i covered
        cases ok
        refine .inl ⟨kept, ?_⟩
        rintro _ same
        cases same
        exact covered
      · rename_i apart
        obtain ⟨ctx, added, ok⟩ := bind_eq_ok ok
        cases ok
        have adds := addEntry_adds ctx added
        exact .inr ⟨draft, rfl, Bool.eq_false_iff.mpr apart, kept.1 ▸ adds.index,
          kept.2 ▸ adds.entrypoint⟩

variable (layer : layers.getD layerIdx [] = bytes)
include layer

lemma placedAt_inside (kind : headerKind bytes s.off = .member size) (draft : Draft) :
    (placedAt layerIdx draft s size).Inside layers ↔
      s.overrideSize ≤ bytes.length - s.off - tarBlockSize := by
  obtain ⟨_, fits⟩ := headerKind_member kind
  rw [← effSize_fits fits, Placed.Inside, placedAt, layer]
  dsimp only
  omega

lemma scanStep_inside (ok : scanStep host layerIdx sortedLen bytes s = .ok next) :
    (∀ placed ∈ next.ctx.index, placed.Inside layers) ↔
      (∀ placed ∈ s.ctx.index, placed.Inside layers) ∧
        OverrideFits host layerIdx sortedLen bytes s := by
  obtain ⟨same, other⟩ | ⟨size, found, drafted, kind, made, out⟩ := scanStep_cases ok
  · rw [same.1]
    refine (and_iff_left ?_).symm
    intro size found c kind
    exact absurd kind (other size)
  obtain ⟨same, covered⟩ | ⟨draft, rfl, apart, added⟩ := out
  · rw [same.1]
    refine (and_iff_left ?_).symm
    intro size' draft c kind' made' apart
    rw [made] at made'
    cases made'
    rw [covered draft rfl] at apart
    cases apart
  · rw [added.index, forall_mem_append, forall_mem_singleton, placedAt_inside layer kind draft]
    refine and_congr_right fun _ => ?_
    constructor
    · intro small size' draft' c kind' made' apart'
      exact small
    · intro all
      exact all size draft drafted kind made apart

/-! ### Whole scans -/

lemma scanRounds_inside (rounds : Nat)
    (ok : scanRounds host layerIdx sortedLen bytes rounds s = .ok next) :
    (∀ placed ∈ next.ctx.index, placed.Inside layers) ↔
      (∀ placed ∈ s.ctx.index, placed.Inside layers) ∧
        RoundsFit host layerIdx sortedLen bytes rounds s := by
  induction rounds generalizing s with
  | zero =>
    cases ok
    exact (and_iff_left trivial).symm
  | succ rounds ih =>
    rw [scanRounds] at ok
    split at ok
    · rename_i stopped
      cases ok
      refine (and_iff_left ?_).symm
      intro running
      rw [stopped] at running
      cases running
    rename_i running
    obtain ⟨middle, stepped, rest⟩ := bind_eq_ok ok
    rw [ih rest, scanStep_inside layer stepped, and_assoc]
    refine and_congr_right fun _ => ?_
    constructor
    · rintro ⟨here, later⟩ _
      refine ⟨here, ?_⟩
      intro other step
      rw [stepped] at step
      cases step
      exact later
    · intro fits
      obtain ⟨here, later⟩ := fits (Bool.eq_false_iff.mpr running)
      exact ⟨here, later middle stepped⟩

omit layer

lemma mem_sortIndex {placed : Placed} : placed ∈ (sortIndex c).index ↔ placed ∈ c.index :=
  (perm_insertionSort indexLe c.index).mem_iff

lemma indexLayers_inside {rest : List Bytes} (tail : layers.drop layerIdx = rest)
    (ok : indexLayers host rest layerIdx c = .ok after) :
    (∀ placed ∈ after.index, placed.Inside layers) ↔
      (∀ placed ∈ c.index, placed.Inside layers) ∧ LayersFit host rest layerIdx c := by
  induction rest generalizing layerIdx c with
  | nil =>
    cases ok
    exact (and_iff_left trivial).symm
  | cons bytes rest ih =>
    obtain ⟨_, indexed, later⟩ := bind_eq_ok ok
    obtain ⟨s, scanned, found⟩ := bind_eq_ok indexed
    cases found
    have layer : layers.getD layerIdx [] = bytes := by
      have here : layers[layerIdx]? = some bytes := by
        rw [← head?_drop, tail]
        rfl
      rw [getD_eq_getElem?_getD, here]
      rfl
    have tail' : layers.drop (layerIdx + 1) = rest := by
      rw [← tail_drop, tail]
      rfl
    have scan := scanRounds_inside layer (layerRounds bytes) scanned
    have others := ih tail' later
    simp only [mem_sortIndex] at others
    rw [others, scan, and_assoc]
    refine and_congr_right fun _ => and_congr_right fun _ => ?_
    constructor
    · intro fits other same
      rw [indexed] at same
      cases same
      exact fits
    · intro fits
      exact fits s.ctx indexed

/-- What holds of the entries and every member that is added keeps, a scan keeps. -/
lemma scanRounds_invariant (holds : TarCtx → Prop)
    (same : ∀ {c after}, KeepsEntries c after → holds c → holds after)
    (new : ∀ {s : Scan} {draft drafted size after},
      draftEntry host layerIdx bytes s = .ok (some draft, drafted) →
        AddsEntry layerIdx (placedAt layerIdx draft s size) s.ctx after → holds s.ctx → holds after)
    (rounds : Nat) (ok : scanRounds host layerIdx sortedLen bytes rounds s = .ok next)
    (before : holds s.ctx) : holds next.ctx := by
  induction rounds generalizing s with
  | zero =>
    cases ok
    exact before
  | succ rounds ih =>
    rw [scanRounds] at ok
    split at ok
    · cases ok
      exact before
    obtain ⟨_, stepped, rest⟩ := bind_eq_ok ok
    apply ih rest
    obtain ⟨kept, -⟩ | ⟨size, _, drafted, -, made, out⟩ := scanStep_cases stepped
    · exact same kept before
    obtain ⟨kept, -⟩ | ⟨draft, rfl, -, added⟩ := out
    · exact same kept before
    · exact new made added before

lemma indexLayers_invariant (holds : TarCtx → Prop)
    (same : ∀ {c after}, KeepsEntries c after → holds c → holds after)
    (new : ∀ {layerIdx bytes} {s : Scan} {draft drafted size after},
      draftEntry host layerIdx bytes s = .ok (some draft, drafted) →
        AddsEntry layerIdx (placedAt layerIdx draft s size) s.ctx after → holds s.ctx → holds after)
    (sort : ∀ c, holds c → holds (sortIndex c))
    {rest : List Bytes} (ok : indexLayers host rest layerIdx c = .ok after) (before : holds c) :
    holds after := by
  induction rest generalizing layerIdx c with
  | nil =>
    cases ok
    exact before
  | cons bytes rest ih =>
    obtain ⟨_, indexed, later⟩ := bind_eq_ok ok
    obtain ⟨s, scanned, found⟩ := bind_eq_ok indexed
    cases found
    exact ih later (sort _ (scanRounds_invariant holds same new _ scanned before))

/-- A file is served from the layer its header lies in. -/
def Placed.OwnLayer (placed : Placed) : Prop :=
  ∀ layer, placed.entry.layer = .layer layer → layer = placed.origin

/-- A member that stands for a file stands for one of its own layer. -/
lemma draftEntry_layer {draft : Draft} {layer : Nat}
    (ok : draftEntry host layerIdx bytes s = .ok (some draft, c)) (file : draft.layer = .layer layer) :
    layer = layerIdx := by
  obtain ⟨⟨path, _⟩, -, ok⟩ := bind_eq_ok ok
  cases path with
  | none => cases (Prod.mk.inj (Except.ok.inj ok)).1
  | some path =>
    dsimp only at ok
    split_ifs at ok
    · obtain ⟨⟨_, _⟩, classified, ok⟩ := bind_eq_ok ok
      obtain ⟨same, -⟩ := Prod.mk.inj (Except.ok.inj ok)
      cases same
      rw [classify] at classified
      split_ifs at classified
      · cases classified
        cases file
      · obtain ⟨_, -, classified⟩ := bind_eq_ok classified
        obtain ⟨_, -, classified⟩ := bind_eq_ok classified
        cases classified
        cases file
      · cases classified
        exact (EntryLayer.layer.inj file).symm
    · cases (Prod.mk.inj (Except.ok.inj ok)).1
    · cases (Prod.mk.inj (Except.ok.inj ok)).1

/-! ### Reads -/

/-- A handle within a file that is inside its layer. -/
def TarHandle.Inside (layers : List Bytes) : TarHandle → Prop
  | .file layer hdrOffset size pos =>
    pos ≤ size ∧ hdrOffset + tarBlockSize + size ≤ (layers.getD layer []).length
  | .dir _ => True

/-- Seeks and reads stay within the file. -/
lemma tarReader_inside {handle : TarHandle} (inside : handle.Inside layers) (req : TarRequest) :
    (tarReader.next handle req).Inside layers ∧
      ∀ access, tarReader.answer handle req = some access → access.Inside layers := by
  cases handle with
  | dir begins => cases req <;> exact ⟨trivial, nofun⟩
  | file layer hdrOffset size pos =>
    obtain ⟨within, fits⟩ := inside
    cases req with
    | read nbyte =>
      simp only [Machine.next, Machine.answer, tarReader, tarFsRead]
      split
      · exact ⟨⟨within, fits⟩, nofun⟩
      refine ⟨⟨by omega, fits⟩, ?_⟩
      rintro access same
      cases same
      rw [TarAccess.Inside]
      dsimp only
      omega
    | seek off whence =>
      simp only [Machine.next, Machine.answer, tarReader, tarFsSeek]
      generalize (match whence with
        | .set => off
        | .cur => (pos : Int) + off
        | .end_ => (size : Int) + off) = target
      split
      · exact ⟨⟨within, fits⟩, nofun⟩
      · exact ⟨⟨Nat.min_le_right _ _, fits⟩, nofun⟩

variable {layer hdrOffset pos : Nat} {index : List TarEntry} {layers : List Bytes} {flags : Oflags} {host : TarHost}

/-- A file is opened where the first entry at the path is one. -/
lemma openStripped_eq_file {path : Bytes} {trailing : Bool} :
    openStripped index path trailing flags = some (.file layer hdrOffset size pos) ↔
      (path.length ≤ 512 ∧ path ≠ [] ∧ trailing = false ∧ flags &&& vfsODirectory = 0) ∧ pos = 0 ∧
        findExact index path = some ⟨path, .layer layer, hdrOffset, size⟩ := by
  have directory : openDirectory index path ≠ some (.file layer hdrOffset size pos) := by
    rw [openDirectory]
    split <;> nofun
  rw [openStripped]
  split_ifs with long empty slashed
  · exact iff_of_false nofun fun opened => absurd opened.1.1 (Nat.not_le.mpr long)
  · exact iff_of_false nofun fun opened => opened.1.2.1 empty
  · exact iff_of_false directory fun opened => by simp [slashed] at opened
  cases found : findExact index path with
  | none => exact iff_of_false directory nofun
  | some entry =>
    obtain ⟨_, layer', _, _⟩ := entry
    obtain rfl : _ = path := of_decide_eq_true (Option.filter_eq_some_iff.mp found).2
    rw [Option.elim_some, openEntry]
    cases layer' with
    | layer number =>
      dsimp only
      split
      · rename_i asked
        exact iff_of_false nofun fun opened => asked opened.1.2.2.2
      rename_i plain
      constructor
      · rintro ⟨⟩
        exact ⟨⟨Nat.le_of_not_lt long, empty, Bool.eq_false_iff.mpr slashed, not_not.mp plain⟩, rfl, rfl⟩
      · rintro ⟨-, rfl, ⟨⟩⟩
        rfl
    | whiteout | opq => exact iff_of_false directory (by simp)

lemma tarFsOpen_entry {path : Bytes}
    (opened : tarFsOpen index path flags = some (.file layer hdrOffset size pos)) :
    pos = 0 ∧ ∃ path, ⟨path, .layer layer, hdrOffset, size⟩ ∈ index := by
  have listed : ∀ {path trailing},
      openStripped index path trailing flags = some (.file layer hdrOffset size pos) →
        pos = 0 ∧ ∃ path, ⟨path, .layer layer, hdrOffset, size⟩ ∈ index := by
    intro path trailing opened
    obtain ⟨-, start, found⟩ := openStripped_eq_file.mp opened
    exact ⟨start, path, mem_of_getElem? (Option.filter_eq_some_iff.mp found).1⟩
  rw [tarFsOpen] at opened
  split_ifs at opened
  · exact listed opened
  · exact listed opened

lemma tarFsInit_ok (ok : tarFsInit host layers = .ok after) :
    ∃ c, allocate host .empty = .ok c ∧ KeepsEntries .empty c ∧ indexLayers host layers 0 c = .ok after := by
  rw [tarFsInit] at ok
  split at ok
  · cases ok
  obtain ⟨c, allocated, ok⟩ := bind_eq_ok ok
  split at ok
  · cases ok
  · exact ⟨c, allocated, allocate_keeps c allocated, ok⟩

end

/-- Every entry of an index lies inside its layer, and so does every byte that is read of a file,
whatever is opened, read and sought. -/
structure Bounded (layers : List Bytes) (ctx : TarCtx) : Prop where
  entries : ∀ placed ∈ ctx.index, placed.Inside layers
  reads : ∀ path flags handle,
    tarFsOpen (ctx.index.map (·.entry)) path flags = some handle →
    ∀ reqs req access,
      tarReader.answer (tarReader.exec handle reqs) req = some access →
        access.Inside layers

/-- Every file of an index is served from the layer its header lies in. -/
lemma tarFsInit_ownLayer {ctx : TarCtx}
    (succeeds : tarFsInit host layers = .ok ctx) : ∀ placed ∈ ctx.index, placed.OwnLayer := by
  obtain ⟨c, -, empty, indexed⟩ := tarFsInit_ok succeeds
  refine indexLayers_invariant (fun c => ∀ placed ∈ c.index, placed.OwnLayer) ?_ ?_ ?_ indexed ?_
  · intro c after kept own
    rwa [kept.1]
  · intro layerIdx bytes s draft drafted size after made added own
    rw [added.index, forall_mem_append, forall_mem_singleton]
    exact ⟨own, fun _ file => draftEntry_layer made file⟩
  · exact fun c own placed member => own placed (mem_sortIndex.mp member)
  · rw [empty.1]
    nofun

lemma bounded_of_entries {ctx : TarCtx} (succeeds : tarFsInit host layers = .ok ctx)
    (entries : ∀ placed ∈ ctx.index, placed.Inside layers) : Bounded layers ctx := by
  have own := tarFsInit_ownLayer succeeds
  refine ⟨entries, ?_⟩
  intro path flags handle opened reqs req access taken
  have start : handle.Inside layers := by
    cases handle with
    | dir begins => trivial
    | file layer hdrOffset size pos =>
      obtain ⟨rfl, path, listed⟩ := tarFsOpen_entry opened
      obtain ⟨placed, member, same⟩ := mem_map.mp listed
      have bound := entries placed member
      rw [Placed.Inside, ← own placed member layer (by rw [same]), same] at bound
      exact ⟨Nat.zero_le _, bound⟩
  have held := tarReader.exec_invariant_of_step (TarHandle.Inside layers)
      (fun _ req inside => (tarReader_inside inside req).1) start reqs
  exact (tarReader_inside held req).2 access taken

/-- On all layers of which `TarFsInit` makes an index: the entries, and with them the reads, stay
inside the layers iff no PAX header gives a member that is indexed a size beyond the end of
its layer. -/
theorem bounded_iff_overridesFit (host : TarHost) (layers : List Bytes) (ctx : TarCtx)
    (succeeds : tarFsInit host layers = .ok ctx) :
    Bounded layers ctx ↔ OverridesFit host layers := by
  obtain ⟨c, allocated, empty, indexed⟩ := tarFsInit_ok succeeds
  have none_yet : ∀ placed ∈ c.index, placed.Inside layers := by
    rw [empty.1]
    nofun
  have inside : (∀ placed ∈ ctx.index, placed.Inside layers) ↔ OverridesFit host layers := by
    rw [indexLayers_inside (drop_zero) indexed, and_iff_right none_yet]
    constructor
    · intro fits other same
      rw [allocated] at same
      cases same
      exact fits
    · intro fits
      exact fits c allocated
  rw [← inside]
  exact ⟨Bounded.entries, bounded_of_entries succeeds⟩

def padded (length : Nat) (bytes : Bytes) : Bytes := bytes ++ List.replicate (length - bytes.length) 0

def plainHeader (name digits : String) (type : UInt8) : Bytes :=
  padded 124 (ascii name) ++ padded 32 (ascii digits) ++ padded 356 [type]

/-- A layer with one file `a` of four bytes, behind a PAX header with one record. -/
def paxLayer (pax : String) : Bytes :=
  plainHeader "x" "14" 120 ++ padded 512 (ascii pax) ++ plainHeader "a" "4" 48 ++
    padded 512 (ascii "data")

def plainTarget : TarHost := ⟨64, 4, 16, fun _ => true⟩

/-- The context of such a layer, with the size that its file is given. -/
def paxCtx (size : Nat) : TarCtx :=
  { TarCtx.empty with
    index := [⟨⟨ascii "a", .layer 0, 1024, size⟩, 0, false⟩], indexCap := 16, allocs := 2 }

/-- A PAX size within the layer: the entry and its reads are inside. -/
theorem pax_size_within : ∃ ctx, tarFsInit plainTarget [paxLayer "11 size=4\n"] = .ok ctx ∧
    Bounded [paxLayer "11 size=4\n"] ctx ∧ OverridesFit plainTarget [paxLayer "11 size=4\n"] := by
  have made : tarFsInit plainTarget [paxLayer "11 size=4\n"] = .ok (paxCtx 4) := by decide +kernel
  have bounded : Bounded [paxLayer "11 size=4\n"] (paxCtx 4) := by
    apply bounded_of_entries made
    rw [paxCtx, forall_mem_singleton, Placed.Inside]
    decide +kernel
  exact ⟨_, made, bounded, (bounded_iff_overridesFit plainTarget _ _ made).mp bounded⟩

/-- A PAX size beyond the layer: the file has 999 bytes where its layer has 512 left, and a read
takes them. -/
theorem pax_size_leaves_layer :
    (((tarFsInit plainTarget [paxLayer "12 size=999\n"]).toOption.bind fun ctx =>
      tarFsOpen (ctx.index.map (·.entry)) (ascii "/a") 0).bind fun handle =>
        tarReader.answer handle (.read 4096)) = some ⟨0, 1536, 999⟩ ∧
      (paxLayer "12 size=999\n").length = 2048 ∧
      ∃ ctx, tarFsInit plainTarget [paxLayer "12 size=999\n"] = .ok ctx ∧
        ¬ Bounded [paxLayer "12 size=999\n"] ctx := by
  have made : tarFsInit plainTarget [paxLayer "12 size=999\n"] = .ok (paxCtx 999) := by
    decide +kernel
  refine ⟨by decide +kernel, by decide +kernel, _, made, fun bounded => ?_⟩
  have inside := bounded.entries _ (mem_singleton_self _)
  rw [Placed.Inside] at inside
  revert inside
  decide +kernel

end WantedEngine.Vfs
