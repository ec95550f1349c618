import WantedEngine.Vfs.TarHeader
import Mathlib.Data.List.Sort
/-!
# Building the index

`TarFsInit` of `vfs-tarfs.c`: the layers are scanned newest first, one header after the other, and
each regular member that no newer layer decides becomes an entry of the index, which is sorted
after every layer. Memory for the tables may be refused at any allocation.

A scan that goes wrong ends in a `Halt`. Two of them are no return of the source: a PAX header whose
records lead back to one another does not end, and a scan can leave the memory it owns. It does so
when a table of 32768 entries grows (the capacity is 16 bits wide and wraps to nothing), when the
path pool grows while an entry of the index points into it (`internPath` frees the old pool), and
when the string of a GNU long name has no end in the layer.

`qsort` leaves the order of equal entries open; here it is that of an insertion sort.
-/
namespace WantedEngine.Vfs

/-- The target: the width of `size_t`, `CONFIG_WANTED_MAX_LAYERS`, the rounds given to the loop over
PAX records, and which allocations succeed, by their number. -/
structure TarHost where
  /-- The bits of `size_t`. -/
  sizeBits : Nat
  /-- `TARFS_MAX_LAYERS`. -/
  maxLayers : Nat
  /-- The rounds of the loop over PAX records. -/
  rounds : Nat
  allocates : Nat → Bool

/-- Why a scan does not come to its end. -/
inductive Halt where
  /-- An allocation failed, or the arguments are invalid: `TarFsInit` returns `NULL`. -/
  | refused
  /-- The scan does not return. -/
  | endless
  /-- The scan left the memory it owns. -/
  | broken
  deriving DecidableEq

/-- An entry of the index, with the layer its header lies in and whether its path points into the
path pool. -/
structure Placed where
  entry : TarEntry
  /-- The layer of the header. -/
  origin : Nat
  /-- The path lies in the path pool. -/
  pooled : Bool
  deriving DecidableEq

/-- `app.wasm`, as `TarFsEntrypointWasm` returns it. -/
structure Entrypoint where
  layer : Nat
  hdrOffset : Nat
  /-- `entrypoint_wasm_len`. -/
  len : Nat
  deriving DecidableEq

/-- `struct vfs_tarfs_ctx_t` without the layers, with the number of allocations made. -/
structure TarCtx where
  index : List Placed
  indexCap : Nat
  /-- `owned_len`. -/
  owned : Nat
  ownedCap : Nat
  /-- `path_pool_used`. -/
  poolUsed : Nat
  /-- `path_pool_cap`. -/
  poolCap : Nat
  skipped : Nat
  entrypoint : Option Entrypoint
  /-- The allocations so far. -/
  allocs : Nat
  deriving DecidableEq

/-- An empty context. -/
def TarCtx.empty : TarCtx := ⟨[], 0, 0, 0, 0, 0, 0, none, 0⟩

variable (host : TarHost)

/-! ### Tables -/

/-- `WantedMalloc`. -/
def allocate (c : TarCtx) : Except Halt TarCtx :=
  if host.allocates c.allocs then .ok { c with allocs := c.allocs + 1 } else .error .refused

/-- The capacity a table of 16-bit capacity grows to. -/
def grownCap (cap initial : Nat) : Nat := if cap = 0 then initial else cap * 2 % 2 ^ 16

/-- `growIndex`, which copies the index into the new table. -/
def growIndex (c : TarCtx) : Except Halt TarCtx := do
  let after ← allocate host c
  let cap := grownCap c.indexCap 16
  if cap < c.index.length then .error .broken else .ok { after with indexCap := cap }

/-- Room for one more entry. -/
def makeRoom (c : TarCtx) : Except Halt TarCtx :=
  if c.index.length = c.indexCap then growIndex host c else .ok c

/-- `rememberOwned`, which copies the table of owned strings when it is full. -/
def rememberOwned (c : TarCtx) : Except Halt TarCtx :=
  if c.owned = c.ownedCap then do
    let after ← allocate host c
    let cap := grownCap c.ownedCap 4
    if cap < c.owned then .error .broken
    else .ok { after with owned := c.owned + 1, ownedCap := cap }
  else .ok { c with owned := c.owned + 1 }

/-- The loop of `internPath` over the capacity. -/
def doubled (needed : Nat) : Nat → Nat → Nat
  | 0, cap => cap
  | rounds + 1, cap => if cap < needed then doubled needed rounds (cap * 2) else cap

def grownPool (cap needed : Nat) : Nat := doubled needed needed (if cap = 0 then 256 else cap * 2)

/-- `internPath` of so many bytes. Growing the pool frees the old one, and with it the paths of the
entries that point into it. -/
def internPath (c : TarCtx) (len : Nat) : Except Halt TarCtx :=
  let needed := c.poolUsed + len + 1
  if c.poolCap < needed then do
    let after ← allocate host c
    if c.index.any (·.pooled) then .error .broken
    else .ok { after with poolUsed := needed, poolCap := grownPool c.poolCap needed }
  else .ok { c with poolUsed := needed }

/-! ### Lookups in the newer layers -/

/-- The search of `indexContains` between two places. The distance halves, so the fuel is the
number of entries. -/
def containsFrom (index : List TarEntry) (path : Bytes) : Nat → Nat → Nat → Bool
  | 0, _, _ => false
  | fuel + 1, low, high =>
    if low < high then
      let middle := low + (high - low) / 2
      let found := (index.getD middle ⟨[], .opq, 0, 0⟩).path
      if found < path then containsFrom index path fuel (middle + 1) high
      else if path < found then containsFrom index path fuel low middle
      else true
    else false

def indexContains (index : List TarEntry) (path : Bytes) : Bool :=
  containsFrom index path (index.length + 1) 0 index.length

/-- `indexHasKind`: an entry of a kind at a path. -/
def indexHasKind (index : List TarEntry) (path : Bytes) (kind : EntryLayer) : Bool :=
  ((index.drop (lowerBound index path)).takeWhile (·.path = path)).any (·.layer = kind)

def probeMax : Nat := 512

/-- One probe of `coveredByNewer`: the directory that ends before a slash is deleted or opaque. -/
def probeCovers (index : List TarEntry) (path : Bytes) (pos : Nat) : Bool :=
  path.getD pos 0 = slash ∧ pos + (opaqueName.length + 1) + 1 < probeMax ∧
    (indexHasKind index (path.take pos) .whiteout ∨
      indexHasKind index (path.take pos ++ [slash] ++ opaqueName) .opq)

def coveredByNewer (index : List TarEntry) (path : Bytes) : Bool :=
  indexContains index path ∨ indexHasKind index opaqueName .opq ∨
    (List.range path.length).any (probeCovers index path)

/-! ### The scan of a layer -/

/-- The loop state of `indexLayer`. -/
structure Scan where
  ctx : TarCtx
  off : Nat
  emptyRun : Nat
  overridePath : Option TarPath
  overrideSize : Nat
  /-- The loop has ended. -/
  stopped : Bool
  deriving DecidableEq

/-- A PAX header: its overrides are kept for the next member. -/
def scanPax (bytes : Bytes) (s : Scan) (size : Nat) : Except Halt Scan :=
  match parsePaxData host.sizeBits (dataAt bytes s.off size) host.rounds 0
      ⟨none, s.overrideSize⟩ with
  | none => .error .endless
  | some overrides =>
    let next := { s with off := nextOff s.off size, overrideSize := overrides.size }
    match overrides.path with
    | none => .ok next
    | some value =>
      let path := value.drop (leadLength value)
      if path = [] then .ok next
      else do
        let ctx ← internPath host s.ctx path.length
        .ok { next with ctx, overridePath := some ⟨cString path, .pool, true⟩ }

/-- The path of a member: the one a header before it gave, or the one of its own fields. -/
def memberPath (bytes : Bytes) (s : Scan) : Except Halt (Option TarPath × TarCtx) :=
  let header := headerAt bytes s.off
  let named (text : Bytes) (home : PathHome) : Option TarPath :=
    some ⟨text.drop (leadLength text), home, true⟩
  match s.overridePath with
  | some path => .ok (some path, s.ctx)
  | none =>
    if nameUnusable header then .ok (none, s.ctx)
    else if prefixField header = [] then .ok (named (nameField header) .layer, s.ctx)
    else if 257 ≤ (joinedName header).length then .ok (none, s.ctx)
    else do
      let ctx ← internPath host s.ctx (joinedName header).length
      .ok (named (joinedName header) .pool, ctx)

structure Draft where
  path : Bytes
  layer : EntryLayer
  pooled : Bool
  deriving DecidableEq

/-- The entry a regular member stands for: an opaque directory, a deleted path or a file. -/
def classify (layerIdx : Nat) (path : TarPath) (c : TarCtx) : Except Halt (Draft × TarCtx) :=
  if ¬ path.terminated then .error .broken
  else if isOpaquePath path.text then .ok (⟨path.text, .opq, path.home = .pool⟩, c)
  else if isWhiteoutPath path.text then do
    let c ← allocate host c
    let c ← rememberOwned host c
    .ok (⟨makeWhiteoutTarget path.text, .whiteout, false⟩, c)
  else .ok (⟨path.text, .layer layerIdx, path.home = .pool⟩, c)

def isRegular (header : Bytes) : Bool := typeflag header = 48 ∨ typeflag header = 0

/-- `is_dir`. -/
def isDirectory (header : Bytes) : Bool := typeflag header = 53

/-- A member up to the decision of the newer layers: what it would add to the index, if anything. -/
def draftEntry (layerIdx : Nat) (bytes : Bytes) (s : Scan) : Except Halt (Option Draft × TarCtx) := do
  let (path, c) ← memberPath host bytes s
  match path with
  | none => .ok (none, c)
  | some path =>
    let header := headerAt bytes s.off
    if isRegular header then do
      let (found, c) ← classify host layerIdx path c
      .ok (some found, c)
    else if isDirectory header then .ok (none, c)
    else .ok (none, { c with skipped := min (c.skipped + 1) (2 ^ 16 - 1) })

/-- `eff_size`: the size a PAX header gave, or the header's own. -/
def effSize (s : Scan) (size : Nat) : Nat := if s.overrideSize = 0 then size else s.overrideSize

/-- Put an entry at the end of the index, and remember `app.wasm`. -/
def addEntry (layerIdx : Nat) (found : Draft) (off size : Nat) (c : TarCtx) : Except Halt TarCtx := do
  let entrypoint :=
    if found.layer = .layer layerIdx ∧ found.path = ascii "app.wasm" ∧ c.entrypoint = none then
      some ⟨layerIdx, off, size⟩
    else c.entrypoint
  let c ← makeRoom host c
  .ok { c with
    entrypoint
    index := c.index ++ [⟨⟨found.path, found.layer, off, size⟩, layerIdx, found.pooled⟩] }

def newer (c : TarCtx) (sortedLen : Nat) : List TarEntry := (c.index.take sortedLen).map (·.entry)

/-- A member: it becomes an entry unless a newer layer decides its path. -/
def scanMember (layerIdx sortedLen : Nat) (bytes : Bytes) (s : Scan) (size : Nat) :
    Except Halt Scan := do
  let (found, c) ← draftEntry host layerIdx bytes s
  let next : Scan :=
    { s with ctx := c, off := nextOff s.off size, overridePath := none, overrideSize := 0 }
  match found with
  | none => .ok next
  | some found =>
    if coveredByNewer (newer c sortedLen) found.path then .ok next
    else do
      let ctx ← addEntry host layerIdx found s.off (effSize s size) c
      .ok { next with ctx }

/-- One round of the loop of `indexLayer`. -/
def scanStep (layerIdx sortedLen : Nat) (bytes : Bytes) (s : Scan) : Except Halt Scan :=
  match headerKind bytes s.off with
  | .ending => .ok { s with stopped := true }
  | .zero =>
    if 2 ≤ s.emptyRun + 1 then .ok { s with emptyRun := s.emptyRun + 1, stopped := true }
    else .ok { s with emptyRun := s.emptyRun + 1, off := s.off + tarBlockSize }
  | .pax size => scanPax host bytes { s with emptyRun := 0 } size
  | .unused size => .ok { s with emptyRun := 0, off := nextOff s.off size }
  | .longName size =>
    .ok { s with
      emptyRun := 0, off := nextOff s.off size
      overridePath := (longNamePath bytes s.off size).or s.overridePath }
  | .member size => scanMember host layerIdx sortedLen bytes { s with emptyRun := 0 } size

/-- The loop of `indexLayer`. Every round that goes on moves by a block or more, so there are fewer
rounds than blocks. -/
def scanRounds (layerIdx sortedLen : Nat) (bytes : Bytes) : Nat → Scan → Except Halt Scan
  | 0, s => .ok s
  | rounds + 1, s =>
    if s.stopped then .ok s
    else do
      let next ← scanStep host layerIdx sortedLen bytes s
      scanRounds layerIdx sortedLen bytes rounds next

/-- The state at the start of a layer. -/
def scanStart (c : TarCtx) : Scan := ⟨c, 0, 0, none, 0, false⟩

/-- The rounds that a layer can take. -/
def layerRounds (bytes : Bytes) : Nat := bytes.length / tarBlockSize + 1

def indexLayer (layerIdx : Nat) (bytes : Bytes) (c : TarCtx) : Except Halt TarCtx := do
  let s ← scanRounds host layerIdx c.index.length bytes (layerRounds bytes) (scanStart c)
  .ok s.ctx

/-! ### All layers -/

/-- `indexCmp`: by path, a file before a marker. -/
def indexLe (a b : Placed) : Prop :=
  a.entry.path < b.entry.path ∨
    a.entry.path = b.entry.path ∧ (a.entry.isMarker → b.entry.isMarker)

instance : DecidableRel indexLe := fun _ _ => inferInstanceAs (Decidable (_ ∨ _ ∧ (_ → _)))

/-- The `qsort` after a layer. -/
def sortIndex (c : TarCtx) : TarCtx := { c with index := c.index.insertionSort indexLe }

/-- The loop of `TarFsInit` over the layers, newest first. -/
def indexLayers : List Bytes → Nat → TarCtx → Except Halt TarCtx
  | [], _, c => .ok c
  | bytes :: rest, layerIdx, c => do
    let c ← indexLayer host layerIdx bytes c
    indexLayers rest (layerIdx + 1) (sortIndex c)

def tarFsInit (layers : List Bytes) : Except Halt TarCtx := do
  if layers = [] ∨ host.maxLayers < layers.length then .error .refused
  else
    let c ← allocate host .empty
    if layers.any (· = []) then .error .refused else indexLayers host layers 0 c

end WantedEngine.Vfs
