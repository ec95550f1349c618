import WantedEngine.Vfs.TarLookup
/-!
# The entry point of an image

`TarFsInit` remembers where the first `app.wasm` lies that no newer layer decides. It is the file that
`TarFs_Open` finds, however `qsort` leaves equal entries, if `app.wasm` is only once in the index.
-/
namespace WantedEngine.Vfs

open Foundation List

/-- The entry of a file `app.wasm`. -/
def appEntry (point : Entrypoint) : TarEntry :=
  ⟨ascii "app.wasm", .layer point.layer, point.hdrOffset, point.len⟩

/-- The entry point is a file `app.wasm` of the index, and there is one if the index has such a file. -/
def Captured (c : TarCtx) : Prop :=
  (∀ point, c.entrypoint = some point → appEntry point ∈ c.index.map (·.entry)) ∧
    ∀ point, appEntry point ∈ c.index.map (·.entry) → c.entrypoint ≠ none

variable {host : TarHost}

lemma Captured.adds {layerIdx size : Nat} {bytes : Bytes} {s : Scan} {draft : Draft}
    {drafted after : TarCtx} (made : draftEntry host layerIdx bytes s = .ok (some draft, drafted))
    (added : AddsEntry layerIdx (placedAt layerIdx draft s size) s.ctx after) (captured : Captured s.ctx) :
    Captured after := by
  rw [Captured, added.index, added.entrypoint, map_append, map_singleton]
  simp only [mem_append, mem_singleton]
  split
  · rename_i first
    refine ⟨fun point same => .inr ?_, nofun⟩
    cases same
    rw [appEntry, ← first.1, ← first.2.1]
  rename_i other
  refine ⟨fun point same => .inl (captured.1 point same), ?_⟩
  rintro point (listed | same) missing
  · exact captured.2 point listed missing
  have file := (congrArg TarEntry.layer same).symm
  exact other ⟨file.trans (congrArg _ (draftEntry_layer made file)),
    (congrArg TarEntry.path same).symm, missing⟩

lemma tarFsInit_captured {layers : List Bytes} {ctx : TarCtx}
    (succeeds : tarFsInit host layers = .ok ctx) : Captured ctx := by
  obtain ⟨c, -, empty, indexed⟩ := tarFsInit_ok succeeds
  refine indexLayers_invariant Captured ?_ Captured.adds ?_ indexed ?_
  · intro c after kept captured
    rwa [Captured, kept.1, kept.2]
  · intro c captured
    simp only [Captured, mem_map, mem_sortIndex] at captured ⊢
    exact captured
  · rw [Captured, empty.1, empty.2]
    exact ⟨nofun, nofun⟩

/-! ### Reading to the end -/

/-- The bytes a read takes. -/
def TarAccess.bytes (layers : List Bytes) (access : TarAccess) : Bytes :=
  field (layers.getD access.layer []) access.start access.count

/-- What reads of so many bytes return, one after the other, and the handle after them. -/
def readAll (layers : List Bytes) (handle : TarHandle) : List Nat → Bytes × TarHandle
  | [] => ([], handle)
  | nbyte :: rest =>
    let read := tarFsRead handle nbyte
    let later := readAll layers read.2 rest
    (read.1.elim [] (·.bytes layers) ++ later.1, later.2)

lemma readAll_file (layers : List Bytes) (layer hdrOffset size : Nat) {pos : Nat} (within : pos ≤ size)
    (sizes : List Nat) :
    ∃ count, pos + count ≤ size ∧ readAll layers (.file layer hdrOffset size pos) sizes =
      (field (layers.getD layer []) (hdrOffset + tarBlockSize + pos) count,
        .file layer hdrOffset size (pos + count)) := by
  induction sizes generalizing pos with
  | nil => exact ⟨0, within, by simp [readAll, field]⟩
  | cons nbyte rest ih =>
    simp only [readAll, tarFsRead]
    split
    · obtain ⟨count, bound, read⟩ := ih within
      exact ⟨count, bound, by simp [read]⟩
    have fits : min (min nbyte (size - pos)) (2 ^ 31 - 1) ≤ size - pos :=
      (Nat.min_le_left _ _).trans (Nat.min_le_right _ _)
    generalize min (min nbyte (size - pos)) (2 ^ 31 - 1) = n at fits ⊢
    obtain ⟨count, bound, read⟩ := ih (show pos + n ≤ size by omega)
    refine ⟨n + count, by omega, ?_⟩
    simp [read, TarAccess.bytes, field, take_add, Nat.add_assoc]

/-- `TarFsEntrypointWasm` returns nothing where `app.wasm` does not open as a file, and otherwise the
bytes that reads to the end of that file return. -/
structure EntrypointOpens (layers : List Bytes) (ctx : TarCtx) (index : List TarEntry) : Prop where
  absent : ctx.entrypoint = none ↔ ∀ layer hdrOffset size pos,
    tarFsOpen index (ascii "app.wasm") 0 ≠ some (.file layer hdrOffset size pos)
  bytes : ∀ point, ctx.entrypoint = some point → ∃ handle,
    tarFsOpen index (ascii "app.wasm") 0 = some handle ∧ ∀ sizes,
      (tarFsRead (readAll layers handle sizes).2 1).1 = none → (readAll layers handle sizes).1 =
        field (layers.getD point.layer []) (point.hdrOffset + tarBlockSize) point.len

/-- A layer with one member of four bytes. -/
def oneMember (name : String) : Bytes := plainHeader name "4" 48 ++ padded 512 (ascii "data")

end WantedEngine.Vfs
