import WantedEngine.Vfs.PlatformDriver
/-!
# The index of the TarFS

The sorted index that `vfs-tarfs.c` builds from the layers of an image, and the lookups on it:
exact match for a file, and the entries with a common beginning for a directory, which no entry
of its own represents. Whiteouts and opaque directories stand in the index as markers.
-/
namespace WantedEngine.Vfs

/-- `layer_idx` of an entry: the layer it is served from, `TARFS_WHITEOUT` or `TARFS_OPAQUE`. -/
inductive EntryLayer where
  | layer (index : Nat)
  | whiteout
  | opq
  deriving DecidableEq

/-- `tar_index_entry_t`, with the path as the bytes its pointer leads to. -/
structure TarEntry where
  /-- The path, without a leading slash. -/
  path : Bytes
  /-- The layer the entry is served from, or what it marks. -/
  layer : EntryLayer
  hdrOffset : Nat
  size : Nat
  deriving DecidableEq

/-- `isMarker`: an entry that only marks a whiteout or an opaque directory. -/
def TarEntry.isMarker (entry : TarEntry) : Bool :=
  match entry.layer with
  | .layer _ => false
  | .whiteout => true
  | .opq => true

/-- The search of `lowerBound` between two places. The distance halves, so the fuel is the
length of the index. -/
def lowerBoundFrom (index : List TarEntry) (key : Bytes) : Nat → Nat → Nat → Nat
  | 0, low, _ => low
  | fuel + 1, low, high =>
    if low < high then
      let middle := low + (high - low) / 2
      if (index.getD middle ⟨[], .opq, 0, 0⟩).path < key then
        lowerBoundFrom index key fuel (middle + 1) high
      else lowerBoundFrom index key fuel low middle
    else low

/-- `lowerBound`: the first place of a sorted index whose path is not below the key. -/
def lowerBound (index : List TarEntry) (key : Bytes) : Nat :=
  lowerBoundFrom index key (index.length + 1) 0 index.length

end WantedEngine.Vfs
