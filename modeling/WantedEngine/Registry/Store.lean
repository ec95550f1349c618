import WantedEngine.Registry.Record
/-!
# The store interface

What a storage backing implements for the registry (`registry-store.h`): blobs keyed by the
digest of their bytes, and the entry records that list them. A store is a state and its
operations. An operation returns what the source's function returns and the state after it;
the reads return no state, since no backing changes on a read.
-/
namespace WantedEngine.Registry

/-- `registry_blob_map_t`: a blob mapped as one read-only range. The length is that of the
bytes. -/
structure BlobMap where
  ptr : Nat
  /-- The bytes a reader of the range sees. -/
  bytes : Bytes
  /-- The store's own handle: which blob the mapping is of. -/
  handle : Digest
  deriving DecidableEq

/-- `registry_store_ops_t` over a state. -/
structure StoreOps (σ : Type) where
  /-- Rebuild what the store keeps in memory. -/
  init : σ → σ
  /-- Open the one stage. -/
  stageBegin : σ → Rc Unit × σ
  /-- Append bytes to the stage; the answer is the number taken. -/
  stageWrite : σ → Bytes → Rc Nat × σ
  /-- Keep the staged bytes as a blob, or drop the copy of a blob the store holds. -/
  stageEnd : σ → Digest → Nat → Rc Unit × σ
  /-- Drop the stage. -/
  stageAbort : σ → σ
  /-- Map a whole blob. -/
  blobMap : σ → Digest → Nat → Rc BlobMap × σ
  /-- Release a mapping. -/
  blobUnmap : σ → BlobMap → σ
  /-- Whether the store holds a blob. -/
  blobHas : σ → Digest → Bool
  /-- Free a blob. -/
  blobDrop : σ → Digest → Rc Unit × σ
  /-- Every blob the store holds. -/
  blobList : σ → Rc (List Digest)
  /-- Replace a record whole or not at all. -/
  recPut : σ → Key → Bytes → Rc Unit × σ
  /-- Read a record of at most so many bytes. -/
  recGet : σ → Key → Nat → Rc Bytes
  /-- Remove a record. -/
  recDel : σ → Key → Rc Unit × σ
  /-- The keys of the records. -/
  recList : σ → Rc (List Key)

end WantedEngine.Registry
