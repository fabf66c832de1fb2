import CilPatch.Bytes.Compressed

/-!
# The blob heap

A blob is a compressed length followed by that many bytes. An index is the offset of the
length, and may point anywhere. New blobs are put at the end, so every index keeps its blob.
-/

namespace CilPatch

/-- A blob heap, which starts with the empty blob. -/
structure BlobHeap where
  /-- The stored bytes. -/
  data : Bytes

namespace BlobHeap

/-- Takes a block of bytes as a blob heap. -/
def ofBytes (data : Bytes) : Except Fault BlobHeap :=
  if data[0]? = some 0 then .ok ⟨data⟩ else .error (.malformed .blobHeapStart)

/-- Reads one blob. -/
def read : Read Bytes := do
  let length ← Read.compressed
  Read.bytes length.toNat

/-- The blob at an index. -/
def get (heap : BlobHeap) (index : Nat) : Except Fault Bytes :=
  if heap.data.size ≤ index then .error .outOfBounds
  else (read.run ⟨heap.data, index⟩).1

/-- The least size that a heap or a blob cannot have. -/
def sizeLimit : Nat := UInt32.size

/-- Puts a blob at the end of a block of bytes and yields its index. An empty block first gets
the empty blob, which stays even when the new blob is refused. -/
def append (data blob : Bytes) : Bytes × Except Fault UInt32 :=
  let data := if data.isEmpty then #[0] else data
  if sizeLimit ≤ data.size then (data, .error (.malformed .blobHeapSize))
  else if sizeLimit ≤ blob.size then (data, .error (.malformed .blobSize))
  else
    match Compressed.encode blob.size with
    | .error fault => (data, .error fault)
    | .ok head => (data ++ head ++ blob, .ok (UInt32.ofNat data.size))

end BlobHeap

end CilPatch
