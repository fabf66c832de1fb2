import CilPatch.Fault

/-!
# The GUID heap

Identifiers of sixteen bytes, counted from one. In text the first three groups are words with
the least significant byte first, and the last two are bytes in order.
-/

namespace CilPatch

/-- An identifier of sixteen bytes in the order in which they are stored. -/
structure Guid where
  /-- The stored bytes. -/
  bytes : List UInt8
  deriving DecidableEq

namespace Guid

/-- The five groups of an identifier in lowercase digits. -/
def text (guid : Guid) : String :=
  let group (start stop : Nat) : List UInt8 := (guid.bytes.take stop).drop start
  "-".intercalate
    [Hex.bytes (group 0 4).reverse, Hex.bytes (group 4 6).reverse,
      Hex.bytes (group 6 8).reverse, Hex.bytes (group 8 10), Hex.bytes (group 10 16)]

end Guid

/-- A GUID heap. -/
structure GuidHeap where
  /-- The stored bytes. -/
  data : Array UInt8

namespace GuidHeap

/-- Takes a block of bytes as a GUID heap. -/
def ofBytes (data : Array UInt8) : Except Fault GuidHeap :=
  if data.size % 16 = 0 then .ok ⟨data⟩ else .error (.malformed (.guidHeapSize data.size))

/-- The identifier with a number, counted from one. -/
def get (heap : GuidHeap) (index : Nat) : Except Fault Guid :=
  if index < 1 ∨ heap.data.size < index * 16 then .error .outOfBounds
  else .ok ⟨(heap.data.extract ((index - 1) * 16) (index * 16)).toList⟩

end GuidHeap

end CilPatch
