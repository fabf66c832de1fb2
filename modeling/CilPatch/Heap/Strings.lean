import CilPatch.Bytes.Cursor

/-!
# The string heap

Names are stored as UTF-8 text that ends at a zero byte. An index is the offset of the first
byte of a text, and may point into the middle of a longer one.
-/

namespace CilPatch

/-- A string heap, which starts with the empty text. -/
structure StringHeap where
  /-- The stored bytes. -/
  data : Bytes

namespace StringHeap

/-- Takes a block of bytes as a string heap. -/
def ofBytes (data : Bytes) : Except Fault StringHeap :=
  if data[0]? = some 0 then .ok ⟨data⟩ else .error (.malformed .emptyStringHeap)

/-- The first zero byte at an index or after it, looking at no more than `fuel` bytes. -/
def findZero (data : Bytes) : Nat → Nat → Option Nat
  | 0, _ => none
  | fuel + 1, index =>
      match data[index]? with
      | none => none
      | some byte => if byte = 0 then some index else findZero data fuel (index + 1)

/-- The text at an index. -/
def get (heap : StringHeap) (index : Nat) : Except Fault String :=
  if heap.data.size ≤ index then .error .outOfBounds
  else
    let text := (findZero heap.data heap.data.size index).bind fun stop =>
      String.fromUTF8? ⟨heap.data.extract index stop⟩
    match text with
    | some text => .ok text
    | none => .error (.malformed (.stringIndex index))

end StringHeap

end CilPatch
