import CilPatch.Bytes.LittleEndian
import CilPatch.Fault

/-!
# Cursors

A cursor is a position in a block of bytes. A reading step either yields a value and moves the
cursor past what it read, or yields a fault; the cursor is then where the step gave up, so a
step that fails on its first read leaves the cursor where it was.
-/

namespace CilPatch

/-- A position in a block of bytes. -/
structure Cursor where
  /-- The whole block. -/
  data : Bytes
  /-- How many bytes lie before the position. -/
  pos : Nat := 0

/-- A reading step. -/
abbrev Read (α : Type) := ExceptT Fault (StateM Cursor) α

namespace Cursor

/-- The bytes from the position on. -/
def rest (cursor : Cursor) : List UInt8 := cursor.data.toList.drop cursor.pos

/-- Whether there are bytes left. -/
def hasMore (cursor : Cursor) : Bool := cursor.pos < cursor.data.size

/-- Runs a reading step from the start of a block. -/
def parse {α : Type} (step : Read α) (data : Bytes) : Except Fault α :=
  (step.run ⟨data, 0⟩).1

end Cursor

/-- A block with some bytes written over those from an offset on, all of which must be there. -/
def writeAt (data : Bytes) (offset : Nat) (bytes : List UInt8) : Except Fault Bytes :=
  if data.size < offset + bytes.length then .error .outOfBounds
  else .ok (LittleEndian.overwrite data offset bytes)

/-- Writing into a block keeps its size. -/
theorem size_writeAt {data written : Bytes} {offset : Nat} {bytes : List UInt8}
    (h : writeAt data offset bytes = .ok written) : written.size = data.size := by
  unfold writeAt at h
  split at h
  · simp at h
  · rw [← Except.ok.inj h, LittleEndian.size_overwrite]

namespace Read

/-- A step after another goes on where that one stopped, unless it gave up. -/
theorem run_bind {α β : Type} (step : Read α) (next : α → Read β) (cursor : Cursor) :
    (step >>= next).run cursor =
      match step.run cursor with
      | (.ok value, after) => (next value).run after
      | (.error fault, after) => (.error fault, after) := by
  change (match step.run cursor with
    | (result, after) => ExceptT.bindCont next result after) = _
  rcases step.run cursor with ⟨_ | _, _⟩ <;> rfl

/-- Moves to a position; the end of the block is one. -/
def seek (pos : Nat) : Read Unit := do
  let cursor ← get
  if cursor.data.size < pos then throw .outOfBounds
  set { cursor with pos }

/-- Moving is refused past the end of the block, and the position then stays. -/
theorem run_seek (pos : Nat) (cursor : Cursor) :
    (seek pos).run cursor =
      if cursor.data.size < pos then (.error .outOfBounds, cursor)
      else (.ok (), { cursor with pos }) := by
  change (if cursor.data.size < pos then (throw Fault.outOfBounds : Read Unit)
    else set ({ cursor with pos } : Cursor)).run cursor = _
  split <;> rfl

/-- Moves forward by a number of bytes. -/
def skip (count : Nat) : Read Unit := do
  let cursor ← get
  seek (cursor.pos + count)

/-- Moves forward to a multiple of an alignment. -/
def align (alignment : Nat) : Read Unit := do
  let cursor ← get
  skip ((alignment - cursor.pos % alignment) % alignment)

/-- The next byte, which stays unread. -/
def peek : Read UInt8 := do
  let cursor ← get
  match cursor.data[cursor.pos]? with
  | some byte => return byte
  | none => throw .outOfBounds

/-- The next bytes. -/
def bytes (count : Nat) : Read Bytes := do
  let cursor ← get
  skip count
  return cursor.data.extract cursor.pos (cursor.pos + count)

/-- Bytes are read when all of them are there, and the position stays otherwise. -/
theorem run_bytes (count : Nat) (cursor : Cursor) :
    (bytes count).run cursor =
      if cursor.data.size < cursor.pos + count then (.error .outOfBounds, cursor)
      else (.ok (cursor.data.extract cursor.pos (cursor.pos + count)),
        { cursor with pos := cursor.pos + count }) := by
  change (seek (cursor.pos + count) >>= fun _ =>
    pure (cursor.data.extract cursor.pos (cursor.pos + count))).run cursor = _
  rw [run_bind, run_seek]
  by_cases h : cursor.data.size < cursor.pos + count
  · simp only [h, if_true]
  · simp only [h, if_false]
    rfl

/-- The number in the next bytes, least significant first. -/
def word (width : Nat) : Read Nat := do
  return LittleEndian.decode (← bytes width).toList

/-- A word is read when all its bytes are there, and the position stays otherwise. -/
theorem run_word (width : Nat) (cursor : Cursor) :
    (word width).run cursor =
      if cursor.data.size < cursor.pos + width then (.error .outOfBounds, cursor)
      else (.ok (LittleEndian.wordAt cursor.data cursor.pos width),
        { cursor with pos := cursor.pos + width }) := by
  rw [word, run_bind, run_bytes]
  by_cases h : cursor.data.size < cursor.pos + width
  · simp only [h, if_true]
  · simp only [h, if_false]
    rfl

/-- The next byte. -/
def u8 : Read UInt8 := do return UInt8.ofNat (← word 1)

/-- The next 16-bit word. -/
def u16 : Read UInt16 := do return UInt16.ofNat (← word 2)

/-- The next 32-bit word. -/
def u32 : Read UInt32 := do return UInt32.ofNat (← word 4)

/-- The next 64-bit word. -/
def u64 : Read UInt64 := do return UInt64.ofNat (← word 8)

/-- An index column of two or four bytes. -/
def column (large : Bool) : Read UInt32 := do
  return UInt32.ofNat (← word (if large then 4 else 2))

/-- Takes a step a number of times and lists what it yields. -/
def many {α : Type} (step : Read α) : Nat → Read (List α)
  | 0 => return []
  | count + 1 => do
      let first ← step
      let rest ← many step count
      return first :: rest

/-- The text before the next zero byte, which is read too. -/
def text : Read String := do
  let cursor ← get
  let chars := cursor.rest.takeWhile (· != 0)
  if cursor.rest.length ≤ chars.length then throw .outOfBounds
  match String.fromUTF8? ⟨chars.toArray⟩ with
  | none => throw (.malformed (.textEncoding cursor.pos))
  | some text =>
      seek (cursor.pos + chars.length + 1)
      return text

end Read

end CilPatch
