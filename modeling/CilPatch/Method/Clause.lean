import CilPatch.Bytes.Align
import CilPatch.Bytes.Cursor

/-!
# Exception clauses

Behind the code of a method there may be sections with exception clauses (ECMA-335 II.25.4.6).
A small clause takes 12 bytes and a fat one 24; which are used depends on the number of clauses
and on the sizes of their fields.
-/

namespace CilPatch

/-- One exception clause, with offsets into the code. -/
structure Clause where
  /-- What kind of handler it is. -/
  flags : UInt16
  /-- Where the protected block starts. -/
  tryOffset : UInt32
  /-- How long the protected block is. -/
  tryLength : UInt32
  /-- Where the handler starts. -/
  handlerOffset : UInt32
  /-- How long the handler is. -/
  handlerLength : UInt32
  /-- The token of the caught type, or where the filter starts. -/
  detail : UInt32
  deriving DecidableEq, Repr

namespace Clause

/-- Set in the flags of a clause with a filter. -/
def filterFlag : UInt16 := 0x1

/-- The flags that have a meaning: filter, finally and fault. -/
def knownFlags : UInt16 := 0x7

/-- Whether every field fits a small clause. -/
def fitsSmall (clause : Clause) : Bool :=
  clause.tryOffset ≤ 0xFFFF && clause.tryLength ≤ 0xFF && clause.handlerOffset ≤ 0xFFFF &&
    clause.handlerLength ≤ 0xFF

/-- How many bytes a small clause takes. -/
def smallSize : Nat := 12

/-- How many bytes a fat clause takes. -/
def fatSize : Nat := 24

/-- Reads a small clause. -/
def readSmall : Read Clause := do
  let flags ← Read.u16
  let tryOffset ← Read.u16
  let tryLength ← Read.u8
  let handlerOffset ← Read.u16
  let handlerLength ← Read.u8
  let detail ← Read.u32
  return {
    flags := flags &&& knownFlags
    tryOffset := tryOffset.toUInt32
    tryLength := tryLength.toUInt32
    handlerOffset := handlerOffset.toUInt32
    handlerLength := handlerLength.toUInt32
    detail }

/-- Reads a fat clause. -/
def readFat : Read Clause := do
  let flags ← Read.u32
  let tryOffset ← Read.u32
  let tryLength ← Read.u32
  let handlerOffset ← Read.u32
  let handlerLength ← Read.u32
  let detail ← Read.u32
  return {
    flags := flags.toUInt16 &&& knownFlags
    tryOffset, tryLength, handlerOffset, handlerLength, detail }

/-- The bytes of a small clause. -/
def encodeSmall (clause : Clause) : List UInt8 :=
  LittleEndian.u16 clause.flags ++ (LittleEndian.encode 2 clause.tryOffset.toNat ++
    (LittleEndian.encode 1 clause.tryLength.toNat ++
    (LittleEndian.encode 2 clause.handlerOffset.toNat ++
    (LittleEndian.encode 1 clause.handlerLength.toNat ++ LittleEndian.u32 clause.detail))))

/-- The bytes of a fat clause. -/
def encodeFat (clause : Clause) : List UInt8 :=
  LittleEndian.encode 4 clause.flags.toNat ++ (LittleEndian.u32 clause.tryOffset ++
    (LittleEndian.u32 clause.tryLength ++ (LittleEndian.u32 clause.handlerOffset ++
    (LittleEndian.u32 clause.handlerLength ++ LittleEndian.u32 clause.detail))))

end Clause

namespace Section

/-- How many bytes stand in front of the clauses of a section. -/
def headerSize : Nat := 4

/-- The bit of a section that holds clauses. -/
def tableBit : Nat := 0

/-- The bit of a section with fat clauses and a wide size. -/
def fatBit : Nat := 6

/-- The bit of a section that another one follows. -/
def moreBit : Nat := 7

/-- The clauses in a section of a given size that starts at an offset. -/
def clauses (data : Bytes) (start size : Nat) (fat : Bool) : Except Fault (List Clause) :=
  let content := data.extract (start + headerSize) (start + size)
  if fat then Cursor.parse (Read.many Clause.readFat ((size - headerSize) / Clause.fatSize)) content
  else
    Cursor.parse (Read.many Clause.readSmall ((size - headerSize) / Clause.smallSize)) content

/-- The clauses of the sections from an offset on, at most `fuel` of them. -/
def readFrom (data : Bytes) : Nat → Nat → Except Fault (List Clause)
  | 0, _ => .error .outOfBounds
  | fuel + 1, start => do
      if data.size < start + headerSize then throw .outOfBounds
      let head := LittleEndian.wordAt data start headerSize
      let fat := head.testBit fatBit
      let size := if fat then head / 256 else head / 256 % 256
      if size < headerSize ∨ data.size < start + size then
        throw (.malformed (.bodySection size start))
      let found ← if head.testBit tableBit then clauses data start size fat else pure []
      if head.testBit moreBit then
        let rest ← readFrom data fuel (alignUp (start + size) 4)
        return found ++ rest
      else return found

/-- The clauses behind code that ends at an offset. A section takes at least four bytes, so
there are no more sections than bytes. -/
def read (data : Bytes) (codeEnd : Nat) : Except Fault (List Clause) :=
  readFrom data (data.size + 1) (alignUp codeEnd 4)

/-- The section that holds some clauses. -/
def encode (clauses : List Clause) : Except Fault (List UInt8) :=
  let small := headerSize + clauses.length * Clause.smallSize
  if small ≤ 0xFF ∧ clauses.all Clause.fitsSmall then
    .ok ([0x01, UInt8.ofNat small, 0, 0] ++ clauses.flatMap Clause.encodeSmall)
  else
    let fat := headerSize + clauses.length * Clause.fatSize
    if 0xFFFFFF < fat then .error (.output (.clauseCount clauses.length))
    else .ok (LittleEndian.encode 4 (0x41 + fat * 256) ++ clauses.flatMap Clause.encodeFat)

end Section

end CilPatch
