import CilPatch.Code.Decode
import CilPatch.Code.Encode
import CilPatch.Method.Header

/-!
# Method bodies

A body that can be edited: its instructions, its local variables, and its exception regions,
whose boundaries are instructions and not offsets. A region boundary without an instruction is
the end of the method.
-/

namespace CilPatch

/-- A local variable that was added to a method. -/
structure LocalSlot where
  /-- The type of the variable. -/
  type : TypeSig
  /-- What the variable is called, for readers only. -/
  name : Option String

/-- A protected block with its handler. -/
structure Region where
  /-- What kind of handler it is. -/
  kind : UInt16
  /-- The first protected instruction. -/
  tryStart : Slot
  /-- The first instruction behind the protected block. -/
  tryEnd : Option Slot
  /-- The first instruction of the handler. -/
  handlerStart : Slot
  /-- The first instruction behind the handler. -/
  handlerEnd : Option Slot
  /-- The first instruction of the filter. -/
  filterStart : Option Slot
  /-- The type of exceptions that are caught. -/
  catchType : Option Token
  deriving DecidableEq

namespace Region

/-- The instructions at the boundaries of a region. -/
def boundaries (region : Region) : List Slot :=
  [region.tryStart, region.handlerStart] ++ region.tryEnd.toList ++ region.handlerEnd.toList ++
    region.filterStart.toList

/-- A region with every boundary at one slot moved to another. -/
def retarget (region : Region) (source destination : Slot) : Region :=
  let move (slot : Slot) : Slot := if slot = source then destination else slot
  { region with
    tryStart := move region.tryStart
    tryEnd := region.tryEnd.map move
    handlerStart := move region.handlerStart
    handlerEnd := region.handlerEnd.map move
    filterStart := region.filterStart.map move }

/-- Moving a boundary moves it wherever it stands. -/
theorem boundaries_retarget (region : Region) (source destination : Slot) :
    (region.retarget source destination).boundaries =
      region.boundaries.map fun slot => if slot = source then destination else slot := by
  simp [boundaries, retarget, Option.toList_map]

/-- The position of a boundary; one that is not placed counts as the end of the method. -/
def boundaryPosition (list : InstrList) (boundary : Option Slot) : Nat :=
  (boundary.bind list.position?).getD list.length

/-- Whether a position lies between two boundaries. -/
def within (list : InstrList) (index : Nat) (start stop : Option Slot) : Bool :=
  boundaryPosition list start ≤ index && index < boundaryPosition list stop

/-- Whether a position lies in the protected block, the handler or the filter. -/
def covers (region : Region) (list : InstrList) (index : Nat) : Bool :=
  within list index (some region.tryStart) region.tryEnd ||
    within list index (some region.handlerStart) region.handlerEnd ||
    (region.filterStart.isSome &&
      within list index region.filterStart (some region.handlerStart))

end Region

/-- A method body that can be edited. -/
structure Body where
  /-- The instructions. -/
  instructions : InstrList
  /-- The exception regions. -/
  regions : List Region
  /-- How many values the evaluation stack can hold. -/
  maxStack : Nat
  /-- Whether local variables start as zero. -/
  initLocals : Bool
  /-- The token of the signature of the declared local variables. -/
  localSig : UInt32
  /-- How many local variables were declared. -/
  declared : Nat
  /-- The local variables that were added. -/
  added : List LocalSlot

namespace Body

/-- How many local variables there are. -/
def localCount (body : Body) : Nat := body.declared + body.added.length

/-- The instruction that a clause starts with. -/
def startSlot (code : DecodedCode) (offset : UInt32) : Except Fault Slot := do
  match ← code.slotAt offset.toNat with
  | some slot => return slot
  | none => throw (.malformed (.clauseStart offset))

/-- The instruction that follows a block of a clause. -/
def endSlot (code : DecodedCode) (offset length : UInt32) : Except Fault (Option Slot) :=
  if UInt32.size ≤ offset.toNat + length.toNat then
    .error (.malformed (.clauseOverflow offset length))
  else code.slotAt (offset.toNat + length.toNat)

/-- The region of a clause. -/
def regionOf (code : DecodedCode) (clause : Clause) : Except Fault Region := do
  let tryStart ← startSlot code clause.tryOffset
  let tryEnd ← endSlot code clause.tryOffset clause.tryLength
  let handlerStart ← startSlot code clause.handlerOffset
  let handlerEnd ← endSlot code clause.handlerOffset clause.handlerLength
  let filterStart ← if clause.flags &&& Clause.filterFlag != 0 then
    some <$> startSlot code clause.detail else pure none
  let catchType := if clause.flags = 0 ∧ clause.detail ≠ 0 then some (Token.mk clause.detail)
    else none
  return {
    kind := clause.flags
    tryStart, tryEnd, handlerStart, handlerEnd, filterStart, catchType }

/-- Decodes the code of a method with a number of declared local variables. -/
def decode (header : MethodHeader) (code : Bytes) (declared : Nat) : Except Fault Body := do
  let decoded ← Code.decode code
  let regions ← header.clauses.mapM (regionOf decoded)
  return {
    instructions := decoded.instructions
    regions
    maxStack := header.maxStack
    initLocals := header.initLocals
    localSig := header.localSig
    declared
    added := [] }

/-- The least number of local variables to which no other can be added. -/
def localLimit : Nat := 0xFFFF

/-- Adds a local variable; its index is the count of those before it. -/
def addLocal (body : Body) (slot : LocalSlot) : Except Fault Body :=
  if body.localCount < localLimit then .ok { body with added := body.added ++ [slot] }
  else .error (.output .localTableFull)

/-- Whether a position lies in a region. -/
def isProtected (body : Body) (index : Nat) : Bool :=
  body.regions.any fun region => region.covers body.instructions index

/-- How far a boundary lies behind an offset. -/
def lengthTo (code : EncodedCode) (start : Nat) (stop : Option Slot) : Except Fault Nat := do
  let stop ← code.offsetOf stop
  if stop < start then throw (.branch .clauseOrder)
  return stop - start

/-- The clause of a region. -/
def clauseOf (code : EncodedCode) (region : Region) : Except Fault Clause := do
  let tryOffset ← code.offsetOf (some region.tryStart)
  let handlerOffset ← code.offsetOf (some region.handlerStart)
  let tryLength ← lengthTo code tryOffset region.tryEnd
  let handlerLength ← lengthTo code handlerOffset region.handlerEnd
  let detail ← match region.filterStart with
    | some filter => code.offsetOf (some filter)
    | none => pure ((region.catchType.map fun token => token.value.toNat).getD 0)
  return {
    flags := region.kind
    tryOffset := UInt32.ofNat tryOffset
    tryLength := UInt32.ofNat tryLength
    handlerOffset := UInt32.ofNat handlerOffset
    handlerLength := UInt32.ofNat handlerLength
    detail := UInt32.ofNat detail }

/-- The stored form of a body with a local signature, and how many branches were made long. -/
def encode (body : Body) (localSig : UInt32) : Except Fault (List UInt8 × Nat) := do
  let encoded ← Code.encode body.instructions
  let clauses ← body.regions.mapM (clauseOf encoded)
  let header : MethodHeader := {
    codeSize := encoded.code.length
    headerSize := 0
    localSig
    maxStack := body.maxStack
    isFat := false
    initLocals := body.initLocals
    clauses }
  let bytes ← header.encode encoded.code
  return (bytes, encoded.relaxed)

end Body

end CilPatch
