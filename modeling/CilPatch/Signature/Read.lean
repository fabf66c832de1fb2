import CilPatch.Bytes.Compressed
import CilPatch.Signature.Element

/-!
# Reading signatures

The reader of one level of a type is written over the reader of the next level, so nesting is
bounded by how many levels are stacked. Every other rule reads forward and never looks back.
-/

namespace CilPatch.Signature

/-- The nesting depth at which reading is given up. -/
def depthLimit : Nat := 50

/-- Custom modifiers, as many as there are but at most `fuel`. -/
def readModifiersWithin : Nat → Read (List Token)
  | 0 => return []
  | fuel + 1 => do
      let cursor ← get
      if !cursor.hasMore then return []
      if !Element.isModifier (← Read.peek) then return []
      Read.skip 1
      let token ← Read.compressedToken
      let rest ← readModifiersWithin fuel
      return token :: rest

/-- All custom modifiers at the cursor. -/
def readModifiers : Read (List Token) := do
  let cursor ← get
  readModifiersWithin (cursor.data.size - cursor.pos)

/-- Reads a byte if it is the given one, and tells whether it was. -/
def readMark (mark : UInt8) : Read Bool := do
  if (← Read.peek) = mark then
    Read.skip 1
    return true
  else return false

/-- A parameter or return value, over the reader of its type. -/
def readParameter (type : Read TypeSig) : Read (Parameter TypeSig) := do
  let _ ← readModifiers
  let byRef ← readMark Element.byRef
  return { byRef, type := ← type }

/-- A method signature, over the reader of its types. -/
def readMethodOver (type : Read TypeSig) : Read MethodSig := do
  let convention ← Read.u8
  let generics ← if convention &&& 0x10 != 0 then Read.compressed else pure 0
  let count ← Read.compressed
  let ret ← readParameter type
  let params ← Read.many (do
    let _ ← readMark Element.sentinel
    readParameter type) count.toNat
  return {
    hasThis := convention &&& 0x20 != 0
    explicitThis := convention &&& 0x40 != 0
    generics, ret, params }

/-- One level of a type that has parts and begins with a byte that was read, over the reader of
its parts. -/
def readParts (type : Read TypeSig) (byte : UInt8) : Read TypeSig := do
  if byte = Element.ptr then
    let _ ← readModifiers
    return .ptr (← type)
  else if byte = Element.byRef then return .byRef (← type)
  else if byte = Element.valueType then return .valueType (← Read.compressedToken)
  else if byte = Element.classType then return .classType (← Read.compressedToken)
  else if byte = Element.typeParam then return .typeParam (← Read.compressed)
  else if byte = Element.array then
    let base ← type
    let rank ← Read.compressed
    let sizes ← Read.compressed
    let _ ← Read.many Read.compressed sizes.toNat
    let bounds ← Read.compressed
    let _ ← Read.many Read.compressed bounds.toNat
    return .array base rank
  else if byte = Element.genericInst then
    let next ← Read.peek
    if next != Element.classType && next != Element.valueType then
      throw (.malformed (.genericBase next))
    let base ← type
    let count ← Read.compressed
    return .genericInst base (← Read.many type count.toNat)
  else if byte = Element.fnPtr then return .fnPtr (← readMethodOver type)
  else if byte = Element.szArray then
    let _ ← readModifiers
    return .szArray (← type)
  else if byte = Element.methodParam then return .methodParam (← Read.compressed)
  else if byte = Element.pinned then return .pinned (← type)
  else if Element.isModifier byte then
    let _ ← Read.compressedToken
    let _ ← readModifiers
    type
  else throw (.malformed (.elementType byte))

/-- One level of a type, over the reader of its parts. -/
def readLevel (type : Read TypeSig) : Read TypeSig := do
  let byte ← Read.u8
  match Element.simple? byte with
  | some simple => return simple
  | none => readParts type byte

/-- A type of at most as many levels as given. -/
def readTypeWithin : Nat → Read TypeSig
  | 0 => throw (.malformed (.signatureDepth depthLimit))
  | levels + 1 => readLevel (readTypeWithin levels)

/-- A type. -/
def readType : Read TypeSig := readTypeWithin (depthLimit - 1)

/-- A method signature. -/
def readMethod : Read MethodSig := readMethodOver readType

/-- A field signature. -/
def readField : Read FieldSig := do
  let head ← Read.u8
  if head != Element.fieldHead then throw (.malformed (.fieldHead head))
  let modifiers ← readModifiers
  return { modifiers, type := ← readType }

/-- The head of a local variable signature: how many variables follow. -/
def readLocalsHead : Read UInt32 := do
  let head ← Read.u8
  if head != Element.localsHead then throw (.malformed (.localsHead head))
  Read.compressed

/-- The marks in front of the type of a local variable, at most `fuel` of them: whether it is a
reference and whether it is pinned. -/
def readLocalMarks : Nat → Bool → Bool → Read (Bool × Bool)
  | 0, isByRef, isPinned => return (isByRef, isPinned)
  | fuel + 1, isByRef, isPinned => do
      let cursor ← get
      if !cursor.hasMore then return (isByRef, isPinned)
      let byte ← Read.peek
      if Element.isModifier byte then
        Read.skip 1
        let _ ← Read.compressedToken
        readLocalMarks fuel isByRef isPinned
      else if byte = Element.pinned then
        Read.skip 1
        readLocalMarks fuel isByRef true
      else if byte = Element.byRef then
        Read.skip 1
        readLocalMarks fuel true isPinned
      else return (isByRef, isPinned)

/-- One local variable. -/
def readLocal : Read LocalSig := do
  if ← readMark Element.typedByRef then return { type := .typedByRef }
  let cursor ← get
  let (isByRef, isPinned) ← readLocalMarks (cursor.data.size - cursor.pos) false false
  return { isByRef, isPinned, type := ← readType }

/-- A local variable signature. -/
def readLocals : Read (List LocalSig) := do
  let count ← readLocalsHead
  Read.many readLocal count.toNat

end CilPatch.Signature
