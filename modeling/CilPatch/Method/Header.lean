import CilPatch.Method.Clause

/-!
# Method headers

The stored form of a method body is a header, the code, and sections behind the code
(ECMA-335 II.25.4). A tiny header is one byte and serves short code without locals and
clauses; a fat header has at least twelve bytes.
-/

namespace CilPatch

/-- What the header of a stored method body and the sections behind it say. -/
structure MethodHeader where
  /-- How many bytes of code there are. -/
  codeSize : Nat
  /-- How many bytes the header has. -/
  headerSize : Nat
  /-- The token of the signature of the local variables. -/
  localSig : UInt32
  /-- How many values the evaluation stack can hold. -/
  maxStack : Nat
  /-- Whether the header is fat. -/
  isFat : Bool
  /-- Whether local variables start as zero. -/
  initLocals : Bool
  /-- The exception clauses. -/
  clauses : List Clause
  deriving DecidableEq, Repr

namespace MethodHeader

/-- The stack limit that a tiny header stands for. -/
def tinyStack : Nat := 8

/-- The least code size that no tiny header can say. -/
def tinyLimit : Nat := 64

/-- How many bytes a fat header has at least. -/
def fatSize : Nat := 12

/-- The bit of a fat header that sections follow. -/
def sectionsBit : Nat := 3

/-- The bit of a fat header whose local variables start as zero. -/
def initBit : Nat := 4

/-- Reads a tiny header. -/
def readTiny (data : Bytes) (first : UInt8) : Except Fault MethodHeader :=
  let codeSize := first.toNat / 4
  if data.size < codeSize + 1 then .error .outOfBounds
  else .ok {
    codeSize, headerSize := 1, localSig := 0, maxStack := tinyStack, isFat := false
    initLocals := false, clauses := [] }

/-- Reads a fat header and the sections behind the code. -/
def readFat (data : Bytes) : Except Fault MethodHeader := do
  if data.size < fatSize then throw .outOfBounds
  let word := LittleEndian.wordAt data
  let flags := word 0 2
  let headerSize := (flags >>> 12) * 4
  if headerSize < fatSize then throw (.malformed (.bodyHeaderSize headerSize))
  let codeSize := word 4 4
  if data.size < codeSize + headerSize then throw .outOfBounds
  let clauses ← if flags.testBit sectionsBit then Section.read data (headerSize + codeSize)
    else pure []
  return {
    codeSize, headerSize, clauses
    localSig := UInt32.ofNat (word 8 4)
    maxStack := word 2 2
    isFat := true
    initLocals := flags.testBit initBit }

/-- Reads the header of the body at the start of some data. -/
def read (data : Bytes) : Except Fault MethodHeader :=
  match data[0]? with
  | none => .error (.malformed .emptyBody)
  | some first =>
      if first.toNat % 4 = 2 then readTiny data first
      else if first.toNat % 4 = 3 then readFat data
      else .error (.malformed (.bodyHeaderKind first))

/-- The code of the body that a header was read from. -/
def code (header : MethodHeader) (data : Bytes) : Except Fault Bytes :=
  if data.size < header.headerSize + header.codeSize then .error .outOfBounds
  else .ok (data.extract header.headerSize (header.headerSize + header.codeSize))

/-- Whether a tiny header can say everything about a body with code of a given size. -/
def isTiny (header : MethodHeader) (codeSize : Nat) : Bool :=
  codeSize < tinyLimit && header.maxStack ≤ tinyStack && header.localSig == 0 &&
    !header.initLocals && header.clauses.isEmpty

/-- The stored form of a body with the given code. -/
def encode (header : MethodHeader) (code : List UInt8) : Except Fault (List UInt8) :=
  if header.isTiny code.length then .ok (UInt8.ofNat (code.length * 4 + 2) :: code)
  else if UInt16.size ≤ header.maxStack then .error (.output (.maxStack header.maxStack))
  else if UInt32.size ≤ code.length then .error (.output (.codeSize code.length))
  else
    let flags := 0x3003 + (if header.initLocals then 1 <<< initBit else 0) +
      (if header.clauses.isEmpty then 0 else 1 <<< sectionsBit)
    let body := LittleEndian.encode 2 flags ++ (LittleEndian.encode 2 header.maxStack ++
      (LittleEndian.encode 4 code.length ++ (LittleEndian.u32 header.localSig ++ code)))
    if header.clauses.isEmpty then .ok body
    else do
      let clauses ← Section.encode header.clauses
      return padTo body 4 ++ clauses

end MethodHeader

end CilPatch
