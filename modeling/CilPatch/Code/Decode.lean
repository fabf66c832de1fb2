import CilPatch.Bytes.Cursor
import CilPatch.Code.InstrList
import Std.Data.HashMap

/-!
# Decoding code

Code is decoded in two passes. The first reads one instruction after another and keeps jumps
as the offsets they lead to; the second replaces each offset by the instruction that starts
there. A jump that leads into the middle of an instruction makes the code malformed.
-/

namespace CilPatch

/-- An operand whose jumps are still offsets. -/
inductive RawOperand where
  /-- An operand without jumps. -/
  | ready (operand : Operand)
  /-- A jump to an offset. -/
  | jump (target : Int)
  /-- Jumps to several offsets. -/
  | jumps (targets : List Int)

/-- An instruction as it is read first. -/
structure RawInstruction where
  /-- Where the instruction starts. -/
  offset : Nat
  /-- The opcode. -/
  opcode : Opcode
  /-- The operand. -/
  operand : RawOperand

/-- Decoded code. -/
structure DecodedCode where
  /-- The instructions, placed in the order of their slots. -/
  instructions : InstrList
  /-- The slots of the instructions, by the offsets at which they start. -/
  starts : Std.HashMap Nat Slot
  /-- How many bytes the code has. -/
  size : Nat

namespace Code

/-- The next opcode, which must have a meaning. -/
def readOpcode : Read Opcode := do
  let cursor ← get
  let first ← Read.u8
  let opcode ← if first = Opcode.escape then Opcode.extended <$> Read.u8
    else pure (Opcode.single first)
  if opcode.isValid then return opcode
  else throw (.instruction (.reserved opcode cursor.pos))

/-- The targets of a switch, counted from the end of its operand. -/
def readSwitch : Read RawOperand := do
  let count ← Read.u32
  let cursor ← get
  if cursor.data.size < cursor.pos + 4 * count.toNat then
    throw (.malformed (.switchCount count))
  let distances ← Read.many Read.u32 count.toNat
  let stop := (← get).pos
  return .jumps (distances.map fun distance => stop + distance.toInt32.toInt)

/-- A target that is a displacement from the end of the operand. -/
def readJump (distance : Read Int) : Read RawOperand := do
  let distance ← distance
  return .jump ((← get).pos + distance)

/-- The operand of an opcode. -/
def readOperand : OperandKind → Read RawOperand
  | .none => return .ready .none
  | .int8 => do return .ready (.i32 (← Read.u8).toInt8.toInt32)
  | .uint8 => do return .ready (.i32 (Int32.ofNat (← Read.u8).toNat))
  | .int32 => do return .ready (.i32 (← Read.u32).toInt32)
  | .int64 => do return .ready (.i64 (← Read.u64).toInt64)
  | .float32 => do return .ready (.f32 (← Read.u32))
  | .float64 => do return .ready (.f64 (← Read.u64))
  | .token => do return .ready (.token ⟨← Read.u32⟩)
  | .local8 => do return .ready (.localIndex (← Read.u8).toUInt16)
  | .local16 => do return .ready (.localIndex (← Read.u16))
  | .arg8 => do return .ready (.argIndex (← Read.u8).toUInt16)
  | .arg16 => do return .ready (.argIndex (← Read.u16))
  | .branch8 => readJump do return (← Read.u8).toInt8.toInt
  | .branch32 => readJump do return (← Read.u32).toInt32.toInt
  | .switch => readSwitch

/-- The next instruction. -/
def readInstruction : Read RawInstruction := do
  let offset := (← get).pos
  let opcode ← readOpcode
  let operand ← readOperand opcode.operandKind
  return { offset, opcode, operand }

/-- Instructions up to the end of the data, at most `fuel` of them, behind those that were read
before. -/
def readInstructions : Nat → Array RawInstruction → Read (Array RawInstruction)
  | 0, found => return found
  | fuel + 1, found => do
      if (← get).hasMore then
        let raw ← readInstruction
        readInstructions fuel (found.push raw)
      else return found

/-- The instruction that starts at an offset. -/
def resolve (starts : Std.HashMap Nat Slot) (target : Int) : Except Fault Slot :=
  match if target < 0 then none else starts[target.toNat]? with
  | some slot => .ok slot
  | none => .error (.malformed (.branchTarget target))

/-- An operand with its jumps resolved. -/
def RawOperand.resolve (starts : Std.HashMap Nat Slot) : RawOperand → Except Fault Operand
  | .ready operand => .ok operand
  | .jump target => Operand.target <$> Code.resolve starts target
  | .jumps targets => Operand.switch <$> targets.mapM (Code.resolve starts)

/-- The slots of instructions by their offsets. -/
def startsOf (raw : Array RawInstruction) : Std.HashMap Nat Slot :=
  .ofList (raw.toList.zipIdx.map fun (instruction, index) => (instruction.offset, ⟨index⟩))

/-- Decodes code. -/
def decode (code : Bytes) : Except Fault DecodedCode := do
  if UInt32.size ≤ code.size then throw (.malformed (.codeSize code.size))
  let raw ← Cursor.parse (readInstructions code.size #[]) code
  let starts := startsOf raw
  let instructions ← raw.mapM fun instruction => do
    let operand ← RawOperand.resolve starts instruction.operand
    return (⟨instruction.opcode, operand⟩ : Instruction)
  return { instructions := .ofInstructions instructions, starts, size := code.size }

end Code

/-- The instruction that starts at an offset, or nothing for the end of the code. -/
def DecodedCode.slotAt (code : DecodedCode) (offset : Nat) : Except Fault (Option Slot) :=
  if offset = code.size then .ok none
  else match code.starts[offset]? with
    | some slot => .ok (some slot)
    | none => .error (.malformed (.notBoundary offset))

end CilPatch
