import CilPatch.Bytes.LittleEndian
import CilPatch.Code.Layout
import CilPatch.Fault

/-!
# Encoding code

Once the layout is fixed, each instruction is written by itself: its opcode and its operand, in
which a jump is the distance from the end of the instruction to its target.
-/

namespace CilPatch

/-- Encoded code. -/
structure EncodedCode where
  /-- The bytes of the code. -/
  code : List UInt8
  /-- How many short branches were written in their long form. -/
  relaxed : Nat
  /-- Where the placed instructions start, by slot. -/
  starts : Std.HashMap Slot Nat

namespace Code

/-- A signed number in the given number of bytes. -/
def signed (width : Nat) (value : Int) : List UInt8 :=
  LittleEndian.encode width (value % LittleEndian.range width).toNat

/-- The fault of an operand that its opcode cannot take. -/
def mismatch {α : Type} (placement : Placement) : Except Fault α :=
  .error (.instruction (.mismatch placement.form placement.operand))

/-- The distance from the end of an instruction to a slot. -/
def distance (offsetOf : Slot → Option Nat) (stop : Nat) (slot : Slot) : Except Fault Int :=
  match offsetOf slot with
  | some target => .ok ((target : Int) - stop)
  | none => .error (.branch (.unplaced slot))

/-- The bytes of the operand of an instruction that ends at an offset. -/
def encodeOperand (offsetOf : Slot → Option Nat) (placement : Placement) (stop : Nat) :
    Except Fault (List UInt8) :=
  match placement.form.operandKind, placement.operand with
  | .none, .none => .ok []
  | .int8, .i32 value =>
      if Layout.fitsByte value.toInt then .ok (signed 1 value.toInt) else mismatch placement
  | .uint8, .i32 value =>
      if 0 ≤ value.toInt ∧ value.toInt < 256 then .ok (signed 1 value.toInt)
      else mismatch placement
  | .int32, .i32 value => .ok (signed 4 value.toInt)
  | .int64, .i64 value => .ok (signed 8 value.toInt)
  | .float32, .f32 bits => .ok (LittleEndian.u32 bits)
  | .float64, .f64 bits => .ok (LittleEndian.u64 bits)
  | .token, .token reference => .ok (LittleEndian.u32 reference.value)
  | .local8, .localIndex index | .arg8, .argIndex index =>
      if index.toNat < 256 then .ok (LittleEndian.encode 1 index.toNat) else mismatch placement
  | .local16, .localIndex index | .arg16, .argIndex index => .ok (LittleEndian.u16 index)
  | .branch8, .target slot => do
      let distance ← distance offsetOf stop slot
      if Layout.fitsByte distance then return signed 1 distance
      else throw (.branch (.outOfReach placement.form slot distance))
  | .branch32, .target slot => do
      let distance ← distance offsetOf stop slot
      if Layout.fitsWord distance then return signed 4 distance
      else throw (.branch (.outOfReach placement.form slot distance))
  | .switch, .switch slots =>
      if UInt32.size ≤ slots.length then mismatch placement
      else do
        let entries ← slots.mapM fun slot => do
          let distance ← distance offsetOf stop slot
          if Layout.fitsWord distance then return signed 4 distance
          else throw (.branch (.switchOutOfReach slot))
        return LittleEndian.encode 4 slots.length ++ entries.flatten
  | _, _ => mismatch placement

/-- The bytes of an instruction that starts at an offset. -/
def encodeInstruction (offsetOf : Slot → Option Nat) (placement : Placement) (start : Nat) :
    Except Fault (List UInt8) := do
  let operand ← encodeOperand offsetOf placement (start + placement.size)
  return placement.form.bytes ++ operand

/-- The first jump to a slot that is not placed: the jumping opcode, its slot and the target. -/
def unplacedTarget? (positions : Layout.Positions) (list : InstrList) :
    Option (Opcode × Slot × Slot) :=
  list.placed.findSome? fun (slot, instruction) =>
    (instruction.targets.find? fun target => !positions.contains target).map fun target =>
      (instruction.opcode, slot, target)

/-- Encodes the placed instructions of a list. -/
def encode (list : InstrList) : Except Fault EncodedCode := do
  let positions := Layout.positionsOf list
  match unplacedTarget? positions list with
  | some (opcode, source, target) => throw (.branch (.unplacedTarget opcode source target))
  | none =>
      let placements := Layout.relaxed positions list
      let starts := (Layout.offsets placements).1
      let parts ← (placements.zip starts.toList).mapM fun (placement, start) =>
        encodeInstruction (Layout.targetOffset? positions starts) placement start
      let changed := (list.placed.zip placements).countP fun ((_, instruction), placement) =>
        instruction.opcode != placement.form
      return {
        code := parts.flatten
        relaxed := changed
        starts := .ofList (list.order.toList.zip starts.toList) }

end Code

/-- Where a slot starts; no slot stands for the end of the code. -/
def EncodedCode.offsetOf (encoded : EncodedCode) : Option Slot → Except Fault Nat
  | none => .ok encoded.code.length
  | some slot =>
      match encoded.starts[slot]? with
      | some start => .ok start
      | none => .error (.branch (.notEncoded slot))

end CilPatch
