import CilPatch.Decimal.Shortest
import CilPatch.Opcode
import CilPatch.Token

/-!
# Instructions

An instruction is an opcode with an operand. A jump never holds a distance: its operand names
the instruction it jumps to, so instructions can be put anywhere without touching the jumps.
-/

namespace CilPatch

/-- The identity of an instruction within one method, given in the order of allocation. -/
structure Slot where
  /-- The position in the order of allocation. -/
  index : Nat
  deriving DecidableEq, Hashable, Repr, Inhabited

/-- A slot as it stands in messages. -/
def Slot.text (slot : Slot) : String := "#" ++ toString slot.index

/-- The operand of an instruction. -/
inductive Operand where
  /-- No operand. -/
  | none
  /-- An integer literal of at most 32 bits. -/
  | i32 (value : Int32)
  /-- An integer literal of 64 bits. -/
  | i64 (value : Int64)
  /-- The bits of a 32-bit floating point literal. -/
  | f32 (bits : UInt32)
  /-- The bits of a 64-bit floating point literal. -/
  | f64 (bits : UInt64)
  /-- A metadata token. -/
  | token (reference : Token)
  /-- A local variable index. -/
  | localIndex (index : UInt16)
  /-- An argument index. -/
  | argIndex (index : UInt16)
  /-- The instruction to jump to. -/
  | target (slot : Slot)
  /-- The instructions to choose from. -/
  | switch (slots : List Slot)
  deriving DecidableEq, Repr, Inhabited

/-- An operand with its kind spelled out. -/
def Operand.detail : Operand → String
  | none => "None"
  | i32 value => "I32(" ++ toString value.toInt ++ ")"
  | i64 value => "I64(" ++ toString value.toInt ++ ")"
  | f32 bits => "F32(" ++ Decimal.Layout.exact.write .single bits.toNat ++ ")"
  | f64 bits => "F64(" ++ Decimal.Layout.exact.write .double bits.toNat ++ ")"
  | token reference => "Token(" ++ reference.detail ++ ")"
  | localIndex index => "Local(" ++ toString index.toNat ++ ")"
  | argIndex index => "Arg(" ++ toString index.toNat ++ ")"
  | target slot => "Target(" ++ slot.text ++ ")"
  | switch slots => "Switch([" ++ ", ".intercalate (slots.map Slot.text) ++ "])"

/-- One instruction. -/
structure Instruction where
  /-- The operation. -/
  opcode : Opcode
  /-- What it operates on. -/
  operand : Operand := .none
  deriving DecidableEq, Repr, Inhabited

namespace Instruction

/-- The instructions that may be jumped to. -/
def targets (instruction : Instruction) : List Slot :=
  match instruction.operand with
  | .target slot => [slot]
  | .switch slots => slots
  | _ => []

/-- The instruction with every jump to one slot turned into a jump to another. -/
def retarget (instruction : Instruction) (source destination : Slot) : Instruction :=
  match instruction.operand with
  | .target slot =>
      if slot = source then { instruction with operand := .target destination } else instruction
  | .switch slots =>
      { instruction with
        operand := .switch (slots.map fun slot => if slot = source then destination else slot) }
  | _ => instruction

/-- Retargeting moves each jump and leaves the number and order of jumps alone. -/
theorem targets_retarget (instruction : Instruction) (source destination : Slot) :
    (instruction.retarget source destination).targets =
      instruction.targets.map fun slot => if slot = source then destination else slot := by
  unfold retarget targets
  cases h : instruction.operand with
  | target slot => by_cases hs : slot = source <;> simp [h, hs]
  | _ => simp [h]

/-- Retargeting keeps the opcode. -/
@[simp] theorem opcode_retarget (instruction : Instruction) (source destination : Slot) :
    (instruction.retarget source destination).opcode = instruction.opcode := by
  unfold retarget
  cases instruction.operand with
  | target slot => by_cases hs : slot = source <;> simp [hs]
  | _ => rfl

/-- An instruction that does not jump to a slot stays when that slot is replaced. -/
theorem retarget_of_not_mem {instruction : Instruction} {source destination : Slot}
    (h : source ∉ instruction.targets) :
    instruction.retarget source destination = instruction := by
  obtain ⟨opcode, operand⟩ := instruction
  cases operand with
  | target slot =>
      have hne : slot ≠ source := by
        rintro rfl
        exact h (List.mem_singleton.mpr rfl)
      simp [retarget, hne]
  | switch slots =>
      have hmap : (slots.map fun slot => if slot = source then destination else slot) = slots := by
        apply (List.map_congr_left fun slot hslot => ?_).trans (List.map_id slots)
        have hne : slot ≠ source := fun heq => h (heq ▸ hslot)
        simp [hne]
      simp only [retarget, hmap]
  | _ => rfl

/-- The token operand, if there is one. -/
def token? (instruction : Instruction) : Option Token :=
  match instruction.operand with
  | .token reference => some reference
  | _ => none

/-- The local variable an instruction uses, also where the opcode alone says which. -/
def localIndex? (instruction : Instruction) : Option UInt16 :=
  match instruction.operand, instruction.opcode with
  | .localIndex index, _ => some index
  | _, .single code =>
      if 0x06 ≤ code && code ≤ 0x09 then some (code - 0x06).toUInt16
      else if 0x0A ≤ code && code ≤ 0x0D then some (code - 0x0A).toUInt16
      else none
  | _, _ => none

/-- The argument an instruction uses, also where the opcode alone says which. -/
def argIndex? (instruction : Instruction) : Option UInt16 :=
  match instruction.operand, instruction.opcode with
  | .argIndex index, _ => some index
  | _, .single code => if 0x02 ≤ code && code ≤ 0x05 then some (code - 0x02).toUInt16 else none
  | _, _ => none

/-- The 32-bit constant an instruction pushes, also where the opcode alone says which. -/
def constant? (instruction : Instruction) : Option Int32 :=
  match instruction.opcode, instruction.operand with
  | .single code, operand =>
      if 0x15 ≤ code && code ≤ 0x1E then some (Int32.ofInt (code.toNat - 0x16))
      else if code = 0x1F || code = 0x20 then
        match operand with
        | .i32 value => some value
        | _ => none
      else none
  | _, _ => none

/-- An instruction in assembly text. -/
def text (instruction : Instruction) : String :=
  let opcode := instruction.opcode.text
  match instruction.operand with
  | .none => opcode
  | .i32 value => opcode ++ " " ++ toString value.toInt
  | .i64 value => opcode ++ " " ++ toString value.toInt
  | .f32 bits => opcode ++ " " ++ Decimal.Layout.plain.write .single bits.toNat
  | .f64 bits => opcode ++ " " ++ Decimal.Layout.plain.write .double bits.toNat
  | .token reference => opcode ++ " " ++ reference.text
  | .localIndex index => opcode ++ " V_" ++ toString index.toNat
  | .argIndex index => opcode ++ " A_" ++ toString index.toNat
  | .target slot => opcode ++ " " ++ slot.text
  | .switch slots => opcode ++ " (" ++ toString slots.length ++ " targets)"

end Instruction

end CilPatch
