import CilPatch.Instruction

/-!
# Moving the targets of instructions

Splicing and decoding put other instructions in place of those that an operand names. Both are
one map over the targets, which leaves every other part of the instruction alone.
-/

namespace CilPatch

namespace Operand

/-- An operand with another slot in place of each slot it jumps to. -/
def mapTargets (change : Slot → Slot) : Operand → Operand
  | .target slot => .target (change slot)
  | .switch slots => .switch (slots.map change)
  | operand => operand

end Operand

/-- The slot that takes the place of another: one slot gives way, the others stay. -/
def Slot.moved (source destination slot : Slot) : Slot :=
  if slot = source then destination else slot

namespace Instruction

/-- An instruction with another slot in place of each slot it jumps to. -/
def mapTargets (change : Slot → Slot) (instruction : Instruction) : Instruction :=
  { instruction with operand := instruction.operand.mapTargets change }

/-- Retargeting moves the targets and nothing else. -/
theorem retarget_eq_mapTargets (instruction : Instruction) (source destination : Slot) :
    instruction.retarget source destination =
      instruction.mapTargets (Slot.moved source destination) := by
  obtain ⟨opcode, operand⟩ := instruction
  cases operand with
  | target slot =>
    by_cases h : slot = source <;> simp [retarget, mapTargets, Operand.mapTargets, Slot.moved, h]
  | switch slots => rfl
  | _ => rfl

/-- The targets of an instruction are moved one by one. -/
theorem targets_mapTargets (change : Slot → Slot) (instruction : Instruction) :
    (instruction.mapTargets change).targets = instruction.targets.map change := by
  obtain ⟨opcode, operand⟩ := instruction
  cases operand <;> rfl

end Instruction

end CilPatch
