import CilPatch.Proofs.Patch.Call

/-!
# Control flow of fragments

Control enters a fragment at its first instruction, goes on to the next instruction or follows a
jump, and leaves by a jump to the continuation or past the last instruction. A fragment is
consistent on the stack when one depth for each instruction fits all of this.
-/

namespace CilPatch

/-- Whether control may go on to the instruction that comes next. -/
def Flow.fallsThrough : Flow → Bool
  | sequential | conditionalBranch | call | switch => true
  | ret | raise | unconditionalBranch | leave | endFinally => false

/-- Control does not go on behind a return, a throw or a branch that is always taken. -/
theorem Flow.ne_of_fallsThrough {flow : Flow} (h : flow.fallsThrough = true) :
    flow ≠ .ret ∧ flow ≠ .raise ∧ flow ≠ .unconditionalBranch := by
  refine ⟨?_, ?_, ?_⟩ <;>
  · rintro rfl
    cases h

namespace Emitted

/-- Whether control may go on to the instruction that comes next. -/
def fallsThrough (emitted : Emitted) : Bool := emitted.instruction.opcode.flow.fallsThrough

/-- Whether control may go to a target of the instruction. -/
def isJump (emitted : Emitted) : Bool := emitted.instruction.opcode.flow.isJump

/-- The depth of the stack behind an instruction that finds a depth. -/
def after (emitted : Emitted) (depth : Nat) : Nat := depth - emitted.pops + emitted.pushes

end Emitted

/-- What some calls emit, in order. -/
def Call.code (calls : List Call) : List Emitted := calls.filterMap emits?

namespace Fragment

/-- Whether control may go from one position of a fragment to another. A jump to the continuation
is none of these edges: it leaves the fragment. -/
inductive Edge (fragment : Fragment) (code : List Emitted) : Nat → Nat → Prop
  /-- Control goes on to the next instruction. -/
  | next {position : Nat} {emitted : Emitted} (hcode : code[position]? = some emitted)
      (hfalls : emitted.fallsThrough = true) (hnext : position + 1 < code.length) :
      Edge fragment code position (position + 1)
  /-- Control follows a jump. -/
  | jump {position target : Nat} {emitted : Emitted} {slot : Slot}
      (hcode : code[position]? = some emitted) (hjump : emitted.isJump = true)
      (hslot : slot ∈ emitted.instruction.targets) (hinside : slot ≠ fragment.continuation)
      (htarget : fragment.instructions[target]? = some slot) :
      Edge fragment code position target

/-- Whether control may come to a position from the first instruction. -/
inductive Reached (fragment : Fragment) (code : List Emitted) : Nat → Prop
  | first : Reached fragment code 0
  | step {position next : Nat} : Reached fragment code position →
      fragment.Edge code position next → Reached fragment code next

/-- Whether control may go from a position to the continuation. -/
inductive Leaves (fragment : Fragment) (code : List Emitted) : Nat → Prop
  /-- Control runs past the last instruction. -/
  | next {position : Nat} {emitted : Emitted} (hcode : code[position]? = some emitted)
      (hfalls : emitted.fallsThrough = true) (hlast : position + 1 = code.length) :
      Leaves fragment code position
  /-- Control follows a jump. -/
  | jump {position : Nat} {emitted : Emitted} (hcode : code[position]? = some emitted)
      (hjump : emitted.isJump = true)
      (hslot : fragment.continuation ∈ emitted.instruction.targets) :
      Leaves fragment code position

/-- What one stack depth for each position of a fragment has to fit. -/
structure Consistent (fragment : Fragment) (code : List Emitted) (depthAt : Nat → Nat) :
    Prop where
  /-- The stack is empty in front of the first instruction. -/
  first : depthAt 0 = 0
  /-- The depth behind an instruction is the one in front of where control goes. -/
  edge : ∀ {position next : Nat} {emitted : Emitted}, fragment.Reached code position →
    fragment.Edge code position next → code[position]? = some emitted →
    depthAt next = emitted.after (depthAt position)
  /-- No instruction takes more values than there are. -/
  affords : ∀ {position : Nat} {emitted : Emitted}, fragment.Reached code position →
    code[position]? = some emitted → emitted.pops ≤ depthAt position
  /-- No depth is beyond the greatest one, unless that could not be stated. -/
  bounded : fragment.maxStack < Builder.stackLimit → ∀ position, position < code.length →
    depthAt position ≤ fragment.maxStack
  /-- No values are left where control goes to the continuation. -/
  leaves : ∀ {position : Nat} {emitted : Emitted}, fragment.Reached code position →
    fragment.Leaves code position → code[position]? = some emitted →
    emitted.after (depthAt position) = 0

variable {fragment : Fragment} {code : List Emitted}

/-- An edge starts at an instruction. -/
theorem Edge.source {position next : Nat} (h : fragment.Edge code position next) :
    ∃ emitted, code[position]? = some emitted := by
  cases h with
  | next hcode => exact ⟨_, hcode⟩
  | jump hcode => exact ⟨_, hcode⟩

/-- Control leaves a fragment from an instruction. -/
theorem Leaves.source {position : Nat} (h : fragment.Leaves code position) :
    ∃ emitted, code[position]? = some emitted := by
  cases h with
  | next hcode => exact ⟨_, hcode⟩
  | jump hcode => exact ⟨_, hcode⟩

end Fragment

end CilPatch
