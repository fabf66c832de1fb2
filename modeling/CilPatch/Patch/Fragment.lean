import CilPatch.Method.Body
import CilPatch.Assembly.Declaration

/-!
# Fragments

A fragment is new code for one place of a method. Its instructions jump only among themselves
and to the continuation, the instruction in front of which the fragment is put. The builder
follows the depth of the evaluation stack in the order of emission, and refuses what would
need values that are not there or reach a label with different depths.
-/

namespace CilPatch

/-- A place of a fragment that can be jumped to. -/
structure Label where
  /-- The instruction at the place. -/
  slot : Slot
  deriving DecidableEq

/-- A local variable of a fragment. -/
structure Local where
  /-- The index of the variable. -/
  index : UInt16
  deriving DecidableEq

/-- New code for one place of a method. -/
structure Fragment where
  /-- The instructions, in order. -/
  instructions : Array Slot
  /-- The local variables that are added. -/
  locals : List LocalSlot
  /-- The index of the first added local variable. -/
  firstLocal : Nat
  /-- The instruction that follows. -/
  continuation : Slot
  /-- The greatest depth of the evaluation stack. -/
  maxStack : Nat

/-- The first instruction of a fragment. -/
def Fragment.entry? (fragment : Fragment) : Option Slot := fragment.instructions[0]?

/-- A fragment that is being built for a body. -/
structure Builder where
  /-- The body; only instructions that are not placed are added to it. -/
  body : Body
  /-- The instruction that follows the fragment. -/
  continuation : Slot
  /-- The index of the first added local variable. -/
  firstLocal : Nat
  /-- The emitted instructions, in order. -/
  emitted : Array Slot := #[]
  /-- The local variables that were declared. -/
  locals : List LocalSlot := []
  /-- The labels that were reserved, in order. -/
  reserved : List Slot := []
  /-- The label that the next instruction gets. -/
  pending : Option Slot := none
  /-- How many values are on the evaluation stack. -/
  depth : Nat := 0
  /-- The greatest depth so far. -/
  maxDepth : Nat := 0
  /-- Whether control does not reach the next instruction by falling through. -/
  unreachable : Bool := false
  /-- The depths at labels, as jumps or falling through gave them. -/
  labelDepths : List (Slot × Nat) := []

/-- A step of building, which keeps its effects when it fails. -/
abbrev Build (α : Type) := ExceptT Fault (StateM Builder) α

namespace Builder

/-- Starts a fragment in front of an instruction. -/
def start (body : Body) (continuation : Slot) : Builder where
  body := body
  continuation := continuation
  firstLocal := body.localCount

/-- How many local variables the method has with those of the fragment. -/
def localCount (builder : Builder) : Nat := builder.firstLocal + builder.locals.length

/-- The depth that is known for a label. -/
def labelDepth? (builder : Builder) (label : Slot) : Option Nat :=
  builder.labelDepths.lookup label

/-- A builder whose body has another list of instructions. -/
def withInstructions (builder : Builder) (list : InstrList) : Builder :=
  { builder with body := { builder.body with instructions := list } }

end Builder

namespace Build

/-- Refuses with a fault of a jump. -/
def refuseBranch {α : Type} (cause : BranchFault) : Build α := throw (.branch cause)

/-- Refuses with a fault of an instruction. -/
def refuse {α : Type} (cause : InstructionFault) : Build α := throw (.instruction cause)

/-- The continuation as a label. -/
def continuation : Build Label := do return ⟨(← get).continuation⟩

/-- Declares a local variable. -/
def declare (type : TypeSig) (name : String) : Build Local := do
  let builder ← get
  let index := builder.localCount
  if Body.localLimit ≤ index then refuse (.noLocalLeft name)
  set { builder with locals := builder.locals ++ [LocalSlot.mk type (some name)] }
  return ⟨UInt16.ofNat index⟩

/-- Gives out a label for a place that is still to come. -/
def reserve : Build Label := do
  let builder ← get
  let list := builder.body.instructions
  set { builder.withInstructions (list.alloc ⟨.single 0, .none⟩) with
    reserved := builder.reserved ++ [list.next] }
  return ⟨list.next⟩

/-- Puts a label in front of the next instruction. -/
def bind (label : Label) : Build Unit := do
  let builder ← get
  if !builder.reserved.contains label.slot || builder.emitted.contains label.slot then
    refuseBranch (.notUnbound label.slot)
  if let some pending := builder.pending then
    refuseBranch (.doubleLabel pending label.slot)
  let bound := { builder with unreachable := false, pending := some label.slot }
  match builder.labelDepth? label.slot with
  | some expected =>
      if builder.unreachable then set { bound with depth := expected }
      else if expected = builder.depth then set bound
      else refuseBranch (.bindDepth label.slot expected builder.depth)
  | none =>
      if builder.unreachable then set { bound with depth := 0 }
      else set { bound with labelDepths := (label.slot, builder.depth) :: builder.labelDepths }

/-- Puts an instruction at the end that takes and leaves some stack values. -/
def push (instruction : Instruction) (pops pushes : Nat) : Build Slot := do
  let builder ← get
  if builder.depth < pops && !builder.unreachable then
    refuse (.underflow instruction.opcode builder.depth pops)
  let depth := builder.depth - pops + pushes
  let ends := instruction.opcode.flow == .ret || instruction.opcode.flow == .raise
  let list := builder.body.instructions
  let (slot, list) := match builder.pending with
    | some slot => (slot, list.modify slot fun _ => instruction)
    | none => (list.next, list.alloc instruction)
  set { builder.withInstructions list with
    depth
    maxDepth := max builder.maxDepth depth
    unreachable := builder.unreachable || ends
    pending := none
    emitted := builder.emitted.push slot }
  return slot

/-- Puts an instruction at the end whose effect on the stack the opcode table gives. -/
def emit (instruction : Instruction) : Build Slot :=
  match instruction.opcode.flow with
  | .call => refuse (.needsSignature instruction.opcode)
  | .conditionalBranch | .unconditionalBranch | .leave | .switch =>
      refuse (.needsLabel instruction.opcode)
  | _ => push instruction instruction.opcode.entry.pops instruction.opcode.entry.pushes

/-- Puts an instruction without operand at the end. -/
def op (opcode : Opcode) : Build Slot := emit ⟨opcode, .none⟩

/-- Whether an opcode accesses a field that belongs to the type. -/
def accessesStatic (opcode : Opcode) : Bool :=
  opcode == .ldsfld || opcode == .stsfld || opcode == .ldsflda

/-- Puts an access to a field at the end. -/
def field (opcode : Opcode) (field : FieldHandle) : Build Slot :=
  if accessesStatic opcode = field.isStatic then emit ⟨opcode, .token field.token⟩
  else refuse (.fieldAccess opcode field.token)

/-- Puts a call of a method at the end. -/
def call (method : MethodHandle) : Build Slot :=
  push ⟨.call, .token method.token⟩ method.pops method.pushes

/-- The shortest instruction that pushes a 32-bit constant. -/
def constantOf (value : Int32) : Instruction :=
  if -1 ≤ value.toInt ∧ value.toInt ≤ 8 then
    ⟨.single (UInt8.ofNat (value.toInt + 0x16).toNat), .none⟩
  else if -128 ≤ value.toInt ∧ value.toInt ≤ 127 then ⟨.ldcI4S, .i32 value⟩
  else ⟨.ldcI4, .i32 value⟩

/-- Puts an instruction at the end that pushes a 32-bit constant. -/
def constant (value : Int32) : Build Slot := emit (constantOf value)

/-- The shortest instruction that loads a local variable. -/
def loadOf (index : UInt16) : Instruction :=
  if index ≤ 3 then ⟨.single (0x06 + index.toUInt8), .none⟩
  else if index ≤ 255 then ⟨.ldlocS, .localIndex index⟩
  else ⟨.ldloc, .localIndex index⟩

/-- The shortest instruction that stores into a local variable. -/
def storeOf (index : UInt16) : Instruction :=
  if index ≤ 3 then ⟨.single (0x0A + index.toUInt8), .none⟩
  else if index ≤ 255 then ⟨.stlocS, .localIndex index⟩
  else ⟨.stloc, .localIndex index⟩

/-- Puts an instruction at the end that loads the local variable with an index. -/
def loadIndex (index : UInt16) : Build Slot := do
  let builder ← get
  if builder.localCount ≤ index.toNat then
    refuse (.undeclaredLocal index builder.localCount)
  emit (loadOf index)

/-- Puts an instruction at the end that loads a local variable. -/
def load (slot : Local) : Build Slot := loadIndex slot.index

/-- Puts an instruction at the end that stores into a local variable. -/
def store (slot : Local) : Build Slot := emit (storeOf slot.index)

/-- Puts an instruction at the end that loads the address of a local variable. -/
def loadAddress (slot : Local) : Build Slot :=
  emit ⟨if slot.index ≤ 255 then .ldlocaS else .ldloca, .localIndex slot.index⟩

/-- Notes the present depth for the target of a jump. -/
def recordDepth (target : Slot) : Build Unit := do
  let builder ← get
  if target = builder.continuation then
    if builder.depth != 0 then refuseBranch (.continuationDepth builder.depth)
  else
    match builder.labelDepth? target with
    | some expected =>
        if expected != builder.depth then
          refuseBranch (.jumpDepth target expected builder.depth)
    | none => set { builder with labelDepths := (target, builder.depth) :: builder.labelDepths }

/-- Puts a branch to a label at the end. -/
def branch (opcode : Opcode) (target : Label) : Build Slot := do
  let builder ← get
  if opcode.flow != .conditionalBranch && opcode.flow != .unconditionalBranch then
    refuseBranch (.notBranch opcode)
  if target.slot != builder.continuation && !builder.reserved.contains target.slot then
    refuseBranch (.leavesFragment opcode target.slot)
  let slot ← push ⟨opcode, .target target.slot⟩ opcode.entry.pops opcode.entry.pushes
  if !builder.unreachable then recordDepth target.slot
  if opcode.flow = .unconditionalBranch then
    modify fun builder => { builder with unreachable := true }
  return slot

/-- Puts a return at the end, which must leave no values behind. -/
def ret : Build Slot := do
  let builder ← get
  if !builder.unreachable && builder.depth != 0 then refuse (.returnDepth builder.depth)
  op .ret

/-- Puts several instructions at the end, in order. -/
def sequence : List (Build Slot) → Build Unit
  | [] => return ()
  | step :: rest => do
      let _ ← step
      sequence rest

end Build

namespace Builder

/-- The first jump that leads neither into the fragment nor to the continuation: the jumping
opcode, its slot and the target. -/
def outsideJump? (builder : Builder) : Option (Opcode × Slot × Slot) :=
  builder.emitted.toList.findSome? fun slot =>
    let instruction := builder.body.instructions.get slot
    (instruction.targets.find? fun target =>
      target != builder.continuation && !builder.emitted.contains target).map fun target =>
        (instruction.opcode, slot, target)

/-- The greatest stack depth that a fragment can state. -/
def stackLimit : Nat := 0xFFFF

/-- The finished fragment. -/
def finish (builder : Builder) : Except Fault Fragment := do
  if let some pending := builder.pending then throw (.branch (.boundPastEnd pending))
  if let some label := builder.reserved.find? fun slot => !builder.emitted.contains slot then
    throw (.branch (.neverBound label))
  if !builder.unreachable && builder.depth != 0 then
    throw (.branch (.fallsThrough builder.depth))
  if let some (opcode, source, target) := builder.outsideJump? then
    throw (.branch (.jumpsOutside opcode source target))
  return {
    instructions := builder.emitted
    locals := builder.locals
    firstLocal := builder.firstLocal
    continuation := builder.continuation
    maxStack := min builder.maxDepth stackLimit }

end Builder

end CilPatch
