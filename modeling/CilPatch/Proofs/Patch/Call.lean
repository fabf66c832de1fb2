import CilPatch.Patch.Fragment
import CilPatch.Proofs.Step

/-!
# Calls of the builder

A fragment is built by a sequence of calls. A call is refused, or it declares a local variable,
gives out a label, binds one, or emits an instruction; `Call.outcome` says once what each can do,
and whatever holds of every sequence of calls follows from it by induction.
-/

namespace CilPatch

/-- An instruction as it is emitted, with what it takes from the stack and leaves there. -/
structure Emitted where
  /-- The instruction. -/
  instruction : Instruction
  /-- How many stack values it takes. -/
  pops : Nat
  /-- How many stack values it leaves. -/
  pushes : Nat

/-- An instruction whose effect on the stack the opcode table gives. -/
def Emitted.ofTable (instruction : Instruction) : Emitted :=
  ⟨instruction, instruction.opcode.entry.pops, instruction.opcode.entry.pushes⟩

/-- Whether control may go to a target of the instruction. -/
def Flow.isJump : Flow → Bool
  | conditionalBranch | unconditionalBranch | leave | switch => true
  | sequential | call | ret | raise | endFinally => false

/-- A call of the builder. -/
inductive Call where
  /-- Declares a local variable. -/
  | declare (type : TypeSig) (name : String)
  /-- Gives out a label. -/
  | reserve
  /-- Puts a label in front of the next instruction. -/
  | bind (label : Label)
  /-- Emits an instruction. -/
  | emit (instruction : Instruction)
  /-- Emits an instruction without operand. -/
  | op (opcode : Opcode)
  /-- Emits an access to a field. -/
  | field (opcode : Opcode) (field : FieldHandle)
  /-- Emits a call of a method. -/
  | call (method : MethodHandle)
  /-- Emits an instruction that pushes a constant. -/
  | constant (value : Int32)
  /-- Emits an instruction that loads a local variable. -/
  | load (slot : Local)
  /-- Emits an instruction that loads the local variable with an index. -/
  | loadIndex (index : UInt16)
  /-- Emits an instruction that stores into a local variable. -/
  | store (slot : Local)
  /-- Emits an instruction that loads the address of a local variable. -/
  | loadAddress (slot : Local)
  /-- Emits a branch to a label. -/
  | branch (opcode : Opcode) (target : Label)
  /-- Emits a return. -/
  | ret

namespace Call

/-- The step of building that a call takes. What it yields is left out: the arguments of later
calls are arbitrary anyway. -/
def step : Call → Build Unit
  | declare type name => (fun _ => ()) <$> Build.declare type name
  | reserve => (fun _ => ()) <$> Build.reserve
  | bind label => Build.bind label
  | emit instruction => (fun _ => ()) <$> Build.emit instruction
  | op opcode => (fun _ => ()) <$> Build.op opcode
  | field opcode handle => (fun _ => ()) <$> Build.field opcode handle
  | call method => (fun _ => ()) <$> Build.call method
  | constant value => (fun _ => ()) <$> Build.constant value
  | load slot => (fun _ => ()) <$> Build.load slot
  | loadIndex index => (fun _ => ()) <$> Build.loadIndex index
  | store slot => (fun _ => ()) <$> Build.store slot
  | loadAddress slot => (fun _ => ()) <$> Build.loadAddress slot
  | branch opcode target => (fun _ => ()) <$> Build.branch opcode target
  | ret => (fun _ => ()) <$> Build.ret

/-- What a call emits, with the effect on the stack that the opcode table or the method it calls
gives. -/
def emits? : Call → Option Emitted
  | declare _ _ | reserve | bind _ => none
  | emit instruction => some (.ofTable instruction)
  | op opcode => some (.ofTable ⟨opcode, .none⟩)
  | field opcode handle => some (.ofTable ⟨opcode, .token handle.token⟩)
  | call method => some ⟨⟨.call, .token method.token⟩, method.pops, method.pushes⟩
  | constant value => some (.ofTable (Build.constantOf value))
  | load slot => some (.ofTable (Build.loadOf slot.index))
  | loadIndex index => some (.ofTable (Build.loadOf index))
  | store slot => some (.ofTable (Build.storeOf slot.index))
  | loadAddress slot =>
      some (.ofTable
        ⟨if slot.index ≤ 255 then .ldlocaS else .ldloca, .localIndex slot.index⟩)
  | branch opcode target => some (.ofTable ⟨opcode, .target target.slot⟩)
  | ret => some (.ofTable ⟨.ret, .none⟩)

end Call

namespace Builder

variable (builder : Builder)

/-- The slot that the next emitted instruction gets. -/
def nextSlot : Slot := builder.pending.getD builder.body.instructions.next

/-- The instructions of the body with one more written to the slot that is next. -/
def written (instruction : Instruction) : InstrList :=
  match builder.pending with
  | some slot => builder.body.instructions.modify slot fun _ => instruction
  | none => builder.body.instructions.alloc instruction

/-- A builder that has declared one more local variable. -/
def declared (slot : LocalSlot) : Builder := { builder with locals := builder.locals ++ [slot] }

/-- A builder that has given out one more label. -/
def reservedNext : Builder :=
  { builder.withInstructions (builder.body.instructions.alloc ⟨.single 0, .none⟩) with
    reserved := builder.reserved ++ [builder.body.instructions.next] }

/-- A builder that has bound a label. -/
def bound (label : Slot) : Builder :=
  { builder with
    unreachable := false
    pending := some label
    depth := if builder.unreachable then (builder.labelDepth? label).getD 0 else builder.depth
    labelDepths :=
      if builder.unreachable ∨ (builder.labelDepth? label).isSome then builder.labelDepths
      else (label, builder.depth) :: builder.labelDepths }

/-- A builder that has emitted an instruction. -/
def pushed (emitted : Emitted) : Builder :=
  { builder.withInstructions (builder.written emitted.instruction) with
    depth := builder.depth - emitted.pops + emitted.pushes
    maxDepth := max builder.maxDepth (builder.depth - emitted.pops + emitted.pushes)
    unreachable := builder.unreachable ||
      (emitted.instruction.opcode.flow == .ret || emitted.instruction.opcode.flow == .raise)
    pending := none
    emitted := builder.emitted.push builder.nextSlot }

/-- A builder that knows the depth at a label. -/
def noted (label : Slot) : Builder :=
  { builder with
    labelDepths :=
      if label = builder.continuation ∨ (builder.labelDepth? label).isSome then builder.labelDepths
      else (label, builder.depth) :: builder.labelDepths }

/-- A builder behind a branch. -/
def behind (opcode : Opcode) : Builder :=
  { builder with unreachable := builder.unreachable || opcode.flow == .unconditionalBranch }

/-- A builder that has emitted a branch, which is noted at its target when control reaches it. -/
def jumped (opcode : Opcode) (label : Slot) : Builder :=
  let after := builder.pushed (.ofTable ⟨opcode, .target label⟩)
  (if builder.unreachable then after else after.noted label).behind opcode

/-- Whether enough values are on the stack, which is not asked where control does not come. -/
def Affords (pops : Nat) : Prop := builder.unreachable = false → pops ≤ builder.depth

/-- Whether a label can be bound: it is one of the fragment and not bound yet, no other label
waits, and the depth agrees with what is known. -/
structure CanBind (label : Slot) : Prop where
  reserved : label ∈ builder.reserved
  notEmitted : label ∉ builder.emitted
  noPending : builder.pending = none
  agrees : builder.unreachable = false → ∀ depth, builder.labelDepth? label = some depth →
    depth = builder.depth

/-- Whether the depth agrees with what is known for a target of jumps. -/
structure Agrees (label : Slot) : Prop where
  continuation : label = builder.continuation → builder.depth = 0
  inside : label ≠ builder.continuation → ∀ depth, builder.labelDepth? label = some depth →
    depth = builder.depth

variable {builder} in
/-- Nothing is noted for the continuation or for a label whose depth is known. -/
theorem noted_of_known {label : Slot}
    (h : label = builder.continuation ∨ (builder.labelDepth? label).isSome) :
    builder.noted label = builder := by
  simp only [noted, h, if_true]

end Builder

namespace Build

variable (builder : Builder)

/-- A declaration is refused when no index is left. -/
theorem run_declare (type : TypeSig) (name : String) :
    (∃ fault, (declare type name).run builder = (.error fault, builder)) ∨
    builder.localCount < Body.localLimit ∧ ∃ slot,
      (declare type name).run builder = (.ok slot, builder.declared ⟨type, some name⟩) := by
  unfold declare
  simp only [step_bind, step_get]
  by_cases h : Body.localLimit ≤ builder.localCount
  · left
    simp only [h, if_true]
    exact ⟨_, rfl⟩
  · right
    simp only [h, if_false]
    exact ⟨by omega, _, rfl⟩

/-- A label can always be given out. -/
theorem run_reserve :
    reserve.run builder = (.ok ⟨builder.body.instructions.next⟩, builder.reservedNext) := rfl

/-- A label is bound when it can be, and nothing changes otherwise. -/
theorem run_bind (label : Label) :
    (∃ fault, (bind label).run builder = (.error fault, builder)) ∨
    builder.CanBind label.slot ∧
      (bind label).run builder = (.ok (), builder.bound label.slot) := by
  unfold bind
  simp only [step_bind, step_get]
  split
  · exact Or.inl ⟨_, rfl⟩
  · next hown =>
    simp only [Bool.or_eq_true, Bool.not_eq_true', not_or, Bool.not_eq_false,
      Bool.not_eq_true, List.contains_iff_mem] at hown
    obtain ⟨hreserved, hemitted⟩ := hown
    have hemitted : label.slot ∉ builder.emitted := by simpa using hemitted
    split
    · exact Or.inl ⟨_, rfl⟩
    · next hpending =>
      have hpending : builder.pending = none := by
        cases h : builder.pending with
        | none => rfl
        | some pending => exact absurd h (hpending pending)
      cases hdepth : builder.labelDepth? label.slot with
      | none =>
        right
        refine ⟨⟨hreserved, hemitted, hpending, by simp [hdepth]⟩, ?_⟩
        cases hreach : builder.unreachable <;> simp [Builder.bound, hreach, hdepth]
      | some expected =>
        cases hreach : builder.unreachable with
        | true =>
          right
          refine ⟨⟨hreserved, hemitted, hpending, by simp [hreach]⟩, ?_⟩
          simp [Builder.bound, hreach, hdepth]
        | false =>
          by_cases heq : expected = builder.depth
          · right
            refine ⟨⟨hreserved, hemitted, hpending, ?_⟩, ?_⟩
            · rintro - depth hsome
              rw [hdepth] at hsome
              rw [← Option.some.inj hsome, heq]
            · simp [Builder.bound, hreach, hdepth, heq]
          · left
            simp only [heq, Bool.false_eq_true, if_false]
            exact ⟨_, rfl⟩

/-- An instruction is emitted when the stack holds what it takes. -/
theorem run_push (instruction : Instruction) (pops pushes : Nat) :
    (∃ fault, (push instruction pops pushes).run builder = (.error fault, builder)) ∨
    builder.Affords pops ∧ (push instruction pops pushes).run builder =
      (.ok builder.nextSlot, builder.pushed ⟨instruction, pops, pushes⟩) := by
  unfold push
  simp only [step_bind, step_get]
  split
  · exact Or.inl ⟨_, rfl⟩
  · next henough =>
    right
    constructor
    · intro hreach
      simpa [hreach] using henough
    · simp only [step_bind, Builder.pushed, Builder.written, Builder.nextSlot]
      cases builder.pending <;> rfl

/-- An instruction whose effect the table gives is emitted unless it is a jump or a call. -/
theorem run_emit (instruction : Instruction) :
    (∃ fault, (emit instruction).run builder = (.error fault, builder)) ∨
    instruction.opcode.flow.isJump = false ∧
      builder.Affords instruction.opcode.entry.pops ∧
      (emit instruction).run builder =
        (.ok builder.nextSlot, builder.pushed (.ofTable instruction)) := by
  have hpush := run_push builder instruction instruction.opcode.entry.pops
    instruction.opcode.entry.pushes
  unfold emit
  split
  · exact Or.inl ⟨_, rfl⟩
  all_goals first
    | exact Or.inl ⟨_, rfl⟩
    | next hcall hcond huncond hleave hswitch =>
      refine hpush.imp_right fun ⟨haffords, hrun⟩ => ⟨?_, haffords, hrun⟩
      cases hflow : instruction.opcode.flow <;> simp_all [Flow.isJump]

/-- A jump is noted when its depth agrees with what is known, and nothing changes otherwise. -/
theorem run_recordDepth (label : Slot) :
    (∃ fault, (recordDepth label).run builder = (.error fault, builder)) ∨
    builder.Agrees label ∧ (recordDepth label).run builder = (.ok (), builder.noted label) := by
  unfold recordDepth
  simp only [step_bind, step_get]
  by_cases hcont : label = builder.continuation
  · simp only [hcont, if_true]
    by_cases hdepth : builder.depth = 0
    · right
      refine ⟨⟨fun _ => hdepth, fun hne => absurd rfl hne⟩, ?_⟩
      rw [Builder.noted_of_known (Or.inl rfl)]
      simp only [hdepth, bne_self_eq_false, Bool.false_eq_true, if_false]
      rfl
    · left
      simp only [bne_iff_ne, ne_eq, hdepth, not_false_eq_true, if_true]
      exact ⟨_, rfl⟩
  · simp only [hcont, if_false]
    cases hknown : builder.labelDepth? label with
    | none =>
      right
      refine ⟨⟨fun heq => absurd heq hcont, fun _ => by simp [hknown]⟩, ?_⟩
      simp [Builder.noted, hcont, hknown]
    | some expected =>
      by_cases heq : expected = builder.depth
      · right
        refine ⟨⟨fun heq => absurd heq hcont, fun _ depth hdepth => ?_⟩, ?_⟩
        · rw [hknown] at hdepth
          rw [← Option.some.inj hdepth, heq]
        · rw [Builder.noted_of_known (Or.inr (by simp [hknown]))]
          simp only [heq, bne_self_eq_false, Bool.false_eq_true, if_false]
          rfl
      · left
        simp only [bne_iff_ne, ne_eq, heq, not_false_eq_true, if_true]
        exact ⟨_, rfl⟩

end Build

namespace Builder

/-- Whether a branch can be emitted: the opcode is that of a branch, the target is a label of the
fragment or the continuation, and the stack holds what the branch takes. -/
structure CanBranch (builder : Builder) (opcode : Opcode) (label : Slot) : Prop where
  isBranch : opcode.flow = .conditionalBranch ∨ opcode.flow = .unconditionalBranch
  inside : label = builder.continuation ∨ label ∈ builder.reserved
  affords : builder.Affords opcode.entry.pops

end Builder

namespace Build

variable (builder : Builder)

/-- Behind an unconditional branch control does not fall through. -/
private theorem run_behind (opcode : Opcode) (slot : Slot) :
    (do
      if opcode.flow = .unconditionalBranch then
        modify fun builder => { builder with unreachable := true }
      return slot : Build Slot).run builder = (.ok slot, builder.behind opcode) := by
  by_cases h : opcode.flow = .unconditionalBranch
  · have hbehind : builder.behind opcode = { builder with unreachable := true } := by
      simp [Builder.behind, h]
    rw [hbehind]
    simp only [h, if_true]
    rfl
  · have hother : (opcode.flow == .unconditionalBranch) = false := by simpa using h
    have hbehind : builder.behind opcode = builder := by
      simp only [Builder.behind, hother, Bool.or_false]
    rw [hbehind]
    simp only [h, if_false]
    rfl

/-- A branch is refused before it is emitted, or after it when the depth at its target does not
agree, or it is emitted and noted. -/
theorem run_branch (opcode : Opcode) (label : Label) :
    (∃ fault, (branch opcode label).run builder = (.error fault, builder)) ∨
    builder.CanBranch opcode label.slot ∧
      ((∃ fault, (branch opcode label).run builder =
          (.error fault, builder.pushed (.ofTable ⟨opcode, .target label.slot⟩))) ∨
        (builder.unreachable = false →
          (builder.pushed (.ofTable ⟨opcode, .target label.slot⟩)).Agrees label.slot) ∧
        (branch opcode label).run builder =
          (.ok builder.nextSlot, builder.jumped opcode label.slot)) := by
  unfold branch
  simp only [step_bind, step_get]
  split
  · exact Or.inl ⟨_, rfl⟩
  · next hflow =>
    have hflow : opcode.flow = .conditionalBranch ∨ opcode.flow = .unconditionalBranch := by
      by_cases hcond : opcode.flow = .conditionalBranch
      · exact Or.inl hcond
      · right
        simpa [hcond] using hflow
    split
    · exact Or.inl ⟨_, rfl⟩
    · next hinside =>
      have hinside : label.slot = builder.continuation ∨ label.slot ∈ builder.reserved := by
        by_cases hcont : label.slot = builder.continuation
        · exact Or.inl hcont
        · right
          simpa [hcont] using hinside
      rcases run_push builder ⟨opcode, .target label.slot⟩ opcode.entry.pops
        opcode.entry.pushes with ⟨fault, hrun⟩ | ⟨haffords, hrun⟩
      · left
        rw [step_bind, hrun]
        exact ⟨_, rfl⟩
      · right
        refine ⟨⟨hflow, hinside, haffords⟩, ?_⟩
        rw [step_bind, hrun]
        cases hreach : builder.unreachable with
        | true =>
          right
          refine ⟨by simp, ?_⟩
          rw [Builder.jumped, hreach]
          exact run_behind _ opcode _
        | false =>
          rcases run_recordDepth (builder.pushed (.ofTable ⟨opcode, .target label.slot⟩))
            label.slot with ⟨fault, hrecord⟩ | ⟨hagrees, hrecord⟩
          · left
            refine ⟨fault, ?_⟩
            refine (step_bind _ _ _).trans ?_
            rw [Emitted.ofTable] at hrecord
            rw [hrecord]
            rfl
          · right
            refine ⟨fun _ => hagrees, ?_⟩
            rw [Builder.jumped, hreach]
            refine (step_bind _ _ _).trans ?_
            rw [Emitted.ofTable] at hrecord
            rw [hrecord]
            exact run_behind _ opcode _

end Build

namespace Call

/-- What a call of the builder can do. -/
inductive Outcome (builder : Builder) : Call → Except Fault Unit → Builder → Prop
  /-- The call is refused, and nothing changes. -/
  | refused {call : Call} {fault : Fault} : Outcome builder call (.error fault) builder
  /-- A local variable is declared. -/
  | declared {type : TypeSig} {name : String} (hroom : builder.localCount < Body.localLimit) :
      Outcome builder (.declare type name) (.ok ()) (builder.declared ⟨type, some name⟩)
  /-- A label is given out. -/
  | reserved : Outcome builder .reserve (.ok ()) builder.reservedNext
  /-- A label is bound. -/
  | bound {label : Label} (hbind : builder.CanBind label.slot) :
      Outcome builder (.bind label) (.ok ()) (builder.bound label.slot)
  /-- An instruction that does not jump is emitted. -/
  | emitted {call : Call} {emitted : Emitted} (hemits : call.emits? = some emitted)
      (hflow : emitted.instruction.opcode.flow.isJump = false)
      (haffords : builder.Affords emitted.pops) :
      Outcome builder call (.ok ()) (builder.pushed emitted)
  /-- A branch is emitted. -/
  | jumped {opcode : Opcode} {label : Label} (hbranch : builder.CanBranch opcode label.slot)
      (hagrees : builder.unreachable = false →
        (builder.pushed (.ofTable ⟨opcode, .target label.slot⟩)).Agrees label.slot) :
      Outcome builder (.branch opcode label) (.ok ()) (builder.jumped opcode label.slot)
  /-- A branch is refused although it has been emitted. -/
  | stranded {opcode : Opcode} {label : Label} {fault : Fault}
      (hbranch : builder.CanBranch opcode label.slot) :
      Outcome builder (.branch opcode label) (.error fault)
        (builder.pushed (.ofTable ⟨opcode, .target label.slot⟩))

variable (builder : Builder)

/-- A call whose step gives up leaves everything as it was. -/
private theorem outcome_of_error {call : Call} (fault : Fault)
    (hrun : call.step.run builder = (.error fault, builder)) :
    Outcome builder call (call.step.run builder).1 (call.step.run builder).2 := by
  rw [hrun]
  exact .refused

/-- A call that emits an instruction of the table does so, or it is refused. -/
private theorem outcome_emit {call : Call} {instruction : Instruction}
    (hstep : call.step.run builder =
      ((fun _ => ()) <$> Build.emit instruction : Build Unit).run builder)
    (hemits : call.emits? = some (.ofTable instruction)) :
    Outcome builder call (call.step.run builder).1 (call.step.run builder).2 := by
  rw [hstep, step_map]
  rcases Build.run_emit builder instruction with ⟨fault, hrun⟩ | ⟨hflow, haffords, hrun⟩
  · rw [hrun]
    exact .refused
  · rw [hrun]
    exact .emitted hemits hflow haffords

/-- A call that loads a local variable does so if it is declared, or it is refused. -/
private theorem outcome_loadIndex {call : Call} {index : UInt16}
    (hstep : call.step = (fun _ => ()) <$> Build.loadIndex index)
    (hemits : call.emits? = some (.ofTable (Build.loadOf index))) :
    Outcome builder call (call.step.run builder).1 (call.step.run builder).2 := by
  by_cases h : builder.localCount ≤ index.toNat
  · refine outcome_of_error builder
      (.instruction (.undeclaredLocal index builder.localCount)) ?_
    rw [hstep]
    simp only [Build.loadIndex, step_map, step_bind, step_get, h, if_true]
    rfl
  · refine outcome_emit builder ?_ hemits
    rw [hstep]
    simp only [Build.loadIndex, step_map, step_bind, step_get, h, if_false]

/-- Every call has one of the outcomes. -/
theorem outcome (call : Call) :
    Outcome builder call (call.step.run builder).1 (call.step.run builder).2 := by
  cases call with
  | declare type name =>
    rw [step, step_map]
    rcases Build.run_declare builder type name with ⟨fault, hrun⟩ | ⟨hroom, slot, hrun⟩
    · rw [hrun]
      exact .refused
    · rw [hrun]
      exact .declared hroom
  | reserve => exact .reserved
  | bind label =>
    rw [step]
    rcases Build.run_bind builder label with ⟨fault, hrun⟩ | ⟨hbind, hrun⟩
    · rw [hrun]
      exact .refused
    · rw [hrun]
      exact .bound hbind
  | emit instruction => exact outcome_emit builder rfl rfl
  | op opcode => exact outcome_emit builder rfl rfl
  | field opcode handle =>
    by_cases h : Build.accessesStatic opcode = handle.isStatic
    · refine outcome_emit builder ?_ rfl
      simp only [step, Build.field, h, if_true]
    · refine outcome_of_error builder (.instruction (.fieldAccess opcode handle.token)) ?_
      simp only [step, Build.field, h, if_false]
      rfl
  | call method =>
    rw [step, step_map, Build.call]
    rcases Build.run_push builder ⟨.call, .token method.token⟩ method.pops method.pushes with
      ⟨fault, hrun⟩ | ⟨haffords, hrun⟩
    · rw [hrun]
      exact .refused
    · rw [hrun]
      have hflow : Opcode.call.flow.isJump = false := by decide +kernel
      exact .emitted rfl hflow haffords
  | constant value => exact outcome_emit builder rfl rfl
  | load slot => exact outcome_loadIndex builder rfl rfl
  | loadIndex index => exact outcome_loadIndex builder rfl rfl
  | store slot => exact outcome_emit builder rfl rfl
  | loadAddress slot => exact outcome_emit builder rfl rfl
  | branch opcode label =>
    rw [step, step_map]
    rcases Build.run_branch builder opcode label with
      ⟨fault, hrun⟩ | ⟨hbranch, ⟨fault, hrun⟩ | ⟨hagrees, hrun⟩⟩
    · rw [hrun]
      exact .refused
    · rw [hrun]
      exact .stranded hbranch
    · rw [hrun]
      exact .jumped hbranch hagrees
  | ret =>
    by_cases h : (!builder.unreachable && builder.depth != 0) = true
    · refine outcome_of_error builder (.instruction (.returnDepth builder.depth)) ?_
      simp only [step, Build.ret, step_map, step_bind, step_get, h, if_true]
      rfl
    · refine outcome_emit builder ?_ rfl
      simp only [step, Build.ret, step_map, step_bind, step_get, h, Bool.false_eq_true,
        if_false, Build.op]

end Call

end CilPatch
