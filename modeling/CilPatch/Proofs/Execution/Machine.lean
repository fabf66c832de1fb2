import CilPatch.Code.InstrList

/-!
# Execution

What the instructions do that look at the objects of a program and change them (ECMA-335,
Partition III). Numbers have 32 bits; truth values and smaller numbers are widened when they are
loaded. An instruction that would throw has no next state, and neither has one that is not listed
here.
-/

namespace CilPatch.Execution

/-- What is on the evaluation stack, in a variable, in a field or in an array. -/
inductive Value where
  /-- A number. -/
  | number (value : Int32)
  /-- The reference to nothing. -/
  | null
  /-- A reference to an object or to an array. -/
  | reference (address : Nat)
  deriving DecidableEq

namespace Value

/-- Whether a value is a number. -/
def isNumber : Value → Bool
  | number _ => true
  | null | reference _ => false

/-- Whether a value counts as false. -/
def isFalse : Value → Bool
  | number value => decide (value = 0)
  | null => true
  | reference _ => false

end Value

/-- What a reference leads to. -/
inductive Cell where
  /-- An object, whose fields are named by their tokens. -/
  | object (fields : Token → Value)
  /-- An array of references. -/
  | array (elements : List Value)

/-- An object with another value in one of its fields. -/
def Cell.setField (field : Token) (value : Value) : Cell → Cell
  | object fields => object fun other => if other = field then value else fields other
  | array elements => array elements

/-- A state of a method that is executed. -/
structure State where
  /-- The arguments of the method, the object it belongs to first. -/
  arguments : List Value
  /-- The local variables. -/
  locals : List Value
  /-- The evaluation stack, its top first. -/
  stack : List Value
  /-- The position of the next instruction. -/
  position : Nat
  /-- The objects and arrays. -/
  heap : Nat → Option Cell
  /-- The fields that belong to types. -/
  statics : Token → Value
  /-- The array elements that were loaded so far, each with its array and its index. -/
  loads : List (Value × Nat)

namespace State

variable (state : State)

/-- A field of an object. -/
def field? (object : Value) (field : Token) : Option Value :=
  match object with
  | .reference address =>
      match state.heap address with
      | some (.object fields) => some (fields field)
      | _ => none
  | _ => none

/-- The elements of an array. -/
def elements? (array : Value) : Option (List Value) :=
  match array with
  | .reference address =>
      match state.heap address with
      | some (.array elements) => some elements
      | _ => none
  | _ => none

/-- An element of an array. -/
def element? (array : Value) (index : Int32) : Option Value :=
  if 0 ≤ index then (state.elements? array).bind fun elements => elements[index.toInt.toNat]?
  else none

/-- Whether there is a number in a field of an object. -/
def HasNumber (object : Value) (field : Token) : Prop :=
  ∃ value, state.field? object field = some (.number value)

/-- The number in a field of an object. -/
def number (object : Value) (field : Token) : Int32 :=
  match state.field? object field with
  | some (.number value) => value
  | _ => 0

/-- The state at another position, with another evaluation stack. -/
def resume (position : Nat) (stack : List Value) : State := { state with position, stack }

/-- The state at the next position, with another evaluation stack. -/
def next (stack : List Value) : State := state.resume (state.position + 1) stack

/-- Another value in a local variable. -/
def setLocal (index : Nat) (value : Value) : State :=
  { state with locals := state.locals.set index value }

/-- One more element was loaded. -/
def load (array : Value) (index : Nat) : State :=
  { state with loads := state.loads ++ [(array, index)] }

/-- Another value in a field of an object. -/
def setField (object : Value) (field : Token) (value : Value) : State :=
  { state with
    heap := fun address =>
      if object = .reference address then (state.heap address).map (Cell.setField field value)
      else state.heap address }

@[simp] theorem resume_self : state.resume state.position state.stack = state := rfl

@[simp] theorem locals_load (array : Value) (index : Nat) :
    (state.load array index).locals = state.locals := rfl

section Resume

variable (position : Nat) (stack : List Value)

@[simp] theorem resume_resume (other : Nat) (values : List Value) :
    (state.resume position stack).resume other values = state.resume other values := rfl

@[simp] theorem position_resume : (state.resume position stack).position = position := rfl

@[simp] theorem stack_resume : (state.resume position stack).stack = stack := rfl

@[simp] theorem arguments_resume :
    (state.resume position stack).arguments = state.arguments := rfl

@[simp] theorem locals_resume : (state.resume position stack).locals = state.locals := rfl

@[simp] theorem statics_resume : (state.resume position stack).statics = state.statics := rfl

@[simp] theorem field?_resume : (state.resume position stack).field? = state.field? := rfl

@[simp] theorem elements?_resume : (state.resume position stack).elements? = state.elements? := rfl

@[simp] theorem element?_resume : (state.resume position stack).element? = state.element? := rfl

@[simp] theorem setLocal_resume (index : Nat) (value : Value) :
    (state.resume position stack).setLocal index value =
      (state.setLocal index value).resume position stack := rfl

@[simp] theorem load_resume (array : Value) (index : Nat) :
    (state.resume position stack).load array index =
      (state.load array index).resume position stack := rfl

@[simp] theorem setField_resume (object : Value) (field : Token) (value : Value) :
    (state.resume position stack).setField object field value =
      (state.setField object field value).resume position stack := rfl

end Resume

variable {state}

/-- A field with a number in it holds the number. -/
theorem HasNumber.field?_eq {object : Value} {field : Token} (h : state.HasNumber object field) :
    state.field? object field = some (.number (state.number object field)) := by
  obtain ⟨value, hvalue⟩ := h
  rw [number, hvalue]

/-- Fields are those of the objects. -/
theorem field?_eq_of_heap {after : State} (h : after.heap = state.heap) :
    after.field? = state.field? := by
  funext object field
  simp only [field?, h]

/-- Elements are those of the arrays. -/
theorem elements?_eq_of_heap {after : State} (h : after.heap = state.heap) :
    after.elements? = state.elements? := by
  funext array
  simp only [elements?, h]

/-- Numbers are in the same fields of the same objects. -/
theorem HasNumber.of_heap {after : State} (h : after.heap = state.heap) {object : Value}
    {field : Token} (hnumber : state.HasNumber object field) : after.HasNumber object field := by
  rwa [HasNumber, field?_eq_of_heap h]

/-- An object has every field if it has one. -/
theorem exists_field? {object value : Value} {field : Token}
    (hvalue : state.field? object field = some value) (other : Token) :
    ∃ found, state.field? object other = some found := by
  unfold field? at hvalue ⊢
  split at hvalue
  · split at hvalue
    · exact ⟨_, rfl⟩
    · cases hvalue
  · cases hvalue

/-- A field that is set holds the value; the others stay. -/
theorem field?_setField {object : Value} {field : Token} {value old : Value}
    (h : state.field? object field = some old) (other : Value) (token : Token) :
    (state.setField object field value).field? other token =
      if other = object ∧ token = field then some value else state.field? other token := by
  unfold field? at h
  split at h
  · next address =>
    split at h
    · next fields hfields =>
      cases other with
      | number => simp [field?]
      | null => simp [field?]
      | reference there =>
        by_cases hsame : there = address
        · subst hsame
          simp only [field?, setField, if_true, hfields, Option.map_some, Cell.setField,
            true_and]
          split <;> rfl
        · simp [field?, setField, hsame, Ne.symm hsame]
    · cases h
  · cases h

/-- An object keeps its fields when one of them is set. -/
theorem exists_field?_setField {object old : Value} {field : Token}
    (h : state.field? object field = some old) (value : Value) (other : Token) :
    ∃ found, (state.setField object field value).field? object other = some found := by
  rw [field?_setField h]
  split
  · exact ⟨value, rfl⟩
  · exact exists_field? h other

/-- Setting a field changes no array. -/
@[simp] theorem elements?_setField (object : Value) (field : Token) (value array : Value) :
    (state.setField object field value).elements? array = state.elements? array := by
  cases array with
  | number => rfl
  | null => rfl
  | reference address =>
    by_cases hsame : object = .reference address
    · simp only [elements?, setField, hsame, if_true]
      cases state.heap address with
      | none => rfl
      | some cell => cases cell <;> rfl
    · simp only [elements?, setField, hsame, if_false]

end State

/-- When a jump is taken. -/
inductive Condition where
  /-- Always. -/
  | always
  /-- When a value counts as false. -/
  | isFalse
  /-- When a number is at most another. -/
  | lessEqual
  /-- When a number is less than another. -/
  | less
  /-- When a value is not another. -/
  | unequal
  deriving DecidableEq

/-- Whether a jump is taken, and what it leaves of the evaluation stack. Numbers are compared with
numbers and references with references; the value that was loaded last stands on the right. -/
def Condition.test : Condition → List Value → Option (Bool × List Value)
  | always, stack => some (true, stack)
  | isFalse, value :: stack => some (value.isFalse, stack)
  | lessEqual, .number right :: .number left :: stack => some (left ≤ right, stack)
  | less, .number right :: .number left :: stack => some (left < right, stack)
  | unequal, right :: left :: stack =>
      if left.isNumber = right.isNumber then some (decide (left ≠ right), stack) else none
  | _, _ => none

/-- What an instruction does. -/
inductive Action where
  /-- Loads an argument. -/
  | loadArgument (index : Nat)
  /-- Loads a local variable. -/
  | loadLocal (index : Nat)
  /-- Stores into a local variable. -/
  | storeLocal (index : Nat)
  /-- Loads a constant. -/
  | constant (value : Int32)
  /-- Loads a field of an object. -/
  | loadField (field : Token)
  /-- Stores into a field of an object. -/
  | storeField (field : Token)
  /-- Loads a field of a type. -/
  | loadStatic (field : Token)
  /-- Loads an element of an array. -/
  | loadElement
  /-- Adds two numbers, without regard to overflow. -/
  | add
  /-- Jumps. -/
  | jump (condition : Condition) (target : Slot)
  deriving DecidableEq

namespace Action

/-- Whether an action is a jump. -/
def isJump : Action → Bool
  | jump _ _ => true
  | _ => false

/-- The state behind an action. -/
def perform (list : InstrList) (state : State) : Action → Option State
  | loadArgument index =>
      state.arguments[index]?.map fun value => state.next (value :: state.stack)
  | loadLocal index => state.locals[index]?.map fun value => state.next (value :: state.stack)
  | storeLocal index =>
      match state.stack with
      | value :: stack =>
          if index < state.locals.length then
            some ((state.setLocal index value).next stack)
          else none
      | [] => none
  | constant value => some (state.next (.number value :: state.stack))
  | loadField field =>
      match state.stack with
      | object :: stack =>
          (state.field? object field).map fun value => state.next (value :: stack)
      | [] => none
  | storeField field =>
      match state.stack with
      | value :: object :: stack =>
          (state.field? object field).map fun _ => (state.setField object field value).next stack
      | _ => none
  | loadStatic field => some (state.next (state.statics field :: state.stack))
  | loadElement =>
      match state.stack with
      | .number index :: array :: stack =>
          (state.element? array index).map fun value =>
            (state.load array index.toInt.toNat).next (value :: stack)
      | _ => none
  | add =>
      match state.stack with
      | .number right :: .number left :: stack =>
          some (state.next (.number (left + right) :: stack))
      | _ => none
  | jump condition target =>
      match condition.test state.stack with
      | some (true, stack) =>
          (list.position? target).map fun position => state.resume position stack
      | some (false, stack) => some (state.next stack)
      | none => none

end Action

/-- Whether an opcode loads a local variable. -/
def loadsLocal (opcode : Opcode) : Bool :=
  opcode == .ldlocS || opcode == .ldloc ||
    match opcode with
    | .single code => 0x06 ≤ code && code ≤ 0x09
    | .extended _ => false

/-- Whether an opcode stores into a local variable. -/
def storesLocal (opcode : Opcode) : Bool :=
  opcode == .stlocS || opcode == .stloc ||
    match opcode with
    | .single code => 0x0A ≤ code && code ≤ 0x0D
    | .extended _ => false

/-- What an instruction does. -/
def meaning? (instruction : Instruction) : Option Action :=
  match instruction.constant? with
  | some value => some (.constant value)
  | none =>
      if loadsLocal instruction.opcode then
        instruction.localIndex?.map fun index => .loadLocal index.toNat
      else if storesLocal instruction.opcode then
        instruction.localIndex?.map fun index => .storeLocal index.toNat
      else match instruction.opcode.longForm, instruction.operand with
        | .ldarg0, _ => some (.loadArgument 0)
        | .ldfld, .token field => some (.loadField field)
        | .stfld, .token field => some (.storeField field)
        | .ldsfld, .token field => some (.loadStatic field)
        | .ldelemRef, _ => some .loadElement
        | .add, _ => some .add
        | .br, .target slot => some (.jump .always slot)
        | .brfalse, .target slot => some (.jump .isFalse slot)
        | .ble, .target slot => some (.jump .lessEqual slot)
        | .blt, .target slot => some (.jump .less slot)
        | .bneUn, .target slot => some (.jump .unequal slot)
        | _, _ => none

/-- What the instruction at a position does. -/
def actionAt? (list : InstrList) (position : Nat) : Option Action :=
  (list.instructionAt? position).bind meaning?

/-- The state behind the next instruction. -/
def step (list : InstrList) (state : State) : Option State :=
  (actionAt? list state.position).bind (Action.perform list state)

variable {list : InstrList} {stop : Slot}

/-- Whether execution goes from one state to another and, on the way there, does not come to an
instruction. -/
inductive Runs (list : InstrList) (stop : Slot) : State → State → Prop
  /-- Nothing is executed. -/
  | refl (state : State) : Runs list stop state state
  /-- One instruction is executed, then others. -/
  | step {state between after : State} (hstop : list.slotAt? state.position ≠ some stop)
      (hstep : step list state = some between) (h : Runs list stop between after) :
      Runs list stop state after

/-- Execution goes on where it got to. -/
theorem Runs.trans {state between after : State} (h : Runs list stop state between)
    (hafter : Runs list stop between after) : Runs list stop state after := by
  induction h with
  | refl => exact hafter
  | step hstop hstep _ ih => exact .step hstop hstep (ih hafter)

/-- Whether execution goes from one state to another, where it comes to an instruction for the first
time. -/
def Arrives (list : InstrList) (stop : Slot) (state after : State) : Prop :=
  Runs list stop state after ∧ list.slotAt? after.position = some stop

/-- Execution comes to an instruction in one state only. -/
theorem Arrives.unique {state after other : State} (h : Arrives list stop state after)
    (hother : Arrives list stop state other) : after = other := by
  obtain ⟨hruns, hafter⟩ := h
  obtain ⟨hruns', hother⟩ := hother
  induction hruns with
  | refl =>
    cases hruns' with
    | refl => rfl
    | step hstop => exact absurd hafter hstop
  | step hstop hstep _ ih =>
    cases hruns' with
    | refl => exact absurd hother hstop
    | step _ hstep' hrest =>
      obtain rfl := Option.some.inj (hstep.symm.trans hstep')
      exact ih hafter hrest

/-! ## Code in place -/

/-- The state behind some actions, performed one after the other. -/
def performAll (list : InstrList) (actions : List Action) (state : State) : Option State :=
  actions.foldlM (fun state action => action.perform list state) state

/-- Whether some code stands at a position and does not contain an instruction. -/
structure Placed (list : InstrList) (stop : Slot) (start : Nat) (code : List Action) : Prop where
  action : ∀ offset action, code[offset]? = some action →
    actionAt? list (start + offset) = some action
  apart : ∀ offset < code.length, list.slotAt? (start + offset) ≠ some stop

/-- An action that is not a jump leads to the next position. -/
theorem Action.position_of_perform {action : Action} {state after : State}
    (hjump : action.isJump = false) (h : action.perform list state = some after) :
    after.position = state.position + 1 := by
  cases action with
  | jump => cases hjump
  | constant => cases h; rfl
  | loadStatic => cases h; rfl
  | loadArgument | loadLocal =>
    obtain ⟨value, -, rfl⟩ := Option.map_eq_some_iff.mp h
    rfl
  | storeLocal =>
    simp only [perform] at h
    split at h
    · split at h
      · cases h
        rfl
      · cases h
    · cases h
  | loadField | storeField | loadElement =>
    simp only [perform] at h
    split at h
    · obtain ⟨value, -, rfl⟩ := Option.map_eq_some_iff.mp h
      rfl
    · cases h
  | add =>
    simp only [perform] at h
    split at h
    · cases h
      rfl
    · cases h

/-- A piece of the code is executed from its first action on, if only its last action may jump. -/
theorem Placed.runs {start : Nat} {code : List Action} (h : Placed list stop start code)
    {offset : Nat} {block : List Action} (hblock : block <+: code.drop offset)
    (hjump : ∀ action ∈ block.dropLast, action.isJump = false) {state after : State}
    (hposition : state.position = start + offset)
    (hperform : performAll list block state = some after) : Runs list stop state after := by
  obtain ⟨back, hback⟩ := hblock
  induction block generalizing offset state with
  | nil =>
    obtain rfl : state = after := Option.some.inj hperform
    exact .refl _
  | cons action rest ih =>
    have hhere : code[offset]? = some action := by
      rw [← List.head?_drop, ← hback]
      rfl
    have hnext : rest ++ back = code.drop (offset + 1) := by
      rw [← List.tail_drop, ← hback]
      rfl
    obtain ⟨hlt, -⟩ := List.getElem?_eq_some_iff.mp hhere
    rw [performAll, List.foldlM_cons] at hperform
    obtain ⟨between, hbetween, hrest⟩ := Option.bind_eq_some_iff.mp hperform
    have hstep : step list state = some between := by
      rw [step, hposition, h.action _ _ hhere]
      exact hbetween
    refine .step (hposition ▸ h.apart _ hlt) hstep ?_
    cases rest with
    | nil =>
      obtain rfl : between = after := Option.some.inj hrest
      exact .refl _
    | cons second more =>
      have hstraight : action.isJump = false := hjump action (by simp)
      refine ih (fun other hother => hjump other (by simp [List.dropLast, hother])) ?_ hrest hnext
      rw [Action.position_of_perform hstraight hbetween, hposition, Nat.add_assoc]

end CilPatch.Execution
