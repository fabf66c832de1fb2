import CilPatch.Patch.Pattern
import CilPatch.Patch.Splice
import CilPatch.Report.Tree

/-!
# Reports on code

How instructions, types, bodies and edits stand in a report. A slot is its number, a token its
value, and the bits of a floating point number are hexadecimal digits, so nothing is rounded.
-/

namespace CilPatch

open Report

instance : Reported Slot := ⟨fun slot => report slot.index⟩
instance : Reported Token := ⟨fun token => report token.value⟩
instance : Reported TableId := ⟨fun table => report table.number⟩

instance : Reported Operand := ⟨fun
  | .none => .absent
  | .i32 value => .record [field "i32" value]
  | .i64 value => .record [field "i64" (toString value.toInt)]
  | .f32 bits => .record [field "f32" (Hex.lower bits.toNat 8)]
  | .f64 bits => .record [field "f64" (Hex.lower bits.toNat 16)]
  | .token reference => .record [field "token" reference]
  | .localIndex index => .record [field "local" index]
  | .argIndex index => .record [field "arg" index]
  | .target slot => .record [field "target" slot]
  | .switch slots => .record [field "switch" slots]⟩

/-- The text and the operand, and what the instruction means where its opcode alone says so. -/
instance : Reported Instruction := ⟨fun instruction =>
  .record ([field "t" instruction.text, field "x" instruction.operand] ++
    field? "local" instruction.localIndex? ++ field? "arg" instruction.argIndex? ++
    field? "i4" instruction.constant? ++ field? "token" instruction.token?)⟩

/-- An instruction with its slot. -/
def Report.placed (entry : Slot × Instruction) : Report :=
  .list [report entry.1, report entry.2]

/-- What the table says of an opcode. -/
instance : Reported Opcode := ⟨fun opcode => .record [
  field "bytes" opcode.bytes, field "prefix" opcode.lead, field "code" opcode.code,
  field "valid" opcode.isValid, field "mnemonic" opcode.mnemonic, field "text" opcode.text,
  field "size" opcode.size, field "operand" opcode.operandKind.name,
  field "operand_size" opcode.operandKind.size?, field "flow" opcode.flow.name,
  field "pops" opcode.entry.pops, field "pushes" opcode.entry.pushes,
  field "branch" opcode.isBranch, field "short" opcode.isShortBranch,
  field "long_form" opcode.longForm.text,
  field "short_form" (opcode.shortForm?.map Opcode.text)]⟩

mutual

/-- A type; one without parts is its name. -/
def Report.type : TypeSig → Report
  | .ptr base => .record [("ptr", Report.type base)]
  | .byRef base => .record [("byref", Report.type base)]
  | .pinned base => .record [("pinned", Report.type base)]
  | .szArray base => .record [("szarray", Report.type base)]
  | .array base rank => .record [("array", .list [Report.type base, report rank])]
  | .classType reference => .record [field "class" reference]
  | .valueType reference => .record [field "valuetype" reference]
  | .typeParam index => .record [field "var" index]
  | .methodParam index => .record [field "mvar" index]
  | .genericInst base args =>
      .record [("inst", .list [Report.type base, .list (Report.types args)])]
  | .fnPtr ⟨hasThis, explicitThis, generics, ⟨retByRef, ret⟩, params⟩ =>
      .record [("fnptr", .record [
        field "has_this" hasThis, field "explicit_this" explicitThis,
        field "generics" generics, ("ret", .list [report retByRef, Report.type ret]),
        ("params", .list (Report.params params)), field "returns_value" (retByRef || !ret.isVoid)])]
  | simple => .text simple.detail

/-- Several types. -/
def Report.types : List TypeSig → List Report
  | [] => []
  | first :: rest => Report.type first :: Report.types rest

/-- Parameters, each with whether it is passed by reference. -/
def Report.params : List (Parameter TypeSig) → List Report
  | [] => []
  | ⟨byRef, type⟩ :: rest => .list [report byRef, Report.type type] :: Report.params rest

end

instance : Reported TypeSig := ⟨Report.type⟩
instance : Reported MethodSig := ⟨fun sig =>
  match Report.type (.fnPtr sig) with
  | .record [(_, shape)] => shape
  | other => other⟩

instance : Reported LocalSlot := ⟨fun slot => .list [report slot.type, report slot.name]⟩

instance : Reported Region := ⟨fun region => .record [
  field "kind" region.kind, field "try" [some region.tryStart, region.tryEnd],
  field "handler" [some region.handlerStart, region.handlerEnd],
  field "filter" region.filterStart, field "catch" region.catchType]⟩

instance : Reported Body := ⟨fun body => .record [
  field "len" body.instructions.length, field "max_stack" body.maxStack,
  field "init_locals" body.initLocals, field "local_sig" body.localSig,
  field "locals" body.localCount, field "added" body.added, field "regions" body.regions]⟩

instance : Reported Fragment := ⟨fun fragment => .record [
  field "instructions" fragment.instructions, field "len" fragment.instructions.size,
  field "empty" fragment.instructions.isEmpty, field "entry" fragment.entry?,
  field "locals" fragment.locals, field "first_local" fragment.firstLocal,
  field "continuation" fragment.continuation, field "max_stack" fragment.maxStack]⟩

instance : Reported SpliceReport := ⟨fun splice => .record [
  field "index" splice.index, field "inserted" splice.inserted,
  field "retargeted" splice.retargeted, field "regions" splice.regions,
  field "locals" splice.locals]⟩

instance : Reported Match := ⟨fun found => .record [
  field "pattern" found.pattern, field "candidate" found.candidate, field "index" found.index]⟩

instance : Reported MatchState := ⟨fun
  | .unattempted => .text "Unattempted"
  | .trying candidate => .record [field "Trying" candidate]
  | .matched found => report found
  | .exhausted => .text "Exhausted"⟩

end CilPatch
