import CilPatch.Table.Stream

/-!
# Typed rows

The tables that name types, members and signatures, with a field for each column.
-/

namespace CilPatch

/-- Takes a row of a table apart, or reports that it is missing. -/
def TableStream.view {α : Type} (stream : TableStream) (table : TableId) (rid : UInt32)
    (split : Row → Option α) : Except Fault α :=
  match (stream.row? table rid).bind split with
  | some view => .ok view
  | none => .error (.malformed (.missingRow table rid))

/-- A declared type. -/
structure TypeDefRow where
  /-- Attributes of the type. -/
  flags : UInt32
  /-- The string index of the name. -/
  name : UInt32
  /-- The string index of the namespace. -/
  space : UInt32
  /-- The coded index of the base type. -/
  base : UInt32
  /-- The number of the first field. -/
  fields : UInt32
  /-- The number of the first method. -/
  methods : UInt32

/-- A declared field. -/
structure FieldRow where
  /-- Attributes of the field. -/
  flags : UInt32
  /-- The string index of the name. -/
  name : UInt32
  /-- The blob index of the signature. -/
  signature : UInt32

/-- A declared method. -/
structure MethodDefRow where
  /-- The address of the body, zero when there is none. -/
  rva : UInt32
  /-- How the method is implemented. -/
  implFlags : UInt32
  /-- Attributes of the method. -/
  flags : UInt32
  /-- The string index of the name. -/
  name : UInt32
  /-- The blob index of the signature. -/
  signature : UInt32
  /-- The number of the first parameter. -/
  params : UInt32

/-- The column of a method row that holds the address of the body. -/
def MethodDefRow.rvaColumn : Nat := 0

/-- A reference to a type of another image. -/
structure TypeRefRow where
  /-- The coded index of where the type lives. -/
  scope : UInt32
  /-- The string index of the name. -/
  name : UInt32
  /-- The string index of the namespace. -/
  space : UInt32

/-- A type within a type. -/
structure NestedClassRow where
  /-- The number of the inner type. -/
  nested : UInt32
  /-- The number of the outer type. -/
  enclosing : UInt32

namespace TableStream

/-- The declared type with a number. -/
def typeDef (stream : TableStream) (rid : UInt32) : Except Fault TypeDefRow :=
  stream.view .typeDef rid fun
    | [flags, name, space, base, fields, methods] =>
        some ⟨flags, name, space, base, fields, methods⟩
    | _ => none

/-- The declared field with a number. -/
def field (stream : TableStream) (rid : UInt32) : Except Fault FieldRow :=
  stream.view .field rid fun
    | [flags, name, signature] => some ⟨flags, name, signature⟩
    | _ => none

/-- The declared method with a number. -/
def methodDef (stream : TableStream) (rid : UInt32) : Except Fault MethodDefRow :=
  stream.view .methodDef rid fun
    | [rva, implFlags, flags, name, signature, params] =>
        some ⟨rva, implFlags, flags, name, signature, params⟩
    | _ => none

/-- The reference to a type with a number. -/
def typeRef (stream : TableStream) (rid : UInt32) : Except Fault TypeRefRow :=
  stream.view .typeRef rid fun
    | [scope, name, space] => some ⟨scope, name, space⟩
    | _ => none

/-- The nesting of a type with a number. -/
def nestedClass (stream : TableStream) (rid : UInt32) : Except Fault NestedClassRow :=
  stream.view .nestedClass rid fun
    | [nested, enclosing] => some ⟨nested, enclosing⟩
    | _ => none

/-- The blob index of the signature with a number. -/
def standAloneSig (stream : TableStream) (rid : UInt32) : Except Fault UInt32 :=
  stream.view .standAloneSig rid fun
    | [signature] => some signature
    | _ => none

end TableStream

end CilPatch
