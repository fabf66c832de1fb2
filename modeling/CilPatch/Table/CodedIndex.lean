import CilPatch.Token

/-!
# Coded indexes

A coded index (ECMA-335 II.24.2.6) refers to a row of one of several tables: its low bits
choose the table and the bits above them are the row number. The width of the tag depends only
on how many tables there are to choose from.
-/

namespace CilPatch

/-- A kind of coded index. -/
inductive CodedIndex where
  /-- A type declaration, reference or specification. -/
  | typeDefOrRef
  /-- What can have a constant. -/
  | hasConstant
  /-- What can carry a custom attribute. -/
  | hasCustomAttribute
  /-- What can have a marshalling descriptor. -/
  | hasFieldMarshal
  /-- What can have declarative security. -/
  | hasDeclSecurity
  /-- The parent of a member reference. -/
  | memberRefParent
  /-- What can have accessor methods. -/
  | hasSemantics
  /-- A method declaration or reference. -/
  | methodDefOrRef
  /-- A member that is implemented elsewhere. -/
  | memberForwarded
  /-- Where a type or resource is found. -/
  | implementation
  /-- The constructor of a custom attribute. -/
  | customAttributeType
  /-- Where a referenced type lives. -/
  | resolutionScope
  /-- The owner of a generic parameter. -/
  | typeOrMethodDef
  deriving DecidableEq, Repr, Inhabited

namespace CodedIndex

/-- The kinds in the order in which they are numbered. -/
def all : List CodedIndex :=
  [.typeDefOrRef, .hasConstant, .hasCustomAttribute, .hasFieldMarshal, .hasDeclSecurity,
    .memberRefParent, .hasSemantics, .methodDefOrRef, .memberForwarded, .implementation,
    .customAttributeType, .resolutionScope, .typeOrMethodDef]

/-- The name of a kind in ECMA-335. -/
def name : CodedIndex → String
  | typeDefOrRef => "TypeDefOrRef"
  | hasConstant => "HasConstant"
  | hasCustomAttribute => "HasCustomAttribute"
  | hasFieldMarshal => "HasFieldMarshal"
  | hasDeclSecurity => "HasDeclSecurity"
  | memberRefParent => "MemberRefParent"
  | hasSemantics => "HasSemantics"
  | methodDefOrRef => "MethodDefOrRef"
  | memberForwarded => "MemberForwarded"
  | implementation => "Implementation"
  | customAttributeType => "CustomAttributeType"
  | resolutionScope => "ResolutionScope"
  | typeOrMethodDef => "TypeOrMethodDef"

/-- The tables to choose from, in the order of their tags. -/
def tables : CodedIndex → List TableId
  | typeDefOrRef => [.typeDef, .typeRef, .typeSpec]
  | hasConstant => [.field, .param, .property]
  | hasCustomAttribute =>
      [.methodDef, .field, .typeRef, .typeDef, .param, .interfaceImpl, .memberRef, .moduleSelf,
        .declSecurity, .property, .event, .standAloneSig, .moduleRef, .typeSpec, .assembly,
        .assemblyRef, .file, .exportedType, .manifestResource, .genericParam,
        .genericParamConstraint, .methodSpec]
  | hasFieldMarshal => [.field, .param]
  | hasDeclSecurity => [.typeDef, .methodDef, .assembly]
  | memberRefParent => [.typeDef, .typeRef, .moduleRef, .methodDef, .typeSpec]
  | hasSemantics => [.event, .property]
  | methodDefOrRef => [.methodDef, .memberRef]
  | memberForwarded => [.field, .methodDef]
  | implementation => [.file, .assemblyRef, .exportedType]
  | customAttributeType => [.methodDef, .methodDef, .methodDef, .memberRef, .memberRef]
  | resolutionScope => [.moduleSelf, .moduleRef, .assemblyRef, .typeRef]
  | typeOrMethodDef => [.typeDef, .methodDef]

/-- How many bits number the tables of a kind; a kind has at least one. -/
def tagBits (kind : CodedIndex) : Nat :=
  let count := kind.tables.length
  if count ≤ 2 then 1 else if count ≤ 4 then 2 else if count ≤ 8 then 3
  else if count ≤ 16 then 4 else 5

/-- The table and the row of a coded index, if its tag names a table. -/
def decode? (kind : CodedIndex) (value : UInt32) : Option (TableId × UInt32) :=
  kind.tables[value.toNat % 1 <<< kind.tagBits]?.map fun table =>
    (table, UInt32.ofNat (value.toNat >>> kind.tagBits))

/-- The token of the row that a coded index refers to. -/
def decodeToken? (kind : CodedIndex) (value : UInt32) : Option Token :=
  (kind.decode? value).map fun (table, row) => .ofRow table row

/-- The tag of a kind numbers all of its tables. -/
theorem length_tables_le (kind : CodedIndex) : kind.tables.length ≤ 1 <<< kind.tagBits := by
  cases kind <;> decide

end CodedIndex

end CilPatch
