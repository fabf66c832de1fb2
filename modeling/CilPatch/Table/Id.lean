/-!
# Metadata tables

The forty-five tables of ECMA-335 II.22, in the order of their numbers. The number is the high
byte of a token and the position of the table's bit in the mask of present tables.
-/

namespace CilPatch

/-- A metadata table. -/
inductive TableId where
  /-- Table 0x00: the module itself. -/
  | moduleSelf
  /-- Table 0x01: references to types in other modules. -/
  | typeRef
  /-- Table 0x02: type declarations. -/
  | typeDef
  /-- Table 0x03: field indirection of uncompressed streams. -/
  | fieldPtr
  /-- Table 0x04: field declarations. -/
  | field
  /-- Table 0x05: method indirection of uncompressed streams. -/
  | methodPtr
  /-- Table 0x06: method declarations. -/
  | methodDef
  /-- Table 0x07: parameter indirection of uncompressed streams. -/
  | paramPtr
  /-- Table 0x08: parameter declarations. -/
  | param
  /-- Table 0x09: implemented interfaces. -/
  | interfaceImpl
  /-- Table 0x0A: references to fields and methods of other types. -/
  | memberRef
  /-- Table 0x0B: compile-time constants. -/
  | constant
  /-- Table 0x0C: custom attributes. -/
  | customAttribute
  /-- Table 0x0D: marshalling descriptors. -/
  | fieldMarshal
  /-- Table 0x0E: declarative security. -/
  | declSecurity
  /-- Table 0x0F: explicit class layout. -/
  | classLayout
  /-- Table 0x10: explicit field offsets. -/
  | fieldLayout
  /-- Table 0x11: standalone signatures (local variables, calli). -/
  | standAloneSig
  /-- Table 0x12: type to event list map. -/
  | eventMap
  /-- Table 0x13: event indirection of uncompressed streams. -/
  | eventPtr
  /-- Table 0x14: event declarations. -/
  | event
  /-- Table 0x15: type to property list map. -/
  | propertyMap
  /-- Table 0x16: property indirection of uncompressed streams. -/
  | propertyPtr
  /-- Table 0x17: property declarations. -/
  | property
  /-- Table 0x18: getters, setters and event accessors. -/
  | methodSemantics
  /-- Table 0x19: explicit method overrides. -/
  | methodImpl
  /-- Table 0x1A: references to other modules. -/
  | moduleRef
  /-- Table 0x1B: type specifications (generic instances, arrays...). -/
  | typeSpec
  /-- Table 0x1C: P/Invoke mappings. -/
  | implMap
  /-- Table 0x1D: initial values of static fields. -/
  | fieldRva
  /-- Table 0x1E: edit-and-continue log. -/
  | encLog
  /-- Table 0x1F: edit-and-continue map. -/
  | encMap
  /-- Table 0x20: the assembly manifest. -/
  | assembly
  /-- Table 0x21: unused. -/
  | assemblyProcessor
  /-- Table 0x22: unused. -/
  | assemblyOs
  /-- Table 0x23: referenced assemblies. -/
  | assemblyRef
  /-- Table 0x24: unused. -/
  | assemblyRefProcessor
  /-- Table 0x25: unused. -/
  | assemblyRefOs
  /-- Table 0x26: files of a multi-file assembly. -/
  | file
  /-- Table 0x27: types exported or forwarded. -/
  | exportedType
  /-- Table 0x28: manifest resources. -/
  | manifestResource
  /-- Table 0x29: nesting relationship of types. -/
  | nestedClass
  /-- Table 0x2A: generic parameters. -/
  | genericParam
  /-- Table 0x2B: generic method instantiations. -/
  | methodSpec
  /-- Table 0x2C: generic parameter constraints. -/
  | genericParamConstraint
  deriving DecidableEq, Repr, Inhabited

namespace TableId

/-- The tables in the order of their numbers. -/
def all : List TableId :=
  [.moduleSelf, .typeRef, .typeDef, .fieldPtr, .field, .methodPtr, .methodDef, .paramPtr,
   .param, .interfaceImpl, .memberRef, .constant, .customAttribute, .fieldMarshal,
   .declSecurity, .classLayout, .fieldLayout, .standAloneSig, .eventMap, .eventPtr, .event,
   .propertyMap, .propertyPtr, .property, .methodSemantics, .methodImpl, .moduleRef,
   .typeSpec, .implMap, .fieldRva, .encLog, .encMap, .assembly, .assemblyProcessor,
   .assemblyOs, .assemblyRef, .assemblyRefProcessor, .assemblyRefOs, .file, .exportedType,
   .manifestResource, .nestedClass, .genericParam, .methodSpec, .genericParamConstraint]

/-- The number of a table, as tokens and masks use it. -/
def number (table : TableId) : Nat := table.ctorIdx

/-- The table of a number. -/
def ofNumber? (number : Nat) : Option TableId := all[number]?

/-- How many tables there are; their numbers are the ones below. -/
def count : Nat := all.length

/-- The name of a table in ECMA-335. -/
def name : TableId → String
  | moduleSelf => "Module"
  | typeRef => "TypeRef"
  | typeDef => "TypeDef"
  | fieldPtr => "FieldPtr"
  | field => "Field"
  | methodPtr => "MethodPtr"
  | methodDef => "MethodDef"
  | paramPtr => "ParamPtr"
  | param => "Param"
  | interfaceImpl => "InterfaceImpl"
  | memberRef => "MemberRef"
  | constant => "Constant"
  | customAttribute => "CustomAttribute"
  | fieldMarshal => "FieldMarshal"
  | declSecurity => "DeclSecurity"
  | classLayout => "ClassLayout"
  | fieldLayout => "FieldLayout"
  | standAloneSig => "StandAloneSig"
  | eventMap => "EventMap"
  | eventPtr => "EventPtr"
  | event => "Event"
  | propertyMap => "PropertyMap"
  | propertyPtr => "PropertyPtr"
  | property => "Property"
  | methodSemantics => "MethodSemantics"
  | methodImpl => "MethodImpl"
  | moduleRef => "ModuleRef"
  | typeSpec => "TypeSpec"
  | implMap => "ImplMap"
  | fieldRva => "FieldRVA"
  | encLog => "EncLog"
  | encMap => "EncMap"
  | assembly => "Assembly"
  | assemblyProcessor => "AssemblyProcessor"
  | assemblyOs => "AssemblyOS"
  | assemblyRef => "AssemblyRef"
  | assemblyRefProcessor => "AssemblyRefProcessor"
  | assemblyRefOs => "AssemblyRefOS"
  | file => "File"
  | exportedType => "ExportedType"
  | manifestResource => "ManifestResource"
  | nestedClass => "NestedClass"
  | genericParam => "GenericParam"
  | methodSpec => "MethodSpec"
  | genericParamConstraint => "GenericParamConstraint"

/-- A table is found again by its number. -/
@[simp] theorem ofNumber?_number (table : TableId) : ofNumber? table.number = some table := by
  cases table <;> rfl

/-- Different tables have different numbers. -/
theorem number_inj {table other : TableId} : table.number = other.number ↔ table = other := by
  constructor
  · intro h
    simpa using congrArg ofNumber? h
  · rintro rfl
    rfl

/-- Every table number is below the number of tables. -/
theorem number_lt_count (table : TableId) : table.number < count := by
  cases table <;> decide

end TableId

end CilPatch
