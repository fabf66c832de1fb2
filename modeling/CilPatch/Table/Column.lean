import CilPatch.Table.CodedIndex

/-!
# Columns

The column layout of every table, ECMA-335 II.22. A row is kept as one 32-bit word per column;
only the stored widths of the index columns depend on the image.
-/

namespace CilPatch

/-- What one column of a table holds. -/
inductive Column where
  /-- A two-byte constant. -/
  | half
  /-- A four-byte constant. -/
  | word
  /-- An index into the string heap. -/
  | string
  /-- An index into the GUID heap. -/
  | guid
  /-- An index into the blob heap. -/
  | blob
  /-- A row number of a table. -/
  | row (table : TableId)
  /-- A coded index. -/
  | coded (kind : CodedIndex)
  deriving DecidableEq, Repr, Inhabited

/-- A column as it stands in listings of a layout. -/
def Column.text : Column → String
  | half => "Fixed2"
  | word => "Fixed4"
  | string => "String"
  | guid => "Guid"
  | blob => "Blob"
  | row table => "Table(" ++ table.name ++ ")"
  | coded kind => "Coded(" ++ kind.name ++ ")"

/-- The columns of a table, in the order in which a row stores them. -/
def TableId.columns : TableId → List Column
  | moduleSelf => [.half, .string, .guid, .guid, .guid]
  | typeRef => [.coded .resolutionScope, .string, .string]
  | typeDef => [.word, .string, .string, .coded .typeDefOrRef, .row .field, .row .methodDef]
  | fieldPtr => [.row .field]
  | field => [.half, .string, .blob]
  | methodPtr => [.row .methodDef]
  | methodDef => [.word, .half, .half, .string, .blob, .row .param]
  | paramPtr => [.row .param]
  | param => [.half, .half, .string]
  | interfaceImpl => [.row .typeDef, .coded .typeDefOrRef]
  | memberRef => [.coded .memberRefParent, .string, .blob]
  | constant => [.half, .coded .hasConstant, .blob]
  | customAttribute => [.coded .hasCustomAttribute, .coded .customAttributeType, .blob]
  | fieldMarshal => [.coded .hasFieldMarshal, .blob]
  | declSecurity => [.half, .coded .hasDeclSecurity, .blob]
  | classLayout => [.half, .word, .row .typeDef]
  | fieldLayout => [.word, .row .field]
  | standAloneSig => [.blob]
  | eventMap => [.row .typeDef, .row .event]
  | eventPtr => [.row .event]
  | event => [.half, .string, .coded .typeDefOrRef]
  | propertyMap => [.row .typeDef, .row .property]
  | propertyPtr => [.row .property]
  | property => [.half, .string, .blob]
  | methodSemantics => [.half, .row .methodDef, .coded .hasSemantics]
  | methodImpl => [.row .typeDef, .coded .methodDefOrRef, .coded .methodDefOrRef]
  | moduleRef => [.string]
  | typeSpec => [.blob]
  | implMap => [.half, .coded .memberForwarded, .string, .row .moduleRef]
  | fieldRva => [.word, .row .field]
  | encLog => [.word, .word]
  | encMap => [.word]
  | assembly => [.word, .half, .half, .half, .half, .word, .blob, .string, .string]
  | assemblyProcessor => [.word]
  | assemblyOs => [.word, .word, .word]
  | assemblyRef => [.half, .half, .half, .half, .word, .blob, .string, .string, .blob]
  | assemblyRefProcessor => [.word, .row .assemblyRef]
  | assemblyRefOs => [.word, .word, .word, .row .assemblyRef]
  | file => [.word, .string, .blob]
  | exportedType => [.word, .word, .string, .string, .coded .implementation]
  | manifestResource => [.word, .word, .string, .coded .implementation]
  | nestedClass => [.row .typeDef, .row .typeDef]
  | genericParam => [.half, .half, .coded .typeOrMethodDef, .string]
  | methodSpec => [.coded .methodDefOrRef, .blob]
  | genericParamConstraint => [.row .genericParam, .coded .typeDefOrRef]

/-- Every table has at least one column. -/
theorem TableId.columns_ne_nil (table : TableId) : table.columns ≠ [] := by
  cases table <;> simp [TableId.columns]

end CilPatch
