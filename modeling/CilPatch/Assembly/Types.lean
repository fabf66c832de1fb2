import CilPatch.Assembly.Declaration
import CilPatch.Heap.Blob
import CilPatch.Heap.Strings
import CilPatch.Signature.Read
import CilPatch.Table.Rows

/-!
# Declared types

The types of an image with their members, as its tables list them. The members of a type are
the rows from its own first member up to the first member of the next type.
-/

namespace CilPatch

/-- What declarations are read from. -/
structure DeclarationSource where
  /-- The tables. -/
  tables : TableStream
  /-- The names. -/
  strings : StringHeap
  /-- The signatures. -/
  blobs : BlobHeap

namespace DeclarationSource

/-- All row numbers of a table, in order. -/
def rowNumbers (source : DeclarationSource) (table : TableId) : List UInt32 :=
  (List.range (source.tables.rowCount table).toNat).map fun index => UInt32.ofNat (index + 1)

/-- The name of a type that is declared or referred to. -/
def typeName? (source : DeclarationSource) (token : Token) : Option String := do
  let index ←
    if token.isIn .typeDef then (source.tables.typeDef token.row).toOption.map (·.name)
    else if token.isIn .typeRef then (source.tables.typeRef token.row).toOption.map (·.name)
    else none
  (source.strings.get index.toNat).toOption

/-- The numbers of the members of a type, from its first member up to that of the next type;
the last type has all that are left. -/
def memberNumbers (start : UInt32) (next : Option UInt32) (count : UInt32) :
    Except Fault (List UInt32) :=
  let first := max start.toNat 1
  let past := count.toNat + 1
  let stop := max (min ((next.map UInt32.toNat).getD past) past) first
  if past < first then .error (.malformed (.memberList (UInt32.ofNat first) count))
  else .ok ((List.range' first (stop - first)).map UInt32.ofNat)

/-- The field with a number. -/
def field (source : DeclarationSource) (rid : UInt32) : Except Fault FieldDecl := do
  let row ← source.tables.field rid
  let sig ← Cursor.parse Signature.readField (← source.blobs.get row.signature.toNat)
  let name ← source.strings.get row.name.toNat
  return {
    handle := ⟨.ofRow .field rid, row.flags &&& FieldDecl.staticFlag != 0⟩
    name
    flags := row.flags
    sig
    typeName := sig.type.displayName source.typeName? }

/-- The method with a number. -/
def method (source : DeclarationSource) (rid : UInt32) : Except Fault MethodDecl := do
  let row ← source.tables.methodDef rid
  let sig ← Cursor.parse Signature.readMethod (← source.blobs.get row.signature.toNat)
  let name ← source.strings.get row.name.toNat
  return {
    handle := .ofSig (.ofRow .methodDef rid) sig
    name
    flags := row.flags
    implFlags := row.implFlags
    rva := row.rva
    sig }

/-- The type around each type that lies in another, by the number of the inner type; of two rows
for one type the last counts. -/
def nesting (source : DeclarationSource) : Except Fault (Array (Option UInt32)) :=
  let types := (source.tables.rowCount .typeDef).toNat
  (source.rowNumbers .nestedClass).foldlM (fun nesting rid => do
    let row ← source.tables.nestedClass rid
    return nesting.setIfInBounds row.nested.toNat (some row.enclosing))
    (Array.replicate (types + 1) none)

/-- The type with a number, given how types are nested. -/
def type (source : DeclarationSource) (nesting : Array (Option UInt32)) (rid : UInt32) :
    Except Fault TypeDecl := do
  let row ← source.tables.typeDef rid
  let next ←
    if rid < source.tables.rowCount .typeDef then some <$> source.tables.typeDef (rid + 1)
    else pure none
  let fields ← memberNumbers row.fields (next.map (·.fields)) (source.tables.rowCount .field)
  let fields ← fields.mapM source.field
  let methods ←
    memberNumbers row.methods (next.map (·.methods)) (source.tables.rowCount .methodDef)
  let methods ← methods.mapM source.method
  let name ← source.strings.get row.name.toNat
  let space ← source.strings.get row.space.toNat
  return {
    token := .ofRow .typeDef rid
    name
    space
    enclosing := (nesting.getD rid.toNat none).map (.ofRow .typeDef)
    fields
    methods }

/-- All declared types, in the order of their rows. -/
def types (source : DeclarationSource) : Except Fault (List TypeDecl) := do
  let nesting ← source.nesting
  (source.rowNumbers .typeDef).mapM (source.type nesting)

end DeclarationSource

end CilPatch
