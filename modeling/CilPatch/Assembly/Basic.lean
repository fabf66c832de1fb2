import CilPatch.Assembly.Types
import CilPatch.Heap.Guid
import CilPatch.Image.File
import CilPatch.Metadata.CliHeader
import CilPatch.Metadata.Root
import CilPatch.Method.Body

/-!
# Assemblies

A loaded image with its metadata, the types it declares and the method bodies that were edited.
Bodies that were not edited are decoded from the image whenever they are looked at.
-/

namespace CilPatch

/-- The bytes of the metadata stream with a name. -/
def MetadataRoot.streamData (root : MetadataRoot) (metadata : Bytes) (name : String) :
    Except Fault Bytes :=
  match root.stream? name with
  | none => .error (.malformed (.missingStream name))
  | some header =>
      let stop := header.offset.toNat + header.size.toNat
      if metadata.size < stop then .error .outOfBounds
      else .ok (metadata.extract header.offset.toNat stop)

/-- A loaded image. -/
structure Assembly where
  /-- The image. -/
  image : Image
  /-- The CLI header. -/
  cli : CliHeader
  /-- Where the CLI header is stored. -/
  cliOffset : Nat
  /-- The start of the metadata. -/
  root : MetadataRoot
  /-- The whole metadata. -/
  metadata : Bytes
  /-- The metadata tables. -/
  tables : TableStream
  /-- The declared types, in order. -/
  types : Array TypeDecl
  /-- The edited bodies with the tokens of their methods, in ascending order. -/
  edited : List (Token × Body) := []

namespace Assembly

/-- Loads an image. -/
def ofImage (image : Image) : Except Fault Assembly := do
  if image.cli.size.toNat < CliHeader.length then
    throw (.malformed (.cliDirectorySize image.cli.size.toNat))
  let cliOffset ← image.offsetOf image.cli.rva.toNat
  let cli ← Cursor.parse CliHeader.read (← image.slice cliOffset CliHeader.length)
  let metadataOffset ← image.offsetOf cli.metadata.rva.toNat
  let metadata ← image.slice metadataOffset cli.metadata.size.toNat
  let root ← Cursor.parse MetadataRoot.read metadata
  if (root.stream? "#-").isSome then throw .notSupported
  let tables ← TableStream.ofBytes (← root.streamData metadata "#~")
  let strings ← StringHeap.ofBytes (← root.streamData metadata "#Strings")
  let blobs ← BlobHeap.ofBytes (← root.streamData metadata "#Blob")
  let types ← DeclarationSource.types ⟨tables, strings, blobs⟩
  return { image, cli, cliOffset, root, metadata, tables, types := types.toArray }

/-- Loads the image in a block of bytes. -/
def ofBytes (data : Bytes) : Except Fault Assembly := Image.ofBytes data >>= ofImage

/-- What there is to say about a loaded image. -/
def summary (assembly : Assembly) : String :=
  "Loaded module: runtime " ++ assembly.root.version ++ ", " ++ toString assembly.types.size ++
    " types, " ++ toString (assembly.tables.rowCount .methodDef).toNat ++ " methods"

/-- The bytes of a metadata stream. -/
def stream (assembly : Assembly) (name : String) : Except Fault Bytes :=
  assembly.root.streamData assembly.metadata name

/-- A column of the first row of the module table. -/
def moduleColumn (assembly : Assembly) (column : Nat) : Except Fault UInt32 :=
  match assembly.tables.row? .moduleSelf 1 with
  | some row => .ok (row.getD column 0)
  | none => .error (.malformed .emptyModuleTable)

/-- The name of the image. -/
def name (assembly : Assembly) : Except Fault String := do
  let index ← assembly.moduleColumn 1
  let strings ← StringHeap.ofBytes (← assembly.stream "#Strings")
  strings.get index.toNat

/-- The identifier that the image was given when it was made. -/
def versionId (assembly : Assembly) : Except Fault Guid := do
  let index ← assembly.moduleColumn 2
  let guids ← GuidHeap.ofBytes (← assembly.stream "#GUID")
  guids.get index.toNat

/-- The declared type with a token. -/
def type? (assembly : Assembly) (token : Token) : Option TypeDecl :=
  if token.row = 0 then none else assembly.types[token.row.toNat - 1]?

/-- All declared methods with the types they belong to. -/
def methods (assembly : Assembly) : List (TypeDecl × MethodDecl) :=
  assembly.types.toList.flatMap fun type => type.methods.map fun method => (type, method)

/-- The declaration of a method. -/
def method? (assembly : Assembly) (handle : MethodHandle) : Option MethodDecl :=
  (assembly.methods.find? fun (_, method) => method.handle == handle).map (·.2)

/-- A method with its type, or the token where no type has the method. -/
def methodName (assembly : Assembly) (token : Token) : String :=
  match assembly.methods.find? fun (_, method) => method.handle.token == token with
  | some (type, method) => type.fullName ++ "::" ++ method.name
  | none => token.text

/-- The blob of a local signature, if the method has one. -/
def localSignature (assembly : Assembly) (token : Token) : Except Fault (Option Bytes) := do
  if token.isNull then return none
  if !token.isIn .standAloneSig then throw (.malformed (.localSignatureToken token))
  let index ← assembly.tables.standAloneSig token.row
  let blobs ← BlobHeap.ofBytes (← assembly.stream "#Blob")
  some <$> blobs.get index.toNat

/-- The number of local variables that a local signature declares. -/
def declaredLocals (assembly : Assembly) (token : Token) : Except Fault Nat := do
  match ← assembly.localSignature token with
  | none => return 0
  | some signature => return (← Cursor.parse Signature.readLocalsHead signature).toNat

/-- The stored body of a method. -/
def storedBody (assembly : Assembly) (token : Token) : Except Fault Body := do
  let method ← assembly.tables.methodDef token.row
  if method.rva = 0 ∨ !MethodDecl.isIntermediate method.implFlags then throw (.noBody token)
  let offset ← assembly.image.offsetOf method.rva.toNat
  let data ← assembly.image.slice offset (assembly.image.size - offset)
  let header ← MethodHeader.read data
  let code ← header.code data
  Body.decode header code (← assembly.declaredLocals ⟨header.localSig⟩)

/-- The body of a method, as it was edited. -/
def body (assembly : Assembly) (token : Token) : Except Fault Body :=
  match assembly.edited.lookup token with
  | some body => .ok body
  | none => assembly.storedBody token

/-- Puts a body into a list that is ordered by tokens, in place of one that is there. -/
def insertBody (token : Token) (body : Body) : List (Token × Body) → List (Token × Body)
  | [] => [(token, body)]
  | (other, stored) :: rest =>
      if token.value < other.value then (token, body) :: (other, stored) :: rest
      else if token = other then (token, body) :: rest
      else (other, stored) :: insertBody token body rest

/-- An assembly in which a method has an edited body. -/
def setBody (assembly : Assembly) (token : Token) (body : Body) : Assembly :=
  { assembly with edited := insertBody token body assembly.edited }

/-- Whether any body was taken for editing. -/
def isModified (assembly : Assembly) : Bool := !assembly.edited.isEmpty

/-- How many instructions a method has. -/
def instructionCount (assembly : Assembly) (token : Token) : Except Fault Nat :=
  (assembly.body token).map fun body => body.instructions.length

end Assembly

end CilPatch
