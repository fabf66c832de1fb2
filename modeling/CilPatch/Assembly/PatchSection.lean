import CilPatch.Assembly.Basic
import CilPatch.Image.Checksum
import CilPatch.Notice
import CilPatch.Signature.Write

/-!
# The section of an edited image

An edited assembly becomes an image again by putting one section behind the old image. The
section holds the edited bodies and a copy of the metadata, in which the tables name the new
bodies. Nothing of the old image moves: only header fields that describe the section, the
checksum and the place of the metadata are overwritten.
-/

namespace CilPatch

/-- Where the new section lies. -/
structure SectionPlace where
  /-- Its address. -/
  rva : UInt32
  /-- Where it starts in the file. -/
  offset : Nat

/-- The new section and the metadata as far as they are complete. -/
structure Draft where
  /-- The bytes of the section. -/
  content : List UInt8 := []
  /-- The blob heap. -/
  blobs : Bytes
  /-- The tables. -/
  tables : TableStream
  /-- How many branches were made long. -/
  relaxed : Nat := 0

namespace PatchSection

/-- The name of the new section. -/
def sectionName : List UInt8 := [0x2E, 0x70, 0x61, 0x74, 0x63, 0x68, 0, 0]

/-- Marks a section of initialized data that can be read. -/
def sectionFlags : UInt32 := 0x40000040

/-- A size as a word of 32 bits. -/
def word (what : String) (value : Nat) : Except Fault UInt32 :=
  if value < UInt32.size then .ok (UInt32.ofNat value) else .error (.output (.tooLarge what))

/-- Where the raw data of the first section that has any starts. -/
def firstRaw (image : Image) : Nat :=
  (((image.sections.filter fun header => header.rawSize != 0).map fun header =>
    header.rawOffset.toNat).min?).getD image.optional.headersSize.toNat

/-- The address behind the last section. -/
def imageEnd (image : Image) : Nat :=
  ((image.sections.map fun header =>
    header.virtualAddress.toNat + max header.virtualSize.toNat header.rawSize.toNat).max?).getD
      image.optional.headersSize.toNat

/-- Finds a place for a section behind all others. -/
def place (image : Image) : Except Fault SectionPlace := do
  if min (firstRaw image) image.optional.headersSize.toNat <
      image.sectionTableEnd + SectionHeader.size then
    throw (.output .noSectionRoom)
  let rva ← word "section RVA"
    (alignUp (imageEnd image) image.optional.sectionAlignment.toNat)
  return ⟨rva, alignUp image.size image.optional.fileAlignment.toNat⟩

/-- The local signature of an edited body. Added variables make a new one, which is put into
the blob heap and the tables. -/
def localSig (assembly : Assembly) (draft : Draft) (body : Body) :
    Except Fault (Draft × UInt32) := do
  if body.added.isEmpty then return (draft, body.localSig)
  let old ← assembly.localSignature ⟨body.localSig⟩
  let signature ← Signature.extendLocals old (body.added.map (·.type))
  let (blobs, index) := BlobHeap.append draft.blobs signature.toArray
  let (tables, rid) ← draft.tables.push .standAloneSig [← index]
  return ({ draft with blobs, tables }, (Token.ofRow .standAloneSig rid).value)

/-- Puts an edited body into the section, and yields its size and its address. -/
def addBody (assembly : Assembly) (place : SectionPlace) (draft : Draft) (token : Token)
    (body : Body) : Except Fault (Draft × Nat × UInt32) := do
  let (draft, sig) ← localSig assembly draft body
  let (encoded, relaxed) ← body.encode sig
  let content := padTo draft.content 4
  let rva := place.rva + (← word "patch section" content.length)
  if (draft.tables.row? .methodDef token.row).isNone then
    throw (.malformed (.missingRow .methodDef token.row))
  return ({ draft with
    content := content ++ encoded
    tables := draft.tables.setColumn .methodDef token.row MethodDefRow.rvaColumn rva
    relaxed := draft.relaxed + relaxed }, encoded.length, rva)

/-- Puts edited bodies into the section, in order. -/
def addBodies (assembly : Assembly) (place : SectionPlace) (draft : Draft) :
    List (Token × Body) → Noted Draft
  | [] => return draft
  | (token, body) :: rest => do
      let (draft, size, rva) ← addBody assembly place draft token body
      note .patchSection .debug ("Re-encoded " ++ assembly.methodName token ++ " (" ++
        toString size ++ " bytes at RVA 0x" ++ Hex.upper rva.toNat 1 ++ ")")
      addBodies assembly place draft rest

/-- The new content of a metadata stream, padded to whole words. -/
def streamContent (assembly : Assembly) (draft : Draft) (tables : List UInt8) (name : String) :
    Except Fault (List UInt8) := do
  let content ←
    if name = "#~" then pure tables
    else if name = "#Blob" then pure draft.blobs.toList
    else (assembly.stream name).map (·.toList)
  return padTo content 4

/-- The headers of streams that are stored one after another from an offset on. -/
def streamHeaders : Nat → List (String × List UInt8) → Except Fault (List StreamHeader)
  | _, [] => .ok []
  | offset, (name, content) :: rest => do
      let header : StreamHeader :=
        ⟨← word "metadata" offset, ← word "metadata stream" content.length, name⟩
      let headers ← streamHeaders (offset + content.length) rest
      return header :: headers

/-- The new metadata. -/
def metadata (assembly : Assembly) (draft : Draft) : Except Fault (List UInt8) := do
  let tables ← draft.tables.encode
  let streams ← assembly.root.headers.mapM fun header => do
    return (header.name, ← streamContent assembly draft tables header.name)
  let headers ← streamHeaders (assembly.root.encodedLength assembly.root.headers) streams
  let start ← assembly.root.encode headers
  return start ++ (streams.map (·.2)).flatten

/-- The header of the new section. -/
def sectionHeader (virtualSize rva rawSize rawOffset : UInt32) : List UInt8 :=
  sectionName ++ LittleEndian.u32 virtualSize ++ LittleEndian.u32 rva ++
    LittleEndian.u32 rawSize ++ LittleEndian.u32 rawOffset ++ List.replicate 12 0 ++
    LittleEndian.u32 sectionFlags

/-- The sum of two words, or the greatest word if that is less. -/
def saturatingAdd (first second : UInt32) : UInt32 :=
  UInt32.ofNat (min (first.toNat + second.toNat) (UInt32.size - 1))

/-- The old image with a section behind it, the headers describing the section and the CLI
header naming the metadata in it. -/
def assemble (assembly : Assembly) (place : SectionPlace) (content : List UInt8)
    (metadataRva metadataSize : UInt32) : Except Fault Bytes := do
  let image := assembly.image
  let virtualSize ← word "patch section" content.length
  let rawSize := alignUp content.length image.optional.fileAlignment.toNat
  let gap := Array.replicate (place.offset - image.size) 0
  let tail := Array.replicate (rawSize - content.length) 0
  let whole := image.data ++ gap ++ content ++ tail
  let header := sectionHeader virtualSize place.rva (← word "patch section" rawSize)
    (← word "image" place.offset)
  let whole := LittleEndian.overwrite whole image.sectionTableEnd header
  let dataSize := UInt32.ofNat (LittleEndian.wordAt whole image.dataSizeOffset 4)
  let imageSize ← word "image"
    (alignUp (place.rva + virtualSize).toNat image.optional.sectionAlignment.toNat)
  let count := UInt16.ofNat image.sections.length + 1
  let dataSize := saturatingAdd dataSize (UInt32.ofNat rawSize)
  let whole ← writeAt whole image.sectionCountOffset (LittleEndian.u16 count)
  let whole ← writeAt whole image.dataSizeOffset (LittleEndian.u32 dataSize)
  let whole ← writeAt whole image.imageSizeOffset (LittleEndian.u32 imageSize)
  let whole ← writeAt whole (assembly.cliOffset + CliHeader.metadataOffset)
    (LittleEndian.u32 metadataRva)
  let whole ← writeAt whole (assembly.cliOffset + CliHeader.metadataOffset + 4)
    (LittleEndian.u32 metadataSize)
  let whole ← writeAt whole image.checksumOffset (LittleEndian.u32 0)
  let checksum := Checksum.ofBytes whole image.checksumOffset
  writeAt whole image.checksumOffset (LittleEndian.u32 checksum)

end PatchSection

/-- The image of an assembly with its edited bodies. Without any it is the image that was
loaded. -/
def Assembly.toBytes (assembly : Assembly) : Noted Bytes := do
  if assembly.edited.isEmpty then return assembly.image.data
  if assembly.cli.isSigned then
    note .patchSection .warning
      "The image is strong-name signed, the signature will no longer verify"
  let place ← PatchSection.place assembly.image
  let blobs ← assembly.stream "#Blob"
  let draft ← PatchSection.addBodies assembly place { blobs, tables := assembly.tables }
    assembly.edited
  let tables := draft.tables.widenHeap Widths.largeBlobs draft.blobs.size
  let metadata ← PatchSection.metadata assembly { draft with tables }
  let content := padTo draft.content 4
  let rva := place.rva + (← PatchSection.word "patch section" content.length)
  let size ← PatchSection.word "metadata" metadata.length
  let image ← PatchSection.assemble assembly place (content ++ metadata) rva size
  note .patchSection .info ("Rewrote " ++ toString assembly.edited.length ++ " method bodies (" ++
    toString draft.relaxed ++ " branches relaxed), metadata moved to RVA 0x" ++
    Hex.upper rva.toNat 1)
  return image

end CilPatch
