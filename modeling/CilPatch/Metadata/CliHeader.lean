import CilPatch.Bytes.Cursor

/-!
# The CLI header

An image that holds intermediate code has a header of 72 bytes (ECMA-335 II.25.3.3) that says
where its metadata lies.
-/

namespace CilPatch

/-- A range of addresses of an image. -/
structure Extent where
  /-- The address of the first byte, relative to the image. -/
  rva : UInt32
  /-- How many bytes the range has. -/
  size : UInt32
  deriving DecidableEq, Repr

/-- The CLI header of an image. -/
structure CliHeader where
  /-- The stored size of the header. -/
  size : UInt32
  /-- The first part of the version of the runtime. -/
  major : UInt16
  /-- The second part of the version of the runtime. -/
  minor : UInt16
  /-- Where the metadata lies. -/
  metadata : Extent
  /-- Flags of the image. -/
  flags : UInt32
  /-- The token of the entry point. -/
  entryPoint : UInt32
  /-- Where the resources lie. -/
  resources : Extent
  /-- Where the strong name signature lies. -/
  strongName : Extent
  deriving DecidableEq, Repr

namespace CliHeader

/-- How many bytes the header has. -/
def length : Nat := 72

/-- Where the range of the metadata is stored within the header. -/
def metadataOffset : Nat := 8

/-- Set in the flags of an image with a strong name. -/
def strongNameFlag : UInt32 := 0x8

/-- Reads a range of addresses. -/
def readExtent : Read Extent := do
  let rva ← Read.u32
  let size ← Read.u32
  return ⟨rva, size⟩

/-- Reads the header. -/
def read : Read CliHeader := do
  let cursor ← get
  if cursor.data.size < length then throw .outOfBounds
  let size ← Read.u32
  if size.toNat != length then throw (.malformed (.cliHeaderSize size))
  let major ← Read.u16
  let minor ← Read.u16
  let metadata ← readExtent
  if metadata.rva = 0 ∨ metadata.size = 0 then throw (.malformed .emptyMetadataDirectory)
  let flags ← Read.u32
  let entryPoint ← Read.u32
  let resources ← readExtent
  let strongName ← readExtent
  return { size, major, minor, metadata, flags, entryPoint, resources, strongName }

/-- Whether the image carries a strong name signature. -/
def isSigned (header : CliHeader) : Bool :=
  header.flags &&& strongNameFlag != 0 && header.strongName.size != 0

end CliHeader

end CilPatch
