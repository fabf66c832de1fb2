import CilPatch.Image.Headers

/-!
# Image files

A loaded image with its headers. Addresses below the size of the headers are file offsets; the
others lie in the section whose extent, in memory or in the file, holds them.
-/

namespace CilPatch

/-- A loaded image. -/
structure Image where
  /-- The bytes of the file. -/
  data : Bytes
  /-- Where the new header starts. -/
  peOffset : Nat
  /-- How many bytes are set aside for the optional header. -/
  optionalSize : Nat
  /-- The optional header. -/
  optional : OptionalHeader
  /-- The section headers, in the order in which they are stored. -/
  sections : List SectionHeader
  /-- Where the CLI header lies. -/
  cli : Extent

namespace Image

/-- Loads an image. -/
def ofBytes (data : Bytes) : Except Fault Image :=
  if data.isEmpty then .error .empty
  else match ImageHeaders.ofBytes data with
    | .error cause => .error (.image cause)
    | .ok headers =>
        match headers.optional with
        | none => .error (.malformed .missingOptionalHeader)
        | some optional =>
            match optional.cli with
            | none => .error (.malformed .missingCliDirectory)
            | some cli =>
                .ok { headers with data, optional, cli }

/-- How many bytes the image has. -/
def size (image : Image) : Nat := image.data.size

/-- A part of the image. -/
def slice (image : Image) (offset length : Nat) : Except Fault Bytes :=
  if image.data.size < offset + length then .error .outOfBounds
  else .ok (image.data.extract offset (offset + length))

/-- The file offset of an address. -/
def offsetOf (image : Image) (rva : Nat) : Except Fault Nat :=
  if rva < image.optional.headersSize.toNat then .ok rva
  else
    match image.sections.find? fun header =>
      header.virtualAddress.toNat ≤ rva && rva < header.virtualAddress.toNat + header.extent with
    | none => .error (.malformed (.unmappedAddress rva))
    | some header =>
        let delta := rva - header.virtualAddress.toNat
        if header.rawSize.toNat ≤ delta then .error (.malformed (.uninitializedAddress rva))
        else .ok (header.rawOffset.toNat + delta)

/-- Where the file header starts. -/
def coffOffset (image : Image) : Nat := image.peOffset + 4

/-- Where the optional header starts. -/
def optionalOffset (image : Image) : Nat := ImageHeaders.optionalOffset image.peOffset

/-- Where the number of sections is stored. -/
def sectionCountOffset (image : Image) : Nat := image.coffOffset + 2

/-- Where the size of the initialized data is stored. -/
def dataSizeOffset (image : Image) : Nat := image.optionalOffset + 8

/-- Where the size of the image is stored. -/
def imageSizeOffset (image : Image) : Nat := image.optionalOffset + 56

/-- Where the checksum is stored. -/
def checksumOffset (image : Image) : Nat := image.optionalOffset + 64

/-- Where a directory entry is stored. -/
def directoryOffset (image : Image) (index : Nat) : Nat :=
  image.optionalOffset + OptionalHeader.directoriesOffset image.optional.isWide + index * 8

/-- Where the section headers start. -/
def sectionTable (image : Image) : Nat := image.optionalOffset + image.optionalSize

/-- Where the section headers end. -/
def sectionTableEnd (image : Image) : Nat :=
  image.sectionTable + image.sections.length * SectionHeader.size

end Image

end CilPatch
