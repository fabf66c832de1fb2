import CilPatch.Bytes.Align
import CilPatch.Bytes.LittleEndian
import CilPatch.Metadata.CliHeader

/-!
# Image headers

The headers of a portable executable: an old header that leads to the new one, the optional
header with its table of directories, and the headers of the sections. A file is an image when
all of them are there and what the CLI directory leads to can be read.
-/

namespace CilPatch

/-- Checks that fields of some sizes, one after another, are in the bytes that are left. -/
def checkFields (left : Nat) : List Nat → Except ImageFault Unit
  | [] => .ok ()
  | size :: sizes =>
      if left < size then .error (.short size left) else checkFields (left - size) sizes

/-- Checks that fields of some sizes, one after another, are in a file from an offset on. -/
def checkFieldsAt (data : Bytes) (offset : Nat) (sizes : List Nat) : Except ImageFault Unit :=
  if data.size < offset then .error (.beyond offset)
  else checkFields (data.size - offset) sizes

/-- Fields pass exactly if there are as many bytes as they take. -/
theorem checkFields_eq_ok_iff (left : Nat) (sizes : List Nat) :
    checkFields left sizes = .ok () ↔ sizes.foldr (· + ·) 0 ≤ left := by
  induction sizes generalizing left with
  | nil => simp [checkFields]
  | cons size sizes ih =>
      rw [checkFields, List.foldr_cons]
      split
      · simp only [reduceCtorEq, false_iff]
        omega
      · rw [ih]
        omega

/-- The header of one section of an image. -/
structure SectionHeader where
  /-- The eight bytes of the name. -/
  name : List UInt8
  /-- How many bytes the section takes in memory. -/
  virtualSize : UInt32
  /-- Where the section starts in memory. -/
  virtualAddress : UInt32
  /-- How many bytes the section takes in the file. -/
  rawSize : UInt32
  /-- Where the section starts in the file. -/
  rawOffset : UInt32
  /-- What the section holds and how it may be used. -/
  characteristics : UInt32
  deriving DecidableEq, Repr

namespace SectionHeader

/-- How many bytes a section header takes. -/
def size : Nat := 40

/-- The sizes of its fields. -/
def fieldSizes : List Nat := [8, 4, 4, 4, 4, 4, 4, 2, 2, 4]

/-- The section header at an offset. -/
def ofBytes (data : Bytes) (offset : Nat) : SectionHeader :=
  let word (start : Nat) : UInt32 := UInt32.ofNat (LittleEndian.wordAt data (offset + start) 4)
  { name := (data.extract offset (offset + 8)).toList
    virtualSize := word 8
    virtualAddress := word 12
    rawSize := word 16
    rawOffset := word 20
    characteristics := word 36 }

/-- The bytes of a section header without relocations and line numbers. -/
def encode (header : SectionHeader) : List UInt8 :=
  header.name ++ (LittleEndian.u32 header.virtualSize ++
    (LittleEndian.u32 header.virtualAddress ++ (LittleEndian.u32 header.rawSize ++
    (LittleEndian.u32 header.rawOffset ++ (List.replicate 12 0 ++
    LittleEndian.u32 header.characteristics)))))

/-- How far a section reaches, in memory or in the file. -/
def extent (header : SectionHeader) : Nat := max header.virtualSize.toNat header.rawSize.toNat

/-- Checks that a name that starts with a slash refers to a longer name by a decimal number. -/
def checkName (header : SectionHeader) : Except ImageFault Unit :=
  match header.name with
  | 0x2F :: reference =>
      let digits := reference.takeWhile (· != 0)
      match String.fromUTF8? ⟨digits.toArray⟩ with
      | none => .error (.textEncoding reference.length)
      | some text =>
          if !digits.isEmpty && digits.all fun digit => 0x30 ≤ digit && digit ≤ 0x39 then .ok ()
          else .error (.sectionName text)
  | _ => .ok ()

/-- How many bytes of a section can be addressed: no more than the file stores, in whole pages,
and no more than the section takes in memory, if that is known. -/
def mappedSize (header : SectionHeader) (fileAlignment : Nat) : Nat :=
  if header.rawSize = 0 then 0
  else
    let start := header.rawOffset.toNat
    let raw := header.rawSize.toNat
    let stored := min (alignUp (start + raw) fileAlignment - start / 0x200 * 0x200)
      (alignUp raw 0x1000)
    if header.virtualSize = 0 then stored
    else min stored (alignUp header.virtualSize.toNat 0x1000)

end SectionHeader

/-- What the optional header of an image says. -/
structure OptionalHeader where
  /-- Whether addresses take 64 bits. -/
  isWide : Bool
  /-- What addresses of sections are multiples of. -/
  sectionAlignment : UInt32
  /-- What file offsets of sections are multiples of. -/
  fileAlignment : UInt32
  /-- How many bytes the image takes in memory. -/
  imageSize : UInt32
  /-- How many bytes the headers take. -/
  headersSize : UInt32
  /-- Where the CLI header lies, if there is one. -/
  cli : Option Extent
  deriving DecidableEq, Repr

namespace OptionalHeader

/-- Where the directories start within the header. -/
def directoriesOffset (isWide : Bool) : Nat := if isWide then 112 else 96

/-- The most directories there can be. -/
def directoryLimit : Nat := 16

/-- Which directory leads to the CLI header. -/
def cliDirectory : Nat := 14

/-- The sizes of the fields in front of the directories. -/
def fieldSizes (isWide : Bool) : List Nat :=
  let word := if isWide then 8 else 4
  let bases := if isWide then [4, 8] else [4, 4, 4]
  [2, 1, 1, 4, 4, 4, 4] ++ bases ++ [4, 4, 2, 2, 2, 2, 2, 2, 4, 4, 4, 4, 2, 2] ++
    [word, word, word, word, 4, 4]

/-- The fields end where the directories start. -/
theorem sum_fieldSizes (isWide : Bool) :
    (fieldSizes isWide).foldr (· + ·) 0 = directoriesOffset isWide := by
  cases isWide <;> rfl

/-- The optional header at an offset. -/
def ofBytes (data : Bytes) (offset : Nat) : Except ImageFault OptionalHeader := do
  checkFieldsAt data offset [2]
  let magic := LittleEndian.wordAt data offset 2
  if magic ≠ 0x10B ∧ magic ≠ 0x20B then throw (.optionalMagic magic)
  let isWide := magic == 0x20B
  let base := directoriesOffset isWide
  checkFieldsAt data offset (fieldSizes isWide)
  let count := LittleEndian.wordAt data (offset + base - 4) 4
  if directoryLimit < count then throw (.directoryCount count directoryLimit)
  checkFieldsAt data (offset + base) (List.replicate (2 * count) 4)
  let word (start : Nat) : UInt32 := UInt32.ofNat (LittleEndian.wordAt data (offset + start) 4)
  let entry := base + 8 * cliDirectory
  let cli : Extent := ⟨word entry, word (entry + 4)⟩
  return {
    isWide
    sectionAlignment := word 32
    fileAlignment := word 36
    imageSize := word 56
    headersSize := word 60
    cli := if count ≤ cliDirectory ∨ (cli.rva = 0 ∧ cli.size = 0) then none else some cli }

end OptionalHeader

/-- The headers of an image. -/
structure ImageHeaders where
  /-- Where the new header starts. -/
  peOffset : Nat
  /-- How many bytes are set aside for the optional header. -/
  optionalSize : Nat
  /-- The optional header, unless nothing is set aside for it. -/
  optional : Option OptionalHeader
  /-- The section headers, in the order in which they are stored. -/
  sections : List SectionHeader
  deriving DecidableEq, Repr

namespace ImageHeaders

/-- Where the optional header starts. -/
def optionalOffset (peOffset : Nat) : Nat := peOffset + 24

/-- The file offset of an address, through the first section that has it mapped. -/
def mapAddress? (sections : List SectionHeader) (fileAlignment rva : Nat) : Option Nat :=
  (sections.find? fun header =>
    header.virtualAddress.toNat ≤ rva &&
      rva < header.virtualAddress.toNat + header.mappedSize fileAlignment).map fun header =>
    rva - header.virtualAddress.toNat + header.rawOffset.toNat

/-- Checks that metadata of some size can be read: all of it is in the file, and it starts with
sixteen bytes, a version text in UTF-8 whose length the last four of them say, and four bytes
more, which need not be within that size. -/
def checkMetadata (data : Bytes) (start size : Nat) : Except ImageFault Unit := do
  checkFieldsAt data start [size]
  checkFieldsAt data start [4, 2, 2, 4, 4]
  let length := LittleEndian.wordAt data (start + 12) 4
  let version := start + 16
  checkFieldsAt data version [length]
  if (String.fromUTF8? ⟨data.extract version (version + length)⟩).isNone then
    throw (.textEncoding (data.size - version))
  checkFieldsAt data (version + length) [1, 1, 2]

/-- Whether a power of two. -/
def isPowerOfTwo (value : Nat) : Bool := value != 0 && value &&& (value - 1) == 0

/-- Checks that the CLI header and the metadata that a directory leads to can be read. -/
def checkCli (data : Bytes) (sections : List SectionHeader) (fileAlignment : Nat) (cli : Extent) :
    Except ImageFault Unit := do
  let mapped (what : String) (rva : Nat) : Except ImageFault Nat :=
    match mapAddress? sections fileAlignment rva with
    | some offset => if isPowerOfTwo fileAlignment then .ok offset else .error (.unmapped what rva)
    | none => .error (.unmapped what rva)
  let offset ← mapped "cor20_rva" cli.rva.toNat
  checkFieldsAt data offset (4 :: 2 :: 2 :: List.replicate 16 4)
  let rva := LittleEndian.wordAt data (offset + CliHeader.metadataOffset) 4
  let size := LittleEndian.wordAt data (offset + CliHeader.metadataOffset + 4) 4
  checkMetadata data (← mapped "metadata_rva" rva) size

/-- Where the old header says where the new one starts. -/
def pointerOffset : Nat := 0x3C

/-- Where the old header ends. -/
def oldHeaderSize : Nat := 0x40

/-- Checks the old header, and returns where the new one starts. -/
def checkOldHeader (data : Bytes) : Except ImageFault Nat := do
  if data.size < 2 then throw .noOldMagic
  let magic := LittleEndian.wordAt data 0 2
  if magic ≠ 0x5A4D then throw (.oldMagic magic)
  checkFieldsAt data 2 (List.replicate 13 2)
  checkFieldsAt data 0x24 [2, 2]
  if data.size < oldHeaderSize then throw (.noHeaderOffset pointerOffset)
  let peOffset := LittleEndian.wordAt data pointerOffset 4
  if data.size < peOffset + 4 then throw (.noMagic peOffset)
  let magic := LittleEndian.wordAt data peOffset 4
  if magic ≠ 0x4550 then throw (.magic magic)
  if peOffset < oldHeaderSize then throw (.headersOverlap oldHeaderSize peOffset)
  return peOffset

/-- The headers of a file, if it is an image. -/
def ofBytes (data : Bytes) : Except ImageFault ImageHeaders := do
  let peOffset ← checkOldHeader data
  checkFieldsAt data (peOffset + 4) [2, 2, 4, 4, 4, 2, 2]
  let count := LittleEndian.wordAt data (peOffset + 6) 2
  let optionalSize := LittleEndian.wordAt data (peOffset + 20) 2
  let optional ← if optionalSize = 0 then pure none
    else some <$> OptionalHeader.ofBytes data (optionalOffset peOffset)
  let table := optionalOffset peOffset + optionalSize
  if data.size / SectionHeader.size < count then throw (.sectionCount count)
  let sections ← (List.range count).mapM fun index => do
    let offset := table + index * SectionHeader.size
    checkFieldsAt data offset SectionHeader.fieldSizes
    let header := SectionHeader.ofBytes data offset
    header.checkName
    return header
  if let some header := optional then
    if let some cli := header.cli then
      checkCli data sections header.fileAlignment.toNat cli
  return { peOffset, optionalSize, optional, sections }

end ImageHeaders

end CilPatch
