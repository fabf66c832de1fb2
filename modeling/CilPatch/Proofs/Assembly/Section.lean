import CilPatch.Proofs.Assembly.Metadata
import CilPatch.Proofs.Image.File
import CilPatch.Proofs.Metadata.CliHeader

/-!
# The image with a new section

A new image is the old one with a section behind it and some fields of its headers written over.
What it is read as follows from where these fields lie: all of them are in front of the room that the
headers take, apart from the two that name the metadata.
-/

namespace CilPatch

open LittleEndian

namespace PatchSection

/-! ## The place of a section -/

/-- A section lies behind the headers and behind all other sections, in memory and in the file. -/
structure Placed (image : Image) (place : SectionPlace) : Prop where
  room : image.sectionTableEnd + SectionHeader.size ≤ image.optional.headersSize.toNat
  raw : ∀ header ∈ image.sections, header.rawSize ≠ 0 →
    image.sectionTableEnd + SectionHeader.size ≤ header.rawOffset.toNat
  headers : image.optional.headersSize.toNat ≤ place.rva.toNat
  sections : ∀ header ∈ image.sections,
    header.virtualAddress.toNat + header.extent ≤ place.rva.toNat
  file : image.size ≤ place.offset

/-- A section lies apart from all other sections and from the file, and there is room for its header.
That it lies behind the headers and is aligned in memory takes what no check asks for. -/
structure Apart (image : Image) (place : SectionPlace) : Prop where
  room : image.sectionTableEnd + SectionHeader.size ≤ image.optional.headersSize.toNat
  raw : ∀ header ∈ image.sections, header.rawSize ≠ 0 →
    image.sectionTableEnd + SectionHeader.size ≤ header.rawOffset.toNat
  sections : ∀ header ∈ image.sections,
    header.virtualAddress.toNat + header.extent ≤ place.rva.toNat
  file : image.size ≤ place.offset
  rawOffset : image.optional.fileAlignment.toNat ∣ place.offset
  headers : image.optional.headersSize.toNat ≤ imageEnd image →
    image.optional.headersSize.toNat ≤ place.rva.toNat
  alignment : image.optional.sectionAlignment.toNat.isPowerOfTwo →
    image.optional.sectionAlignment.toNat ∣ place.rva.toNat

variable {image : Image} {place : SectionPlace}

/-- An address in a section that ends within the address space does not wrap. -/
theorem toNat_rva_add {rva : UInt32} {delta length : Nat} (hdelta : delta ≤ length)
    (h : rva.toNat + length < UInt32.size) :
    (rva + UInt32.ofNat delta).toNat = rva.toNat + delta := by
  rw [UInt32.toNat_add, UInt32.toNat_ofNat_of_lt' (by omega)]
  exact Nat.mod_eq_of_lt (Nat.lt_of_le_of_lt (Nat.add_le_add_left hdelta _) h)

/-- The end of an image is behind all sections. -/
theorem le_imageEnd {header : SectionHeader} (hmem : header ∈ image.sections) :
    header.virtualAddress.toNat + header.extent ≤ imageEnd image := by
  have hbehind : header.virtualAddress.toNat + header.extent ∈ image.sections.map fun header =>
      header.virtualAddress.toNat + max header.virtualSize.toNat header.rawSize.toNat :=
    List.mem_map.mpr ⟨header, hmem, rfl⟩
  unfold imageEnd
  cases hend : (image.sections.map fun header => header.virtualAddress.toNat +
      max header.virtualSize.toNat header.rawSize.toNat).max? with
  | none =>
    rw [List.max?_eq_none_iff.mp hend] at hbehind
    cases hbehind
  | some stop =>
    obtain ⟨-, hle⟩ := List.max?_eq_some_iff.mp hend
    exact hle _ hbehind

/-- The end of an image is no further away than the end of the last section can be. -/
theorem imageEnd_lt (image : Image) : imageEnd image < 2 * UInt32.size := by
  unfold imageEnd
  cases hend : (image.sections.map fun header => header.virtualAddress.toNat +
      max header.virtualSize.toNat header.rawSize.toNat).max? with
  | none =>
    have hlt := image.optional.headersSize.toNat_lt
    simp only [Option.getD_none, UInt32.size]
    omega
  | some stop =>
    obtain ⟨hmem, -⟩ := List.max?_eq_some_iff.mp hend
    obtain ⟨last, -, rfl⟩ := List.mem_map.mp hmem
    have hstart := last.virtualAddress.toNat_lt
    have hvirtual := last.virtualSize.toNat_lt
    have hraw := last.rawSize.toNat_lt
    simp only [Option.getD_some, UInt32.size]
    omega

/-- The end of an image is behind the headers when no section is where the headers are. -/
theorem headersSize_le_imageEnd (h : image.WellFormed) :
    image.optional.headersSize.toNat ≤ imageEnd image := by
  cases hsections : image.sections with
  | nil =>
    rw [imageEnd, hsections]
    exact Nat.le_refl _
  | cons first rest =>
    have hmem : first ∈ image.sections := by
      rw [hsections]
      exact List.mem_cons_self
    exact Nat.le_trans (h.addresses first hmem)
      (Nat.le_trans (Nat.le_add_right _ _) (le_imageEnd hmem))

/-- No raw data starts in front of the first. -/
theorem firstRaw_le {header : SectionHeader} (hmem : header ∈ image.sections)
    (hraw : header.rawSize ≠ 0) : firstRaw image ≤ header.rawOffset.toNat := by
  have hoffset : header.rawOffset.toNat ∈ (image.sections.filter fun header =>
      header.rawSize != 0).map fun header => header.rawOffset.toNat :=
    List.mem_map_of_mem (List.mem_filter.mpr ⟨hmem, by simpa using hraw⟩)
  unfold firstRaw
  cases hmin : ((image.sections.filter fun header => header.rawSize != 0).map fun header =>
      header.rawOffset.toNat).min? with
  | none =>
    rw [List.min?_eq_none_iff.mp hmin] at hoffset
    cases hoffset
  | some least =>
    obtain ⟨-, hle⟩ := List.min?_eq_some_iff.mp hmin
    exact hle _ hoffset

/-- A place is found when there is room for a section header and the address is a word; it is behind
all sections and behind the file. -/
theorem place_eq_ok_iff : PatchSection.place image = .ok place ↔
    image.sectionTableEnd + SectionHeader.size ≤
        min (firstRaw image) image.optional.headersSize.toNat ∧
      alignUp (imageEnd image) image.optional.sectionAlignment.toNat < UInt32.size ∧
      place = ⟨UInt32.ofNat (alignUp (imageEnd image) image.optional.sectionAlignment.toNat),
        alignUp image.size image.optional.fileAlignment.toNat⟩ := by
  unfold PatchSection.place
  constructor
  · intro h
    obtain ⟨hroom, h⟩ := check_eq_ok_iff.mp h
    obtain ⟨rva, hrva, h⟩ := bind_eq_ok_iff.mp h
    obtain ⟨hlt, rfl⟩ := word_eq_ok_iff.mp hrva
    exact ⟨Nat.not_lt.mp hroom, hlt, (Except.ok.inj h).symm⟩
  · rintro ⟨hroom, hlt, rfl⟩
    exact check_eq_ok_iff.mpr ⟨Nat.not_lt.mpr hroom,
      bind_eq_ok_iff.mpr ⟨_, word_eq_ok_iff.mpr ⟨hlt, rfl⟩, rfl⟩⟩

/-- A place that was found is apart from everything. -/
theorem apart_of_place (hfile : image.optional.fileAlignment.toNat.isPowerOfTwo)
    (hsize : image.size + UInt32.size ≤ wordRange) (h : PatchSection.place image = .ok place) :
    Apart image place := by
  have hend := imageEnd_lt image
  have hsectionSize := image.optional.sectionAlignment.toNat_lt
  have hfileSize := image.optional.fileAlignment.toNat_lt
  obtain ⟨hroom, hrva, rfl⟩ := place_eq_ok_iff.mp h
  have haddress := UInt32.toNat_ofNat_of_lt' hrva
  -- neither sum leaves the words
  have hmemory : imageEnd image + image.optional.sectionAlignment.toNat ≤ wordRange := by
    simp only [wordRange, UInt64.size, UInt32.size] at *
    omega
  have hstored : image.size + image.optional.fileAlignment.toNat ≤ wordRange := by
    simp only [UInt32.size] at hsize
    omega
  have hbehind := le_alignUp hmemory
  rw [← haddress] at hbehind
  exact {
    room := Nat.le_trans hroom (Nat.min_le_right _ _)
    raw := fun header hheader hraw => Nat.le_trans hroom
      (Nat.le_trans (Nat.min_le_left _ _) (firstRaw_le hheader hraw))
    sections := fun header hheader => Nat.le_trans (le_imageEnd hheader) hbehind
    file := le_alignUp hstored
    rawOffset := dvd_alignUp hfile hstored
    headers := fun hheaders => Nat.le_trans hheaders hbehind
    alignment := fun hpower => by
      rw [haddress]
      exact dvd_alignUp hpower hmemory }

/-- A place that was found is behind everything. -/
theorem placed_of_place (hwell : image.WellFormed) (h : PatchSection.place image = .ok place) :
    Placed image place := by
  obtain ⟨bits, hbits⟩ := hwell.fileAlignment
  have hapart := apart_of_place ⟨bits, hbits.trans (Nat.one_shiftLeft bits)⟩ hwell.size h
  exact ⟨hapart.room, hapart.raw, hapart.headers (headersSize_le_imageEnd hwell), hapart.sections,
    hapart.file⟩

/-! ## What is written -/

/-- What is written over the old image and the section behind it. -/
def writes (image : Image) (cliOffset : Nat) (header : List UInt8)
    (dataSize imageSize metadataRva metadataSize checksum : UInt32) : List (Nat × List UInt8) :=
  [(image.sectionTableEnd, header),
    (image.sectionCountOffset, LittleEndian.u16 (UInt16.ofNat image.sections.length + 1)),
    (image.dataSizeOffset, LittleEndian.u32 dataSize),
    (image.imageSizeOffset, LittleEndian.u32 imageSize),
    (cliOffset + CliHeader.metadataOffset, LittleEndian.u32 metadataRva),
    (cliOffset + CliHeader.metadataOffset + 4, LittleEndian.u32 metadataSize),
    (image.checksumOffset, LittleEndian.u32 0),
    (image.checksumOffset, LittleEndian.u32 checksum)]

/-- The old image with a section behind it, before anything is written over it. -/
def whole (image : Image) (place : SectionPlace) (content : List UInt8) : Bytes :=
  image.data ++ (Array.replicate (place.offset - image.size) 0 ++ (content.toArray ++
    Array.replicate (alignUp content.length image.optional.fileAlignment.toNat - content.length) 0))

variable {assembly : Assembly} {content : List UInt8}
  {metadataRva metadataSize : UInt32} {out : Bytes}

/-- The header of a section that holds a number of bytes at a place. -/
structure Describes (image : Image) (place : SectionPlace) (length : Nat) (header : SectionHeader) :
    Prop where
  name : header.name = sectionName
  address : header.virtualAddress = place.rva
  virtualSize : header.virtualSize.toNat = length
  rawSize : header.rawSize.toNat = alignUp length image.optional.fileAlignment.toNat
  rawOffset : header.rawOffset.toNat = place.offset

/-- The new section header in its stored form. -/
theorem sectionHeader_eq (virtualSize rva rawSize rawOffset : UInt32) :
    sectionHeader virtualSize rva rawSize rawOffset = SectionHeader.encode
      ⟨sectionName, virtualSize, rva, rawSize, rawOffset, sectionFlags⟩ := by
  simp only [sectionHeader, SectionHeader.encode, List.append_assoc]

/-- The old image and the parts of the section are put one behind the other. -/
theorem whole_eq (image : Image) (place : SectionPlace) (content : List UInt8) :
    image.data ++ Array.replicate (place.offset - image.size) 0 ++ content ++ Array.replicate
      (alignUp content.length image.optional.fileAlignment.toNat - content.length) 0 =
        whole image place content := by
  apply Array.ext'
  simp [whole]

/-- The header of a new section that holds a number of bytes. -/
def newHeader (image : Image) (place : SectionPlace) (length : Nat) : SectionHeader :=
  ⟨sectionName, UInt32.ofNat length, place.rva,
    UInt32.ofNat (alignUp length image.optional.fileAlignment.toNat), UInt32.ofNat place.offset,
    sectionFlags⟩

/-- The size of the initialized data with that of a new section. -/
def newDataSize (image : Image) (place : SectionPlace) (content : List UInt8) : UInt32 :=
  saturatingAdd (fieldAt (overwrite (whole image place content) image.sectionTableEnd
    (newHeader image place content.length).encode) image.dataSizeOffset)
    (newHeader image place content.length).rawSize

/-- The size of an image with a new section that holds a number of bytes. -/
def newImageSize (image : Image) (place : SectionPlace) (length : Nat) : UInt32 :=
  UInt32.ofNat
    (alignUp (place.rva + UInt32.ofNat length).toNat image.optional.sectionAlignment.toNat)

/-- What is written before the checksum is known: all other fields, and zeros in its own. -/
def unsummed (image : Image) (cliOffset : Nat) (place : SectionPlace) (length : Nat)
    (dataSize metadataRva metadataSize : UInt32) : List (Nat × List UInt8) :=
  [(image.sectionTableEnd, (newHeader image place length).encode),
    (image.sectionCountOffset, LittleEndian.u16 (UInt16.ofNat image.sections.length + 1)),
    (image.dataSizeOffset, LittleEndian.u32 dataSize),
    (image.imageSizeOffset, LittleEndian.u32 (newImageSize image place length)),
    (cliOffset + CliHeader.metadataOffset, LittleEndian.u32 metadataRva),
    (cliOffset + CliHeader.metadataOffset + 4, LittleEndian.u32 metadataSize),
    (image.checksumOffset, LittleEndian.u32 0)]

/-- An image with a new section, and with all of its fields written over but that of the checksum. -/
def summed (image : Image) (cliOffset : Nat) (place : SectionPlace) (content : List UInt8)
    (metadataRva metadataSize : UInt32) : Bytes :=
  overwriteAll (whole image place content) (unsummed image cliOffset place content.length
    (newDataSize image place content) metadataRva metadataSize)

/-- The checksum of an image with a new section. -/
def newChecksum (image : Image) (cliOffset : Nat) (place : SectionPlace) (content : List UInt8)
    (metadataRva metadataSize : UInt32) : UInt32 :=
  Checksum.ofBytes (summed image cliOffset place content metadataRva metadataSize)
    image.checksumOffset

/-- An image with a new section, and with all of its fields written over. -/
def stamped (image : Image) (cliOffset : Nat) (place : SectionPlace) (content : List UInt8)
    (metadataRva metadataSize : UInt32) : Bytes :=
  overwriteAll (whole image place content)
    (writes image cliOffset (newHeader image place content.length).encode
      (newDataSize image place content) (newImageSize image place content.length) metadataRva
      metadataSize (newChecksum image cliOffset place content metadataRva metadataSize))

/-- The checksum is written last. -/
theorem stamped_eq (image : Image) (cliOffset : Nat) (place : SectionPlace) (content : List UInt8)
    (metadataRva metadataSize : UInt32) :
    stamped image cliOffset place content metadataRva metadataSize =
      overwrite (summed image cliOffset place content metadataRva metadataSize)
        image.checksumOffset
        (LittleEndian.u32 (newChecksum image cliOffset place content metadataRva metadataSize)) := by
  rw [stamped]
  generalize newChecksum image cliOffset place content metadataRva metadataSize = checksum
  simp only [summed, overwriteAll, writes, unsummed, List.foldl_cons, List.foldl_nil]

/-- A section fits an image: its sizes are words, and so are its place and its end, and the fields to
be written over are in the image. -/
structure Fits (image : Image) (cliOffset : Nat) (place : SectionPlace) (content : List UInt8) :
    Prop where
  length : content.length < UInt32.size
  rawSize : alignUp content.length image.optional.fileAlignment.toNat < UInt32.size
  offset : place.offset < UInt32.size
  stop : alignUp (place.rva + UInt32.ofNat content.length).toNat
    image.optional.sectionAlignment.toNat < UInt32.size
  fields : image.checksumOffset + 4 ≤ (whole image place content).size
  cli : cliOffset + CliHeader.metadataOffset + 8 ≤ (whole image place content).size

/-- An image is assembled when the section fits, and then its fields are written over. -/
theorem assemble_eq_ok_iff :
    assemble assembly place content metadataRva metadataSize = .ok out ↔
      Fits assembly.image assembly.cliOffset place content ∧
        out = stamped assembly.image assembly.cliOffset place content metadataRva metadataSize := by
  have hstamped : stamped assembly.image assembly.cliOffset place content metadataRva metadataSize =
      _ := stamped_eq ..
  simp only [newChecksum, summed, overwriteAll, unsummed, List.foldl_cons, List.foldl_nil,
    newDataSize, newImageSize, newHeader, fieldAt] at hstamped
  rw [hstamped]
  unfold assemble
  simp only [whole_eq, sectionHeader_eq]
  constructor
  · intro h
    obtain ⟨virtualSize, hvirtual, h⟩ := bind_eq_ok_iff.mp h
    obtain ⟨rawSize, hraw, h⟩ := bind_eq_ok_iff.mp h
    obtain ⟨offset, hoffset, h⟩ := bind_eq_ok_iff.mp h
    obtain ⟨imageSize, himage, h⟩ := bind_eq_ok_iff.mp h
    obtain ⟨first, hfirst, h⟩ := bind_eq_ok_iff.mp h
    obtain ⟨second, hsecond, h⟩ := bind_eq_ok_iff.mp h
    obtain ⟨third, hthird, h⟩ := bind_eq_ok_iff.mp h
    obtain ⟨fourth, hfourth, h⟩ := bind_eq_ok_iff.mp h
    obtain ⟨fifth, hfifth, h⟩ := bind_eq_ok_iff.mp h
    obtain ⟨sixth, hsixth, h⟩ := bind_eq_ok_iff.mp h
    obtain ⟨hlength, rfl⟩ := word_eq_ok_iff.mp hvirtual
    obtain ⟨hrawSize, rfl⟩ := word_eq_ok_iff.mp hraw
    obtain ⟨hplace, rfl⟩ := word_eq_ok_iff.mp hoffset
    obtain ⟨hstop, rfl⟩ := word_eq_ok_iff.mp himage
    obtain ⟨-, rfl⟩ := writeAt_eq_ok_iff.mp hfirst
    obtain ⟨-, rfl⟩ := writeAt_eq_ok_iff.mp hsecond
    obtain ⟨-, rfl⟩ := writeAt_eq_ok_iff.mp hthird
    obtain ⟨-, rfl⟩ := writeAt_eq_ok_iff.mp hfourth
    obtain ⟨hcli, rfl⟩ := writeAt_eq_ok_iff.mp hfifth
    obtain ⟨-, rfl⟩ := writeAt_eq_ok_iff.mp hsixth
    obtain ⟨hfields, rfl⟩ := writeAt_eq_ok_iff.mp h
    simp only [size_overwrite, length_u32] at hcli hfields
    exact ⟨⟨hlength, hrawSize, hplace, hstop, hfields, by omega⟩, rfl⟩
  · rintro ⟨hfits, hout⟩
    rw [hout]
    have hwords {what : String} {value : Nat} (hlt : value < UInt32.size) :=
      (@word_eq_ok_iff what value _).mpr ⟨hlt, rfl⟩
    have hwrite {data : Bytes} {offset : Nat} {bytes : List UInt8}
        (hwithin : offset + bytes.length ≤ data.size) :
        writeAt data offset bytes = .ok (overwrite data offset bytes) :=
      writeAt_eq_ok_iff.mpr ⟨hwithin, rfl⟩
    have hfields := hfits.fields
    have hcli := hfits.cli
    refine bind_eq_ok_iff.mpr ⟨_, hwords hfits.length, bind_eq_ok_iff.mpr ⟨_, hwords hfits.rawSize,
      bind_eq_ok_iff.mpr ⟨_, hwords hfits.offset, bind_eq_ok_iff.mpr ⟨_, hwords hfits.stop,
      bind_eq_ok_iff.mpr ⟨_, hwrite ?_, bind_eq_ok_iff.mpr ⟨_, hwrite ?_,
      bind_eq_ok_iff.mpr ⟨_, hwrite ?_, bind_eq_ok_iff.mpr ⟨_, hwrite ?_,
      bind_eq_ok_iff.mpr ⟨_, hwrite ?_, bind_eq_ok_iff.mpr ⟨_, hwrite ?_,
      hwrite ?_⟩⟩⟩⟩⟩⟩⟩⟩⟩⟩
    all_goals
      simp only [size_overwrite, length_u16, length_u32, Image.sectionCountOffset, Image.coffOffset,
        Image.dataSizeOffset, Image.imageSizeOffset, Image.checksumOffset, Image.optionalOffset,
        ImageHeaders.optionalOffset] at *
      omega

/-- The header of a section that fits describes it. -/
theorem Fits.describes {image : Image} {cliOffset : Nat} (h : Fits image cliOffset place content) :
    Describes image place content.length (newHeader image place content.length) :=
  ⟨rfl, rfl, UInt32.toNat_ofNat_of_lt' h.length, UInt32.toNat_ofNat_of_lt' h.rawSize,
    UInt32.toNat_ofNat_of_lt' h.offset⟩

/-- An assembled image is the old one with a section behind it and some fields written over. -/
theorem assemble_eq_ok
    (h : assemble assembly place content metadataRva metadataSize = .ok out) :
    ∃ (header : SectionHeader) (dataSize imageSize checksum : UInt32),
      Describes assembly.image place content.length header ∧
      out = overwriteAll (whole assembly.image place content)
        (writes assembly.image assembly.cliOffset header.encode dataSize imageSize metadataRva
          metadataSize checksum) := by
  obtain ⟨hfits, hout⟩ := assemble_eq_ok_iff.mp h
  exact ⟨_, _, _, _, hfits.describes, hout⟩

/-- The directories of a well-formed image stand behind all fields that are written over. -/
theorem checksumOffset_le (hwell : image.WellFormed) :
    image.checksumOffset + 4 ≤ image.sectionTable := by
  have hbase := OptionalHeader.directoriesOffset_cases image.optional.isWide
  have hdirectories := hwell.directories
  rw [OptionalHeader.cliDirectory] at hdirectories
  simp only [Image.checksumOffset, Image.sectionTable]
  omega

/-- The fields of the headers that are written over stand in this order, in front of the section
headers. -/
theorem fields_ordered (hfields : image.checksumOffset + 4 ≤ image.sectionTable) :
    image.sectionCountOffset + 2 ≤ image.dataSizeOffset ∧
      image.dataSizeOffset + 4 ≤ image.imageSizeOffset ∧
      image.imageSizeOffset + 4 ≤ image.checksumOffset ∧
      image.checksumOffset + 4 ≤ image.sectionTableEnd := by
  simp only [Image.sectionCountOffset, Image.coffOffset, Image.dataSizeOffset,
    Image.imageSizeOffset, Image.checksumOffset, Image.optionalOffset,
    ImageHeaders.optionalOffset, Image.sectionTableEnd, Image.sectionTable] at *
  omega

/-- What was there is still there before anything is written over it. -/
theorem agree_whole (image : Image) (place : SectionPlace) (content : List UInt8) :
    Agree (whole image place content) image.data 0 image.size :=
  agree_append image.data _

/-- The new section holds its content before anything is written over it. -/
theorem extract_whole (hfile : image.size ≤ place.offset) (content : List UInt8) :
    place.offset + content.length ≤ (whole image place content).size ∧
      (whole image place content).extract place.offset (place.offset + content.length) =
        content.toArray := by
  have hfront : (image.data ++ Array.replicate (place.offset - image.size) 0).size =
      place.offset := by
    rw [Array.size_append, Array.size_replicate]
    change image.size + (place.offset - image.size) = place.offset
    omega
  rw [whole, ← Array.append_assoc]
  generalize image.data ++ Array.replicate (place.offset - image.size) 0 = front at hfront
  rw [← hfront]
  constructor
  · simp only [Array.size_append, List.size_toArray]
    omega
  · apply Array.ext'
    simp

/-- The new section ends with the file. -/
theorem size_whole (hfile : image.size ≤ place.offset) (hraw : content.length ≤
    alignUp content.length image.optional.fileAlignment.toNat) :
    (whole image place content).size =
      place.offset + alignUp content.length image.optional.fileAlignment.toNat := by
  have hsize : image.data.size = image.size := rfl
  simp only [whole, Array.size_append, Array.size_replicate, List.size_toArray, hsize]
  omega

/-- The old image with a section behind it, as a list. -/
def wholeBytes (image : Image) (place : SectionPlace) (content : List UInt8) : List UInt8 :=
  image.data.toList ++ (List.replicate (place.offset - image.size) 0 ++ (content ++
    List.replicate (alignUp content.length image.optional.fileAlignment.toNat - content.length) 0))

/-- It is the same list. -/
theorem whole_eq_toArray (image : Image) (place : SectionPlace) (content : List UInt8) :
    whole image place content = (wholeBytes image place content).toArray := by
  apply Array.ext'
  simp [whole, wholeBytes]

/-- Fields of the old image are written over by laying bytes over it. -/
theorem overwriteAll_whole {writes : List (Nat × List UInt8)}
    (h : ∀ write ∈ writes, write.1 + write.2.length ≤ image.size) :
    overwriteAll (whole image place content) writes =
      (overlayAll (wholeBytes image place content) writes).toArray := by
  rw [whole_eq_toArray]
  refine overwriteAll_toArray fun write hwrite => Nat.le_trans (h write hwrite) ?_
  rw [wholeBytes, List.length_append]
  exact Nat.le_add_right image.size _

/-- Everything is written over the old image if its fields are in it. -/
theorem within_writes {cliOffset length : Nat} {dataSize imageSize checksum : UInt32}
    (htable : image.sectionTableEnd + SectionHeader.size ≤ image.size)
    (hfields : image.checksumOffset + 4 ≤ image.size)
    (hcli : cliOffset + CliHeader.metadataOffset + 8 ≤ image.size) :
    ∀ write ∈ writes image cliOffset (newHeader image place length).encode dataSize imageSize
      metadataRva metadataSize checksum, write.1 + write.2.length ≤ image.size := by
  have hheader : (newHeader image place length).encode.length = SectionHeader.size :=
    SectionHeader.length_encode rfl
  simp only [writes, List.forall_mem_cons, hheader, length_u16, length_u32,
    Image.sectionCountOffset, Image.coffOffset, Image.dataSizeOffset, Image.imageSizeOffset,
    Image.checksumOffset, Image.optionalOffset, ImageHeaders.optionalOffset] at *
  refine ⟨htable, ?_, ?_, ?_, ?_, ?_, ?_, ?_, by simp⟩ <;> omega

/-- An image with a new section, and with all of its fields laid over it. -/
def laid (image : Image) (cliOffset : Nat) (place : SectionPlace) (content : List UInt8)
    (metadataRva metadataSize : UInt32) : List UInt8 :=
  overlayAll (wholeBytes image place content)
    (writes image cliOffset (newHeader image place content.length).encode
      (newDataSize image place content) (newImageSize image place content.length) metadataRva
      metadataSize (newChecksum image cliOffset place content metadataRva metadataSize))

/-- Fields that are in the old image are laid over it. -/
theorem stamped_eq_laid {cliOffset : Nat}
    (htable : image.sectionTableEnd + SectionHeader.size ≤ image.size)
    (hfields : image.checksumOffset + 4 ≤ image.size)
    (hcli : cliOffset + CliHeader.metadataOffset + 8 ≤ image.size) :
    stamped image cliOffset place content metadataRva metadataSize =
      (laid image cliOffset place content metadataRva metadataSize).toArray :=
  overwriteAll_whole (within_writes htable hfields hcli)

/-- The size of the initialized data grows by the raw size of the section if it is stored in front
of the room for the header. -/
theorem newDataSize_eq (hfields : image.dataSizeOffset + 4 ≤ image.sectionTableEnd)
    (hsize : image.dataSizeOffset + 4 ≤ image.size) (content : List UInt8) :
    newDataSize image place content = saturatingAdd (fieldAt image.data image.dataSizeOffset)
      (newHeader image place content.length).rawSize := by
  rw [newDataSize, ((agree_overwrite_of_le _ _ hfields).trans
    ((agree_whole image place content).mono (Nat.zero_le _) hsize)).fieldAt_eq]

/-- A new image: what is read of it. -/
structure Assembled (image : Image) (cliOffset : Nat) (place : SectionPlace)
    (content : List UInt8) (metadataRva metadataSize : UInt32) (header : SectionHeader)
    (out : Bytes) : Prop where
  address : header.virtualAddress = place.rva
  virtualSize : header.virtualSize.toNat = content.length
  rawSize : content.length ≤ header.rawSize.toNat
  rawOffset : header.rawOffset.toNat = place.offset
  size : place.offset + content.length ≤ out.size
  content : out.extract place.offset (place.offset + content.length) = content.toArray
  header : SectionHeader.ofBytes out image.sectionTableEnd = header
  count : wordAt out image.sectionCountOffset 2 = (UInt16.ofNat image.sections.length + 1).toNat
  rva : fieldAt out (cliOffset + CliHeader.metadataOffset) = metadataRva
  metadataSize : fieldAt out (cliOffset + CliHeader.metadataOffset + 4) = metadataSize
  kept : ∀ start stop, image.sectionTableEnd + SectionHeader.size ≤ start → stop ≤ image.size →
    (stop ≤ cliOffset + CliHeader.metadataOffset ∨
      cliOffset + CliHeader.metadataOffset + 8 ≤ start) → Agree out image.data start stop
  headers : ∀ start stop, stop ≤ image.sectionTableEnd →
    (stop ≤ image.sectionCountOffset ∨
      image.sectionCountOffset + 2 ≤ start ∧ stop ≤ image.dataSizeOffset ∨
      image.dataSizeOffset + 4 ≤ start ∧ stop ≤ image.imageSizeOffset ∨
      image.imageSizeOffset + 4 ≤ start ∧ stop ≤ image.checksumOffset ∨
      image.checksumOffset + 4 ≤ start) → Agree out image.data start stop

/-- Bytes are not written over when they lie apart from every field. -/
theorem untouched_writes {cliOffset start stop : Nat} {header : List UInt8}
    {dataSize imageSize checksum : UInt32} (hlength : header.length = SectionHeader.size)
    (hheader : stop ≤ image.sectionTableEnd ∨ image.sectionTableEnd + SectionHeader.size ≤ start)
    (hcount : stop ≤ image.sectionCountOffset ∨ image.sectionCountOffset + 2 ≤ start)
    (hdata : stop ≤ image.dataSizeOffset ∨ image.dataSizeOffset + 4 ≤ start)
    (himage : stop ≤ image.imageSizeOffset ∨ image.imageSizeOffset + 4 ≤ start)
    (hchecksum : stop ≤ image.checksumOffset ∨ image.checksumOffset + 4 ≤ start)
    (hcli : stop ≤ cliOffset + CliHeader.metadataOffset ∨
      cliOffset + CliHeader.metadataOffset + 8 ≤ start) :
    Untouched (writes image cliOffset header dataSize imageSize metadataRva metadataSize checksum)
      start stop := by
  simp only [writes, untouched_cons, untouched_nil, and_true, length_u16, length_u32, hlength]
  omega

/-- An image with fields written over is read as the old one with a section and new metadata, if the
room for the new section header lies between those fields and the CLI header. -/
theorem assembled_of_writes {cliOffset : Nat} {header : SectionHeader}
    {dataSize imageSize checksum : UInt32}
    (hdescribes : Describes image place content.length header) (hfile : image.size ≤ place.offset)
    (hfields : image.checksumOffset + 4 ≤ image.sectionTable)
    (hcli : image.sectionTableEnd + SectionHeader.size ≤ cliOffset)
    (hcliEnd : cliOffset + CliHeader.length ≤ image.size)
    (hout : out = overwriteAll (whole image place content)
      (writes image cliOffset header.encode dataSize imageSize metadataRva metadataSize checksum)) :
    Assembled image cliOffset place content metadataRva metadataSize header out := by
  have hname : header.name.length = 8 := by
    rw [hdescribes.name]
    rfl
  have hlength := SectionHeader.length_encode hname
  obtain ⟨hdata, himage, hchecksum, htable⟩ := fields_ordered hfields
  obtain ⟨hsize, hcontent⟩ := extract_whole hfile content
  have hmetadata : CliHeader.metadataOffset + 8 ≤ CliHeader.length := by decide
  have hkept {start stop : Nat} (hstop : stop ≤ image.size)
      (huntouched : Untouched (writes image cliOffset header.encode dataSize imageSize metadataRva
        metadataSize checksum) start stop) : Agree out image.data start stop := by
    rw [hout]
    exact (agree_overwriteAll _ huntouched).trans
      ((agree_whole image place content).mono (Nat.zero_le _) hstop)
  refine ⟨hdescribes.address, hdescribes.virtualSize, ?_, hdescribes.rawOffset, ?_, ?_, ?_, ?_, ?_,
    ?_, ?_, ?_⟩
  · have halignment := image.optional.fileAlignment.toNat_lt
    have hcontentSize := header.virtualSize.toNat_lt
    have hvirtual := hdescribes.virtualSize
    rw [hdescribes.rawSize]
    exact le_alignUp (by simp only [wordRange, UInt64.size]; omega)
  · rw [hout, size_overwriteAll]
    exact hsize
  · rw [hout, (agree_overwriteAll _ (untouched_writes hlength ?_ ?_ ?_ ?_ ?_ ?_)).extract_eq,
      hcontent] <;> omega
  · refine SectionHeader.ofBytes_of_extract hname ?_
    rw [hout, ← hlength]
    refine extract_overwriteAll 0 rfl (by rw [hlength]; omega) ?_
    simp only [writes, List.drop_succ_cons, List.drop_zero, untouched_cons, untouched_nil,
      and_true, length_u16, length_u32, hlength]
    omega
  · rw [hout]
    refine wordAt_of_u16 (extract_overwriteAll 1 rfl (by rw [length_u16]; omega) ?_)
    simp only [writes, List.drop_succ_cons, List.drop_zero, untouched_cons, untouched_nil,
      and_true, length_u16, length_u32]
    omega
  · rw [hout]
    refine fieldAt_of_extract (extract_overwriteAll 4 rfl (by rw [length_u32]; omega) ?_)
    simp only [writes, List.drop_succ_cons, List.drop_zero, untouched_cons, untouched_nil,
      and_true, length_u32]
    omega
  · rw [hout]
    refine fieldAt_of_extract (extract_overwriteAll 5 rfl (by rw [length_u32]; omega) ?_)
    simp only [writes, List.drop_succ_cons, List.drop_zero, untouched_cons, untouched_nil,
      and_true, length_u32]
    omega
  · intro start stop hstart hstop hcliApart
    exact hkept hstop (untouched_writes hlength (by omega) (by omega) (by omega) (by omega)
      (by omega) hcliApart)
  · intro start stop hstop hfields
    exact hkept (by omega) (untouched_writes hlength (by omega) (by omega) (by omega) (by omega)
      (by omega) (by omega))

/-- An assembled image is read as the old one with a section and new metadata. -/
theorem assembled_of_assemble (hwell : assembly.image.WellFormed)
    (hplaced : Placed assembly.image place)
    (hcli : assembly.image.sectionTableEnd + SectionHeader.size ≤ assembly.cliOffset)
    (hcliEnd : assembly.cliOffset + CliHeader.length ≤ assembly.image.size)
    (h : assemble assembly place content metadataRva metadataSize = .ok out) :
    ∃ header, Assembled assembly.image assembly.cliOffset place content metadataRva metadataSize
      header out := by
  obtain ⟨header, dataSize, imageSize, checksum, hdescribes, hout⟩ := assemble_eq_ok h
  exact ⟨header, assembled_of_writes hdescribes hplaced.file (checksumOffset_le hwell) hcli hcliEnd
    hout⟩

section Reloading

variable {cliOffset : Nat} {header : SectionHeader}

/-- The optional header of a new image says the same but for the size of the image. -/
theorem readAt_assembled (hstands : image.Stands) (hwell : image.WellFormed)
    (h : Assembled image cliOffset place content metadataRva metadataSize header out) :
    OptionalHeader.readAt out image.optionalOffset =
      { image.optional with imageSize := fieldAt out (image.optionalOffset + 56) } := by
  obtain ⟨hdata, himage, hchecksum, htable⟩ := fields_ordered (checksumOffset_le hwell)
  have hoptional := hstands.optional
  have hdirectories := hwell.directories
  have hsections : image.optionalOffset + image.optionalSize ≤ image.sectionTableEnd :=
    Nat.le_add_right _ _
  rw [OptionalHeader.cliDirectory] at hdirectories
  have hread : OptionalHeader.readAt out image.optionalOffset = _ :=
    OptionalHeader.readAt_eq (h.headers _ _ ?_ ?_) (h.headers _ _ ?_ ?_) (h.headers _ _ ?_ ?_)
      (h.headers _ _ ?_ ?_)
  · rw [← hoptional] at hread
    exact hread
  all_goals
    rw [← hoptional] at *
    simp only [Image.sectionCountOffset, Image.coffOffset, Image.dataSizeOffset,
      Image.imageSizeOffset, Image.checksumOffset, Image.optionalOffset,
      ImageHeaders.optionalOffset] at *
    omega

/-- The section headers of a new image are the old ones and that of the new section. -/
theorem sections_assembled (hstands : image.Stands)
    (hfields : image.checksumOffset + 4 ≤ image.sectionTable)
    (h : Assembled image cliOffset place content metadataRva metadataSize header out) :
    ((List.range (image.sections.length + 1)).map fun index =>
      SectionHeader.ofBytes out (image.sectionTable + index * SectionHeader.size)) =
      image.sections ++ [header] := by
  have hend : image.sectionTableEnd =
      image.sectionTable + image.sections.length * SectionHeader.size := rfl
  rw [List.range_succ, List.map_append, List.map_singleton, ← hend, h.header]
  congr 1
  have hold := hstands.sections
  rw [← hstands.length_sections] at hold
  refine Eq.trans (List.map_congr_left fun index hindex => ?_) hold.symm
  have hindex := List.mem_range.mp hindex
  refine SectionHeader.ofBytes_eq (h.headers _ _ ?_ ?_)
  · rw [hend, Nat.add_assoc, ← Nat.succ_mul]
    exact Nat.add_le_add_left (Nat.mul_le_mul_right _ hindex) _
  · exact .inr (.inr (.inr (.inr (Nat.le_trans hfields (Nat.le_add_right _ _)))))

/-- All section headers of a new image are counted, unless the count leaves the words. -/
theorem count_assembled (hcount : image.sections.length + 1 < UInt16.size)
    (h : Assembled image cliOffset place content metadataRva metadataSize header out) :
    wordAt out image.sectionCountOffset 2 = image.sections.length + 1 := by
  rw [h.count, UInt16.toNat_add, UInt16.toNat_ofNat_of_lt' (by omega), UInt16.toNat_one]
  exact Nat.mod_eq_of_lt hcount

/-- The count of sections is raised if no fewer are counted in a new image: one that cannot be
raised becomes zero. -/
theorem lt_of_le_count (hstands : image.Stands)
    (h : Assembled image cliOffset place content metadataRva metadataSize header out)
    (hle : image.sections.length ≤ wordAt out image.sectionCountOffset 2) :
    image.sections.length + 1 < UInt16.size := by
  have hlt := wordAt_lt image.data image.sectionCountOffset 2
  have hraised := UInt16.toNat_add (UInt16.ofNat image.sections.length) 1
  rw [← hstands.length_sections] at hlt
  rw [← h.count, UInt16.toNat_ofNat_of_lt' hlt, UInt16.toNat_one] at hraised
  by_contra hmany
  have hlast : image.sections.length + 1 = 2 ^ 16 := by
    simp only [range, UInt16.size] at hlt hmany
    omega
  omega

/-- The headers of a new image stand where those of the old one do. -/
theorem standIn_assembled {headers : ImageHeaders} (hstands : image.Stands)
    (hfields : image.checksumOffset + 4 ≤ image.sectionTable)
    (h : Assembled image cliOffset place content metadataRva metadataSize header out)
    (hstand : headers.StandIn out) :
    headers.peOffset = image.peOffset ∧ headers.optionalSize = image.optionalSize := by
  obtain ⟨hdata, himage, hchecksum, htable⟩ := fields_ordered hfields
  have hbelow := hstands.below
  have hcount : image.sectionCountOffset = image.peOffset + 6 := rfl
  have hoffset : image.dataSizeOffset = image.peOffset + 32 := rfl
  have hpe : headers.peOffset = image.peOffset := by
    rw [hstand.pointer, hstands.pointer]
    refine (h.headers _ _ ?_ ?_).wordAt_eq
    all_goals
      rw [ImageHeaders.pointerOffset]
      rw [ImageHeaders.oldHeaderSize] at hbelow
      omega
  refine ⟨hpe, ?_⟩
  rw [hstand.reserved, hstands.reserved, hpe]
  exact (h.headers _ _ (by omega) (by omega)).wordAt_eq

/-- A new image, if its headers are read, is loaded with the new section behind the others. -/
theorem ofBytes_assembled {headers : ImageHeaders} (hstands : image.Stands)
    (hwell : image.WellFormed)
    (h : Assembled image cliOffset place content metadataRva metadataSize header out)
    (hheaders : ImageHeaders.ofBytes out = .ok headers)
    (hstored : image.sections.length ≤ headers.sections.length) :
    headers.sections = image.sections ++ [header] ∧
      ∃ imageSize, Image.ofBytes out = .ok (image.extended out imageSize header) := by
  have hfields := checksumOffset_le hwell
  have hstand := ImageHeaders.standIn_of_ofBytes hheaders
  obtain ⟨hpe, hsize⟩ := standIn_assembled hstands hfields h hstand
  have hsections : headers.sections = image.sections ++ [header] := by
    rw [hstand.sections, List.length_map, List.length_range, hpe] at hstored
    rw [hstand.sections, ImageHeaders.sectionTable, hpe, hsize]
    change (List.range (wordAt out image.sectionCountOffset 2)).map _ = _
    rw [count_assembled (lt_of_le_count hstands h hstored) h]
    exact sections_assembled hstands hfields h
  have hoptional : headers.optional =
      some { image.optional with imageSize := fieldAt out (image.optionalOffset + 56) } := by
    have hdirectories := hwell.directories
    rw [hstand.optional, if_neg (by omega), hpe, ← readAt_assembled hstands hwell h]
    rfl
  have hfull : out.isEmpty = false := by
    by_contra hempty
    have hnone : out = #[] := by simpa using hempty
    have hlength := congrArg List.length (hstand.sections.symm.trans hsections)
    rw [List.length_map, List.length_range, hnone, List.length_append, List.length_singleton]
      at hlength
    simp [wordAt, decode] at hlength
  refine ⟨hsections, fieldAt out (image.optionalOffset + 56), Image.ofBytes_eq_ok_iff.mpr
    ⟨hfull, headers, _, image.cli, hheaders, hoptional, hstands.cli, ?_⟩⟩
  rw [Image.extended, hpe, hsize, hsections]

namespace Assembled

variable {imageSize : UInt32}

/-- The CLI header of a new image leads to the new metadata, and says nothing else than before. -/
theorem readAt_cli
    (h : Assembled image cliOffset place content metadataRva metadataSize header out)
    (hcli : image.sectionTableEnd + SectionHeader.size ≤ cliOffset)
    (hroom : cliOffset + CliHeader.length ≤ image.size) :
    CliHeader.readAt out cliOffset =
      { CliHeader.readAt image.data cliOffset with metadata := ⟨metadataRva, metadataSize⟩ } := by
  have hlength : CliHeader.metadataOffset + 8 ≤ CliHeader.length := by decide
  rw [CliHeader.readAt_moved
    (h.kept _ _ hcli (by omega) (.inl (Nat.le_refl _)))
    (h.kept _ _ (by omega) hroom (.inr (Nat.le_refl _))), CliHeader.extentAt, h.rva,
    h.metadataSize]

/-- An address in the content of the new section leads to where that is stored. -/
theorem offsetOf_eq (hplaced : Placed image place)
    (h : Assembled image cliOffset place content metadataRva metadataSize header out) {delta : Nat}
    (hdelta : delta < content.length) :
    (image.extended out imageSize header).offsetOf (place.rva.toNat + delta) =
      .ok (place.offset + delta) := by
  have haddress : header.virtualAddress.toNat = place.rva.toNat := by rw [h.address]
  have hraw := h.rawSize
  rw [Image.offsetOf_new (Nat.le_trans hplaced.headers (Nat.le_add_right _ _))
    (fun other hother => Nat.le_trans (hplaced.sections other hother) (Nat.le_add_right _ _))
    (by omega) (by omega), h.rawOffset, haddress, Nat.add_sub_cancel_left]

end Assembled

end Reloading

end PatchSection

end CilPatch
