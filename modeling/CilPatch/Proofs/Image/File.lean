import CilPatch.Proofs.Image.Headers

/-!
# Addresses in an image with one more section

A section put behind the others takes no address from them: what an address leads to stays, and the
addresses of the new section lead into its data.
-/

namespace CilPatch

open LittleEndian

namespace Image

variable {image : Image} {data : Bytes}

/-- An image is loaded when its headers are read and lead to a CLI header. -/
theorem ofBytes_eq_ok_iff : ofBytes data = .ok image ↔
    data.isEmpty = false ∧ ∃ headers optional cli, ImageHeaders.ofBytes data = .ok headers ∧
      headers.optional = some optional ∧ optional.cli = some cli ∧
      image = { headers with data, optional, cli } := by
  unfold ofBytes
  cases hempty : data.isEmpty with
  | true =>
    rw [if_pos rfl]
    exact ⟨nofun, fun h => by cases h.1⟩
  | false =>
    rw [if_neg (by simp)]
    constructor
    · intro h
      split at h
      · cases h
      · next headers hheaders =>
        split at h
        · cases h
        · next optional hoptional =>
          split at h
          · cases h
          · next cli hcli =>
            exact ⟨rfl, headers, optional, cli, hheaders, hoptional, hcli, (Except.ok.inj h).symm⟩
    · rintro ⟨-, headers, optional, cli, hheaders, hoptional, hcli, rfl⟩
      simp only [hheaders, hoptional, hcli]

/-- A part of an image is there when the image reaches that far. -/
theorem slice_eq_ok_iff {offset length : Nat} {bytes : Bytes} :
    image.slice offset length = .ok bytes ↔
      offset + length ≤ image.size ∧ bytes = image.data.extract offset (offset + length) := by
  unfold slice
  split
  · next hlt => exact ⟨nofun, fun h => absurd hlt (Nat.not_lt.mpr h.1)⟩
  · next hle =>
    exact ⟨fun h => ⟨Nat.not_lt.mp hle, (Except.ok.inj h).symm⟩, fun h => congrArg _ h.2.symm⟩

/-- The part of an image that stands between two others is found there. -/
theorem slice_between {front middle back : List UInt8}
    (h : image.data = (front ++ (middle ++ back)).toArray) :
    image.slice front.length middle.length = .ok middle.toArray := by
  refine slice_eq_ok_iff.mpr ⟨?_, ?_⟩
  · rw [size, h, List.size_toArray, List.length_append, List.length_append, ← Nat.add_assoc]
    exact Nat.le_add_right _ _
  · rw [h, extract_between]

/-- A loaded image says what stands in its file. -/
structure Stands (image : Image) : Prop where
  pointer : image.peOffset = wordAt image.data ImageHeaders.pointerOffset 4
  below : ImageHeaders.oldHeaderSize ≤ image.peOffset
  reserved : image.optionalSize = wordAt image.data (image.peOffset + 20) 2
  optional : image.optional = OptionalHeader.readAt image.data image.optionalOffset
  cli : image.optional.cli = some image.cli
  sections : image.sections =
    (List.range (wordAt image.data image.sectionCountOffset 2)).map fun index =>
      SectionHeader.ofBytes image.data (image.sectionTable + index * SectionHeader.size)

/-- An image that was loaded stands in its file. -/
theorem stands_of_ofBytes (h : ofBytes data = .ok image) :
    image.data = data ∧ image.Stands := by
  obtain ⟨-, headers, optional, cli, hheaders, hoptional, hcli, rfl⟩ := ofBytes_eq_ok_iff.mp h
  have hstand := ImageHeaders.standIn_of_ofBytes hheaders
  refine ⟨rfl, hstand.pointer, hstand.below, hstand.reserved, ?_, hcli, hstand.sections⟩
  have hread := hstand.optional
  rw [hoptional] at hread
  split at hread
  · cases hread
  · exact Option.some.inj hread

/-- The raw data of a loaded image is aligned to a power of two. -/
theorem isPowerOfTwo_fileAlignment (h : ofBytes data = .ok image) :
    image.optional.fileAlignment.toNat.isPowerOfTwo := by
  obtain ⟨-, headers, optional, cli, hheaders, hoptional, hcli, rfl⟩ := ofBytes_eq_ok_iff.mp h
  obtain ⟨-, hchecked⟩ := ImageHeaders.facts_of_ofBytes hheaders
  exact ImageHeaders.isPowerOfTwo_of_checkCli (hchecked optional cli hoptional hcli)

/-- A loaded image has a section with raw data that starts in the file. -/
theorem exists_section_of_ofBytes (h : ofBytes data = .ok image) :
    ∃ header ∈ image.sections, header.rawSize ≠ 0 ∧ header.rawOffset.toNat ≤ image.size := by
  obtain ⟨-, headers, optional, cli, hheaders, hoptional, hcli, rfl⟩ := ofBytes_eq_ok_iff.mp h
  obtain ⟨-, hchecked⟩ := ImageHeaders.facts_of_ofBytes hheaders
  exact ImageHeaders.exists_section_of_checkCli (hchecked optional cli hoptional hcli)

/-- There are as many sections as the file header counts. -/
theorem Stands.length_sections (h : image.Stands) :
    image.sections.length = wordAt image.data image.sectionCountOffset 2 := by
  rw [h.sections, List.length_map, List.length_range]

/-- What a section behind the others needs: alignments that are powers of two, no section where the
headers are, directories in front of the section headers, and a file that fits memory. -/
structure WellFormed (image : Image) : Prop where
  sectionAlignment : ∃ bits, image.optional.sectionAlignment.toNat = 1 <<< bits
  fileAlignment : ∃ bits, image.optional.fileAlignment.toNat = 1 <<< bits
  addresses : ∀ header ∈ image.sections,
    image.optional.headersSize.toNat ≤ header.virtualAddress.toNat
  directories : OptionalHeader.directoriesOffset image.optional.isWide +
    8 * (OptionalHeader.cliDirectory + 1) ≤ image.optionalSize
  size : image.size + UInt32.size ≤ wordRange

/-- Bytes of the file that lie in the raw data of a section. -/
def Holds (image : Image) (start stop : Nat) : Prop :=
  ∃ header ∈ image.sections, header.rawOffset.toNat ≤ start ∧ start < stop ∧
    stop ≤ header.rawOffset.toNat + header.rawSize.toNat

/-- The image in a file that has one more section and another size of the image. -/
def extended (image : Image) (data : Bytes) (imageSize : UInt32) (header : SectionHeader) : Image :=
  { image with
    data
    optional := { image.optional with imageSize }
    sections := image.sections ++ [header] }

variable {imageSize : UInt32} {header : SectionHeader} {rva offset : Nat}

/-- An address leads into the headers, or into the data of the first section that has it. -/
theorem offsetOf_eq_ok_iff : image.offsetOf rva = .ok offset ↔
    (rva < image.optional.headersSize.toNat ∧ offset = rva) ∨
    (image.optional.headersSize.toNat ≤ rva ∧ ∃ header,
      image.sections.find? (fun header => header.virtualAddress.toNat ≤ rva &&
        rva < header.virtualAddress.toNat + header.extent) = some header ∧
      rva - header.virtualAddress.toNat < header.rawSize.toNat ∧
      offset = header.rawOffset.toNat + (rva - header.virtualAddress.toNat)) := by
  unfold offsetOf
  by_cases hheaders : rva < image.optional.headersSize.toNat
  · rw [if_pos hheaders]
    constructor
    · intro h
      exact .inl ⟨hheaders, (Except.ok.inj h).symm⟩
    · rintro (⟨-, rfl⟩ | ⟨hle, -⟩)
      · rfl
      · omega
  · rw [if_neg hheaders]
    cases hfound : image.sections.find? fun header =>
        header.virtualAddress.toNat ≤ rva && rva < header.virtualAddress.toNat + header.extent with
    | none =>
      constructor
      · nofun
      · rintro (⟨hlt, -⟩ | ⟨-, found, hsome, -⟩)
        · exact absurd hlt hheaders
        · cases hsome
    | some found =>
      simp only
      by_cases hraw : found.rawSize.toNat ≤ rva - found.virtualAddress.toNat
      · rw [if_pos hraw]
        constructor
        · nofun
        · rintro (⟨hlt, -⟩ | ⟨-, other, hsome, hlt, -⟩)
          · exact absurd hlt hheaders
          · obtain rfl := Option.some.inj hsome
            exact absurd hraw (Nat.not_le.mpr hlt)
      · rw [if_neg hraw]
        constructor
        · intro h
          exact .inr ⟨Nat.not_lt.mp hheaders, found, rfl, Nat.not_le.mp hraw,
            (Except.ok.inj h).symm⟩
        · rintro (⟨hlt, -⟩ | ⟨-, other, hsome, -, rfl⟩)
          · exact absurd hlt hheaders
          · rw [Option.some.inj hsome]

/-- An address of the new section that no other section has leads into its data. -/
theorem offsetOf_new (hheaders : image.optional.headersSize.toNat ≤ rva)
    (hothers : ∀ other ∈ image.sections, other.virtualAddress.toNat + other.extent ≤ rva)
    (hstart : header.virtualAddress.toNat ≤ rva)
    (hraw : rva < header.virtualAddress.toNat + header.rawSize.toNat) :
    (image.extended data imageSize header).offsetOf rva =
      .ok (header.rawOffset.toNat + (rva - header.virtualAddress.toNat)) := by
  have hnone : image.sections.find? (fun other =>
      other.virtualAddress.toNat ≤ rva && rva < other.virtualAddress.toNat + other.extent) =
      none := by
    rw [List.find?_eq_none]
    intro other hother
    have habove := hothers other hother
    simp only [Bool.and_eq_true, decide_eq_true_eq]
    omega
  have hextent : header.rawSize.toNat ≤ header.extent := Nat.le_max_right _ _
  refine offsetOf_eq_ok_iff.mpr (.inr ⟨hheaders, header, ?_, by omega, rfl⟩)
  rw [extended, List.find?_append, hnone, Option.none_or, List.find?_cons_of_pos]
  simp only [Bool.and_eq_true, decide_eq_true_eq]
  omega

end Image

end CilPatch
