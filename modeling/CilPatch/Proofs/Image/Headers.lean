import CilPatch.Image.File
import CilPatch.Proofs.Bytes.Block
import CilPatch.Proofs.Step

/-!
# What image headers say

Headers that were read say what stands in the file. So two files that agree on the fields that are
read have the same headers.
-/

namespace CilPatch

open LittleEndian

namespace OptionalHeader

/-- What the bytes at an offset say as an optional header. -/
def readAt (data : Bytes) (offset : Nat) : OptionalHeader :=
  let isWide := wordAt data offset 2 == 0x20B
  let base := directoriesOffset isWide
  let cli : Extent := ⟨fieldAt data (offset + (base + 8 * cliDirectory)),
    fieldAt data (offset + (base + 8 * cliDirectory + 4))⟩
  { isWide
    sectionAlignment := fieldAt data (offset + 32)
    fileAlignment := fieldAt data (offset + 36)
    imageSize := fieldAt data (offset + 56)
    headersSize := fieldAt data (offset + 60)
    cli := if wordAt data (offset + base - 4) 4 ≤ cliDirectory ∨ (cli.rva = 0 ∧ cli.size = 0)
      then none else some cli }

/-- An optional header that was read says what stands there. -/
theorem eq_readAt {data : Bytes} {offset : Nat} {header : OptionalHeader}
    (h : ofBytes data offset = .ok header) : header = readAt data offset := by
  unfold ofBytes at h
  obtain ⟨-, -, h⟩ := bind_eq_ok_iff.mp h
  obtain ⟨-, h⟩ := check_eq_ok_iff.mp h
  obtain ⟨-, -, h⟩ := bind_eq_ok_iff.mp h
  obtain ⟨-, h⟩ := check_eq_ok_iff.mp h
  obtain ⟨-, -, h⟩ := bind_eq_ok_iff.mp h
  exact (Except.ok.inj h).symm

/-- Where the directories start, narrow or wide. -/
theorem directoriesOffset_cases (isWide : Bool) :
    directoriesOffset isWide = 96 ∨ directoriesOffset isWide = 112 := by
  cases isWide
  · exact .inl rfl
  · exact .inr rfl

/-- Blocks that agree but for the sizes of data and image and the checksum say the same but for the
size of the image. -/
theorem readAt_eq {data other : Bytes} {offset : Nat} (hstart : Agree data other offset (offset + 8))
    (hmiddle : Agree data other (offset + 12) (offset + 56))
    (hsize : Agree data other (offset + 60) (offset + 64))
    (hend : Agree data other (offset + 68)
      (offset + (directoriesOffset (readAt other offset).isWide + 120))) :
    readAt data offset =
      { readAt other offset with imageSize := fieldAt data (offset + 56) } := by
  have hmagic : wordAt data offset 2 = wordAt other offset 2 :=
    (hstart.mono (Nat.le_refl _) (by omega)).wordAt_eq
  have hsections : fieldAt data (offset + 32) = fieldAt other (offset + 32) :=
    (hmiddle.mono (by omega) (by omega)).fieldAt_eq
  have hfile : fieldAt data (offset + 36) = fieldAt other (offset + 36) :=
    (hmiddle.mono (by omega) (by omega)).fieldAt_eq
  have hheaders := hsize.fieldAt_eq
  have hwide : (readAt other offset).isWide = (wordAt other offset 2 == 0x20B) := rfl
  rw [hwide] at hend
  have hcases := directoriesOffset_cases (wordAt other offset 2 == 0x20B)
  unfold readAt
  rw [hmagic, hsections, hfile, hheaders]
  generalize (wordAt other offset 2 == 0x20B) = isWide at hend hcases
  have hcount : wordAt data (offset + directoriesOffset isWide - 4) 4 =
      wordAt other (offset + directoriesOffset isWide - 4) 4 :=
    (hend.mono (by omega) (by omega)).wordAt_eq
  have hrva : fieldAt data (offset + (directoriesOffset isWide + 8 * cliDirectory)) =
      fieldAt other (offset + (directoriesOffset isWide + 8 * cliDirectory)) :=
    (hend.mono (by omega) (by rw [cliDirectory]; omega)).fieldAt_eq
  have hcli : fieldAt data (offset + (directoriesOffset isWide + 8 * cliDirectory + 4)) =
      fieldAt other (offset + (directoriesOffset isWide + 8 * cliDirectory + 4)) :=
    (hend.mono (by omega) (by rw [cliDirectory]; omega)).fieldAt_eq
  simp only [hcount, hrva, hcli]

end OptionalHeader

/-- What is left behind one part of some bytes is the next part. -/
private theorem drop_add_of_append {bytes front back : List UInt8} {offset count : Nat}
    (h : bytes.drop offset = front ++ back) (hfront : front.length = count) :
    bytes.drop (offset + count) = back := by
  rw [← List.drop_drop, h, List.drop_left' hfront]

/-- The fields of a section header stand in its stored form. -/
theorem SectionHeader.fieldAt_encode {header : SectionHeader} (hname : header.name.length = 8) :
    fieldAt header.encode.toArray 8 = header.virtualSize ∧
      fieldAt header.encode.toArray 12 = header.virtualAddress ∧
      fieldAt header.encode.toArray 16 = header.rawSize ∧
      fieldAt header.encode.toArray 20 = header.rawOffset ∧
      fieldAt header.encode.toArray 36 = header.characteristics := by
  -- every field is reached by leaving out those in front of it
  have h8 : header.encode.drop 8 = _ := List.drop_left' hname
  have h12 : header.encode.drop 12 = _ := drop_add_of_append h8 (length_u32 _)
  have h16 : header.encode.drop 16 = _ := drop_add_of_append h12 (length_u32 _)
  have h20 : header.encode.drop 20 = _ := drop_add_of_append h16 (length_u32 _)
  have h24 : header.encode.drop 24 = _ := drop_add_of_append h20 (length_u32 _)
  have h36 : header.encode.drop 36 = _ := drop_add_of_append h24 List.length_replicate
  refine ⟨fieldAt_of_take ?_, fieldAt_of_take ?_, fieldAt_of_take ?_, fieldAt_of_take ?_,
    fieldAt_of_take ?_⟩
  · rw [h8, List.take_left' (length_u32 _)]
  · rw [h12, List.take_left' (length_u32 _)]
  · rw [h16, List.take_left' (length_u32 _)]
  · rw [h20, List.take_left' (length_u32 _)]
  · rw [h36, List.take_of_length_le (Nat.le_of_eq (length_u32 _))]

/-- A section header takes as many bytes as are counted for it. -/
theorem SectionHeader.length_encode {header : SectionHeader} (hname : header.name.length = 8) :
    header.encode.length = SectionHeader.size := by
  simp only [encode, List.length_append, length_u32, List.length_replicate, hname, size]

/-- A section header is read where its stored form stands. -/
theorem SectionHeader.ofBytes_of_extract {data : Bytes} {offset : Nat} {header : SectionHeader}
    (hname : header.name.length = 8)
    (h : data.extract offset (offset + SectionHeader.size) = header.encode.toArray) :
    ofBytes data offset = header := by
  have hword (start : Nat) (hstart : start + 4 ≤ SectionHeader.size) :
      fieldAt data (offset + start) = fieldAt header.encode.toArray start := by
    rw [← h, fieldAt_extract data (by omega)]
  obtain ⟨hvirtual, haddress, hrawSize, hrawOffset, hflags⟩ := fieldAt_encode hname
  have hchars : (data.extract offset (offset + 8)).toList = header.name := by
    have hpart : data.extract offset (offset + 8) = header.encode.toArray.extract 0 8 := by
      rw [← h, extract_extract_of_le data (by rw [SectionHeader.size]; omega)]
      rfl
    rw [hpart, Array.toList_extract, List.extract_eq_take_drop, List.drop_zero, encode,
      List.take_left' hname]
  change SectionHeader.mk (data.extract offset (offset + 8)).toList (fieldAt data (offset + 8))
    (fieldAt data (offset + 12)) (fieldAt data (offset + 16)) (fieldAt data (offset + 20))
    (fieldAt data (offset + 36)) = header
  rw [hchars, hword 8 (by decide), hword 12 (by decide), hword 16 (by decide),
    hword 20 (by decide), hword 36 (by decide), hvirtual, haddress, hrawSize, hrawOffset, hflags]

/-- Blocks that agree on a section header have the same one. -/
theorem SectionHeader.ofBytes_eq {data other : Bytes} {offset : Nat}
    (h : Agree data other offset (offset + SectionHeader.size)) :
    ofBytes data offset = ofBytes other offset := by
  have hname : data.extract offset (offset + 8) = other.extract offset (offset + 8) :=
    (h.mono (Nat.le_refl _) (by rw [SectionHeader.size]; omega)).extract_eq
  have hword (start : Nat) (hstart : start + 4 ≤ SectionHeader.size) :
      wordAt data (offset + start) 4 = wordAt other (offset + start) 4 :=
    (h.mono (by omega) (by omega)).wordAt_eq
  unfold ofBytes
  simp only [hname, hword 8 (by decide), hword 12 (by decide), hword 16 (by decide),
    hword 20 (by decide), hword 36 (by decide)]

namespace ImageHeaders

/-- Where the section headers start. -/
def sectionTable (headers : ImageHeaders) : Nat :=
  optionalOffset headers.peOffset + headers.optionalSize

/-- Headers say what stands in a file. -/
structure StandIn (headers : ImageHeaders) (data : Bytes) : Prop where
  pointer : headers.peOffset = wordAt data pointerOffset 4
  below : oldHeaderSize ≤ headers.peOffset
  reserved : headers.optionalSize = wordAt data (headers.peOffset + 20) 2
  optional : headers.optional = if headers.optionalSize = 0 then none
    else some (OptionalHeader.readAt data (optionalOffset headers.peOffset))
  sections : headers.sections = (List.range (wordAt data (headers.peOffset + 6) 2)).map fun index =>
    SectionHeader.ofBytes data (headers.sectionTable + index * SectionHeader.size)

/-- The old header leads behind itself. -/
theorem facts_of_checkOldHeader {data : Bytes} {peOffset : Nat}
    (h : checkOldHeader data = .ok peOffset) :
    peOffset = wordAt data pointerOffset 4 ∧ oldHeaderSize ≤ peOffset := by
  unfold checkOldHeader at h
  obtain ⟨-, h⟩ := check_eq_ok_iff.mp h
  obtain ⟨-, h⟩ := check_eq_ok_iff.mp h
  obtain ⟨-, -, h⟩ := bind_eq_ok_iff.mp h
  obtain ⟨-, -, h⟩ := bind_eq_ok_iff.mp h
  obtain ⟨-, h⟩ := check_eq_ok_iff.mp h
  obtain ⟨-, h⟩ := check_eq_ok_iff.mp h
  obtain ⟨-, h⟩ := check_eq_ok_iff.mp h
  obtain ⟨hbelow, h⟩ := check_eq_ok_iff.mp h
  obtain rfl := Except.ok.inj h
  exact ⟨rfl, Nat.not_lt.mp hbelow⟩

/-- Section headers that were read are those that stand there. -/
theorem sections_eq_of_mapM {data : Bytes} {table count : Nat} {sections : List SectionHeader}
    (h : ((List.range count).mapM fun index => do
      checkFieldsAt data (table + index * SectionHeader.size) SectionHeader.fieldSizes
      (SectionHeader.ofBytes data (table + index * SectionHeader.size)).checkName
      return SectionHeader.ofBytes data (table + index * SectionHeader.size)) = .ok sections) :
    sections = (List.range count).map fun index =>
      SectionHeader.ofBytes data (table + index * SectionHeader.size) := by
  have hrelated : List.Forall₂ (fun index header =>
      SectionHeader.ofBytes data (table + index * SectionHeader.size) = header)
      (List.range count) sections := by
    refine (mapM_eq_ok_iff.mp h).imp fun index header hheader => ?_
    obtain ⟨-, -, hheader⟩ := bind_eq_ok_iff.mp hheader
    obtain ⟨-, -, hheader⟩ := bind_eq_ok_iff.mp hheader
    exact Except.ok.inj hheader
  exact (List.forall₂_eq_eq_eq ▸ List.forall₂_map_left_iff.mpr hrelated).symm

/-- What an optional header leads to was checked, if it leads anywhere. -/
def Checked (headers : ImageHeaders) (data : Bytes) : Prop :=
  ∀ header cli, headers.optional = some header → header.cli = some cli →
    checkCli data headers.sections header.fileAlignment.toNat cli = .ok ()

/-- Headers stand in the file when the optional header does: the section headers are read last, and
what the optional header leads to is checked with them. -/
private theorem facts_of_rest {data : Bytes} {peOffset : Nat} {optional : Option OptionalHeader}
    {headers : ImageHeaders} (hpointer : peOffset = wordAt data pointerOffset 4)
    (hbelow : oldHeaderSize ≤ peOffset)
    (hoptional : optional = if wordAt data (peOffset + 20) 2 = 0 then none
      else some (OptionalHeader.readAt data (optionalOffset peOffset)))
    (h : (do
      let count := wordAt data (peOffset + 6) 2
      let optionalSize := wordAt data (peOffset + 20) 2
      let table := optionalOffset peOffset + optionalSize
      if data.size / SectionHeader.size < count then throw (.sectionCount count)
      let sections ← (List.range count).mapM fun index => do
        let offset := table + index * SectionHeader.size
        checkFieldsAt data offset SectionHeader.fieldSizes
        let header := SectionHeader.ofBytes data offset
        header.checkName
        return header
      if let some header := optional then
        if let some cli := header.cli then
          checkCli data sections header.fileAlignment.toNat cli
      return { peOffset, optionalSize, optional, sections } : Except ImageFault ImageHeaders) =
        .ok headers) : headers.StandIn data ∧ headers.Checked data := by
  obtain ⟨-, h⟩ := check_eq_ok_iff.mp h
  obtain ⟨sections, hsections, h⟩ := bind_eq_ok_iff.mp h
  have hheaders : headers = ⟨peOffset, wordAt data (peOffset + 20) 2, optional, sections⟩ ∧
      headers.Checked data := by
    simp only at h
    split at h
    · split at h
      · next header _ cli hcli =>
        obtain ⟨⟨⟩, hcheck, h⟩ := bind_eq_ok_iff.mp h
        obtain rfl := Except.ok.inj h
        refine ⟨rfl, fun header' cli' hheader hcli' => ?_⟩
        obtain rfl := Option.some.inj hheader
        obtain rfl := Option.some.inj (hcli.symm.trans hcli')
        exact hcheck
      · next header hnone =>
        obtain rfl := Except.ok.inj h
        refine ⟨rfl, fun header' cli' hheader hcli => ?_⟩
        obtain rfl := Option.some.inj hheader
        exact absurd hcli (hnone cli')
    · next hnone =>
      obtain rfl := Except.ok.inj h
      exact ⟨rfl, fun header' _ hheader => absurd hheader (hnone header')⟩
  obtain ⟨rfl, hchecked⟩ := hheaders
  exact ⟨⟨hpointer, hbelow, rfl, hoptional, sections_eq_of_mapM hsections⟩, hchecked⟩

/-- Headers that were read stand in the file, and what they lead to was checked. -/
theorem facts_of_ofBytes {data : Bytes} {headers : ImageHeaders}
    (h : ofBytes data = .ok headers) : headers.StandIn data ∧ headers.Checked data := by
  unfold ofBytes at h
  obtain ⟨peOffset, hold, h⟩ := bind_eq_ok_iff.mp h
  obtain ⟨hpointer, hbelow⟩ := facts_of_checkOldHeader hold
  obtain ⟨-, -, h⟩ := bind_eq_ok_iff.mp h
  simp only at h
  split at h
  · next hzero => exact facts_of_rest hpointer hbelow (if_pos hzero).symm h
  · next hzero =>
    obtain ⟨optional, hoptional, h⟩ := bind_eq_ok_iff.mp h
    obtain ⟨header, hheader, rfl⟩ := map_eq_ok_iff.mp hoptional
    have hsome : some header = if wordAt data (peOffset + 20) 2 = 0 then none
        else some (OptionalHeader.readAt data (optionalOffset peOffset)) := by
      rw [if_neg hzero, OptionalHeader.eq_readAt hheader]
    exact facts_of_rest hpointer hbelow hsome h

/-- Headers that were read stand in the file. -/
theorem standIn_of_ofBytes {data : Bytes} {headers : ImageHeaders}
    (h : ofBytes data = .ok headers) : headers.StandIn data :=
  (facts_of_ofBytes h).1

/-- No address is led through sections whose raw data is aligned to anything but a power of two. -/
theorem isPowerOfTwo_of_checkCli {data : Bytes} {sections : List SectionHeader}
    {fileAlignment : Nat} {cli : Extent} (h : checkCli data sections fileAlignment cli = .ok ()) :
    fileAlignment.isPowerOfTwo := by
  obtain ⟨offset, hmapped, -⟩ := bind_eq_ok_iff.mp h
  simp only at hmapped
  split at hmapped
  · split at hmapped
    · next hpower =>
      simpa [isPowerOfTwo, Nat.ne_zero_and_sub_one_eq_zero_iff_isPowerOfTwo] using hpower
    · cases hmapped
  · cases hmapped

/-- A CLI header that is found lies in a section that has raw data, and that starts in the file. -/
theorem exists_section_of_checkCli {data : Bytes} {sections : List SectionHeader}
    {fileAlignment : Nat} {cli : Extent} (h : checkCli data sections fileAlignment cli = .ok ()) :
    ∃ header ∈ sections, header.rawSize ≠ 0 ∧ header.rawOffset.toNat ≤ data.size := by
  obtain ⟨offset, hmapped, h⟩ := bind_eq_ok_iff.mp h
  obtain ⟨_, hfields, -⟩ := bind_eq_ok_iff.mp h
  have hoffset : offset ≤ data.size := by
    unfold checkFieldsAt at hfields
    split at hfields
    · cases hfields
    · next hle => exact Nat.not_lt.mp hle
  have hsome : mapAddress? sections fileAlignment cli.rva.toNat = some offset := by
    simp only at hmapped
    split at hmapped
    · next found hfound =>
      split at hmapped
      · rw [hfound, Except.ok.inj hmapped]
      · cases hmapped
    · cases hmapped
  obtain ⟨header, hheader, rfl⟩ := Option.map_eq_some_iff.mp hsome
  refine ⟨header, List.mem_of_find?_eq_some hheader, fun hzero => ?_, by omega⟩
  have haddress := List.find?_some hheader
  simp only [Bool.and_eq_true, decide_eq_true_eq, SectionHeader.mappedSize, if_pos hzero] at haddress
  omega

end ImageHeaders

end CilPatch
