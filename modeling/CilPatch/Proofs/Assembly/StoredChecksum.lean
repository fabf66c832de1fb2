import CilPatch.Proofs.Assembly.Separation
import CilPatch.Proofs.Image.Checksum

/-!
# The checksum that an image stores

The checksum of a new image is computed while there are zeros in its field, and then written there.
It is the one that is computed of what was written if the field is at an even offset, that is if the
new header is. Otherwise the low byte of the checksum counts in the sum, and that byte has to be zero.
-/

namespace CilPatch

open LittleEndian PatchSection

namespace PatchSection

variable {image : Image} {cliOffset : Nat} {place : SectionPlace} {content : List UInt8}

/-- The field of the checksum is zero when the checksum is computed. -/
theorem fieldAt_summed (hfits : Fits image cliOffset place content)
    (metadataRva metadataSize : UInt32) :
    fieldAt (summed image cliOffset place content metadataRva metadataSize) image.checksumOffset =
      0 := by
  refine fieldAt_of_extract (extract_overwriteAll 6 rfl ?_ ?_)
  · rw [length_u32]
    exact hfits.fields
  · simp only [unsummed, List.drop_succ_cons, List.drop_nil, untouched_nil]

/-- The checksum stands in its field. -/
theorem fieldAt_stamped (hfits : Fits image cliOffset place content)
    (metadataRva metadataSize : UInt32) :
    fieldAt (stamped image cliOffset place content metadataRva metadataSize) image.checksumOffset =
      newChecksum image cliOffset place content metadataRva metadataSize := by
  rw [stamped_eq]
  refine fieldAt_of_extract (extract_overwrite _ ?_)
  rw [length_u32, summed, size_overwriteAll]
  exact hfits.fields

/-- The checksum that was written is that of the image it was written into exactly if its field is at
an even offset or its low byte is zero. -/
theorem newChecksum_eq_iff (hfits : Fits image cliOffset place content)
    (metadataRva metadataSize : UInt32) :
    newChecksum image cliOffset place content metadataRva metadataSize = Checksum.ofBytes
        (stamped image cliOffset place content metadataRva metadataSize) image.checksumOffset ↔
      image.checksumOffset % 2 = 0 ∨
        (newChecksum image cliOffset place content metadataRva metadataSize).toNat % 256 = 0 := by
  have hzero := fieldAt_summed hfits metadataRva metadataSize
  have hstored := fieldAt_stamped hfits metadataRva metadataSize
  have hwritten := stamped_eq image cliOffset place content metadataRva metadataSize
  have hroom := hfits.fields
  have hsize : (summed image cliOffset place content metadataRva metadataSize).size =
      (whole image place content).size := size_overwriteAll _ _
  have hsum : newChecksum image cliOffset place content metadataRva metadataSize =
      Checksum.ofBytes (summed image cliOffset place content metadataRva metadataSize)
        image.checksumOffset := rfl
  generalize newChecksum image cliOffset place content metadataRva metadataSize = checksum at *
  generalize stamped image cliOffset place content metadataRva metadataSize = out at *
  generalize summed image cliOffset place content metadataRva metadataSize = before at *
  have hbefore : before.size = out.size := by rw [hwritten, size_overwrite]
  -- the two blocks differ in the field only
  have hagree := Checksum.ofBytes_eq_iff_of_agree hbefore
    (hwritten ▸ (agree_overwrite_of_le before _ (Nat.le_refl _)).symm)
    (hwritten ▸ (agree_overwrite_of_ge before _ (by rw [length_u32])).symm)
  rw [← hsum, getElem?_of_fieldAt (by omega), getElem?_of_fieldAt (by omega), hzero, hstored]
    at hagree
  rw [hagree]
  refine or_congr_right ⟨fun hbyte => ?_, fun hbyte => ?_⟩
  · have hvalue := congrArg UInt8.toNat (Option.some.inj hbyte)
    rw [UInt8.toNat_ofNat'] at hvalue
    exact hvalue.symm
  · refine congrArg some (UInt8.toNat_inj.mp ?_)
    rw [UInt8.toNat_ofNat']
    exact hbyte.symm

/-- The checksum of an image whose fields are laid over it. -/
theorem toNat_newChecksum (htable : image.sectionTableEnd + SectionHeader.size ≤ image.size)
    (hfields : image.checksumOffset + 4 ≤ image.sectionTableEnd)
    (hcli : cliOffset + CliHeader.metadataOffset + 8 ≤ image.size)
    (metadataRva metadataSize : UInt32) :
    (newChecksum image cliOffset place content metadataRva metadataSize).toNat =
      Checksum.folded (Checksum.weigh (Checksum.sumWeight image.checksumOffset) 0
        (overlayAll (wholeBytes image place content) (unsummed image cliOffset place content.length
          (saturatingAdd (fieldAt image.data image.dataSizeOffset)
            (newHeader image place content.length).rawSize) metadataRva metadataSize)) +
        (wholeBytes image place content).length) := by
  have hdata : image.dataSizeOffset + 4 ≤ image.sectionTableEnd := by
    simp only [Image.dataSizeOffset, Image.checksumOffset] at *
    omega
  have hlaid : summed image cliOffset place content metadataRva metadataSize = _ :=
    overwriteAll_whole fun write hwrite => @within_writes _ _ _ _ _ _ _ _ 0 htable (by omega) hcli
      write (List.mem_append_left [(image.checksumOffset, LittleEndian.u32 0)] hwrite)
  have hsize : (summed image cliOffset place content metadataRva metadataSize).size =
      (wholeBytes image place content).length := by
    rw [summed, size_overwriteAll, whole_eq_toArray, List.size_toArray]
  rw [newDataSize_eq hdata (by omega)] at hlaid
  rw [newChecksum, Checksum.toNat_ofBytes, hsize, hlaid]

end PatchSection

namespace Assembly

/-! ## Which images verify -/

/-- Blocks that differ in the field of the checksum only have the same one exactly if the field is at
an even offset or its first byte is the same in both. So the image of an assembly with edited bodies
stores its own checksum exactly if its new header is at an even offset, or the low byte of the
checksum is zero. -/
theorem storedChecksum_verifies_iff (data : Bytes) :
    (∀ (other : Bytes) (field : Nat), data.size = other.size → Agree data other 0 field →
      Agree data other (field + 4) data.size →
      (Checksum.ofBytes data field = Checksum.ofBytes other field ↔
        field % 2 = 0 ∨ data[field]? = other[field]?)) ∧
    ∀ (loaded : Assembly) (edits : List (Token × Body)) (out : Bytes),
      ofBytes data = .ok loaded → edits ≠ [] →
      ({ loaded with edited := edits } : Assembly).toBytes.result = .ok out →
      (fieldAt out loaded.image.checksumOffset =
          Checksum.ofBytes out loaded.image.checksumOffset ↔
        loaded.image.peOffset % 2 = 0 ∨
          (fieldAt out loaded.image.checksumOffset).toNat % 256 = 0) := by
  refine ⟨fun other field => Checksum.ofBytes_eq_iff_of_agree, ?_⟩
  intro loaded edits out hloaded hedits hout
  rcases toBytes_eq_ok_iff.mp hout with ⟨hnone, -⟩ | ⟨-, place, blobs, draft, metadata, hwritten⟩
  · exact absurd hnone hedits
  · obtain ⟨hfits, hstamped⟩ := assemble_eq_ok_iff.mp hwritten.assembled
    have hparity : loaded.image.checksumOffset % 2 = loaded.image.peOffset % 2 := by
      simp only [Image.checksumOffset, Image.optionalOffset, ImageHeaders.optionalOffset]
      omega
    rw [hstamped, fieldAt_stamped hfits, ← hparity]
    exact newChecksum_eq_iff hfits _ _

/-- The small image is written with a checksum that verifies. -/
theorem storedChecksum_verifies_small : ∃ out, ofBytes smallImage = .ok smallAssembly ∧
    smallEdits ≠ [] ∧ smallEdited.toBytes.result = .ok out ∧
    fieldAt out smallAssembly.image.checksumOffset =
      Checksum.ofBytes out smallAssembly.image.checksumOffset := by
  obtain ⟨-, out, -, -, hout, -⟩ := exists_written_smallEdited
  have hloaded := ofBytes_eq_ok_iff.mpr loaded_smallAssembly
  have hedits : smallEdits ≠ [] := List.cons_ne_nil _ _
  exact ⟨out, hloaded, hedits, hout,
    ((storedChecksum_verifies_iff smallImage).2 smallAssembly smallEdits out hloaded hedits hout).mpr
      (.inl rfl)⟩

/-! ## An image whose new header is at an odd offset -/

/-- The headers of the small image with one more byte in front of the new header. -/
def oddHeaders : List UInt8 :=
  withWord (withWord ((smallHeaders.set 0x3C 0x41).take 0x40 ++ 0 :: smallHeaders.drop 0x40)
    0x95 0x84 1) 0x145 0x84 1 ++ blank 3

/-- What their image is loaded as. -/
def oddImage : Image where
  data := smallBehind oddHeaders
  peOffset := 0x41
  optionalSize := 0xD8
  optional := ⟨false, 0x1000, 4, 0x2000, 0x184, some ⟨0x1000, 0x48⟩⟩
  sections := [⟨[0x2E, 0x74, 0x65, 0x78, 0x74, 0, 0, 0], 0x110, 0x1000, 0x110, 0x184, 0x60000020⟩]
  cli := ⟨0x1000, 0x48⟩

/-- How many bytes the headers take. -/
theorem length_oddHeaders : oddHeaders.length = 0x184 := by
  simp only [oddHeaders, blank, length_withWord, List.length_append, List.length_cons,
    List.length_take, List.length_drop, List.length_set, List.length_replicate,
    length_smallHeaders]
  rfl

/-- How long the image is. -/
theorem size_oddImage : oddImage.size = 0x294 := by
  rw [@size_of_smallBehind oddImage oddHeaders rfl, length_oddHeaders]

/-- The image is loaded. -/
theorem loaded_oddImage : (smallWith oddImage 0x184).Loaded (smallBehind oddHeaders) :=
  loaded_smallWith (eq_ok_of_toOption (by decide +kernel)) rfl rfl rfl length_oddHeaders rfl rfl

/-- Where the section of the written image lies. -/
def oddPlace : SectionPlace := ⟨0x2000, 0x294⟩

/-- The section comes behind the one that is there. -/
theorem place_oddImage : PatchSection.place oddImage = .ok oddPlace :=
  place_eq_ok_iff.mpr ⟨by decide, by decide,
    congrArg (SectionPlace.mk 0x2000)
      (show 0x294 = alignUp oddImage.size 4 by rw [size_oddImage]; decide)⟩

/-- The metadata are short, and the checksum of what is written with them does not end with a zero
byte. -/
theorem exists_metadata_oddImage : ∃ metadata,
    PatchSection.metadata smallEdited (smallWidened oddPlace) = .ok metadata ∧
      metadata.length < 0x200 ∧
      (newChecksum oddImage 0x184 oddPlace (smallContent metadata) (oddPlace.rva + 0x2C)
        (UInt32.ofNat metadata.length)).toNat % 256 ≠ 0 := by
  obtain ⟨metadata, hmetadata, htest⟩ := exists_of_toOption_any
    (show (PatchSection.metadata smallEdited (smallWidened oddPlace)).toOption.any
      (fun metadata => decide (metadata.length < 0x200 ∧
        Checksum.folded (Checksum.weigh (Checksum.sumWeight oddImage.checksumOffset) 0
          (overlayAll (wholeBytes oddImage oddPlace (smallContent metadata))
            (unsummed oddImage 0x184 oddPlace (smallContent metadata).length
              (saturatingAdd (fieldAt oddImage.data oddImage.dataSizeOffset)
                (newHeader oddImage oddPlace (smallContent metadata).length).rawSize)
              (oddPlace.rva + 0x2C) (UInt32.ofNat metadata.length))) +
          (wholeBytes oddImage oddPlace (smallContent metadata)).length) % 256 ≠ 0)) = true
      by decide +kernel)
  obtain ⟨hlength, hbyte⟩ := of_decide_eq_true htest
  refine ⟨metadata, hmetadata, hlength, ?_⟩
  rwa [toNat_newChecksum (size_oddImage ▸ by decide) (by decide) (size_oddImage ▸ by decide)]

/-- The image with the odd new header is written with a checksum that is not its own. -/
theorem odd_checksum_not_verified : ∃ out,
    ofBytes (smallBehind oddHeaders) = .ok (smallWith oddImage 0x184) ∧ smallEdits ≠ [] ∧
      (smallEditedWith oddImage 0x184).toBytes.result = .ok out ∧
      fieldAt out oddImage.checksumOffset ≠ Checksum.ofBytes out oddImage.checksumOffset := by
  obtain ⟨metadata, hmetadata, hlength, hbyte⟩ := exists_metadata_oddImage
  have hfits : Fits oddImage 0x184 oddPlace (smallContent metadata) :=
    fits_smallContent hlength (by decide) (by decide) (fun _ _ hlt => stop_lt hlt (by decide))
      (size_oddImage ▸ by decide) (size_oddImage ▸ by decide)
  have hwritten := written_smallEditedWith place_oddImage hmetadata hfits
  have hedits : smallEdits ≠ [] := List.cons_ne_nil _ _
  refine ⟨_, ofBytes_eq_ok_iff.mpr loaded_oddImage, hedits,
    toBytes_eq_ok_iff.mpr (.inr ⟨hedits, _, _, _, _, hwritten⟩), fun hverified => ?_⟩
  rw [smallStamped, fieldAt_stamped hfits] at hverified
  rcases (newChecksum_eq_iff hfits _ _).mp hverified with heven | hzero
  · exact absurd heven (by decide)
  · exact hbyte hzero

end Assembly

end CilPatch
