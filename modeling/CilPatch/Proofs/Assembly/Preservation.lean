import CilPatch.Proofs.Assembly.Separation
import CilPatch.Proofs.Patch.Failure

/-!
# What a new image keeps of the old one

A few fields of the headers are written over, and so is the place of the metadata in the CLI header.
Everything else of the new image is the old one, zeros up to the new section, the section and zeros up
to its raw size. The section holds the edited bodies in the order of their methods, each at whole
words, and the metadata behind them.
-/

namespace CilPatch

open LittleEndian PatchSection

/-! ## The order of edits -/

namespace Assembly

/-- Edits are in the order of their methods, one for each. -/
def Ascending (edits : List (Token × Body)) : Prop :=
  edits.Pairwise fun first second => first.1.value < second.1.value

/-- A list of edits has a body that is put into it and the bodies that it had. -/
theorem mem_insertBody {token : Token} {body : Body} {edits : List (Token × Body)}
    {edit : Token × Body} (h : edit ∈ insertBody token body edits) :
    edit = (token, body) ∨ edit ∈ edits := by
  induction edits with
  | nil => exact .inl (List.mem_singleton.mp h)
  | cons first rest ih =>
    obtain ⟨other, stored⟩ := first
    rw [insertBody] at h
    split at h
    · exact List.mem_cons.mp h
    · split at h
      · exact (List.mem_cons.mp h).imp_right (List.mem_cons_of_mem _)
      · rcases List.mem_cons.mp h with rfl | hrest
        · exact .inr List.mem_cons_self
        · exact (ih hrest).imp_right (List.mem_cons_of_mem _)

/-- A body is put where its method comes in order. -/
theorem Ascending.insertBody {edits : List (Token × Body)} (h : Ascending edits) (token : Token)
    (body : Body) : Ascending (insertBody token body edits) := by
  induction edits with
  | nil => exact List.pairwise_singleton _ _
  | cons first rest ih =>
    obtain ⟨other, stored⟩ := first
    obtain ⟨hfirst, hrest⟩ := List.pairwise_cons.mp h
    rw [Assembly.insertBody]
    split
    · next hbelow =>
      refine List.pairwise_cons.mpr ⟨List.forall_mem_cons.mpr ⟨hbelow, fun edit hedit => ?_⟩, h⟩
      exact UInt32.lt_trans hbelow (hfirst edit hedit)
    · next hnot =>
      split
      · next hsame =>
        subst hsame
        exact List.pairwise_cons.mpr ⟨hfirst, hrest⟩
      · next hother =>
        have habove : other.value < token.value := by
          refine UInt32.lt_of_le_of_ne (UInt32.not_lt.mp hnot) fun hvalue => hother ?_
          cases token
          cases other
          exact congrArg Token.mk hvalue.symm
        refine List.pairwise_cons.mpr ⟨fun edit hedit => ?_, ih hrest⟩
        rcases mem_insertBody hedit with rfl | hedit
        · exact habove
        · exact hfirst edit hedit

/-- An assembly in which methods were edited one after another. -/
def edit (assembly : Assembly) (changes : List (Token × Body)) : Assembly :=
  changes.foldl (fun assembly change => assembly.setBody change.1 change.2) assembly

/-- Editing changes nothing but the edited bodies, and keeps them in order. -/
theorem edit_facts {assembly : Assembly} (h : Ascending assembly.edited)
    (changes : List (Token × Body)) :
    assembly.edit changes = { assembly with edited := (assembly.edit changes).edited } ∧
      Ascending (assembly.edit changes).edited := by
  induction changes generalizing assembly with
  | nil => exact ⟨rfl, h⟩
  | cons change rest ih =>
    have hnext : Ascending (assembly.setBody change.1 change.2).edited := h.insertBody _ _
    exact ih hnext

/-- An assembly in which a method was edited has an edited body. -/
theorem edited_edit_ne_nil (assembly : Assembly) {changes : List (Token × Body)}
    (h : assembly.edited ≠ [] ∨ changes ≠ []) : (assembly.edit changes).edited ≠ [] := by
  induction changes generalizing assembly with
  | nil => exact h.resolve_right fun hnil => hnil rfl
  | cons change rest ih =>
    refine ih (assembly.setBody change.1 change.2) (.inl ?_)
    rw [setBody, ← List.length_pos_iff]
    cases assembly.edited with
    | nil => exact Nat.one_pos
    | cons first others =>
      rw [Assembly.insertBody]
      split
      · exact Nat.succ_pos _
      · split <;> exact Nat.succ_pos _

end Assembly

namespace PatchSection

/-! ## Blocks in a section -/

/-- Blocks of bytes that are stored one behind another, each at whole words, with no more zeros in
front of it than that takes. -/
inductive Stacked : List (List UInt8) → List UInt8 → Prop
  | nil : Stacked [] []
  | snoc {blocks : List (List UInt8)} {content : List UInt8} (block : List UInt8) {gap : Nat}
      (hblocks : Stacked blocks content) (hgap : gap < 4) (hwords : 4 ∣ content.length + gap) :
      Stacked (blocks ++ [block]) (content ++ (List.replicate gap 0 ++ block))

/-- The stored form of an edited body: with its own local signature if no variables were added to it,
otherwise with a new one. -/
def Encodes (edit : Token × Body) (encoded : List UInt8) : Prop :=
  ∃ sig relaxed, edit.2.encode sig = .ok (encoded, relaxed) ∧
    (edit.2.added = [] ∧ sig = edit.2.localSig ∨
      edit.2.added ≠ [] ∧ ∃ rid, sig = (Token.ofRow .standAloneSig rid).value)

variable {assembly : Assembly} {place : SectionPlace} {draft next last : Draft} {token : Token}
  {body : Body} {rva : UInt32} {size : Nat} {blocks : List (List UInt8)} {content : List UInt8}

/-- A block that is put behind padded blocks is stacked on them. -/
theorem Stacked.padTo (h : Stacked blocks content) (hfits : (padTo content 4).length < UInt32.size)
    (block : List UInt8) : Stacked (blocks ++ [block]) (CilPatch.padTo content 4 ++ block) := by
  have hgap := alignUp_le content.length 4
  have hwords := dvd_length_padTo_four hfits
  rw [CilPatch.padTo, padding, List.length_append, List.length_replicate] at hwords
  rw [CilPatch.padTo, List.append_assoc]
  exact .snoc block h (by omega) hwords

/-- A body that is put into the section is stacked on those that are there. -/
theorem Stacked.addBody (h : Stacked blocks draft.content)
    (hbody : addBody assembly place draft token body = .ok (next, size, rva)) :
    ∃ encoded, Encodes (token, body) encoded ∧ Stacked (blocks ++ [encoded]) next.content := by
  obtain ⟨signed, sig, encoded, relaxed, hsig, hencode, hlt, -, -, -, rfl⟩ :=
    addBody_eq_ok_iff.mp hbody
  have hcontent := content_localSig hsig
  refine ⟨encoded, ⟨sig, relaxed, hencode, ?_⟩, ?_⟩
  · rcases localSig_eq_ok hsig with ⟨hnone, -, hsame⟩ | hsigned
    · exact .inl ⟨hnone, hsame⟩
    · obtain ⟨_, _, _, _, _, rid, -, -, -, -, -, hrid⟩ := hsigned.exists_row
      exact .inr ⟨hsigned.added, rid, hrid⟩
  · rw [← hcontent] at h
    exact h.padTo hlt encoded

/-- Bodies are stacked in the section in the order in which they are put there. -/
theorem Stacked.addBodies {edits : List (Token × Body)} (h : Stacked blocks draft.content)
    (hbodies : (addBodies assembly place draft edits).result = .ok last) :
    ∃ encoded, List.Forall₂ Encodes edits encoded ∧ Stacked (blocks ++ encoded) last.content := by
  induction edits generalizing draft blocks with
  | nil =>
    obtain rfl := Except.ok.inj hbodies
    exact ⟨[], .nil, by rwa [List.append_nil]⟩
  | cons edit rest ih =>
    obtain ⟨token, body⟩ := edit
    obtain ⟨next, size, rva, hbody, hrest⟩ := addBodies_cons_eq_ok_iff.mp hbodies
    obtain ⟨first, hfirst, hstacked⟩ := h.addBody hbody
    obtain ⟨others, hothers, hlast⟩ := ih hstacked hrest
    refine ⟨first :: others, .cons hfirst hothers, ?_⟩
    rwa [List.append_assoc, List.singleton_append] at hlast

/-! ## Fields that are written over -/

/-- The fields that are written over, with their sizes: the room for the header of the section, the
number of sections, the size of the initialized data, the size of the image, the checksum, and the
place of the metadata. -/
def rewrittenFields (image : Image) (cliOffset : Nat) : List (Nat × Nat) :=
  [(image.sectionTableEnd, SectionHeader.size), (image.sectionCountOffset, 2),
    (image.dataSizeOffset, 4), (image.imageSizeOffset, 4), (image.checksumOffset, 4),
    (cliOffset + CliHeader.metadataOffset, 8)]

/-- An offset lies in one of some fields. -/
def LiesIn (fields : List (Nat × Nat)) (index : Nat) : Prop :=
  ∃ field ∈ fields, field.1 ≤ index ∧ index < field.1 + field.2

/-- A new image that keeps the old one: outside of the fields that are written over it is the old one,
zeros up to the section, its content, and zeros up to its raw size. The header that says so is written
behind the old ones, where there is room for it in the old file. -/
structure Preserved (image : Image) (cliOffset : Nat) (place : SectionPlace)
    (content : List UInt8) (header : SectionHeader) (out : Bytes) : Prop where
  describes : Describes image place content.length header
  behind : image.size ≤ header.rawOffset.toNat
  room : content.length ≤ header.rawSize.toNat
  size : out.size = header.rawOffset.toNat + header.rawSize.toNat
  kept : ∀ index, ¬LiesIn (rewrittenFields image cliOffset) index →
    out[index]? = (image.data ++ (Array.replicate (header.rawOffset.toNat - image.size) 0 ++
      (content.toArray ++ Array.replicate (header.rawSize.toNat - content.length) 0)))[index]?
  slot : image.sectionTableEnd + SectionHeader.size ≤ image.size
  recorded : ∀ delta, delta < SectionHeader.size →
    ¬LiesIn (rewrittenFields image cliOffset).tail (image.sectionTableEnd + delta) →
    out[image.sectionTableEnd + delta]? = header.encode[delta]?

variable {image : Image} {cliOffset : Nat} {header : SectionHeader} {out : Bytes}

/-- Nothing is written to an offset that lies in none of the fields. -/
theorem untouched_writes_of_not_liesIn {name : List UInt8} {index : Nat}
    {dataSize imageSize metadataRva metadataSize checksum : UInt32}
    (hlength : name.length = SectionHeader.size)
    (h : ¬LiesIn (rewrittenFields image cliOffset) index) :
    Untouched (writes image cliOffset name dataSize imageSize metadataRva metadataSize checksum)
      index (index + 1) := by
  simp only [LiesIn, rewrittenFields, List.exists_mem_cons_iff, List.not_mem_nil, false_and,
    exists_false, or_false, not_or] at h
  exact untouched_writes hlength (by omega) (by omega) (by omega) (by omega) (by omega) (by omega)

/-- The header of the section is read from its room if no other field lies there. -/
theorem Preserved.ofBytes_eq (h : Preserved image cliOffset place content header out)
    (hapart : ∀ delta, delta < SectionHeader.size →
      ¬LiesIn (rewrittenFields image cliOffset).tail (image.sectionTableEnd + delta)) :
    SectionHeader.ofBytes out image.sectionTableEnd = header := by
  have hname : header.name.length = 8 := by
    rw [h.describes.name]
    rfl
  refine SectionHeader.ofBytes_of_extract hname (Array.ext_getElem? fun delta => ?_)
  have hbytes : header.encode.toArray[delta]? = header.encode[delta]? := List.getElem?_toArray
  rw [getElem?_extract_eq, Nat.add_sub_cancel_left, hbytes]
  split
  · next hlt => exact h.recorded delta hlt (hapart delta hlt)
  · next hle =>
    rw [List.getElem?_eq_none_iff.mpr]
    rw [SectionHeader.length_encode hname]
    exact Nat.not_lt.mp hle

end PatchSection

namespace Assembly

variable {loaded : Assembly} {data out : Bytes} {edits changes : List (Token × Body)}
  {place : SectionPlace} {blobs : Bytes} {draft : Draft} {metadata : List UInt8}

/-- A written image keeps the old one. -/
theorem Written.exists_preserved (hloaded : loaded.Loaded data) (hmemory : data.size < 2 ^ 63)
    (hwritten : ({ loaded with edited := edits } : Assembly).Written place blobs draft metadata
      out) : ∃ header, Preserved loaded.image loaded.cliOffset place
        (padTo draft.content 4 ++ metadata) header out := by
  obtain ⟨hdata, -⟩ := Image.stands_of_ofBytes hloaded.image
  obtain ⟨first, hmem, hraw, hstart⟩ := Image.exists_section_of_ofBytes hloaded.image
  have hpower := Image.isPowerOfTwo_fileAlignment hloaded.image
  have halignment := loaded.image.optional.fileAlignment.toNat_lt
  have hsize : loaded.image.size = data.size := congrArg Array.size hdata
  have hapart : Apart loaded.image place := apart_of_place hpower
    (by simp only [wordRange, UInt64.size, UInt32.size]; omega) hwritten.placed
  have hslot := hapart.raw first hmem hraw
  obtain ⟨header, dataSize, imageSize, checksum, hdescribes, hout⟩ :
      ∃ header dataSize imageSize checksum,
        Describes loaded.image place (padTo draft.content 4 ++ metadata).length header ∧
        out = overwriteAll (whole loaded.image place (padTo draft.content 4 ++ metadata))
          (writes loaded.image loaded.cliOffset header.encode dataSize imageSize
            (place.rva + UInt32.ofNat (padTo draft.content 4).length)
            (UInt32.ofNat metadata.length) checksum) := assemble_eq_ok hwritten.assembled
  have hname : header.name.length = 8 := by
    rw [hdescribes.name]
    rfl
  have hlength := SectionHeader.length_encode hname
  have hfits := header.virtualSize.toNat_lt
  rw [hdescribes.virtualSize] at hfits
  have hround : (padTo draft.content 4 ++ metadata).length ≤ header.rawSize.toNat := by
    rw [hdescribes.rawSize]
    exact le_alignUp (by simp only [wordRange, UInt64.size]; omega)
  have hwhole : (whole loaded.image place (padTo draft.content 4 ++ metadata)).size =
      header.rawOffset.toNat + header.rawSize.toNat := by
    rw [hdescribes.rawOffset, hdescribes.rawSize]
    exact size_whole hapart.file (by rwa [← hdescribes.rawSize])
  have hfile := hapart.file
  rw [← hdescribes.rawOffset] at hfile
  refine ⟨header, hdescribes, hfile, hround, ?_, fun index hindex => ?_, by omega,
    fun delta hdelta hother => ?_⟩
  · rw [hout, size_overwriteAll, hwhole]
  · rw [hout, hdescribes.rawOffset, hdescribes.rawSize]
    exact agree_overwriteAll _ (untouched_writes_of_not_liesIn hlength hindex) index
      (Nat.le_refl _) (Nat.lt_succ_self _)
  · rw [hout]
    refine getElem?_overwriteAll 0 rfl (by rwa [hlength]) (by omega) ?_
    simp only [LiesIn, rewrittenFields, List.tail_cons, List.exists_mem_cons_iff, List.not_mem_nil,
      false_and, exists_false, or_false, not_or] at hother
    simp only [writes, List.drop_succ_cons, List.drop_zero, untouched_cons, untouched_nil, and_true,
      length_u16, length_u32]
    omega

/-- The image of an assembly with edited bodies keeps the image that was loaded: outside of the fields
that are written over it is the old image, then zeros, then the bodies in the order of their methods,
each at whole words, and the metadata, then zeros up to the raw size of the section. -/
theorem exists_preserved_of_toBytes (hloaded : ofBytes data = .ok loaded)
    (hmemory : data.size < 2 ^ 63) (hchanges : changes ≠ [])
    (hout : (loaded.edit changes).toBytes.result = .ok out) :
    ∃ place blobs draft metadata encoded header,
      (loaded.edit changes).Written place blobs draft metadata out ∧
        loaded.image.data = data ∧
        Ascending (loaded.edit changes).edited ∧
        List.Forall₂ Encodes (loaded.edit changes).edited encoded ∧
        Stacked (encoded ++ [metadata]) (padTo draft.content 4 ++ metadata) ∧
        Preserved loaded.image loaded.cliOffset place (padTo draft.content 4 ++ metadata) header
          out := by
  have hloaded' := ofBytes_eq_ok_iff.mp hloaded
  obtain ⟨hdata, -⟩ := Image.stands_of_ofBytes hloaded'.image
  have hnone : Ascending loaded.edited := by
    rw [hloaded'.edited]
    exact List.Pairwise.nil
  obtain ⟨hedited, hascending⟩ := edit_facts hnone changes
  rcases toBytes_eq_ok_iff.mp hout with ⟨hnil, -⟩ | ⟨-, place, blobs, draft, metadata, hwritten⟩
  · exact absurd hnil (loaded.edited_edit_ne_nil (.inr hchanges))
  · obtain ⟨encoded, hencoded, hstacked⟩ := Stacked.nil.addBodies hwritten.added
    have hplain := hwritten
    rw [hedited] at hplain
    obtain ⟨header, hpreserved⟩ := hplain.exists_preserved hloaded' hmemory
    exact ⟨place, blobs, draft, metadata, encoded, header, hwritten, hdata, hascending, hencoded,
      hstacked.padTo hwritten.fits metadata, hpreserved⟩

/-- The small image is kept when its first method is edited. -/
theorem exists_preserved_of_toBytes_small :
    ∃ (out : Bytes) (place : SectionPlace) (draft : Draft) (metadata : List UInt8)
      (header : SectionHeader), ofBytes smallImage = .ok smallAssembly ∧
      smallImage.size < 2 ^ 63 ∧ smallEdits ≠ [] ∧
      (smallAssembly.edit smallEdits).toBytes.result = .ok out ∧
      Preserved smallAssembly.image smallAssembly.cliOffset place
        (padTo draft.content 4 ++ metadata) header out := by
  obtain ⟨-, out, -, -, hout, -⟩ := exists_written_smallEdited
  have hloaded := ofBytes_eq_ok_iff.mpr loaded_smallAssembly
  have hmemory : smallAssembly.image.size < 2 ^ 63 := by
    rw [size_smallAssembly]
    decide
  have hedits : smallEdits ≠ [] := List.cons_ne_nil _ _
  obtain ⟨place, blobs, draft, metadata, encoded, header, -, -, -, -, -, hpreserved⟩ :=
    exists_preserved_of_toBytes hloaded hmemory hedits hout
  exact ⟨out, place, draft, metadata, header, hloaded, hmemory, hedits, hout, hpreserved⟩

end Assembly

end CilPatch
