import CilPatch.Proofs.Assembly.Rewrite
import CilPatch.Proofs.Assembly.Stored

/-!
# A section apart from everything else

The section of an edited image lies behind all others and behind the file, and there is room for its
header. Every body in it and the metadata start at whole words behind its start. That their addresses
lead into its raw data takes more than is checked: the headers of the image have to end in front of
the end of its sections, and the section must not leave the address space.
-/

namespace CilPatch

open LittleEndian PatchSection

namespace PatchSection

variable {assembly : Assembly} {place : SectionPlace} {draft next last : Draft} {token : Token}
  {body : Body} {sig rva : UInt32} {size : Nat} {front encoded : List UInt8}

/-! ## Methods that lead into a section -/

/-- A method that leads to a body in the section; the body starts at whole words. -/
structure LeadsTo (place : SectionPlace) (draft : Draft) (rid : UInt32) (body : Body)
    (front encoded : List UInt8) : Prop where
  encode : ∃ sig relaxed, body.encode sig = .ok (encoded, relaxed)
  content : ∃ back, draft.content = front ++ (encoded ++ back)
  words : 4 ∣ front.length
  method : ∃ row, draft.tables.row? .methodDef rid = some row ∧
    row[MethodDefRow.rvaColumn]? = some (place.rva + UInt32.ofNat front.length)

/-- The rows of all methods have their columns. -/
def WholeMethods (tables : TableStream) : Prop :=
  ∀ rid row, tables.row? .methodDef rid = some row → row.length = TableId.methodDef.columns.length

/-- A local signature is added without touching the methods. -/
theorem row?_localSig {signed : Draft} (h : localSig assembly draft body = .ok (signed, sig))
    (rid : UInt32) : signed.tables.row? .methodDef rid = draft.tables.row? .methodDef rid := by
  rcases localSig_eq_ok h with ⟨-, rfl, -⟩ | hsigned
  · rfl
  · obtain ⟨_, _, _, _, _, _, -, -, -, hpush, rfl, -⟩ := hsigned.exists_row
    rw [TableStream.row?, TableStream.row?, TableStream.rows_push_of_ne hpush (by decide)]

/-- A body that is put into the section changes the address of its method only. -/
theorem row?_addBody (h : addBody assembly place draft token body = .ok (next, size, rva))
    (rid : UInt32) : next.tables.row? .methodDef rid =
      (draft.tables.row? .methodDef rid).map fun row =>
        if rid = token.row then row.set MethodDefRow.rvaColumn rva else row := by
  obtain ⟨signed, sig, encoded, relaxed, hsig, -, -, -, -, -, rfl⟩ := addBody_eq_ok_iff.mp h
  rw [← row?_localSig hsig]
  exact TableStream.row?_setColumn ..

/-- The rows of methods keep their columns. -/
theorem WholeMethods.addBody (hwhole : WholeMethods draft.tables)
    (h : addBody assembly place draft token body = .ok (next, size, rva)) :
    WholeMethods next.tables := by
  intro rid row hrow
  rw [row?_addBody h] at hrow
  obtain ⟨old, hold, rfl⟩ := Option.map_eq_some_iff.mp hrow
  split
  · rw [List.length_set]
    exact hwhole rid old hold
  · exact hwhole rid old hold

/-- The method of a body that is put into the section leads to it. -/
theorem exists_leadsTo_of_addBody (hwhole : WholeMethods draft.tables)
    (h : addBody assembly place draft token body = .ok (next, size, rva)) :
    ∃ front encoded, LeadsTo place next token.row body front encoded := by
  have hmethod := row?_addBody h token.row
  obtain ⟨signed, sig, encoded, relaxed, hsig, hencode, hlt, rfl, hsome, -, rfl⟩ :=
    addBody_eq_ok_iff.mp h
  rw [row?_localSig hsig] at hsome
  obtain ⟨row, hrow⟩ := Option.isSome_iff_exists.mp hsome
  rw [hrow, Option.map_some, if_pos rfl] at hmethod
  refine ⟨padTo signed.content 4, encoded, ⟨sig, relaxed, hencode⟩, ⟨[], ?_⟩,
    dvd_length_padTo_four hlt, _, hmethod, List.getElem?_set_self ?_⟩
  · rw [List.append_nil]
  · rw [hwhole _ row hrow]
    decide

/-- A method still leads to its body when a body of another method is put behind it. -/
theorem LeadsTo.addBody {rid : UInt32} {other : Body}
    (hleads : LeadsTo place draft rid body front encoded) (hne : rid ≠ token.row)
    (h : addBody assembly place draft token other = .ok (next, size, rva)) :
    LeadsTo place next rid body front encoded := by
  obtain ⟨back, hback⟩ := hleads.content
  obtain ⟨more, hmore⟩ := content_addBody h
  obtain ⟨row, hrow, hrva⟩ := hleads.method
  refine ⟨hleads.encode, ⟨back ++ more, ?_⟩, hleads.words, row, ?_, hrva⟩
  · rw [hmore, hback, List.append_assoc, List.append_assoc]
  · rw [row?_addBody h, hrow, Option.map_some, if_neg hne]

/-- A method that leads to a body still does when more bodies are put behind it, unless one of them
is a later body of that method. -/
theorem LeadsTo.addBodies {edits : List (Token × Body)} {rid : UInt32}
    (hleads : LeadsTo place draft rid body front encoded) (hwhole : WholeMethods draft.tables)
    (h : (addBodies assembly place draft edits).result = .ok last) :
    (∃ edit ∈ edits, edit.1.row = rid ∧
        ∃ front encoded, LeadsTo place last rid edit.2 front encoded) ∨
      LeadsTo place last rid body front encoded := by
  induction edits generalizing draft body front encoded with
  | nil =>
    obtain rfl := Except.ok.inj h
    exact .inr hleads
  | cons edit rest ih =>
    obtain ⟨token, other⟩ := edit
    obtain ⟨next, size, rva, hbody, hrest⟩ := addBodies_cons_eq_ok_iff.mp h
    by_cases hrow : rid = token.row
    · obtain ⟨_, _, hother⟩ := exists_leadsTo_of_addBody hwhole hbody
      rw [← hrow] at hother
      rcases ih hother (hwhole.addBody hbody) hrest with ⟨edit, hmem, hedit⟩ | hlast
      · exact .inl ⟨edit, List.mem_cons_of_mem _ hmem, hedit⟩
      · exact .inl ⟨(token, other), List.mem_cons_self, hrow.symm, _, _, hlast⟩
    · rcases ih (hleads.addBody hrow hbody) (hwhole.addBody hbody) hrest with
        ⟨edit, hmem, hedit⟩ | hlast
      · exact .inl ⟨edit, List.mem_cons_of_mem _ hmem, hedit⟩
      · exact .inr hlast

/-- The method of every body that is put into the section leads to a body of that method. -/
theorem exists_leadsTo_of_addBodies {edits : List (Token × Body)}
    (hwhole : WholeMethods draft.tables)
    (h : (addBodies assembly place draft edits).result = .ok last) :
    ∀ edit ∈ edits, ∃ other ∈ edits, other.1.row = edit.1.row ∧
      ∃ front encoded, LeadsTo place last edit.1.row other.2 front encoded := by
  induction edits generalizing draft with
  | nil => exact nofun
  | cons edit rest ih =>
    obtain ⟨token, body⟩ := edit
    obtain ⟨next, size, rva, hbody, hrest⟩ := addBodies_cons_eq_ok_iff.mp h
    refine List.forall_mem_cons.mpr ⟨?_, fun edit hmem => ?_⟩
    · obtain ⟨_, _, hfirst⟩ := exists_leadsTo_of_addBody hwhole hbody
      rcases hfirst.addBodies (hwhole.addBody hbody) hrest with ⟨other, hmem, hother⟩ | hlast
      · exact ⟨other, List.mem_cons_of_mem _ hmem, hother⟩
      · exact ⟨(token, body), List.mem_cons_self, rfl, _, _, hlast⟩
    · obtain ⟨other, hother, hleads⟩ := ih (hwhole.addBody hbody) hrest edit hmem
      exact ⟨other, List.mem_cons_of_mem _ hother, hleads⟩

/-! ## Addresses in a section -/

variable {image : Image} {header : SectionHeader} {content : List UInt8} {out : Bytes}
  {delta length : Nat}

/-- The address of some bytes in a section that is put behind the others. It is a multiple of 4 if
that of the section is, and it leads into the raw data of the section if that lies behind the headers
and within the address space. -/
structure Reaches (image : Image) (header : SectionHeader) (out : Bytes) (rva : UInt32)
    (length : Nat) : Prop where
  words : 4 ∣ header.virtualAddress.toNat → 4 ∣ rva.toNat
  raw : image.optional.headersSize.toNat ≤ header.virtualAddress.toNat →
    header.virtualAddress.toNat + header.virtualSize.toNat ≤ UInt32.size →
    ∃ offset, (image.extended out (fieldAt out image.imageSizeOffset) header).offsetOf rva.toNat =
        .ok offset ∧
      header.rawOffset.toNat ≤ offset ∧
      offset + length ≤ header.rawOffset.toNat + header.rawSize.toNat

/-- Bytes that start at whole words in the content of a section are reached there. -/
theorem reaches_of_content (hapart : Apart image place)
    (hdescribes : Describes image place content.length header)
    (hraw : content.length ≤ header.rawSize.toNat) (hwords : 4 ∣ delta)
    (hdelta : delta < content.length) (hlength : delta + length ≤ content.length) :
    Reaches image header out (place.rva + UInt32.ofNat delta) length := by
  have hfits := header.virtualSize.toNat_lt
  have haddress := hdescribes.address
  rw [hdescribes.virtualSize] at hfits
  constructor
  · intro haligned
    have hoffset : (UInt32.ofNat delta).toNat = delta :=
      UInt32.toNat_ofNat_of_lt' (by simp only [UInt32.size]; omega)
    rw [haddress] at haligned
    rw [UInt32.toNat_add, hoffset]
    omega
  · intro hheaders hends
    rw [hdescribes.virtualSize] at hends
    rw [← haddress]
    have hrva := toNat_rva_add (Nat.le_refl delta)
      (show header.virtualAddress.toNat + delta < UInt32.size by omega)
    have hbehind (other : SectionHeader) (hother : other ∈ image.sections) :
        other.virtualAddress.toNat + other.extent ≤ header.virtualAddress.toNat := by
      rw [haddress]
      exact hapart.sections other hother
    refine ⟨_, ?_, Nat.le_add_right _ delta, by omega⟩
    rw [hrva, Image.offsetOf_new (Nat.le_trans hheaders (Nat.le_add_right _ _))
      (fun other hother => Nat.le_trans (hbehind other hother) (Nat.le_add_right _ _))
      (Nat.le_add_right _ _) (by omega), Nat.add_sub_cancel_left]

end PatchSection

namespace Assembly

variable {loaded : Assembly} {data out : Bytes}

/-- The section of an image that was written, by the header that describes it. It lies apart from
everything, and so do its header and its raw data. The header stands in the section table unless
that reaches into other fields. The methods of all edited bodies lead to bodies in it, and the CLI
header leads to the metadata behind them. -/
structure SetApart (loaded : Assembly) (edits : List (Token × Body)) (place : SectionPlace)
    (draft : Draft) (metadata : List UInt8) (header : SectionHeader) (out : Bytes) : Prop where
  describes : Describes loaded.image place (padTo draft.content 4 ++ metadata).length header
  apart : Apart loaded.image place
  rawSize : loaded.image.optional.fileAlignment.toNat ∣ header.rawSize.toNat
  file : out.size = header.rawOffset.toNat + header.rawSize.toNat
  stored : loaded.image.checksumOffset + 4 ≤ loaded.image.sectionTable →
    loaded.image.sectionTableEnd + SectionHeader.size ≤ loaded.cliOffset →
    ((List.range (loaded.image.sections.length + 1)).map fun index =>
      SectionHeader.ofBytes out (loaded.image.sectionTable + index * SectionHeader.size)) =
        loaded.image.sections ++ [header] ∧
      (CliHeader.readAt out loaded.cliOffset).metadata =
        ⟨place.rva + UInt32.ofNat (padTo draft.content 4).length, UInt32.ofNat metadata.length⟩
  bodies : ∀ edit ∈ edits, ∃ other ∈ edits, other.1.row = edit.1.row ∧ ∃ front encoded,
    LeadsTo place draft edit.1.row other.2 front encoded ∧
      Reaches loaded.image header out (place.rva + UInt32.ofNat front.length) encoded.length
  metadata : Reaches loaded.image header out
    (place.rva + UInt32.ofNat (padTo draft.content 4).length) metadata.length

/-- The methods of all edited bodies lead to bodies in front of the metadata. -/
theorem Written.exists_leadsTo {edits : List (Token × Body)} {place : SectionPlace} {blobs : Bytes}
    {draft : Draft} {metadata : List UInt8} (hloaded : loaded.Loaded data)
    (hwritten : ({ loaded with edited := edits } : Assembly).Written place blobs draft metadata out)
    (edit : Token × Body) (hedit : edit ∈ edits) :
    ∃ other ∈ edits, other.1.row = edit.1.row ∧ ∃ front encoded,
      LeadsTo place draft edit.1.row other.2 front encoded ∧
        front.length + encoded.length ≤ (padTo draft.content 4).length := by
  have hwhole : WholeMethods loaded.tables := by
    obtain ⟨_, -, htables⟩ := bind_eq_ok_iff.mp hloaded.tables
    exact fun rid row hrow => (TableStream.wellFormed_of_ofBytes htables).length_row? hrow
  obtain ⟨other, hother, hsame, front, encoded, hleads⟩ :=
    exists_leadsTo_of_addBodies hwhole hwritten.added edit hedit
  obtain ⟨back, hback⟩ := hleads.content
  have hlength := congrArg List.length hback
  simp only [List.length_append] at hlength
  refine ⟨other, hother, hsame, front, encoded, hleads, ?_⟩
  rw [padTo, List.length_append]
  omega

/-- A written image has a section that is apart from everything. -/
theorem Written.exists_setApart {edits : List (Token × Body)} {place : SectionPlace} {blobs : Bytes}
    {draft : Draft} {metadata : List UInt8} (hloaded : loaded.Loaded data)
    (hmemory : data.size < 2 ^ 63)
    (hwritten : ({ loaded with edited := edits } : Assembly).Written place blobs draft metadata
      out) : ∃ header, loaded.SetApart edits place draft metadata header out := by
  obtain ⟨hdata, hstands⟩ := Image.stands_of_ofBytes hloaded.image
  obtain ⟨hcliEnd, -, -⟩ := hloaded.cli_eq
  have hpower := Image.isPowerOfTwo_fileAlignment hloaded.image
  have hfileSize := loaded.image.optional.fileAlignment.toNat_lt
  have hsize : loaded.image.size = data.size := congrArg Array.size hdata
  have hapart : Apart loaded.image place := apart_of_place hpower
    (by simp only [wordRange, UInt64.size, UInt32.size]; omega) hwritten.placed
  obtain ⟨header, dataSize, imageSize, checksum, hdescribes, hout⟩ :=
    assemble_eq_ok hwritten.assembled
  have hfits := header.virtualSize.toNat_lt
  rw [hdescribes.virtualSize] at hfits
  have hround : (padTo draft.content 4 ++ metadata).length +
      loaded.image.optional.fileAlignment.toNat ≤ wordRange := by
    simp only [wordRange, UInt64.size]
    omega
  have hraw : (padTo draft.content 4 ++ metadata).length ≤ header.rawSize.toNat := by
    rw [hdescribes.rawSize]
    exact le_alignUp hround
  have hstart : 0 < metadata.length := List.length_pos_iff.mpr (metadata_ne_nil hwritten.encoded)
  have hreaches {delta length : Nat} (hwords : 4 ∣ delta)
      (hdelta : delta < (padTo draft.content 4 ++ metadata).length)
      (hlength : delta + length ≤ (padTo draft.content 4 ++ metadata).length) :
      Reaches loaded.image header out (place.rva + UInt32.ofNat delta) length :=
    reaches_of_content hapart hdescribes hraw hwords hdelta hlength
  refine ⟨header, hdescribes, hapart, ?_, ?_, fun hfields hcli => ?_, fun edit hedit => ?_, ?_⟩
  · rw [hdescribes.rawSize]
    exact dvd_alignUp hpower hround
  · rw [hout, size_overwriteAll, hdescribes.rawOffset, hdescribes.rawSize]
    exact size_whole hapart.file (le_alignUp hround)
  · have hassembled := assembled_of_writes hdescribes hapart.file hfields hcli hcliEnd hout
    refine ⟨sections_assembled hstands hfields hassembled, ?_⟩
    rw [hassembled.readAt_cli hcli hcliEnd]
  · obtain ⟨other, hother, hsame, front, encoded, hleads, hwithin⟩ :=
      hwritten.exists_leadsTo hloaded edit hedit
    refine ⟨other, hother, hsame, front, encoded, hleads, hreaches hleads.words ?_ ?_⟩ <;>
      · rw [List.length_append]
        omega
  · refine hreaches (dvd_length_padTo_four hwritten.fits) ?_ ?_
    · rw [List.length_append]
      omega
    · rw [List.length_append]

/-! ## The section of every written image -/

/-- The image of an assembly with edited bodies has a section apart from everything else: behind all
sections and behind the file, with room for its header, and with whole words for every body and for
the metadata. It is behind the headers if they end in front of the end of the sections, and aligned
in memory if the alignment is a power of two. -/
theorem exists_setApart_of_toBytes {edits : List (Token × Body)}
    (hloaded : ofBytes data = .ok loaded) (hmemory : data.size < 2 ^ 63) (hedits : edits ≠ [])
    (hout : ({ loaded with edited := edits } : Assembly).toBytes.result = .ok out) :
    ∃ place blobs draft metadata header,
      ({ loaded with edited := edits } : Assembly).Written place blobs draft metadata out ∧
        loaded.SetApart edits place draft metadata header out := by
  rcases toBytes_eq_ok_iff.mp hout with ⟨hnone, -⟩ | ⟨-, place, blobs, draft, metadata, hwritten⟩
  · exact absurd hnone hedits
  · obtain ⟨header, hapart⟩ :=
      hwritten.exists_setApart (ofBytes_eq_ok_iff.mp hloaded) hmemory
    exact ⟨place, blobs, draft, metadata, header, hwritten, hapart⟩

/-- The section of the small image lies behind its headers and within the address space, its
address is a multiple of the alignment and of 4, and the bodies and the metadata are reached. -/
theorem exists_setApart_of_toBytes_small : ∃ out place draft metadata header,
    smallEdited.toBytes.result = .ok out ∧
      smallAssembly.SetApart smallEdits place draft metadata header out ∧
      smallAssembly.image.optional.headersSize.toNat ≤ header.virtualAddress.toNat ∧
      smallAssembly.image.optional.sectionAlignment.toNat ∣ header.virtualAddress.toNat ∧
      4 ∣ header.virtualAddress.toNat ∧
      header.virtualAddress.toNat + header.virtualSize.toNat ≤ UInt32.size := by
  obtain ⟨-, out, headers, -, hout, hparsed⟩ := exists_written_smallEdited
  obtain ⟨place, blobs, draft, metadata, header, hwritten, hapart⟩ := exists_setApart_of_toBytes
    (ofBytes_eq_ok_iff.mpr loaded_smallAssembly)
    (size_smallAssembly ▸ by decide : smallAssembly.image.size < 2 ^ 63) (List.cons_ne_nil _ _) hout
  obtain ⟨-, -, -, -, -, hends⟩ :=
    hwritten.exists_assembled loaded_smallAssembly wellFormed_smallAssembly hparsed
  have halignment : smallAssembly.image.optional.sectionAlignment.toNat ∣ place.rva.toNat :=
    hapart.apart.alignment ⟨12, rfl⟩
  refine ⟨out, place, draft, metadata, header, hout, hapart, ?_, ?_, ?_, ?_⟩
  · rw [hapart.describes.address]
    exact hapart.apart.headers (headersSize_le_imageEnd wellFormed_smallAssembly.image)
  · rwa [hapart.describes.address]
  · rw [hapart.describes.address]
    exact Nat.dvd_trans (by decide) halignment
  · rw [hapart.describes.address, hapart.describes.virtualSize]
    exact Nat.le_of_lt hends

/-! ## An image whose headers cover its section -/

/-- Bytes with a word of 16 bits written over them. -/
def withWord (bytes : List UInt8) (offset : Nat) (low high : UInt8) : List UInt8 :=
  (bytes.set offset low).set (offset + 1) high

/-- There are as many bytes as before. -/
theorem length_withWord (bytes : List UInt8) (offset : Nat) (low high : UInt8) :
    (withWord bytes offset low high).length = bytes.length := by
  rw [withWord, List.length_set, List.length_set]

/-- The headers of the small image, but they are said to take 0x4000 bytes, and the section is at the
same offset in the file as in memory. -/
def coveredHeaders : List UInt8 :=
  withWord (withWord smallHeaders 0x94 0 0x40) 0x144 0 0x10 ++ blank 0xE80

/-- An image whose headers cover its section. -/
def coveredImage : Bytes :=
  (coveredHeaders ++ (smallCli ++ (smallMetadata ++ smallBodies))).toArray

/-- The image as it is loaded. -/
def coveredAssembly : Assembly := { smallAssembly with
  image := {
    data := coveredImage
    peOffset := 0x40
    optionalSize := 0xD8
    optional := ⟨false, 0x1000, 4, 0x2000, 0x4000, some ⟨0x1000, 0x48⟩⟩
    sections := [⟨[0x2E, 0x74, 0x65, 0x78, 0x74, 0, 0, 0], 0x110, 0x1000, 0x110, 0x1000, 0x60000020⟩]
    cli := ⟨0x1000, 0x48⟩ }
  cliOffset := 0x1000 }

/-- How many bytes the headers take. -/
theorem length_coveredHeaders : coveredHeaders.length = 0x1000 := by
  rw [coveredHeaders, List.length_append, length_withWord, length_withWord, length_smallHeaders,
    blank, List.length_replicate]

/-- How long the image is. -/
theorem size_coveredAssembly : coveredAssembly.image.size = 0x1110 := by
  rw [@size_of_smallBehind coveredAssembly.image coveredHeaders rfl, length_coveredHeaders]

/-- The covered image is loaded, with the metadata of the small one. -/
theorem loaded_coveredAssembly : coveredAssembly.Loaded coveredImage :=
  @loaded_smallWith coveredAssembly.image 0x1000 coveredHeaders
    (eq_ok_of_toOption (by decide +kernel)) rfl rfl rfl length_coveredHeaders rfl rfl

/-- The covered image with the edit of the small one. -/
def coveredEdited : Assembly := { coveredAssembly with edited := smallEdits }

/-- Where the section of the written image lies: in front of where the headers are said to end. -/
def coveredPlace : SectionPlace := ⟨0x2000, 0x1110⟩

/-- The section comes behind the one that is there. -/
theorem place_coveredAssembly : place coveredAssembly.image = .ok coveredPlace :=
  place_eq_ok_iff.mpr ⟨by decide, by decide, congrArg (SectionPlace.mk 0x2000)
    (show 0x1110 = alignUp coveredAssembly.image.size 4 by rw [size_coveredAssembly]; decide)⟩

/-- The covered image is written with the edited method and with the metadata that the small one is
written with. -/
theorem exists_written_coveredEdited : ∃ metadata out, metadata.length < 0x200 ∧
    coveredEdited.Written coveredPlace smallBlobs.toArray (smallDraftAt coveredPlace)
      metadata out := by
  obtain ⟨metadata, -, hmetadata, hlength, -⟩ := exists_metadata_smallEdited
  have hfits : Fits coveredAssembly.image 0x1000 coveredPlace (smallContent metadata) :=
    fits_smallContent hlength (by decide) (by decide) (fun _ _ hlt => stop_lt hlt (by decide))
      (size_coveredAssembly ▸ by decide) (size_coveredAssembly ▸ by decide)
  exact ⟨metadata, _, hlength, written_smallEditedWith place_coveredAssembly hmetadata hfits⟩

/-- The section of the covered image lies where the headers are said to be, so that the address of
the metadata leads behind the file. -/
theorem covered_section_not_reached : ∃ out place blobs draft metadata header,
    ofBytes coveredImage = .ok coveredAssembly ∧ smallEdits ≠ [] ∧
      coveredEdited.toBytes.result = .ok out ∧
      coveredEdited.Written place blobs draft metadata out ∧
      coveredAssembly.SetApart smallEdits place draft metadata header out ∧
      header.virtualAddress.toNat < coveredAssembly.image.optional.headersSize.toNat ∧
      ∀ imageSize offset, (coveredAssembly.image.extended out imageSize header).offsetOf
          (place.rva + UInt32.ofNat (padTo draft.content 4).length).toNat = .ok offset →
        header.rawOffset.toNat + header.rawSize.toNat < offset := by
  obtain ⟨metadata, out, hlength, hwritten⟩ := exists_written_coveredEdited
  obtain ⟨header, hapart⟩ := Written.exists_setApart loaded_coveredAssembly
    (size_coveredAssembly ▸ by decide : coveredAssembly.image.size < 2 ^ 63) hwritten
  have hedited : smallEdits ≠ [] := List.cons_ne_nil _ _
  refine ⟨out, coveredPlace, smallBlobs.toArray, smallDraftAt coveredPlace, metadata, header,
    ofBytes_eq_ok_iff.mpr loaded_coveredAssembly, hedited,
    toBytes_eq_ok_iff.mpr (.inr ⟨hedited, _, _, _, _, hwritten⟩), hwritten, hapart, ?_, ?_⟩
  · rw [hapart.describes.address]
    decide
  · intro imageSize offset hoffset
    have hbodies : (padTo (smallDraftAt coveredPlace).content 4).length = 0x2C :=
      length_padTo_smallEncoded
    have haddress : (coveredPlace.rva + UInt32.ofNat 0x2C).toNat = 0x202C := rfl
    rw [hbodies, haddress] at hoffset
    have hamong : 0x202C < coveredAssembly.image.optional.headersSize.toNat := by decide
    have hself : (coveredAssembly.image.extended out imageSize header).offsetOf 0x202C =
        .ok 0x202C := Image.offsetOf_eq_ok_iff.mpr (.inl ⟨hamong, rfl⟩)
    obtain rfl := Except.ok.inj (hself.symm.trans hoffset)
    -- the section is too short to reach that far in the file
    have hraw := alignUp_le (padTo (smallDraftAt coveredPlace).content 4 ++ metadata).length
      coveredAssembly.image.optional.fileAlignment.toNat
    have hfile : coveredAssembly.image.optional.fileAlignment.toNat = 4 := rfl
    have hstart : coveredPlace.offset = 0x1110 := rfl
    rw [List.length_append, hbodies] at hraw
    rw [hapart.describes.rawOffset, hapart.describes.rawSize, List.length_append, hbodies]
    omega

end Assembly

end CilPatch
