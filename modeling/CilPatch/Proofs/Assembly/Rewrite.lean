import CilPatch.Proofs.Assembly.Loading
import CilPatch.Proofs.Assembly.Section
import CilPatch.Proofs.Assembly.Types
import CilPatch.Proofs.Method.Body

/-!
# An image that was written is loaded again

The new image holds everything that the old one held, at the same offsets and addresses, and behind
it a section with the new bodies and the new metadata. Only the headers say something else, so every
part of the new image is found where the old one led to it, the tables and the heaps in the new
section. A small image with one type stands behind the theorem, as one that everything holds of.
-/

namespace CilPatch

open LittleEndian PatchSection

namespace Assembly

variable {loaded assembly : Assembly} {data out : Bytes}

/-- What a rewritten image needs of the one that was loaded. -/
structure WellFormed (assembly : Assembly) : Prop where
  image : assembly.image.WellFormed
  cli : assembly.image.Holds assembly.cliOffset (assembly.cliOffset + CliHeader.length)
  version : assembly.root.versionRaw.length % 4 = 0

/-- The CLI header of a loaded image says what stands in the file. -/
theorem Loaded.cli_eq (h : loaded.Loaded data) :
    loaded.cliOffset + CliHeader.length ≤ loaded.image.size ∧
      loaded.cli = CliHeader.readAt loaded.image.data loaded.cliOffset ∧
      loaded.cli.size.toNat = CliHeader.length := by
  obtain ⟨bytes, hbytes, hcli⟩ := bind_eq_ok_iff.mp h.cli
  obtain ⟨hroom, rfl⟩ := Image.slice_eq_ok_iff.mp hbytes
  obtain ⟨-, hread, hsize, -⟩ := CliHeader.parse_read_eq_ok_iff.mp hcli
  rw [CliHeader.readAt_extract] at hread
  exact ⟨hroom, hread, hsize⟩

/-- What the headers of a new image say of its sections: the old ones are there, and what is behind
them ends within the address space. -/
structure Parsed (image : Image) (out : Bytes) (headers : ImageHeaders) : Prop where
  read : ImageHeaders.ofBytes out = .ok headers
  stored : image.sections.length ≤ headers.sections.length
  ends : ∀ header ∈ headers.sections.drop image.sections.length,
    header.virtualAddress.toNat + header.virtualSize.toNat < UInt32.size

section Rewriting

variable {edits : List (Token × Body)} {place : SectionPlace} {blobs : Bytes} {draft : Draft}
  {metadata : List UInt8} {headers : ImageHeaders}

/-- A CLI header in the raw data of a section stands behind the new section header. -/
theorem WellFormed.le_cliOffset (h : assembly.WellFormed) (hplaced : Placed assembly.image place) :
    assembly.image.sectionTableEnd + SectionHeader.size ≤ assembly.cliOffset := by
  obtain ⟨header, hmem, hstart, hlt, hstop⟩ := h.cli
  refine Nat.le_trans (hplaced.raw header hmem fun hzero => ?_) hstart
  rw [hzero, UInt32.toNat_zero] at hstop
  omega

/-- A written image is the old one with a section. -/
theorem Written.exists_assembled (hloaded : loaded.Loaded data) (hwell : loaded.WellFormed)
    (hwritten : ({ loaded with edited := edits } : Assembly).Written place blobs draft metadata out)
    (hparsed : Parsed loaded.image out headers) :
    ∃ header imageSize, Placed loaded.image place ∧
      Assembled loaded.image loaded.cliOffset place (padTo draft.content 4 ++ metadata)
        (place.rva + UInt32.ofNat (padTo draft.content 4).length) (UInt32.ofNat metadata.length)
        header out ∧
      Image.ofBytes out = .ok (loaded.image.extended out imageSize header) ∧
      place.rva.toNat + (padTo draft.content 4 ++ metadata).length < UInt32.size := by
  have hplaced := placed_of_place hwell.image hwritten.placed
  obtain ⟨hdata, hstands⟩ := Image.stands_of_ofBytes hloaded.image
  obtain ⟨hroom, -, -⟩ := hloaded.cli_eq
  obtain ⟨header, hassembled⟩ := assembled_of_assemble hwell.image hplaced
    (hwell.le_cliOffset hplaced) hroom hwritten.assembled
  obtain ⟨hsections, imageSize, himage⟩ :=
    ofBytes_assembled hstands hwell.image hassembled hparsed.read hparsed.stored
  refine ⟨header, imageSize, hplaced, hassembled, himage, ?_⟩
  have hends := hparsed.ends header
    (by rw [hsections, List.drop_left]; exact List.mem_singleton_self _)
  rwa [hassembled.address, hassembled.virtualSize] at hends

/-- A root that was found again with new headers: under each name it has what was written for that
name, padded to whole words. -/
structure Carries (assembly : Assembly) (draft : Draft) (root : MetadataRoot) (metadata : Bytes) :
    Prop where
  tables : ∃ bytes, draft.tables.encode = .ok bytes ∧
    root.streamData metadata "#~" = .ok (padTo bytes 4).toArray
  blobs : root.streamData metadata "#Blob" = .ok (padTo draft.blobs.toList 4).toArray
  others : ∀ name, name ≠ "#~" → name ≠ "#Blob" → ∀ content, assembly.stream name = .ok content →
    root.streamData metadata name = .ok (padTo content.toList 4).toArray
  compressed : root.stream? "#-" = none

/-- Padding a block puts something behind it. -/
theorem toArray_padTo (content : Bytes) :
    (padTo content.toList 4).toArray = content ++ (padding content.size 4).toArray := by
  apply Array.ext'
  simp [padTo]

/-- A stream is no larger than its header can say. -/
theorem size_lt_of_stream {name : String} {content : Bytes}
    (h : assembly.stream name = .ok content) : content.size < UInt32.size := by
  unfold stream MetadataRoot.streamData at h
  split at h
  · cases h
  · next header _ =>
    simp only at h
    split at h
    · cases h
    · obtain rfl := Except.ok.inj h
      have hlt := header.size.toNat_lt
      rw [Array.size_extract, UInt32.size]
      omega

/-- Every text is found at its index in the new metadata. -/
theorem Carries.strings {root : MetadataRoot} {bytes : Bytes}
    (h : loaded.Carries draft root bytes) {heap : StringHeap}
    (hheap : loaded.stream "#Strings" >>= StringHeap.ofBytes = .ok heap) :
    ∃ grown, root.streamData bytes "#Strings" >>= StringHeap.ofBytes = .ok grown ∧
      ∀ index text, heap.get index = .ok text → grown.get index = .ok text := by
  obtain ⟨content, hcontent, hheap⟩ := bind_eq_ok_iff.mp hheap
  have hdata := h.others "#Strings" (by decide) (by decide) content hcontent
  rw [toArray_padTo] at hdata
  exact ⟨_, bind_eq_ok_iff.mpr ⟨_, hdata, StringHeap.ofBytes_append hheap _⟩,
    fun _ _ htext => StringHeap.get_append htext _⟩

/-- Every blob is found at its index in the new metadata. -/
theorem Carries.blobHeap {root : MetadataRoot} {bytes : Bytes}
    (h : loaded.Carries draft root bytes) {more : Bytes} (hmore : draft.blobs = blobs ++ more)
    {heap : BlobHeap} (hheap : BlobHeap.ofBytes blobs = .ok heap) :
    ∃ grown, root.streamData bytes "#Blob" >>= BlobHeap.ofBytes = .ok grown ∧
      ∀ index blob, heap.get index = .ok blob → grown.get index = .ok blob := by
  have hdata := h.blobs
  rw [toArray_padTo, hmore, Array.append_assoc] at hdata
  exact ⟨_, bind_eq_ok_iff.mpr ⟨_, hdata, BlobHeap.ofBytes_append hheap _⟩,
    fun _ _ hblob => BlobHeap.get_append hblob _⟩

/-- An assembly as it is loaded from the image that was written with edited bodies. -/
structure Rewrites (before : Assembly) (edits : List (Token × Body)) (after : Assembly) :
    Prop where
  tables : before.tables.Extends after.tables (Edits edits) (extendedCount edits)
  strings : ∀ heap, before.stream "#Strings" >>= StringHeap.ofBytes = .ok heap →
    ∃ grown, after.stream "#Strings" >>= StringHeap.ofBytes = .ok grown ∧
      ∀ index text, heap.get index = .ok text → grown.get index = .ok text
  blobs : ∀ heap, before.stream "#Blob" >>= BlobHeap.ofBytes = .ok heap →
    ∃ grown, after.stream "#Blob" >>= BlobHeap.ofBytes = .ok grown ∧
      ∀ index blob, heap.get index = .ok blob → grown.get index = .ok blob
  userStrings : ∀ content, before.stream "#US" = .ok content →
    ∃ grown, after.stream "#US" = .ok grown ∧ ∀ index text,
      (⟨content⟩ : BlobHeap).get index = .ok text → (⟨grown⟩ : BlobHeap).get index = .ok text
  guids : ∀ heap, before.stream "#GUID" >>= GuidHeap.ofBytes = .ok heap →
    after.stream "#GUID" >>= GuidHeap.ofBytes = .ok heap
  types : ∀ heap, before.stream "#Strings" >>= StringHeap.ofBytes = .ok heap →
    List.Forall₂ (TypeDecl.Kept (heap.Names before.tables) (Edits edits)) before.types.toList
      after.types.toList

/-- An assembly without edited bodies is what it was. -/
theorem Rewrites.refl (loaded : Assembly) : loaded.Rewrites [] loaded where
  tables := by
    have hnone : Edits [] = fun _ => False := by
      funext rid
      simp [Edits]
    rw [hnone]
    exact .refl loaded.tables
  strings := fun heap hheap => ⟨heap, hheap, fun _ _ h => h⟩
  blobs := fun heap hheap => ⟨heap, hheap, fun _ _ h => h⟩
  userStrings := fun content hcontent => ⟨content, hcontent, fun _ _ h => h⟩
  guids := fun _ hheap => hheap
  types := fun _ _ => List.forall₂_same.mpr fun type _ => .refl _ _ type

/-- The blob heap of a loaded image is not empty. -/
theorem Loaded.isEmpty_blobs (h : loaded.Loaded data)
    (hstored : loaded.stream "#Blob" = .ok blobs) :
    blobs.isEmpty = false := by
  obtain ⟨-, heap, -, hheap, -⟩ := h.types
  obtain ⟨content, hcontent, hblobs⟩ := bind_eq_ok_iff.mp hheap
  obtain rfl := Except.ok.inj (hcontent.symm.trans hstored)
  obtain ⟨hzero, -⟩ := BlobHeap.ofBytes_eq_ok_iff.mp hblobs
  by_contra hempty
  rw [show content = #[] by simpa using hempty] at hzero
  cases hzero

/-- The bodies of a written image leave everything else as it was. -/
theorem Written.grown (hloaded : loaded.Loaded data)
    (hroom : (loaded.tables.rows .standAloneSig).size + extendedCount edits < UInt32.size)
    (hwritten : ({ loaded with edited := edits } : Assembly).Written place blobs draft metadata
      out) :
    Grown loaded.tables blobs draft (Edits edits) (extendedCount edits) := by
  obtain ⟨tablesData, -, htables⟩ := bind_eq_ok_iff.mp hloaded.tables
  have hstart : Grown loaded.tables blobs { blobs, tables := loaded.tables } (fun _ => False) 0 :=
    ⟨TableStream.wellFormed_of_ofBytes htables, .refl _, #[], Array.append_empty.symm⟩
  have hgrown := hstart.addBodies (hloaded.isEmpty_blobs hwritten.stored) (by rwa [Nat.zero_add])
    hwritten.added
  simpa only [false_or, Nat.zero_add] using hgrown

/-- What a root carries of an assembly makes the assembly that is loaded with it a rewritten one. -/
theorem Carries.rewrites {after : Assembly}
    (h : loaded.Carries draft after.root after.metadata)
    (htables : loaded.tables.Extends after.tables (Edits edits) (extendedCount edits))
    {more : Bytes} (hstored : loaded.stream "#Blob" = .ok blobs)
    (hmore : draft.blobs = blobs ++ more)
    (htypes : ∀ heap, loaded.stream "#Strings" >>= StringHeap.ofBytes = .ok heap →
      List.Forall₂ (TypeDecl.Kept (heap.Names loaded.tables) (Edits edits)) loaded.types.toList
        after.types.toList) :
    loaded.Rewrites edits after where
  tables := htables
  strings := fun _ hheap => h.strings hheap
  blobs := by
    intro heap hheap
    obtain ⟨content, hcontent, hheap⟩ := bind_eq_ok_iff.mp hheap
    obtain rfl := Except.ok.inj (hcontent.symm.trans hstored)
    exact h.blobHeap hmore hheap
  userStrings := by
    intro content hcontent
    have hdata := h.others "#US" (by decide) (by decide) content hcontent
    rw [toArray_padTo] at hdata
    exact ⟨_, hdata, fun _ _ htext => BlobHeap.get_append htext _⟩
  guids := by
    intro heap hheap
    obtain ⟨content, hcontent, hheap⟩ := bind_eq_ok_iff.mp hheap
    have hdata := h.others "#GUID" (by decide) (by decide) content hcontent
    have hlt := size_lt_of_stream hcontent
    rw [toArray_padTo, GuidHeap.padding_eq_nil hheap (by
      simp only [wordRange, UInt32.size, UInt64.size] at *
      omega)] at hdata
    exact bind_eq_ok_iff.mpr ⟨_, hdata, by simpa using hheap⟩
  types := htypes

/-- An assembly whose metadata was moved to another place of another image. -/
def moved (loaded : Assembly) (image : Image) (place : Extent) (headers : List StreamHeader)
    (metadata : Bytes) (tables : TableStream) (types : List TypeDecl) : Assembly where
  image
  cli := { loaded.cli with metadata := place }
  cliOffset := loaded.cliOffset
  root := { loaded.root with headers }
  metadata
  tables
  types := types.toArray

end Rewriting

/-! ## A small image -/

/-- Bytes that say nothing. -/
def blank (count : Nat) : List UInt8 := List.replicate count 0

/-- The headers of an image with one section, and room for the header of another. -/
def smallHeaders : List UInt8 := List.flatten [
  -- the old header
  [0x4D, 0x5A], blank 58, [0x40, 0, 0, 0],
  -- the file header
  [0x50, 0x45, 0, 0, 0x4C, 1, 1], blank 13, [0xD8, 0, 2, 0x21],
  -- the optional header and its directories
  [0x0B, 1, 8, 0, 0, 0, 0, 0, 0x10, 1], blank 20, [0x40, 0, 0, 0x10, 0, 0, 4, 0, 0, 0, 4, 0, 0,
    0, 0, 0, 0, 0, 4, 0, 0, 0, 0, 0, 0, 0, 0, 0x20, 0, 0, 0x80, 1, 0, 0, 0, 0, 0, 0, 3, 0, 0, 0, 0,
    0, 0x10, 0, 0, 0x10, 0, 0, 0, 0, 0x10, 0, 0, 0x10, 0, 0, 0, 0, 0, 0, 0x0F], blank 116, [0x10,
    0, 0, 0x48, 0, 0, 0],
  -- the header of the section
  [0x2E, 0x74, 0x65, 0x78, 0x74, 0, 0, 0, 0x10, 1, 0, 0, 0, 0x10, 0, 0, 0x10, 1, 0, 0, 0x80, 1],
    blank 14, [0x20, 0, 0, 0x60], blank 40]

/-- The CLI header of the image. -/
def smallCli : List UInt8 :=
  [0x48, 0, 0, 0, 2, 0, 5, 0, 0x48, 0x10, 0, 0, 0xC0, 0, 0, 0, 1] ++ blank 55

/-- The signatures of the methods and of the field. -/
def smallBlobs : List UInt8 := [0, 3, 0, 0, 1, 3, 6, 0x12, 5, 0, 0, 0]

/-- The metadata of the image. The name of the reference is behind the names. -/
def smallMetadata : List UInt8 := List.flatten [
  -- the root with the headers of the streams
  [0x42, 0x53, 0x4A, 0x42, 1, 0, 1], blank 11, [3, 0, 0x44, 0, 0, 0, 0x6C, 0, 0, 0, 0x23, 0x7E,
    0, 0, 0xB0, 0, 0, 0, 3, 0, 0, 0, 0x23, 0x53, 0x74, 0x72, 0x69, 0x6E, 0x67, 0x73, 0, 0, 0, 0,
    0xB4, 0, 0, 0, 12, 0, 0, 0, 0x23, 0x42, 0x6C, 0x6F, 0x62, 0, 0, 0],
  -- the tables: a module, a reference, a type, a field and two methods
  [0, 0, 0, 0, 2, 0, 0, 1, 0x57], blank 15,
  [1, 0, 0, 0, 1, 0, 0, 0, 1, 0, 0, 0, 1, 0, 0, 0, 2, 0, 0, 0],
  [0, 0, 1, 0, 0, 0, 0, 0, 0, 0], [0, 0, 3, 0, 0, 0],
  [0, 0, 0, 0, 1, 0, 0, 0, 0, 0, 1, 0, 1, 0], [0, 0, 1, 0, 5, 0],
  [0x08, 0x11, 0, 0, 0, 0, 0x10, 0, 1, 0, 1, 0, 1, 0],
  [0x0C, 0x11, 0, 0, 0, 0, 0x10, 0, 1, 0, 1, 0, 1, 0],
  -- the names and the signatures
  [0, 0x6D, 0, 0], smallBlobs]

/-- The body of the first method: a short branch to the return behind it. -/
def smallBranch : List UInt8 := [0x0E, 0x2B, 0, 0x2A]

/-- The body of the second method: a return. -/
def smallReturn : List UInt8 := [0x06, 0x2A]

/-- The bodies of the methods. -/
def smallBodies : List UInt8 := smallBranch ++ (smallReturn ++ [0, 0])

/-- An image with one type that has a field and two methods. -/
def smallImage : Bytes :=
  (smallHeaders ++ (smallCli ++ (smallMetadata ++ smallBodies))).toArray

/-- The tables of the image. -/
def smallTables : TableStream where
  reserved := 0
  major := 2
  minor := 0
  heapSizes := 0
  reserved2 := 1
  valid := 0x57
  sorted := 0
  extra := none
  tables := #[#[[0, 1, 0, 0, 0]], #[[0, 3, 0]], #[[0, 1, 0, 0, 1, 1]], #[], #[[0, 1, 5]], #[],
    #[[0x1108, 0, 0x10, 1, 1, 1], [0x110C, 0, 0x10, 1, 1, 1]]] ++ Array.replicate 38 #[]
  trailing := []

/-- The field of the image. A listing shows the number of its type, which has no name. -/
def smallField : FieldDecl :=
  ⟨⟨⟨0x04000001⟩, false⟩, "m", 0, { type := .classType ⟨0x01000001⟩ }, "0x01000001"⟩

/-- The type of the image. -/
def smallType : TypeDecl := ⟨⟨0x02000001⟩, "m", "", none, [smallField], [
  ⟨⟨⟨0x06000001⟩, true, 0, 0⟩, "m", 0x10, 0, 0x1108, { ret := ⟨false, .void⟩ }⟩,
  ⟨⟨⟨0x06000002⟩, true, 0, 0⟩, "m", 0x10, 0, 0x110C, { ret := ⟨false, .void⟩ }⟩]⟩

/-- The image as it is loaded. -/
def smallAssembly : Assembly where
  image := {
    data := smallImage
    peOffset := 0x40
    optionalSize := 0xD8
    optional := ⟨false, 0x1000, 4, 0x2000, 0x180, some ⟨0x1000, 0x48⟩⟩
    sections := [⟨[0x2E, 0x74, 0x65, 0x78, 0x74, 0, 0, 0], 0x110, 0x1000, 0x110, 0x180, 0x60000020⟩]
    cli := ⟨0x1000, 0x48⟩ }
  cli := ⟨0x48, 2, 5, ⟨0x1048, 0xC0⟩, 1, 0, ⟨0, 0⟩, ⟨0, 0⟩⟩
  cliOffset := 0x180
  root := ⟨1, 1, 0, [], 0, [⟨0x44, 0x6C, "#~"⟩, ⟨0xB0, 3, "#Strings"⟩, ⟨0xB4, 12, "#Blob"⟩]⟩
  metadata := smallMetadata.toArray
  tables := smallTables
  types := #[smallType]

/-- The contents of the small image behind other headers. -/
def smallBehind (headers : List UInt8) : Bytes :=
  (headers ++ (smallCli ++ (smallMetadata ++ smallBodies))).toArray

/-- The small image as it is loaded with other headers. -/
def smallWith (image : Image) (cliOffset : Nat) : Assembly :=
  { smallAssembly with image, cliOffset }

/-- How many bytes the CLI header takes. -/
theorem length_smallCli : smallCli.length = 0x48 := by
  rw [smallCli, List.length_append, blank, List.length_replicate]
  rfl

/-- How many bytes the metadata take. -/
theorem length_smallMetadata : smallMetadata.length = 0xC0 := by
  simp only [smallMetadata, blank, List.length_flatten, List.map_cons, List.map_nil,
    List.length_replicate]
  rfl

/-- How many bytes the headers take. -/
theorem length_smallHeaders : smallHeaders.length = 0x180 := by
  simp only [smallHeaders, blank, List.length_flatten, List.map_cons, List.map_nil,
    List.length_replicate]
  rfl

/-- The contents take 0x110 bytes. -/
theorem size_of_smallBehind {image : Image} {headers : List UInt8}
    (hdata : image.data = smallBehind headers) : image.size = headers.length + 0x110 := by
  rw [Image.size, hdata, smallBehind, List.size_toArray, List.length_append, List.length_append,
    List.length_append, length_smallCli, length_smallMetadata]
  rfl

/-- How long the small image is. -/
theorem size_smallAssembly : smallAssembly.image.size = 0x290 := by
  rw [@size_of_smallBehind smallAssembly.image smallHeaders rfl, length_smallHeaders]

/-- The CLI header of the small image. -/
theorem cli_smallAssembly : Cursor.parse CliHeader.read smallCli.toArray = .ok smallAssembly.cli :=
  eq_ok_of_toOption (by decide +kernel)

/-- The metadata root of the small image. -/
theorem root_smallAssembly :
    Cursor.parse MetadataRoot.read smallMetadata.toArray = .ok smallAssembly.root :=
  eq_ok_of_toOption (by decide +kernel)

/-- The tables of the small image. -/
theorem tables_smallAssembly :
    smallAssembly.stream "#~" >>= TableStream.ofBytes = .ok smallTables :=
  eq_ok_of_toOption (by decide +kernel)

/-- The names of the small image. -/
theorem strings_smallAssembly : smallAssembly.stream "#Strings" = .ok #[0, 0x6D, 0] :=
  eq_ok_of_toOption (by decide +kernel)

/-- The blobs of the small image. -/
theorem blobs_smallAssembly : smallAssembly.stream "#Blob" = .ok smallBlobs.toArray :=
  eq_ok_of_toOption (by decide +kernel)

/-- The types of the small image. -/
theorem types_smallAssembly : DeclarationSource.types
    ⟨smallTables, ⟨#[0, 0x6D, 0]⟩, ⟨smallBlobs.toArray⟩⟩ = .ok [smallType] := by
  with_unfolding_all rfl

/-- The contents of the small image are loaded behind all headers that lead to them. -/
theorem loaded_smallWith {image : Image} {cliOffset : Nat} {headers : List UInt8}
    (hread : ImageHeaders.ofBytes (smallBehind headers) =
      .ok ⟨image.peOffset, image.optionalSize, some image.optional, image.sections⟩)
    (hdata : image.data = smallBehind headers) (hoptional : image.optional.cli = some image.cli)
    (hcli : image.cli = ⟨0x1000, 0x48⟩) (hlength : headers.length = cliOffset)
    (hstart : image.offsetOf 0x1000 = .ok cliOffset)
    (hmetadata : image.offsetOf 0x1048 = .ok (cliOffset + 0x48)) :
    (smallWith image cliOffset).Loaded (smallBehind headers) where
  image := by
    have hfull : (smallBehind headers).isEmpty = false := by simp [smallBehind, smallCli]
    exact Image.ofBytes_eq_ok_iff.mpr ⟨hfull, _, _, _, hread, rfl, hoptional, hdata ▸ rfl⟩
  directory := by
    rw [smallWith, hcli]
    decide
  cliOffset := by
    rw [smallWith, hcli]
    exact hstart
  cli := by
    have hpart := @Image.slice_between image headers smallCli _ hdata
    rw [hlength, length_smallCli] at hpart
    exact bind_eq_ok_iff.mpr ⟨_, hpart, cli_smallAssembly⟩
  metadata := by
    have hpart := @Image.slice_between image (headers ++ smallCli) smallMetadata smallBodies
      (hdata.trans (congrArg _ (List.append_assoc ..).symm))
    rw [List.length_append, hlength, length_smallCli, length_smallMetadata] at hpart
    exact bind_eq_ok_iff.mpr ⟨_, hmetadata, hpart⟩
  root := root_smallAssembly
  compressed := rfl
  tables := tables_smallAssembly
  types := ⟨_, _, bind_eq_ok_iff.mpr ⟨_, strings_smallAssembly, rfl⟩,
    bind_eq_ok_iff.mpr ⟨_, blobs_smallAssembly, rfl⟩, types_smallAssembly⟩
  edited := rfl

/-- The small image is loaded. -/
theorem loaded_smallAssembly : smallAssembly.Loaded smallImage :=
  @loaded_smallWith smallAssembly.image 0x180 smallHeaders (eq_ok_of_toOption (by decide +kernel))
    rfl rfl rfl length_smallHeaders rfl rfl

/-- It is well formed. -/
theorem wellFormed_smallAssembly : smallAssembly.WellFormed where
  image := {
    sectionAlignment := ⟨12, rfl⟩
    fileAlignment := ⟨2, rfl⟩
    addresses := by decide
    directories := by decide
    size := by
      rw [size_smallAssembly]
      decide }
  cli := ⟨_, List.mem_singleton_self _, by decide, by decide, by decide⟩
  version := rfl

/-- The first method with a local variable and two regions. -/
def smallBody : Body :=
  { guardedBody [openRegion 0 (some .null), openRegion 8 none] with added := [⟨.i4, none⟩] }

/-- The edit of the first method. -/
def smallEdits : List (Token × Body) := [(⟨0x06000001⟩, smallBody)]

/-- The small image with the edit. -/
def smallEdited : Assembly := { smallAssembly with edited := smallEdits }

/-- Where the section of the written image lies. -/
def smallPlace : SectionPlace := ⟨0x2000, 0x290⟩

/-- The section comes behind the one that is there. -/
theorem place_smallAssembly : place smallAssembly.image = .ok smallPlace :=
  place_eq_ok_iff.mpr ⟨by decide, by decide, congrArg (SectionPlace.mk 0x2000)
    (show 0x290 = alignUp smallAssembly.image.size 4 by rw [size_smallAssembly]; decide)⟩

/-- The tables and the blobs with the signature of the local variable. -/
def smallSigned : Draft where
  blobs := (smallBlobs ++ [3, 7, 1, 8]).toArray
  tables := { smallTables with tables := smallTables.tables.set! 17 #[[12]] }

/-- The stored form of the edited method. -/
def smallEncoded : List UInt8 := [0x0B, 0x30, 1, 0, 3, 0, 0, 0, 1, 0, 0, 0x11, 0x2B, 0, 0x2A, 0,
  0x01, 28, 0, 0, 0, 0, 0, 0, 2, 2, 0, 1, 0, 0, 0, 0, 8, 0, 0, 0, 2, 2, 0, 1, 0, 0, 0, 0]

/-- How many bytes it takes in the section. -/
theorem length_padTo_smallEncoded : (padTo smallEncoded 4).length = 0x2C := rfl

/-! ### The small image as it is written -/

/-- The small image with other headers and with the edit. -/
def smallEditedWith (image : Image) (cliOffset : Nat) : Assembly :=
  { smallWith image cliOffset with edited := smallEdits }

/-- The section with the edited method, which leads to where the section is. -/
def smallDraftAt (place : SectionPlace) : Draft := { smallSigned with
  content := smallEncoded
  tables := smallSigned.tables.setColumn .methodDef 1 MethodDefRow.rvaColumn place.rva }

/-- The draft as its metadata are stored. -/
def smallWidened (place : SectionPlace) : Draft := { smallDraftAt place with
  tables := (smallDraftAt place).tables.widenHeap Widths.largeBlobs
    (smallDraftAt place).blobs.size }

/-- What the section holds: the edited method, and behind it the metadata. -/
def smallContent (metadata : List UInt8) : List UInt8 := padTo smallEncoded 4 ++ metadata

/-- The image that is written with some metadata. -/
def smallStamped (image : Image) (cliOffset : Nat) (place : SectionPlace)
    (metadata : List UInt8) : Bytes :=
  stamped image cliOffset place (smallContent metadata) (place.rva + 0x2C)
    (UInt32.ofNat metadata.length)

section Headers

variable {image : Image} {cliOffset : Nat} {place : SectionPlace} {metadata : List UInt8}

/-- The edited method takes 0x2C bytes of the section. -/
theorem length_smallContent : (smallContent metadata).length = 0x2C + metadata.length := by
  rw [smallContent, List.length_append, length_padTo_smallEncoded]

/-- The edited method is put into the section, wherever that is. -/
theorem addBodies_smallEditedWith : (addBodies (smallEditedWith image cliOffset) place
    { blobs := smallBlobs.toArray, tables := smallTables } smallEdits).result =
      .ok (smallDraftAt place) := by
  have hsig : localSig (smallEditedWith image cliOffset)
      { blobs := smallBlobs.toArray, tables := smallTables } smallBody =
        .ok (smallSigned, 0x11000001) := by with_unfolding_all rfl
  have hencode : smallBody.encode 0x11000001 = .ok (smallEncoded, 0) :=
    @encode_guardedBody [(0, some .null), (8, none)] 0x11000001 _ [⟨.i4, none⟩] rfl
  have hstart : place.rva = place.rva + UInt32.ofNat (padTo smallSigned.content 4).length :=
    (UInt32.add_zero _).symm
  exact addBodies_cons_eq_ok_iff.mpr ⟨_, _, _, addBody_eq_ok_iff.mpr
    ⟨_, _, _, _, hsig, hencode, by decide, hstart, rfl, rfl, rfl⟩, rfl⟩

/-- The address behind a section with short metadata can be rounded if there is room in memory. -/
theorem stop_lt {length : Nat} (hlength : length < 0x22C)
    (h : place.rva.toNat + 0x22C + image.optional.sectionAlignment.toNat < UInt32.size) :
    (place.rva + UInt32.ofNat length).toNat + image.optional.sectionAlignment.toNat <
      UInt32.size := by
  simp only [UInt32.size] at h
  rw [UInt32.toNat_add, UInt32.toNat_ofNat_of_lt' (by simp only [UInt32.size]; omega)]
  simp only [UInt32.size]
  omega

/-- A section with short metadata fits the headers if the address behind it can be rounded. -/
theorem fits_smallContent (hlength : metadata.length < 0x200) (hoffset : place.offset < UInt32.size)
    (hfile : image.optional.fileAlignment.toNat ≤ 0x1000)
    (hstop : ∀ length, 0x2C ≤ length → length < 0x22C →
      (place.rva + UInt32.ofNat length).toNat + image.optional.sectionAlignment.toNat < UInt32.size)
    (hfields : image.checksumOffset + 4 ≤ image.size)
    (hcli : cliOffset + CliHeader.metadataOffset + 8 ≤ image.size) :
    Fits image cliOffset place (smallContent metadata) := by
  have hcontent := @length_smallContent metadata
  have hraw := alignUp_le (smallContent metadata).length image.optional.fileAlignment.toNat
  have hmemory := alignUp_le (place.rva + UInt32.ofNat (smallContent metadata).length).toNat
    image.optional.sectionAlignment.toNat
  have hends := hstop _ (Nat.le_add_right 0x2C metadata.length) (by omega)
  have hsize : image.size ≤ (whole image place (smallContent metadata)).size := by
    rw [whole, Array.size_append]
    exact Nat.le_add_right _ _
  rw [← hcontent] at hends
  refine ⟨?_, ?_, hoffset, Nat.lt_of_le_of_lt hmemory (by omega), Nat.le_trans hfields hsize,
    Nat.le_trans hcli hsize⟩ <;>
    · simp only [UInt32.size]
      omega

/-- The small image is written behind other headers when its section fits them. -/
theorem written_smallEditedWith (hplace : PatchSection.place image = .ok place)
    (hmetadata : PatchSection.metadata smallEdited (smallWidened place) = .ok metadata)
    (hfits : Fits image cliOffset place (smallContent metadata)) :
    (smallEditedWith image cliOffset).Written place smallBlobs.toArray (smallDraftAt place) metadata
      (smallStamped image cliOffset place metadata) := by
  have hbodies : (padTo (smallDraftAt place).content 4).length = 0x2C := length_padTo_smallEncoded
  have hlength := hfits.length
  rw [length_smallContent] at hlength
  refine ⟨hplace, blobs_smallAssembly, addBodies_smallEditedWith,
    (metadata_congr rfl rfl).trans hmetadata, ?_,
    Nat.lt_of_le_of_lt (Nat.le_add_left _ _) hlength, assemble_eq_ok_iff.mpr ⟨hfits, ?_⟩⟩
  · rw [hbodies]
    decide
  · rw [hbodies]
    rfl

end Headers

/-- The metadata of the small image are short, and the headers of what is written with them are
read. -/
theorem exists_metadata_smallEdited : ∃ metadata headers,
    PatchSection.metadata smallEdited (smallWidened smallPlace) = .ok metadata ∧
      metadata.length < 0x200 ∧
      Parsed smallAssembly.image (smallStamped smallAssembly.image 0x180 smallPlace metadata)
        headers := by
  -- the headers are read from a list, which is cheaper than writing the fields one after another
  have hlaid (metadata : List UInt8) :
      smallStamped smallAssembly.image 0x180 smallPlace metadata =
        (laid smallAssembly.image 0x180 smallPlace (smallContent metadata) (smallPlace.rva + 0x2C)
          (UInt32.ofNat metadata.length)).toArray :=
    stamped_eq_laid (size_smallAssembly ▸ by decide) (size_smallAssembly ▸ by decide)
      (size_smallAssembly ▸ by decide)
  obtain ⟨metadata, hmetadata, htest⟩ := exists_of_toOption_any
    (show (PatchSection.metadata smallEdited (smallWidened smallPlace)).toOption.any
      (fun metadata => decide (metadata.length < 0x200) &&
        (ImageHeaders.ofBytes (laid smallAssembly.image 0x180 smallPlace (smallContent metadata)
          (smallPlace.rva + 0x2C) (UInt32.ofNat metadata.length)).toArray).toOption.any
          fun headers =>
            decide (1 ≤ headers.sections.length ∧ ∀ header ∈ headers.sections.drop 1,
              header.virtualAddress.toNat + header.virtualSize.toNat < UInt32.size)) = true
      by decide +kernel)
  obtain ⟨hlength, hheaders⟩ := Bool.and_eq_true_iff.mp htest
  obtain ⟨headers, hread, hsections⟩ := exists_of_toOption_any hheaders
  obtain ⟨hstored, hends⟩ := of_decide_eq_true hsections
  rw [← hlaid] at hread
  exact ⟨metadata, headers, hmetadata, of_decide_eq_true hlength, hread, hstored, hends⟩

/-- The small image is written with the edited method. -/
theorem exists_written_smallEdited : ∃ metadata out headers,
    smallEdited.Written smallPlace smallBlobs.toArray (smallDraftAt smallPlace) metadata out ∧
      smallEdited.toBytes.result = .ok out ∧ Parsed smallAssembly.image out headers := by
  obtain ⟨metadata, headers, hmetadata, hlength, hparsed⟩ := exists_metadata_smallEdited
  have hfits : Fits smallAssembly.image 0x180 smallPlace (smallContent metadata) :=
    fits_smallContent hlength (by decide) (by decide) (fun _ _ hlt => stop_lt hlt (by decide))
      (size_smallAssembly ▸ by decide) (size_smallAssembly ▸ by decide)
  have hwritten := written_smallEditedWith place_smallAssembly hmetadata hfits
  exact ⟨metadata, _, headers, hwritten,
    toBytes_eq_ok_iff.mpr (.inr ⟨List.cons_ne_nil _ _, _, _, _, _, hwritten⟩), hparsed⟩

end Assembly

end CilPatch
