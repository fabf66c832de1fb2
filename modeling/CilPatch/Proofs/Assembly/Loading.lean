import CilPatch.Proofs.Assembly.Bodies
import CilPatch.Proofs.Image.File
import CilPatch.Proofs.Metadata.CliHeader

/-!
# Loading and writing step by step

What has to be there for an image to be loaded, and what is made on the way when an edited assembly
becomes an image.
-/

namespace CilPatch.Assembly

variable {assembly : Assembly} {data out : Bytes}

/-- An assembly that was loaded from a block of bytes: every part of it was found where another part
says that it is. -/
structure Loaded (data : Bytes) (assembly : Assembly) : Prop where
  image : Image.ofBytes data = .ok assembly.image
  directory : CliHeader.length ≤ assembly.image.cli.size.toNat
  cliOffset : assembly.image.offsetOf assembly.image.cli.rva.toNat = .ok assembly.cliOffset
  cli : assembly.image.slice assembly.cliOffset CliHeader.length >>= Cursor.parse CliHeader.read =
    .ok assembly.cli
  metadata : assembly.image.offsetOf assembly.cli.metadata.rva.toNat >>= (fun offset =>
    assembly.image.slice offset assembly.cli.metadata.size.toNat) = .ok assembly.metadata
  root : Cursor.parse MetadataRoot.read assembly.metadata = .ok assembly.root
  compressed : assembly.root.stream? "#-" = none
  tables : assembly.stream "#~" >>= TableStream.ofBytes = .ok assembly.tables
  types : ∃ strings blobs, assembly.stream "#Strings" >>= StringHeap.ofBytes = .ok strings ∧
    assembly.stream "#Blob" >>= BlobHeap.ofBytes = .ok blobs ∧
    DeclarationSource.types ⟨assembly.tables, strings, blobs⟩ = .ok assembly.types.toList
  edited : assembly.edited = []

/-- An image is loaded exactly if every part of it is found. -/
theorem ofBytes_eq_ok_iff : ofBytes data = .ok assembly ↔ assembly.Loaded data := by
  constructor
  · intro h
    obtain ⟨image, himage, h⟩ := bind_eq_ok_iff.mp h
    unfold ofImage at h
    obtain ⟨hdirectory, h⟩ := check_eq_ok_iff.mp h
    obtain ⟨cliOffset, hcliOffset, h⟩ := bind_eq_ok_iff.mp h
    obtain ⟨cliData, hcliData, h⟩ := bind_eq_ok_iff.mp h
    obtain ⟨cli, hcli, h⟩ := bind_eq_ok_iff.mp h
    obtain ⟨offset, hoffset, h⟩ := bind_eq_ok_iff.mp h
    obtain ⟨metadata, hmetadata, h⟩ := bind_eq_ok_iff.mp h
    obtain ⟨root, hroot, h⟩ := bind_eq_ok_iff.mp h
    obtain ⟨hcompressed, h⟩ := check_eq_ok_iff.mp h
    obtain ⟨tablesData, htablesData, h⟩ := bind_eq_ok_iff.mp h
    obtain ⟨tables, htables, h⟩ := bind_eq_ok_iff.mp h
    obtain ⟨stringsData, hstringsData, h⟩ := bind_eq_ok_iff.mp h
    obtain ⟨strings, hstrings, h⟩ := bind_eq_ok_iff.mp h
    obtain ⟨blobsData, hblobsData, h⟩ := bind_eq_ok_iff.mp h
    obtain ⟨blobs, hblobs, h⟩ := bind_eq_ok_iff.mp h
    obtain ⟨types, htypes, h⟩ := bind_eq_ok_iff.mp h
    obtain rfl := Except.ok.inj h
    exact {
      image := himage
      directory := Nat.not_lt.mp hdirectory
      cliOffset := hcliOffset
      cli := bind_eq_ok_iff.mpr ⟨cliData, hcliData, hcli⟩
      metadata := bind_eq_ok_iff.mpr ⟨offset, hoffset, hmetadata⟩
      root := hroot
      compressed := by simpa using hcompressed
      tables := bind_eq_ok_iff.mpr ⟨tablesData, htablesData, htables⟩
      types := ⟨strings, blobs, bind_eq_ok_iff.mpr ⟨stringsData, hstringsData, hstrings⟩,
        bind_eq_ok_iff.mpr ⟨blobsData, hblobsData, hblobs⟩, by simpa using htypes⟩
      edited := rfl }
  · intro h
    obtain ⟨cliData, hcliData, hcli⟩ := bind_eq_ok_iff.mp h.cli
    obtain ⟨offset, hoffset, hmetadata⟩ := bind_eq_ok_iff.mp h.metadata
    obtain ⟨tablesData, htablesData, htables⟩ := bind_eq_ok_iff.mp h.tables
    obtain ⟨strings, blobs, hstrings, hblobs, htypes⟩ := h.types
    obtain ⟨stringsData, hstringsData, hstrings⟩ := bind_eq_ok_iff.mp hstrings
    obtain ⟨blobsData, hblobsData, hblobs⟩ := bind_eq_ok_iff.mp hblobs
    refine bind_eq_ok_iff.mpr ⟨assembly.image, h.image, ?_⟩
    unfold ofImage
    refine check_eq_ok_iff.mpr ⟨Nat.not_lt.mpr h.directory, ?_⟩
    refine bind_eq_ok_iff.mpr ⟨assembly.cliOffset, h.cliOffset, ?_⟩
    refine bind_eq_ok_iff.mpr ⟨cliData, hcliData, ?_⟩
    refine bind_eq_ok_iff.mpr ⟨assembly.cli, hcli, ?_⟩
    refine bind_eq_ok_iff.mpr ⟨offset, hoffset, ?_⟩
    refine bind_eq_ok_iff.mpr ⟨assembly.metadata, hmetadata, ?_⟩
    refine bind_eq_ok_iff.mpr ⟨assembly.root, h.root, ?_⟩
    refine check_eq_ok_iff.mpr ⟨by simp [h.compressed], ?_⟩
    refine bind_eq_ok_iff.mpr ⟨tablesData, htablesData, ?_⟩
    refine bind_eq_ok_iff.mpr ⟨assembly.tables, htables, ?_⟩
    refine bind_eq_ok_iff.mpr ⟨stringsData, hstringsData, ?_⟩
    refine bind_eq_ok_iff.mpr ⟨strings, hstrings, ?_⟩
    refine bind_eq_ok_iff.mpr ⟨blobsData, hblobsData, ?_⟩
    refine bind_eq_ok_iff.mpr ⟨blobs, hblobs, ?_⟩
    refine bind_eq_ok_iff.mpr ⟨assembly.types.toList, htypes, ?_⟩
    cases assembly
    obtain rfl := h.edited
    simp [pure, Except.pure]

/-- An image that was written from an edited assembly, and what was made on the way. -/
structure Written (assembly : Assembly) (place : SectionPlace) (blobs : Bytes) (draft : Draft)
    (metadata : List UInt8) (out : Bytes) : Prop where
  placed : PatchSection.place assembly.image = .ok place
  stored : assembly.stream "#Blob" = .ok blobs
  added : (PatchSection.addBodies assembly place { blobs, tables := assembly.tables }
    assembly.edited).result = .ok draft
  encoded : PatchSection.metadata assembly { draft with
    tables := draft.tables.widenHeap Widths.largeBlobs draft.blobs.size } = .ok metadata
  fits : (padTo draft.content 4).length < UInt32.size
  size : metadata.length < UInt32.size
  assembled : PatchSection.assemble assembly place (padTo draft.content 4 ++ metadata)
    (place.rva + UInt32.ofNat (padTo draft.content 4).length) (UInt32.ofNat metadata.length) =
    .ok out

/-- The image of an assembly with edited bodies; a notice about a signature changes nothing. -/
theorem result_toBytes (hedited : assembly.edited ≠ []) : assembly.toBytes.result = (do
    let place ← PatchSection.place assembly.image
    let blobs ← assembly.stream "#Blob"
    let draft ← (PatchSection.addBodies assembly place { blobs, tables := assembly.tables }
      assembly.edited).result
    let metadata ← PatchSection.metadata assembly { draft with
      tables := draft.tables.widenHeap Widths.largeBlobs draft.blobs.size }
    let content := padTo draft.content 4
    let rva := place.rva + (← PatchSection.word "patch section" content.length)
    let size ← PatchSection.word "metadata" metadata.length
    PatchSection.assemble assembly place (content ++ metadata) rva size) := by
  have hok (next : Unit → Except Fault Bytes) : (Except.ok () >>= next) = next () := rfl
  have hlast (result : Except Fault Bytes) : result >>= Except.ok = result := bind_pure result
  have hnone : ¬assembly.edited.isEmpty = true := fun h => hedited (List.isEmpty_iff.mp h)
  unfold toBytes
  rw [if_neg hnone]
  split <;>
    simp only [Noted.result_bind, Noted.result_liftM, Noted.result_note, Noted.result_pure, hok,
      hlast]

/-- An assembly is written with its edited bodies, and as it was loaded when there are none. -/
theorem toBytes_eq_ok_iff : assembly.toBytes.result = .ok out ↔
    (assembly.edited = [] ∧ out = assembly.image.data) ∨
      assembly.edited ≠ [] ∧ ∃ place blobs draft metadata,
        assembly.Written place blobs draft metadata out := by
  by_cases hedited : assembly.edited = []
  · have hsame : assembly.toBytes.result = .ok assembly.image.data := by
      unfold toBytes
      rw [if_pos (List.isEmpty_iff.mpr hedited)]
      rfl
    rw [hsame]
    constructor
    · intro h
      exact .inl ⟨hedited, (Except.ok.inj h).symm⟩
    · rintro (⟨-, rfl⟩ | ⟨hsome, -⟩)
      · rfl
      · exact absurd hedited hsome
  · rw [result_toBytes hedited]
    constructor
    · intro h
      obtain ⟨place, hplace, h⟩ := bind_eq_ok_iff.mp h
      obtain ⟨blobs, hblobs, h⟩ := bind_eq_ok_iff.mp h
      obtain ⟨draft, hdraft, h⟩ := bind_eq_ok_iff.mp h
      obtain ⟨metadata, hmetadata, h⟩ := bind_eq_ok_iff.mp h
      obtain ⟨offset, hoffset, h⟩ := bind_eq_ok_iff.mp h
      obtain ⟨size, hsize, h⟩ := bind_eq_ok_iff.mp h
      obtain ⟨hfits, rfl⟩ := PatchSection.word_eq_ok_iff.mp hoffset
      obtain ⟨hlt, rfl⟩ := PatchSection.word_eq_ok_iff.mp hsize
      exact .inr ⟨hedited, place, blobs, draft, metadata, hplace, hblobs, hdraft, hmetadata, hfits,
        hlt, h⟩
    · rintro (⟨hnone, -⟩ | ⟨-, place, blobs, draft, metadata, h⟩)
      · exact absurd hnone hedited
      · refine bind_eq_ok_iff.mpr ⟨place, h.placed, bind_eq_ok_iff.mpr ⟨blobs, h.stored, ?_⟩⟩
        refine bind_eq_ok_iff.mpr ⟨draft, h.added, bind_eq_ok_iff.mpr ⟨metadata, h.encoded, ?_⟩⟩
        refine bind_eq_ok_iff.mpr ⟨_, PatchSection.word_eq_ok_iff.mpr ⟨h.fits, rfl⟩, ?_⟩
        exact bind_eq_ok_iff.mpr ⟨_, PatchSection.word_eq_ok_iff.mpr ⟨h.size, rfl⟩, h.assembled⟩

end CilPatch.Assembly
