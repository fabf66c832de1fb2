import CilPatch.Metadata.CliHeader
import CilPatch.Proofs.Bytes.Block
import CilPatch.Proofs.Step

/-!
# What a CLI header says

A CLI header is read field by field from where it starts, so it is known from the fields that stand
there. Writing over the place of the metadata changes nothing else of it.
-/

namespace CilPatch

open LittleEndian

namespace Read

variable {data : Bytes} {pos : Nat} {after : Cursor}

/-- What a step yields and leaves is told apart. -/
private theorem yields_iff {α : Type} {found value : α} {left : Cursor} :
    ((.ok found, left) : Except Fault α × Cursor) = (.ok value, after) ↔
      value = found ∧ after = left := by
  constructor
  · intro h
    obtain ⟨hvalue, rfl⟩ := Prod.mk.inj h
    exact ⟨(Except.ok.inj hvalue).symm, rfl⟩
  · rintro ⟨rfl, rfl⟩
    rfl

/-- A word of 16 bits is read from where it stands. -/
theorem run_u16_at (h : pos + 2 ≤ data.size) {value : UInt16} :
    Read.u16.run ⟨data, pos⟩ = (.ok value, after) ↔
      value = UInt16.ofNat (wordAt data pos 2) ∧ after = ⟨data, pos + 2⟩ := by
  rw [Read.u16, bind_pure_comp, step_map, run_word, if_neg (Nat.not_lt.mpr h)]
  exact yields_iff

/-- A word of 32 bits is read from where it stands. -/
theorem run_u32_at (h : pos + 4 ≤ data.size) {value : UInt32} :
    Read.u32.run ⟨data, pos⟩ = (.ok value, after) ↔
      value = fieldAt data pos ∧ after = ⟨data, pos + 4⟩ := by
  rw [Read.u32, bind_pure_comp, step_map, run_word, if_neg (Nat.not_lt.mpr h)]
  exact yields_iff

end Read

namespace CliHeader

/-- A range of addresses that stands in a block. -/
def extentAt (data : Bytes) (offset : Nat) : Extent :=
  ⟨fieldAt data offset, fieldAt data (offset + 4)⟩

/-- What the bytes at an offset say as a CLI header. -/
def readAt (data : Bytes) (offset : Nat) : CliHeader where
  size := fieldAt data offset
  major := UInt16.ofNat (wordAt data (offset + 4) 2)
  minor := UInt16.ofNat (wordAt data (offset + 6) 2)
  metadata := extentAt data (offset + 8)
  flags := fieldAt data (offset + 16)
  entryPoint := fieldAt data (offset + 20)
  resources := extentAt data (offset + 24)
  strongName := extentAt data (offset + 32)

/-- A range of addresses is read from where it stands. -/
theorem run_readExtent_at {data : Bytes} {pos : Nat} {after : Cursor} (h : pos + 8 ≤ data.size)
    {value : Extent} : readExtent.run ⟨data, pos⟩ = (.ok value, after) ↔
      value = extentAt data pos ∧ after = ⟨data, pos + 8⟩ := by
  rw [readExtent, run_bind_eq_ok_iff]
  constructor
  · rintro ⟨rva, c1, hrva, h'⟩
    obtain ⟨rfl, rfl⟩ := (Read.run_u32_at (by omega)).mp hrva
    obtain ⟨size, c2, hsize, h'⟩ := run_bind_eq_ok_iff.mp h'
    obtain ⟨rfl, rfl⟩ := (Read.run_u32_at (by omega)).mp hsize
    obtain ⟨hvalue, rfl⟩ := Prod.mk.inj h'
    exact ⟨(Except.ok.inj hvalue).symm, rfl⟩
  · rintro ⟨rfl, rfl⟩
    refine ⟨_, _, (Read.run_u32_at (by omega)).mpr ⟨rfl, rfl⟩, ?_⟩
    exact run_bind_eq_ok_iff.mpr ⟨_, _, (Read.run_u32_at (by omega)).mpr ⟨rfl, rfl⟩, rfl⟩

/-- A header is read from a block that is large enough, if it gives its size and leads to some
metadata. -/
theorem parse_read_eq_ok_iff {data : Bytes} {header : CliHeader} :
    Cursor.parse read data = .ok header ↔ length ≤ data.size ∧ header = readAt data 0 ∧
      header.size.toNat = length ∧ header.metadata.rva ≠ 0 ∧ header.metadata.size ≠ 0 := by
  constructor
  · intro h
    obtain ⟨last, h⟩ : ∃ last, read.run ⟨data, 0⟩ = (.ok header, last) := ⟨_, Prod.ext h rfl⟩
    unfold read at h
    obtain ⟨cursor, c0, hget, h⟩ := run_bind_eq_ok_iff.mp h
    obtain ⟨hcursor, rfl⟩ := Prod.mk.inj hget
    obtain rfl := Except.ok.inj hcursor
    obtain ⟨hlength, h⟩ := run_check_eq_ok_iff.mp h
    have hlength : 72 ≤ data.size := Nat.not_lt.mp hlength
    obtain ⟨size, c1, hread, h⟩ := run_bind_eq_ok_iff.mp h
    obtain ⟨rfl, rfl⟩ := (Read.run_u32_at (by omega)).mp hread
    obtain ⟨hsize, h⟩ := run_check_eq_ok_iff.mp h
    obtain ⟨major, c2, hread, h⟩ := run_bind_eq_ok_iff.mp h
    obtain ⟨rfl, rfl⟩ := (Read.run_u16_at (by omega)).mp hread
    obtain ⟨minor, c3, hread, h⟩ := run_bind_eq_ok_iff.mp h
    obtain ⟨rfl, rfl⟩ := (Read.run_u16_at (by omega)).mp hread
    obtain ⟨metadata, c4, hread, h⟩ := run_bind_eq_ok_iff.mp h
    obtain ⟨rfl, rfl⟩ := (run_readExtent_at (by omega)).mp hread
    obtain ⟨hmetadata, h⟩ := run_check_eq_ok_iff.mp h
    obtain ⟨flags, c5, hread, h⟩ := run_bind_eq_ok_iff.mp h
    obtain ⟨rfl, rfl⟩ := (Read.run_u32_at (by omega)).mp hread
    obtain ⟨entryPoint, c6, hread, h⟩ := run_bind_eq_ok_iff.mp h
    obtain ⟨rfl, rfl⟩ := (Read.run_u32_at (by omega)).mp hread
    obtain ⟨resources, c7, hread, h⟩ := run_bind_eq_ok_iff.mp h
    obtain ⟨rfl, rfl⟩ := (run_readExtent_at (by omega)).mp hread
    obtain ⟨strongName, c8, hread, h⟩ := run_bind_eq_ok_iff.mp h
    obtain ⟨rfl, rfl⟩ := (run_readExtent_at (by omega)).mp hread
    obtain rfl := Except.ok.inj (Prod.mk.inj h).1
    exact ⟨hlength, rfl, by simpa using hsize, (not_or.mp hmetadata).1, (not_or.mp hmetadata).2⟩
  · rintro ⟨hlength, rfl, hsize, hrva, hmetadata⟩
    have hroom : 72 ≤ data.size := hlength
    have hsize : (fieldAt data 0).toNat = length := hsize
    suffices hrun : read.run ⟨data, 0⟩ = (.ok (readAt data 0), ⟨data, 40⟩) from
      congrArg Prod.fst hrun
    unfold read
    refine run_bind_eq_ok_iff.mpr ⟨⟨data, 0⟩, ⟨data, 0⟩, rfl, ?_⟩
    refine run_check_eq_ok_iff.mpr ⟨Nat.not_lt.mpr hlength, ?_⟩
    refine run_bind_eq_ok_iff.mpr ⟨_, _, (Read.run_u32_at (by omega)).mpr ⟨rfl, rfl⟩, ?_⟩
    refine run_check_eq_ok_iff.mpr ⟨by simp [hsize], ?_⟩
    refine run_bind_eq_ok_iff.mpr ⟨_, _, (Read.run_u16_at (by omega)).mpr ⟨rfl, rfl⟩, ?_⟩
    refine run_bind_eq_ok_iff.mpr ⟨_, _, (Read.run_u16_at (by omega)).mpr ⟨rfl, rfl⟩, ?_⟩
    refine run_bind_eq_ok_iff.mpr ⟨_, _, (run_readExtent_at (by omega)).mpr ⟨rfl, rfl⟩, ?_⟩
    refine run_check_eq_ok_iff.mpr ⟨not_or.mpr ⟨hrva, hmetadata⟩, ?_⟩
    refine run_bind_eq_ok_iff.mpr ⟨_, _, (Read.run_u32_at (by omega)).mpr ⟨rfl, rfl⟩, ?_⟩
    refine run_bind_eq_ok_iff.mpr ⟨_, _, (Read.run_u32_at (by omega)).mpr ⟨rfl, rfl⟩, ?_⟩
    refine run_bind_eq_ok_iff.mpr ⟨_, _, (run_readExtent_at (by omega)).mpr ⟨rfl, rfl⟩, ?_⟩
    exact run_bind_eq_ok_iff.mpr ⟨_, _, (run_readExtent_at (by omega)).mpr ⟨rfl, rfl⟩, rfl⟩

/-- A header that is a part of a block is what the block says there. -/
theorem readAt_extract (data : Bytes) (offset : Nat) :
    readAt (data.extract offset (offset + length)) 0 = readAt data offset := by
  have hfield {start : Nat} (hstart : start + 4 ≤ length) :
      fieldAt (data.extract offset (offset + length)) start = fieldAt data (offset + start) :=
    fieldAt_extract data (Nat.add_le_add_left hstart offset)
  have hword {start : Nat} (hstart : start + 2 ≤ length) :
      wordAt (data.extract offset (offset + length)) start 2 = wordAt data (offset + start) 2 :=
    wordAt_extract data (Nat.add_le_add_left hstart offset)
  simp only [readAt, extentAt, Nat.zero_add, Nat.add_zero, Nat.add_assoc, Nat.reduceAdd,
    hword (by decide : 4 + 2 ≤ length), hword (by decide : 6 + 2 ≤ length),
    hfield (by decide : 0 + 4 ≤ length), hfield (by decide : 8 + 4 ≤ length),
    hfield (by decide : 12 + 4 ≤ length), hfield (by decide : 16 + 4 ≤ length),
    hfield (by decide : 20 + 4 ≤ length), hfield (by decide : 24 + 4 ≤ length),
    hfield (by decide : 28 + 4 ≤ length), hfield (by decide : 32 + 4 ≤ length),
    hfield (by decide : 36 + 4 ≤ length)]

/-- Blocks that agree but for the place of the metadata say the same but for that place. -/
theorem readAt_moved {data other : Bytes} {offset : Nat}
    (hfront : Agree data other offset (offset + metadataOffset))
    (hback : Agree data other (offset + metadataOffset + 8) (offset + length)) :
    readAt data offset =
      { readAt other offset with metadata := extentAt data (offset + metadataOffset) } := by
  have hback {start : Nat} (hstart : 16 ≤ start) (hstop : start + 4 ≤ length) :
      fieldAt data (offset + start) = fieldAt other (offset + start) :=
    (hback.mono (by unfold metadataOffset; omega) (by omega)).fieldAt_eq
  have hsize : fieldAt data offset = fieldAt other offset :=
    (hfront.mono (Nat.le_refl _) (by unfold metadataOffset; omega)).fieldAt_eq
  have hmajor : wordAt data (offset + 4) 2 = wordAt other (offset + 4) 2 :=
    (hfront.mono (by omega) (by unfold metadataOffset; omega)).wordAt_eq
  have hminor : wordAt data (offset + 6) 2 = wordAt other (offset + 6) 2 :=
    (hfront.mono (by omega) (by unfold metadataOffset; omega)).wordAt_eq
  simp only [readAt, extentAt, metadataOffset, Nat.add_assoc, Nat.reduceAdd, hsize, hmajor, hminor,
    hback (by decide : 16 ≤ 16) (by decide), hback (by decide : 16 ≤ 20) (by decide),
    hback (by decide : 16 ≤ 24) (by decide), hback (by decide : 16 ≤ 28) (by decide),
    hback (by decide : 16 ≤ 32) (by decide), hback (by decide : 16 ≤ 36) (by decide)]

end CliHeader

end CilPatch
