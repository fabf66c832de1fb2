import CilPatch.Disk.Output
import CilPatch.Proofs.Disk.Leads
import CilPatch.Proofs.Task

/-!
# Replacing a file

A file is replaced through a temporary file. Either it ends up with its new content and the
temporary file is gone, or it keeps its old content.
-/

namespace CilPatch

/-- Zeros that are all written over are gone. -/
theorem LittleEndian.overwrite_replicate (data : Bytes) :
    overwrite (Array.replicate data.size 0) 0 data.toList = data := by
  apply Array.ext_getElem?
  intro index
  by_cases h : index < data.size
  · have hwritten := getElem?_overwrite_add (Array.replicate data.size 0) 0
      (show index < data.toList.length by rwa [Array.length_toList])
      (show 0 + index < (Array.replicate data.size (0 : UInt8)).size by simpa using h)
    rwa [Nat.zero_add, Array.getElem?_toList] at hwritten
  · rw [Array.getElem?_eq_none (by simpa using h), Array.getElem?_eq_none (by simpa using h)]

namespace Output

variable {disk : Disk} {target name temporary : String}

/-- What replacing a file leaves of the disk. -/
structure Replaced (disk after : Disk) (name temporary : String) (content : Bytes) : Prop where
  directory : after.directory = disk.directory
  content : after.file? name = some content
  /-- Other files than the temporary one are left alone. -/
  others : ∀ other, other ≠ name → other ≠ temporary → after.file? other = disk.file? other

/-- Bringing the temporary file up to date gives it the new content. -/
theorem store_eq {output : Output} (hattached : output.attached = true)
    (htemporary : disk.Leads output.temporary temporary) {stored : Bytes}
    (hstored : disk.file? temporary = some stored) (hsize : stored.size = output.data.size) :
    output.store disk = disk.setFile temporary output.data := by
  have hread : output.stored? disk = some stored := by
    rw [stored?, htemporary.read_eq, hstored]
    rfl
  have hdata : output.data.extract 0 stored.size ++
      stored.extract output.data.size stored.size = output.data := by
    rw [hsize, Array.extract_size, ← hsize, Array.extract_eq_empty_of_le (Nat.min_le_left _ _),
      Array.append_empty]
  rw [store, hattached, hread]
  simp only [hdata, htemporary.write_eq]
  rfl

/-- Bytes that lie in the output are written into it and into the temporary file. -/
theorem outcome_writeAt {output : Output} {offset : Nat} {bytes : Bytes}
    (hroom : offset + bytes.size ≤ output.data.size) :
    (output.writeAt offset bytes).outcome disk =
      (.ok { output with data := LittleEndian.overwrite output.data offset bytes.toList },
        store { output with data := LittleEndian.overwrite output.data offset bytes.toList }
          disk) := by
  rw [writeAt, if_neg (Nat.not_lt.mpr hroom)]
  rfl

/-- The temporary file takes the place of the target. -/
theorem outcome_finish {output : Output} (htarget : disk.Leads output.target name)
    (htemporary : disk.Leads output.temporary temporary) {stored : Bytes}
    (hstored : disk.file? temporary = some stored) :
    output.finish.outcome disk = (.ok (), (disk.eraseFile temporary).setFile name stored) := by
  rw [finish, Task.outcome_bind, Task.outcome_get]
  simp only [htemporary.rename_eq htarget, hstored]
  rfl

/-- A file is replaced by way of a temporary file next to it, or the disk is left alone. -/
theorem outcome_replace (htarget : disk.Leads target name) (data : Bytes) :
    (∃ fault, (replace target data).outcome disk = (.error fault, disk)) ∨
    ∃ after text temporary, (replace target data).outcome disk = (.ok (), after) ∧
      Path.fileName? target = some text ∧
      disk.Leads (Path.sibling target (text ++ ".tmp")) temporary ∧
      Replaced disk after name temporary data := by
  rw [replace, Task.outcome_bind, create]
  cases htext : Path.fileName? target with
  | none => exact .inl ⟨_, rfl⟩
  | some text =>
    by_cases hsize : data.size = 0
    · refine .inl ⟨.output .emptyImage, ?_⟩
      simp only [hsize, if_true, Task.outcome_bind, Task.outcome_throw]
    · simp only [hsize, if_false, Task.outcome_bind, Task.outcome_change]
      cases hwrite : disk.write (Path.sibling target (text ++ ".tmp"))
          (Array.replicate data.size 0) with
      | error fault => exact .inl ⟨fault, rfl⟩
      | ok zeros =>
        obtain ⟨temporary, htemporary, rfl⟩ := Disk.write_eq_ok_iff.mp hwrite
        -- the disk with the temporary file before and after its content is written
        let zeros := disk.setFile temporary (Array.replicate data.size 0)
        let written := zeros.setFile temporary data
        have hzeros : zeros.directory = disk.directory := disk.directory_setFile _ _
        have hwritten : written.directory = disk.directory := by
          rw [Disk.directory_setFile, hzeros]
        let filled : Output := ⟨target, Path.sibling target (text ++ ".tmp"), data, true⟩
        have hstore : filled.store zeros = written :=
          store_eq rfl (htemporary.on hzeros) (disk.file?_setFile_self _ _) Array.size_replicate
        refine .inr ⟨(written.eraseFile temporary).setFile name data, text, temporary, ?_, rfl,
          htemporary, ?_, ?_, ?_⟩
        · simp only [Task.outcome_pure]
          rw [outcome_writeAt (by simp)]
          simp only [LittleEndian.overwrite_replicate]
          rw [hstore]
          exact outcome_finish (htarget.on hwritten) (htemporary.on hwritten)
            (zeros.file?_setFile_self _ _)
        · rw [Disk.directory_setFile, Disk.directory_eraseFile, hwritten]
        · exact Disk.file?_setFile_self _ _ _
        · intro other hname hother
          rw [Disk.file?_setFile_of_ne _ _ hname, Disk.file?_eraseFile_of_ne _ hother,
            Disk.file?_setFile_of_ne _ _ hother, Disk.file?_setFile_of_ne _ _ hother]

end Output

end CilPatch
