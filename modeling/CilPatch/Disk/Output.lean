import CilPatch.Disk.Files

/-!
# Output files

A file is replaced in one step: its new content is first written to a temporary file next to it,
which then takes its name. An output that is given up removes the temporary file and leaves the
old one alone. An output holds on to the file that it has started: it sees when others write to
that file, and goes on without it when they remove it.
-/

namespace CilPatch

/-- The new content of a file on the way to its place. -/
structure Output where
  /-- The path of the file that is replaced. -/
  target : String
  /-- The path of the temporary file. -/
  temporary : String
  /-- The new content. -/
  data : Bytes
  /-- Whether the temporary file is still the one that was started. -/
  attached : Bool := true

namespace Output

/-- Starts an output of a number of zero bytes. -/
def create (target : String) (size : Nat) : Task Disk Output := do
  match Path.fileName? target with
  | none => throw (.output (.notFilePath target))
  | some name =>
      if size = 0 then throw (.output .emptyImage)
      let temporary := Path.sibling target (name ++ ".tmp")
      let data := Array.replicate size 0
      Task.change fun disk => disk.write temporary data
      return { target, temporary, data }

/-- The content of the temporary file. -/
def stored? (output : Output) (disk : Disk) : Option Bytes :=
  (disk.read output.temporary).toOption

/-- Brings the temporary file up to date as far as it reaches. -/
def store (output : Output) (disk : Disk) : Disk :=
  match output.attached, output.stored? disk with
  | true, some stored =>
      let data := output.data.extract 0 stored.size ++ stored.extract output.data.size stored.size
      (disk.write output.temporary data).toOption.getD disk
  | _, _ => disk

/-- An output after others may have changed the disk. A temporary file that was written shows
its first bytes, followed by zeros where it is too short. -/
def refresh (output : Output) (disk : Disk) : Output :=
  match output.attached, output.stored? disk with
  | true, some stored =>
      let seen := stored.extract 0 output.data.size
      if seen = output.data.extract 0 stored.size then output
      else { output with data := seen ++ Array.replicate (output.data.size - seen.size) 0 }
  | _, _ => { output with attached := false }

/-- Writes bytes at an offset, all of which must lie in the output. -/
def writeAt (output : Output) (offset : Nat) (bytes : Bytes) : Task Disk Output := do
  if output.data.size < offset + bytes.size then
    throw (.output (.writeBounds bytes.size offset output.data.size))
  let output := { output with data := LittleEndian.overwrite output.data offset bytes.toList }
  modify output.store
  return output

/-- Gives an output up. -/
def discard (output : Output) (disk : Disk) : Disk :=
  (disk.remove output.temporary).toOption.getD disk

/-- Puts the new content in place of the old file, or gives it up when that fails. -/
def finish (output : Output) : Task Disk Unit := do
  match (← get).rename output.temporary output.target with
  | .ok disk => set disk
  | .error fault =>
      modify output.discard
      throw fault

/-- Replaces the content of a file. -/
def replace (target : String) (data : Bytes) : Task Disk Unit := do
  let output ← create target data.size
  let output ← output.writeAt 0 data
  output.finish

end Output

end CilPatch
