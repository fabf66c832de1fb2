import CilPatch.Bytes.LittleEndian
import CilPatch.Disk.Path
import CilPatch.Notice

/-!
# Files

The files of one directory by their names. Everything else on the disk is taken to be empty, but
for the directories on the way to this one and the working directory; a file that is put there is
kept by its whole path.
-/

namespace CilPatch

/-- The files of one directory. -/
structure Disk where
  /-- The path of the directory. -/
  directory : String
  /-- The files by their names; those outside of the directory by their paths. -/
  files : List (String × Bytes) := []

/-- What a path leads to. -/
inductive Place where
  /-- A directory, by its start and the names from there on. -/
  | directory (names : List String)
  /-- A file. -/
  | file (name : String)
  /-- A name in a directory without a file. -/
  | vacant (name : String)
  deriving DecidableEq

namespace Disk

/-- The content of the file with a name. -/
def file? (disk : Disk) (name : String) : Option Bytes := disk.files.lookup name

/-- A disk on which a file has a content. -/
def setFile (disk : Disk) (name : String) (data : Bytes) : Disk :=
  if (disk.file? name).isSome then
    { disk with
      files := disk.files.map fun entry => if entry.1 == name then (name, data) else entry }
  else { disk with files := disk.files ++ [(name, data)] }

/-- A disk on which there is no file with a name. -/
def eraseFile (disk : Disk) (name : String) : Disk :=
  { disk with files := disk.files.filter fun entry => entry.1 != name }

/-- An erased file is not there. -/
theorem file?_eraseFile_self (disk : Disk) (name : String) :
    (disk.eraseFile name).file? name = none := by
  rw [file?, eraseFile, List.lookup_eq_none_iff]
  intro entry hentry
  have hne := (List.mem_filter.mp hentry).2
  rw [bne_iff_ne] at hne
  exact bne_iff_ne.mpr (Ne.symm hne)

/-- Erasing a file leaves the others alone. -/
theorem file?_eraseFile_of_ne (disk : Disk) {name other : String} (h : other ≠ name) :
    (disk.eraseFile name).file? other = disk.file? other := by
  obtain ⟨directory, files⟩ := disk
  simp only [file?, eraseFile]
  induction files with
  | nil => rfl
  | cons entry rest ih =>
      obtain ⟨key, content⟩ := entry
      by_cases hkey : key = name
      · have hne : (other == key) = false := by simp [hkey, h]
        simp [hkey, List.lookup_cons, hkey ▸ hne, ih]
      · simp [hkey, List.lookup_cons, ih]

/-- A file has the content that it was given. -/
theorem file?_setFile_self (disk : Disk) (name : String) (data : Bytes) :
    (disk.setFile name data).file? name = some data := by
  obtain ⟨directory, files⟩ := disk
  unfold setFile
  split
  · next hfound =>
    simp only [file?] at hfound ⊢
    induction files with
    | nil => simp at hfound
    | cons entry rest ih =>
        obtain ⟨key, content⟩ := entry
        by_cases hkey : key = name
        · simp [hkey]
        · have hne : (name == key) = false := by simp [Ne.symm hkey]
          have hfalse : (key == name) = false := by simp [hkey]
          simp only [List.lookup_cons, hne] at hfound
          simp only [List.map_cons, hfalse, Bool.false_eq_true, if_false, List.lookup_cons, hne,
            ih hfound]
  · next hmissing =>
    have hnone : files.lookup name = none := Option.not_isSome_iff_eq_none.mp hmissing
    simp [file?, List.lookup_append, hnone]

/-- Giving a file a content leaves the others alone. -/
theorem file?_setFile_of_ne (disk : Disk) {name other : String} (data : Bytes)
    (h : other ≠ name) : (disk.setFile name data).file? other = disk.file? other := by
  obtain ⟨directory, files⟩ := disk
  have hne : (other == name) = false := by simp [h]
  have hmap : (files.map fun entry => if entry.1 == name then (name, data) else entry).lookup
      other = files.lookup other := by
    induction files with
    | nil => rfl
    | cons entry rest ih =>
        obtain ⟨key, content⟩ := entry
        by_cases hkey : key = name
        · simp only [List.map_cons, hkey, beq_self_eq_true, if_true, List.lookup_cons, hne, ih]
        · have hfalse : (key == name) = false := by simp [hkey]
          simp only [List.map_cons, hfalse, Bool.false_eq_true, if_false, List.lookup_cons, ih]
  unfold setFile
  split
  · exact hmap
  · simp [file?, List.lookup_append, List.lookup_cons, hne]

/-- The directory of the files, by its start and the names from there on. -/
def home (disk : Disk) : List String := Path.resolve disk.directory

/-- The name of a file in the directory, or the path of one that is elsewhere. -/
def nameOf (disk : Disk) (folder : List String) (name : String) : String :=
  if folder = disk.home then name else Path.ofParts (folder ++ [name])

/-- The files in the directory. -/
def listing (disk : Disk) : List (String × Bytes) :=
  disk.files.filter fun entry => !entry.1.contains '/'

/-- How long a name can be, in bytes. -/
def nameLimit : Nat := 255

/-- How long a path can be, in bytes. -/
def pathLimit : Nat := 4095

/-- Takes one step on the way to a place. Only a directory leads further, be it to itself. -/
def enter (disk : Disk) (place : Place) (part : String) : Except Fault Place :=
  match place with
  | .file _ => .error (.disk .notDirectory)
  | .vacant _ => .error (.disk .missing)
  | .directory names =>
      if part = "." then .ok place
      else if part = ".." then .ok (.directory (Path.above names))
      else if nameLimit < part.utf8ByteSize then .error (.disk .nameTooLong)
      else if (names ++ [part]).isPrefixOf disk.home then .ok (.directory (names ++ [part]))
      else
        let name := disk.nameOf names part
        .ok (if (disk.file? name).isSome then .file name else .vacant name)

/-- What a path leads to, apart from a slash at its end. -/
def reach (disk : Disk) (path : String) : Except Fault Place :=
  if path.toList.contains '\x00' then .error (.disk .nullCharacter)
  else if path.isEmpty then .error (.disk .missing)
  else if pathLimit < path.utf8ByteSize then .error (.disk .nameTooLong)
  else (Path.steps path).foldlM disk.enter (.directory [Path.start path])

/-- What a path leads to. A slash at its end asks for a directory. -/
def place (disk : Disk) (path : String) : Except Fault Place := do
  let place ← disk.reach path
  if Path.endsInSlash path then disk.enter place "." else return place

/-- Whether a path leads to a file or a directory. -/
def pathExists (disk : Disk) (path : String) : Bool :=
  match disk.place path with
  | .ok (.directory _) | .ok (.file _) => true
  | .ok (.vacant _) | .error _ => false

/-- The file that a path leads to, with the fault that a directory in its place causes. -/
def fileOr (disk : Disk) (path : String) (refusal : DiskFault) :
    Except Fault (String × Bytes) := do
  match ← disk.place path with
  | .directory _ => throw (.disk refusal)
  | .vacant _ => throw (.disk .missing)
  | .file name =>
      match disk.file? name with
      | some data => return (name, data)
      | none => throw (.disk .missing)

/-- The content of a file. -/
def read (disk : Disk) (path : String) : Except Fault Bytes :=
  (disk.fileOr path .directory).map (·.2)

/-- The content of a file as text. -/
def readText (disk : Disk) (path : String) : Except Fault String := do
  match String.fromUTF8? ⟨← disk.read path⟩ with
  | some text => return text
  | none => throw (.disk .encoding)

/-- The content of a file that is mapped into memory. -/
def map (disk : Disk) (path : String) : Except Fault Bytes :=
  (disk.fileOr path .notMappable).map (·.2)

/-- Writes a whole file. -/
def write (disk : Disk) (path : String) (data : Bytes) : Except Fault Disk := do
  match ← disk.reach path with
  | .directory _ => throw (.disk .directory)
  | .file name | .vacant name =>
      if Path.endsInSlash path then throw (.disk .directory)
      return disk.setFile name data

/-- Copies a file over another. -/
def copy (disk : Disk) (source target : String) : Except Fault Disk := do
  let (_, data) ← disk.fileOr source .notRegular
  disk.write target data

/-- Removes a file. -/
def remove (disk : Disk) (path : String) : Except Fault Disk := do
  let (name, _) ← disk.fileOr path .directory
  return disk.eraseFile name

/-- Gives a file another path, in place of a file that is there. -/
def rename (disk : Disk) (source target : String) : Except Fault Disk := do
  let (name, data) ← disk.fileOr source .directory
  match ← disk.reach target with
  | .directory _ =>
      if [some ".", some ".."].contains (Path.steps target).getLast? then throw (.disk .busy)
      throw (.disk (if Path.endsInSlash target then .notDirectory else .directory))
  | .file other | .vacant other =>
      if Path.endsInSlash target then throw (.disk .notDirectory)
      return (disk.eraseFile name).setFile other data

end Disk

/-- A step that looks at the disk. -/
def Task.inspect {α : Type} (look : Disk → Except Fault α) : Task Disk α := do
  Task.ofExcept (look (← get))

/-- A step that changes the disk, unless it fails. -/
def Task.change (step : Disk → Except Fault Disk) : Task Disk Unit := do
  set (← Task.inspect step)

end CilPatch
