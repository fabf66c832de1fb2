import CilPatch.Cli.Run

/-!
# The program

Reads the files that belong to the executable, carries the command line out on them, and writes
back what has changed. A file is replaced by renaming a complete one over it.
-/

namespace CilPatch.Main

/-- The content of a file, if it can be read. -/
def readFile? (path : String) : IO (Option Bytes) := do
  try
    let data ← IO.FS.readBinFile path
    return some data.data
  catch _ => return none

/-- The files of a directory that have the given names. -/
def readDisk (directory : String) (names : List String) : IO Disk := do
  let files ← names.filterMapM fun name => do
    return (← readFile? (Path.join directory name)).map fun data => (name, data)
  return { directory, files }

/-- Writes a file whose content has changed, or removes one that is gone. -/
def store (before after : Disk) (name : String) : IO Unit := do
  let path := Path.join after.directory name
  match before.file? name, after.file? name with
  | some _, none => IO.FS.removeFile path
  | old, some data =>
      if old != some data then
        let temporary := path ++ ".tmp"
        IO.FS.writeBinFile temporary ⟨data⟩
        IO.FS.rename temporary path
  | none, none => return ()

/-- The values of the environment that matter. -/
def readEnv : IO (String → Option String) := do
  let names := ["HOME", "USERPROFILE", "TERRARIA_DIR", "RUST_LOG", "RUST_LOG_STYLE", "NO_COLOR",
    "CLICOLOR_FORCE"]
  let values ← names.filterMapM fun name => do
    return (← IO.getEnv name).map fun value => (name, value)
  return fun name => values.lookup name

/-- The directory of a path and the names of the files that belong to the executable there. -/
def filesOf (exe : String) : String × List String :=
  let name := (Path.fileName? exe).getD ""
  let directory := Path.ofParts (Path.parts exe).dropLast
  (if directory.isEmpty then "." else directory,
    [name ++ ".bak", name, name ++ ".patched.sha256"])

end CilPatch.Main

open CilPatch CilPatch.Main in
/-- Carries out the command line of the program. -/
def main (arguments : List String) : IO UInt32 := do
  let env ← readEnv
  let (directory, names) := match Cli.Options.ofArguments arguments with
    | .ok options => filesOf (options.config env).exePath
    | .error _ => (".", [])
  let before ← readDisk directory names
  let (reply, after) := Cli.run arguments env before
  for name in names do
    store before after name
  IO.eprint reply.err
  IO.print reply.out
  return UInt32.ofNat reply.exit
