import CilPatch.Cli.Help
import CilPatch.Cli.Log
import CilPatch.Cli.Table
import CilPatch.Game.Patcher
import CilPatch.Report.Tree

/-!
# Running a command line

A command line is carried out on a disk. What it did is answered as text for people or as JSON
for programs; notices and the fault that ended it go to the error output.
-/

namespace CilPatch.Cli

/-- What a command line answers. -/
structure Reply where
  /-- The exit code. -/
  exit : Nat
  /-- The answer. -/
  out : String := ""
  /-- The error output. -/
  err : String := ""

/-- The answer to a command in both forms. -/
structure Answer where
  /-- The answer for programs. -/
  report : Report
  /-- The lines of the answer for people. -/
  lines : List String

open Report in
/-- What a run of the patcher did. -/
def patchAnswer (exe : String) (done : PatchReport) : Answer where
  report := .record ([field "exe" exe] ++ field? "backup" (done.backup.map BackupAction.name) ++
    [field "patches" (done.outcomes.map fun outcome => Report.record [
      field "patch" outcome.patch, field "method" outcome.method,
      field "pattern" outcome.pattern, field "index" outcome.splice.index,
      field "inserted" outcome.splice.inserted,
      field "retargeted" outcome.splice.retargeted.length,
      field "locals" outcome.splice.locals]),
    field "original_size" done.sizeBefore, field "patched_size" done.sizeAfter] ++
    field? "hash" done.hash)
  lines := ["Patched " ++ exe] ++
    Table.lines {
      texts := ["Patch", "Method", "Pattern"]
      counts := ["Index", "Inserted", "Retargeted"]
      rows := done.outcomes.map fun outcome =>
        ([outcome.patch, outcome.method, outcome.pattern],
          [outcome.splice.index, outcome.splice.inserted, outcome.splice.retargeted.length]) } ++
    (done.hash.map ("SHA-256:  " ++ ·)).toList

open Report in
/-- What there is to say about an executable. -/
def infoAnswer (exe : String) (found : Inspection) : Answer :=
  let (locations, fault) := match found.locations with
    | .ok locations => (locations, none)
    | .error fault => ([], some fault.text)
  {
    report := .record ([field "exe" exe, field "module" found.name,
      field "mvid" found.versionId.text, field "backup" found.backup.name,
      field "locations" (locations.map fun (method, found) => Report.record [
        field "method" method, field "pattern" found.pattern, field "index" found.index])] ++
      field? "error" fault)
    lines := ["Executable:  " ++ exe, "Module:      " ++ found.name,
      "MVID:        " ++ found.versionId.text, "Backup:      " ++ found.backup.name] ++
      match fault with
      | some cause => ["Patches:     cannot be applied: " ++ cause]
      | none => ["", "Patch locations:"] ++ Table.lines {
          texts := ["Method", "Pattern"]
          counts := ["Index"]
          rows := locations.map fun (method, found) => ([method, found.pattern], [found.index]) } }

open Report in
/-- What putting the backup back did. -/
def restoreAnswer (config : Config) : Answer where
  report := .record [field "exe" config.exePath, field "backup" config.backupPath]
  lines := ["Restored " ++ config.exePath ++ " from " ++ config.backupPath]

/-- What a command does to an executable, as it stands in messages. -/
def Command.attempt : Command → String
  | patch => "patch"
  | restore => "restore"
  | info => "load"

/-- Carries a command out. -/
def Command.run (command : Command) (config : Config) : Task Disk Answer := do
  match command with
  | patch => return patchAnswer config.exePath (← Patcher.run config)
  | info => return infoAnswer config.exePath (← Patcher.inspect config)
  | restore =>
      Patcher.restore config
      return restoreAnswer config

/-- A fault with what caused it; faults of the disk and of images are their own causes. -/
def causes (fault : Fault) : String :=
  let repeated (count : Nat) := ": ".intercalate (List.replicate count fault.text)
  match fault with
  | .disk _ => repeated 2
  | .image cause => repeated cause.levels
  | _ => repeated 1

/-- An answer as text. -/
def Answer.text (answer : Answer) (json : Bool) : String :=
  if json then answer.report.pretty ++ "\n" else unlines answer.lines

/-- What is said about a fault that ends a command. -/
def failure (command : Command) (config : Config) (fault : Fault) : String :=
  "failed to " ++ command.attempt ++ " " ++ config.exePath ++ ": " ++ causes fault

/-- The error output: the fault alone where the answer is for programs, and else all notices
that are to be shown. -/
def errorText (options : Options) (env : String → Option String) (notices : List Notice)
    (failure : Option String) : String :=
  if options.json then unlines failure.toList
  else
    let (log, complaints) := Log.ofEnv options.verbose env
    let last := failure.toList.map fun text => { origin := .run, level := .error, text }
    unlines complaints ++ log.text (notices ++ last)

/-- Carries a command line out. -/
def runOptions (options : Options) (env : String → Option String) (disk : Disk) :
    Reply × Disk :=
  let config := options.config env
  let logged := (options.command.run config).run disk
  let err (failure : Option String) := errorText options env logged.notices failure
  match logged.value with
  | (.ok answer, disk) => (⟨0, answer.text options.json, err none⟩, disk)
  | (.error fault, disk) => (⟨1, "", err (failure options.command config fault)⟩, disk)

/-- Carries arguments out. -/
def run (arguments : List String) (env : String → Option String) (disk : Disk) :
    Reply × Disk :=
  match Options.ofArguments arguments with
  | .ok options => runOptions options env disk
  | .error .version => (⟨0, unlines [programName ++ " " ++ version], ""⟩, disk)
  | .error (.help topic) => (⟨0, topic.text (Terminal.isForced env), ""⟩, disk)
  | .error .refused => (⟨2, "", Topic.program.text false⟩, disk)

end CilPatch.Cli
