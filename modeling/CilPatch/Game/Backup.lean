import CilPatch.Digest.Sha256
import CilPatch.Disk.Files
import CilPatch.Game.Config
import CilPatch.Text.Blank

/-!
# Backups

Next to the executable lie a copy of the game before it was patched and the digest of the
executable after it was patched. An executable with that digest is one that was patched here;
one with another digest has been updated since. So what is patched is never patched already.
-/

namespace CilPatch

/-- The files that belong to one executable. -/
structure Backup where
  /-- The path of the executable. -/
  exe : String
  /-- The path of the copy. -/
  copy : String
  /-- The path of the digest. -/
  sidecar : String

/-- What the files say about the executable. -/
inductive BackupState where
  /-- There is no copy. -/
  | missing
  /-- There is a copy but no digest. -/
  | unverified
  /-- The executable has the digest. -/
  | patched
  /-- The executable has another digest. -/
  | updated
  deriving DecidableEq

/-- What was done before patching. -/
inductive BackupAction where
  /-- A copy was made. -/
  | created
  /-- A copy without digest was replaced. -/
  | replacedStale
  /-- The executable was replaced by the copy. -/
  | restored
  /-- The copy was replaced by an updated executable. -/
  | replacedAfterUpdate
  deriving DecidableEq

/-- The name of a state. -/
def BackupState.name : BackupState → String
  | missing => "Missing"
  | unverified => "Unverified"
  | patched => "Patched"
  | updated => "Updated"

/-- The name of an action. -/
def BackupAction.name : BackupAction → String
  | created => "Created"
  | replacedStale => "ReplacedStale"
  | restored => "RestoredOriginal"
  | replacedAfterUpdate => "ReplacedAfterUpdate"

/-- The digest of a file. -/
def Disk.hash (disk : Disk) (path : String) : Except Fault String :=
  (disk.read path).map Sha256.text

namespace Backup

/-- The files for a configuration. -/
def ofConfig (config : Config) : Backup := ⟨config.exePath, config.backupPath, config.hashPath⟩

/-- What the files say about the executable. -/
def state (backup : Backup) (disk : Disk) : Except Fault BackupState := do
  if !disk.pathExists backup.copy then return .missing
  if !disk.pathExists backup.sidecar then return .unverified
  let recorded ← disk.readText backup.sidecar
  let hash ← disk.hash backup.exe
  return if hash = trimBlank recorded then .patched else .updated

/-- Leaves a notice of what was done to the files. -/
def tell (text : String) : Task Disk Unit := (note .backup .info text).toTask

/-- Makes sure that there is a copy of the unpatched game and that the executable is it. -/
def prepare (backup : Backup) : Task Disk BackupAction := do
  if !(← get).pathExists backup.exe then throw (.disk (.noExecutable backup.exe))
  match ← Task.inspect backup.state with
  | .missing =>
      Task.change (·.copy backup.exe backup.copy)
      tell ("Backup created: " ++ backup.copy)
      return .created
  | .unverified =>
      Task.change (·.remove backup.copy)
      Task.change (·.copy backup.exe backup.copy)
      tell "No hash file found, replaced stale backup"
      return .replacedStale
  | .patched =>
      Task.change (·.copy backup.copy backup.exe)
      tell "Restored original from backup"
      return .restored
  | .updated =>
      Task.change (·.copy backup.exe backup.copy)
      tell "Detected game update, backup replaced with new version"
      return .replacedAfterUpdate

/-- Records the digest of the executable as one that was patched. -/
def record (backup : Backup) : Task Disk String := do
  let hash ← Task.inspect (·.hash backup.exe)
  Task.change (·.write backup.sidecar hash.toUTF8.data)
  (note .backup .debug ("recorded " ++ hash ++ " in " ++ backup.sidecar)).toTask
  return hash

/-- Puts the copy in place of the executable and forgets the digest. -/
def restore (backup : Backup) : Task Disk Unit := do
  if !(← get).pathExists backup.copy then throw (.disk (.noBackup backup.copy))
  Task.change (·.copy backup.copy backup.exe)
  if (← get).pathExists backup.sidecar then Task.change (·.remove backup.sidecar)
  tell ("Restored " ++ backup.exe ++ " from " ++ backup.copy)

end Backup

end CilPatch
