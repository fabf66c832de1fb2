import CilPatch.Assembly.PatchSection
import CilPatch.Disk.Output
import CilPatch.Fishing.Patches
import CilPatch.Game.Backup

/-!
# The patcher

A run makes sure of a backup, loads the executable, applies all patches, writes the new image
over the executable and records its digest. An image that cannot be patched is not written.
-/

namespace CilPatch

/-- What a run did. -/
structure PatchReport where
  /-- What was done to the backup, if one is kept. -/
  backup : Option BackupAction
  /-- What each patch did. -/
  outcomes : List PatchOutcome
  /-- The size of the executable before. -/
  sizeBefore : Nat
  /-- The size of the executable after. -/
  sizeAfter : Nat
  /-- The recorded digest, if a backup is kept. -/
  hash : Option String

/-- What there is to say about an executable. -/
structure Inspection where
  /-- The name of the image. -/
  name : String
  /-- The identifier that the image was given when it was made. -/
  versionId : Guid
  /-- What the files say about the executable. -/
  backup : BackupState
  /-- Where the patches would go, or why they cannot be applied. -/
  locations : Except Fault (List (String × Match))

namespace Patcher

/-- Loads an image and tells of it. -/
def load (data : Bytes) : Noted Assembly := do
  let assembly ← Assembly.ofBytes data
  note .assembly .debug assembly.summary
  return assembly

/-- Applies all patches to an image: what each did, and the new image. -/
def patchImage (config : Config) (assembly : Assembly) :
    Noted (List PatchOutcome × Assembly) :=
  ExceptT.mk do
    let (outcomes, assembly) ← (Fishing.patchAll config).run assembly
    return outcomes.map fun outcomes => (outcomes, assembly)

/-- Backs up, patches and writes the executable. -/
def run (config : Config) : Task Disk PatchReport := do
  Task.ofExcept config.validate
  let exe := config.exePath
  let backup := Backup.ofConfig config
  let action ← if config.backup then some <$> backup.prepare else pure none
  (note .game .info ("Loading " ++ exe)).toTask
  let data ← Task.inspect (·.map exe)
  let assembly ← (load data).toTask
  let (outcomes, assembly) ← (patchImage config assembly).toTask
  (note .game .info ("Saving patched " ++ exe)).toTask
  let image ← assembly.toBytes.toTask
  Output.replace exe image
  let hash ← if config.backup then some <$> backup.record else pure none
  (note .game .info ("Original: " ++ toString data.size ++ " bytes")).toTask
  (note .game .info ("Patched:  " ++ toString image.size ++ " bytes")).toTask
  return {
    backup := action
    outcomes
    sizeBefore := data.size
    sizeAfter := image.size
    hash }

/-- Puts the unpatched executable back. -/
def restore (config : Config) : Task Disk Unit := (Backup.ofConfig config).restore

/-- Says where the patches would go, without writing anything. -/
def inspect (config : Config) : Task Disk Inspection := do
  let backup ← Task.inspect (Backup.ofConfig config).state
  let data ← Task.inspect (·.map config.exePath)
  let assembly ← (load data).toTask
  let name ← Task.ofExcept assembly.name
  let versionId ← Task.ofExcept assembly.versionId
  let locations ← Task.ofLogged (Fishing.locate config assembly).run
  return { name, versionId, backup, locations }

end Patcher

end CilPatch
