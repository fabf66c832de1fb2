import CilPatch.Disk.Path
import CilPatch.Fault

/-!
# Configuration

Where the game is and what of it depends on its build. The directory comes from the user, from
the environment, or is the one that Steam installs into.
-/

namespace CilPatch

/-- What a run of the patcher depends on. -/
structure Config where
  /-- The directory of the game. -/
  directory : String
  /-- The file name of the executable. -/
  exeName : String := "Terraria.exe"
  /-- How many projectile slots the game has. -/
  maxProjectiles : Int32 := 1000
  /-- The local variable that holds the item in use. -/
  heldItemLocal : UInt16 := 1
  /-- Whether a backup is kept. -/
  backup : Bool := true

namespace Config

/-- Where Steam installs the game, below the home directory. -/
def steamDirectory : String := ".local/share/Steam/steamapps/common/Terraria"

/-- The configuration for the home directory that an environment names. -/
def ofHome (env : String → Option String) : Config where
  directory :=
    Path.join (((env "HOME").orElse fun _ => env "USERPROFILE").getD "") steamDirectory

/-- The configuration for the game directory that an environment names. -/
def ofEnv (env : String → Option String) : Config :=
  match (env "TERRARIA_DIR").filter (!·.isEmpty) with
  | some directory => { ofHome env with directory }
  | none => ofHome env

/-- Checks that there is a projectile slot to look at. -/
def validate (config : Config) : Except Fault Unit :=
  if config.maxProjectiles ≤ 0 then
    .error (.config (.projectiles config.maxProjectiles.toInt))
  else .ok ()

/-- The path of the executable. -/
def exePath (config : Config) : String := Path.join config.directory config.exeName

/-- The path of the backup. -/
def backupPath (config : Config) : String := config.exePath ++ ".bak"

/-- The path of the file with the digest of the patched executable. -/
def hashPath (config : Config) : String := config.exePath ++ ".patched.sha256"

end Config

end CilPatch
