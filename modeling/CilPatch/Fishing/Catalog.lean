import CilPatch.Assembly.Query
import CilPatch.Notice

/-!
# The catalog

The types, fields and methods of the game that the patches use. All of them are looked up before
anything is changed, so a build of the game that lacks one is left alone.
-/

namespace CilPatch

/-- What the patches use of the game. -/
structure Catalog where
  /-- The type of projectiles. -/
  projectile : Token
  /-- The type of players. -/
  player : Token
  /-- The type of the running game. -/
  main : Token
  /-- The type of items. -/
  item : Token
  /-- The type of everything that is in the world. -/
  entity : Token
  /-- The numbers that steer a projectile. -/
  projectileAi : FieldHandle
  /-- The player who a projectile belongs to. -/
  projectileOwner : FieldHandle
  /-- Whether a projectile is in the world. -/
  projectileActive : FieldHandle
  /-- Whether a projectile is a bobber. -/
  projectileBobber : FieldHandle
  /-- All players. -/
  mainPlayer : FieldHandle
  /-- The number of the player at this machine. -/
  mainMyPlayer : FieldHandle
  /-- All projectile slots. -/
  mainProjectile : FieldHandle
  /-- Whether the player presses the use button. -/
  controlUseItem : FieldHandle
  /-- Whether the player had let go of the use button. -/
  releaseUseItem : FieldHandle
  /-- How long the item in use is still busy. -/
  itemAnimation : FieldHandle
  /-- The number of something in the world. -/
  whoAmI : FieldHandle
  /-- How good a fishing pole an item is. -/
  fishingPole : FieldHandle
  /-- Uses up bait for a bobber. -/
  consumeBait : MethodHandle
  /-- Pulls a bobber in. -/
  pullBobber : MethodHandle
  /-- Removes a projectile. -/
  kill : MethodHandle
  /-- Moves a bobber. -/
  bobberAi : MethodHandle
  /-- Handles the item in use. -/
  itemCheck : MethodHandle
  deriving DecidableEq

namespace Catalog

/-- The namespace of the game. -/
def gameSpace : String := "Terraria"

/-- The overload of the item handler that is meant has more instructions than this. -/
def itemCheckMinimum : Nat := 2000

/-- Looks everything up, in the order of the catalog. -/
def find (assembly : Assembly) : Except Fault Catalog := do
  let type (name : String) := assembly.findType { name, space := some gameSpace }
  let field (owner : Token) (name : String) := assembly.findField owner { name }
  let staticField (owner : Token) (name : String) :=
    assembly.findField owner { name, isStatic := some true }
  let projectile ← type "Projectile"
  let player ← type "Player"
  let main ← type "Main"
  let item ← type "Item"
  let entity ← type "Entity"
  return {
    projectile, player, main, item, entity
    projectileAi := ← assembly.findField projectile
      { name := "ai", typeName := some "Single[]" }
    projectileOwner := ← field projectile "owner"
    projectileActive := ← field projectile "active"
    projectileBobber := ← field projectile "bobber"
    mainPlayer := ← staticField main "player"
    mainMyPlayer := ← staticField main "myPlayer"
    mainProjectile := ← staticField main "projectile"
    controlUseItem := ← field player "controlUseItem"
    releaseUseItem := ← field player "releaseUseItem"
    itemAnimation := ← field player "itemAnimation"
    whoAmI := ← field entity "whoAmI"
    fishingPole := ← field item "fishingPole"
    consumeBait := ← assembly.findMethod player
      { name := "ItemCheck_CheckFishingBobber_ConsumeBait" }
    pullBobber := ← assembly.findMethod player
      { name := "ItemCheck_CheckFishingBobber_PullBobber" }
    kill := ← assembly.findMethod projectile
      { name := "Kill", isStatic := some false, params := some 0 }
    bobberAi := ← assembly.findMethod projectile { name := "AI_061_FishingBobber" }
    itemCheck := ← assembly.findMethod player
      { name := "ItemCheck", moreThan := some itemCheckMinimum } }

/-- Looks everything up and tells of it. -/
def resolve (assembly : Assembly) : Noted Catalog := do
  let catalog ← find assembly
  note .game .debug "resolved all symbols"
  return catalog

end Catalog

end CilPatch
