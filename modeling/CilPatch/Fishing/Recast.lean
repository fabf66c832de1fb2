import CilPatch.Fishing.Catalog
import CilPatch.Game.Config
import CilPatch.Patch.Apply

/-!
# Casting again

New code in front of the test of the use button, in the method that handles the item in use. If
the item is a fishing pole that is not busy, and no bobber of the player is in the world, the
button is taken as pressed anew, and the game casts.
-/

namespace CilPatch.Fishing

open Build

/-- The test of the use button right behind a store that says it was let go. -/
def gateAfterStore (catalog : Catalog) : Pattern where
  name := "gate after releaseUseItem store"
  window := [⟨.exact .stfld, .token catalog.releaseUseItem.token⟩, ⟨.exact .ldarg0, .any⟩,
    ⟨.exact .ldfld, .token catalog.controlUseItem.token⟩, ⟨.family .brfalse, .any⟩]
  target := 1

/-- The test of the use button followed by the test whether it was let go. -/
def gateOfBoth (catalog : Catalog) : Pattern where
  name := "controlUseItem and releaseUseItem gate"
  window := [⟨.exact .ldarg0, .any⟩, ⟨.exact .ldfld, .token catalog.controlUseItem.token⟩,
    ⟨.family .brfalse, .any⟩, ⟨.exact .ldarg0, .any⟩,
    ⟨.exact .ldfld, .token catalog.releaseUseItem.token⟩, ⟨.family .brfalse, .any⟩]

/-- The code that casts again. -/
def recast (catalog : Catalog) (slots : Int32) (heldItem : UInt16) : Build Unit := do
  if slots ≤ 0 then throw (.config (.scanSlots slots.toInt))
  let index ← declare .i4 "afLoopIdx"
  let slot ← declare (.classType catalog.projectile) "afProj"
  let gate ← continuation
  let body ← reserve
  let next ← reserve
  let check ← reserve
  -- only with a fishing pole
  sequence [loadIndex heldItem, field .ldfld catalog.fishingPole, constant 0, branch .ble gate]
  -- only when it is not busy
  sequence [op .ldarg0, field .ldfld catalog.itemAnimation, constant 0, branch .bneUn gate]
  -- look at the projectile slots, the first one first
  sequence [constant 0, store index, branch .br check]
  bind body
  sequence [field .ldsfld catalog.mainProjectile, load index, op .ldelemRef, store slot]
  -- pass over empty slots
  sequence [load slot, field .ldfld catalog.projectileActive, branch .brfalse next]
  -- pass over projectiles of others
  sequence [load slot, field .ldfld catalog.projectileOwner, op .ldarg0,
    field .ldfld catalog.whoAmI, branch .bneUn next]
  -- pass over all but bobbers
  sequence [load slot, field .ldfld catalog.projectileBobber, branch .brfalse next]
  -- a bobber is in the world
  sequence [branch .br gate]
  bind next
  sequence [load index, constant 1, op .add, store index]
  bind check
  sequence [load index, constant slots, branch .blt body]
  -- press the button anew
  sequence [op .ldarg0, constant 1, field .stfld catalog.controlUseItem, op .ldarg0, constant 1,
    field .stfld catalog.releaseUseItem]

/-- The patch that casts again once no bobber is out. -/
def autoRecast (catalog : Catalog) (config : Config) : Patch where
  name := "auto-recast"
  method := catalog.itemCheck
  patterns := [gateAfterStore catalog, gateOfBoth catalog]
  build := recast catalog config.maxProjectiles config.heldItemLocal

end CilPatch.Fishing
