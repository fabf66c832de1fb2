import CilPatch.Fishing.Catalog
import CilPatch.Patch.Apply

/-!
# Catching

New code behind the check whether a fish bites, in the method that moves a bobber. For a bobber
of the player at this machine it uses up bait, pulls the bobber in, removes it and returns. For
any other bobber, or without bait, the method goes on as before.
-/

namespace CilPatch.Fishing

open Build

/-- The check whether a fish bites; the place is behind it. -/
def nibbleCheck (catalog : Catalog) : Pattern where
  name := "nibble check"
  window := [⟨.exact .ldarg0, .any⟩, ⟨.exact .ldfld, .token catalog.projectileAi.token⟩,
    ⟨.exact .ldcI41, .any⟩, ⟨.exact .ldelemR4, .any⟩, ⟨.exact .ldcR4, .f32 0⟩,
    ⟨.family .bgeUn, .any⟩]
  target := 6

/-- The code that catches a fish. -/
def catchFish (catalog : Catalog) : Build Unit := do
  let bait ← declare .i4 "autofishBait"
  let player ← declare (.classType catalog.player) "autofishPlayer"
  let resume ← continuation
  -- the owner of the bobber
  sequence [field .ldsfld catalog.mainPlayer, op .ldarg0, field .ldfld catalog.projectileOwner,
    op .ldelemRef, store player]
  -- only for the player at this machine
  sequence [field .ldsfld catalog.mainMyPlayer, op .ldarg0, field .ldfld catalog.projectileOwner,
    branch .bneUn resume]
  -- only with bait
  sequence [constant 0, store bait, load player, op .ldarg0, loadAddress bait,
    call catalog.consumeBait, branch .brfalse resume]
  -- pull the bobber in
  sequence [load player, op .ldarg0, load bait, call catalog.pullBobber]
  -- remove it
  sequence [op .ldarg0, call catalog.kill, ret]

/-- The patch that catches a fish as soon as it bites. -/
def autoCatch (catalog : Catalog) : Patch where
  name := "auto-catch"
  method := catalog.bobberAi
  patterns := [nibbleCheck catalog]
  build := catchFish catalog

end CilPatch.Fishing
