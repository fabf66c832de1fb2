import CilPatch.Fishing.Catch
import CilPatch.Fishing.Recast

/-!
# All patches

Both patches are applied one after the other, or their places are only looked for.
-/

namespace CilPatch.Fishing

/-- The patches for a configuration, in the order in which they are applied. -/
def patches (catalog : Catalog) (config : Config) : List Patch :=
  [autoCatch catalog, autoRecast catalog config]

/-- Applies patches in order, up to the first that fails. -/
def applyAll : List Patch → Task Assembly (List PatchOutcome)
  | [] => return []
  | patch :: rest => do
      let first ← patch.apply
      let outcomes ← applyAll rest
      return first :: outcomes

/-- Applies all patches to an assembly. -/
def patchAll (config : Config) : Task Assembly (List PatchOutcome) := do
  Task.ofExcept config.validate
  let catalog ← (Catalog.resolve (← get)).toTask
  applyAll (patches catalog config)

/-- Where a patch would go: the name of its method and the match in it. -/
def locatePatch (assembly : Assembly) (patch : Patch) : Noted (String × Match) := do
  let method := assembly.methodName patch.method.token
  let body ← assembly.body patch.method.token
  let found ← Pattern.findNoted patch.patterns body.instructions method
  return (method, found)

/-- Where all patches would go. -/
def locate (config : Config) (assembly : Assembly) : Noted (List (String × Match)) := do
  let catalog ← Catalog.resolve assembly
  (patches catalog config).mapM (locatePatch assembly)

end CilPatch.Fishing
