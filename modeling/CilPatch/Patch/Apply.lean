import CilPatch.Assembly.Basic
import CilPatch.Notice
import CilPatch.Patch.Pattern
import CilPatch.Patch.Splice

/-!
# Patches

A patch says for one method where new code goes and how it is built. Applying it finds the
place, builds a fragment for the instruction there and splices it in. A patch that fails places
no instruction, but the method counts as edited from the start.
-/

namespace CilPatch

/-- New code for one method. -/
structure Patch where
  /-- What the patch is called. -/
  name : String
  /-- The method that is patched. -/
  method : MethodHandle
  /-- Patterns of the place, in the order in which they are tried. -/
  patterns : List Pattern
  /-- How the fragment is built. -/
  build : Build Unit

/-- What a patch did. -/
structure PatchOutcome where
  /-- The name of the patch. -/
  patch : String
  /-- The name of the method. -/
  method : String
  /-- The name of the pattern that was found. -/
  pattern : String
  /-- What the splice did. -/
  splice : SpliceReport
  deriving DecidableEq

/-- Looks for the first pattern that is found, and tells of each that is not. -/
def Pattern.findNoted (candidates : List Pattern) (list : InstrList) (method : String) :
    Noted Match := do
  let result := Pattern.find candidates list method
  let missed := match result with
    | .ok found => candidates.take found.candidate
    | .error _ => candidates
  for pattern in missed do
    note .pattern .debug ("pattern '" ++ pattern.name ++ "' did not match")
  result

namespace Patch

/-- The instruction at a match. -/
def anchor (list : InstrList) (found : Match) (method : String) : Except Fault Slot :=
  match list.slotAt? found.index with
  | some slot => .ok slot
  | none => .error (.malformed (.matchIndex found.index method))

/-- Keeps the body of the patched method. -/
def keep (patch : Patch) (body : Body) : Task Assembly Unit :=
  modify fun assembly => assembly.setBody patch.method.token body

/-- Builds the fragment for an instruction and splices it in at an index. -/
def inject (patch : Patch) (body : Body) (index : Nat) (anchor : Slot) :
    Task Assembly SpliceReport := do
  let (built, builder) := patch.build.run (Builder.start body anchor)
  patch.keep builder.body
  Task.ofExcept built
  let fragment ← Task.ofExcept builder.finish
  let (report, body) := (CilPatch.splice index fragment).run builder.body
  patch.keep body
  Task.ofExcept report

/-- Applies a patch. -/
def apply (patch : Patch) : Task Assembly PatchOutcome := do
  let assembly ← get
  let method := assembly.methodName patch.method.token
  let body ← Task.ofExcept (assembly.body patch.method.token)
  patch.keep body
  let found ← (Pattern.findNoted patch.patterns body.instructions method).toTask
  (note .patch .info (patch.name ++ ": pattern '" ++ found.pattern ++ "' matched " ++ method ++
    " at index " ++ toString found.index)).toTask
  let anchor ← Task.ofExcept (anchor body.instructions found method)
  let report ← patch.inject body found.index anchor
  (note .patch .info (patch.name ++ ": injected " ++ toString report.inserted ++
    " instructions, retargeted " ++ toString report.retargeted.length ++ " branches, " ++
    toString report.locals ++ " new locals")).toTask
  (note .patch .debug (patch.name ++ ": retargeted positions [" ++
    ", ".intercalate (report.retargeted.map toString) ++ "]")).toTask
  return { patch := patch.name, method, pattern := found.pattern, splice := report }

end Patch

end CilPatch
