import CilPatch.Text.Regex.Meaning
import CilPatch.Text.Regex.Room

/-!
# Expressions from patterns

A pattern is read as a whole before it is asked what it means, and an expression is made only if
it can be searched.
-/

namespace CilPatch.Regex

/-- How deeply the parts of a pattern can be nested. -/
def depthLimit : Nat := 250

/-- How much room a search can take. -/
def roomLimit : Nat := 10485760

/-- An expression that can be searched. -/
def searchable (regex : Regex) : Except Refusal Regex :=
  if roomLimit < regex.searchRoom false then .error (.tooLarge roomLimit)
  else if regex.asksForScripts then .error .scriptWords
  else if roomLimit < regex.searchRoom true then .error (.tooLarge roomLimit)
  else .ok regex

/-- The expression that a pattern describes. -/
def ofPattern (pattern : String) : Except Refusal Regex := do
  let part ← Part.ofPattern pattern
  part.checkDepth depthLimit 0
  let (regex, _) ← part.regex {}
  searchable regex

end CilPatch.Regex
