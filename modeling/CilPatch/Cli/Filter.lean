import CilPatch.Notice
import CilPatch.Text.Blank
import CilPatch.Text.Regex.Pattern

/-!
# Filters of notices

A filter says which notices are shown. Each of its rules is for the origins whose path starts
with a name, and lets notices through down to a level; the longest name decides. A pattern that
notices have to match can be added. What cannot be read in the text of a filter is left out with
a complaint.
-/

namespace CilPatch

/-- The path of an origin, by which rules name it. -/
def Origin.path : Origin → String
  | run => "autofish"
  | game => "autofish::autofish"
  | backup => "autofish::backup"
  | assembly => "autofish::module"
  | patchSection => "autofish::module::writer"
  | patch => "autofish::patch"
  | pattern => "autofish::patch::pattern"

end CilPatch

namespace CilPatch.Cli

/-- A rule for some origins. -/
structure Rule where
  /-- What the paths of the origins start with; a rule without a name is for all of them. -/
  name : Option String
  /-- How many levels are shown. -/
  levels : Nat

/-- What is shown of the notices. -/
structure Filter where
  /-- The rules, no two of which have the same name. -/
  rules : List Rule
  /-- What notices have to match. -/
  pattern : Option Regex := none

/-- The number of levels that a word lets through. The last word also stands for what is less
important than all notices. -/
def levels? (word : String) : Option Nat :=
  ["off", "error", "warn", "info", "debug", "trace"].findIdx? (· == word.toLower)

/-- The number of levels that lets everything through. -/
def allLevels : Nat := 5

namespace Rule

/-- Whether a rule is for an origin. -/
def isFor (rule : Rule) (origin : Origin) : Bool :=
  rule.name.all fun name => name.toList.isPrefixOf origin.path.toList

/-- How long the name of a rule is, in bytes. -/
def length (rule : Rule) : Nat := (rule.name.map (·.utf8ByteSize)).getD 0

/-- Reads a rule: a level, a name, or both with an equals sign between them. -/
def ofText (text : String) : Except String Rule :=
  let invalid (part : String) : Except String Rule :=
    .error ("invalid logging spec '" ++ part ++ "'")
  match text.splitOn "=" with
  | [word] =>
      match levels? word with
      | some levels => .ok ⟨none, levels⟩
      | none => .ok ⟨some word, allLevels⟩
  | [name, word] =>
      let word := trimBlank word
      if word.isEmpty then .ok ⟨some name, allLevels⟩
      else
        match levels? word with
        | some levels => .ok ⟨some name, levels⟩
        | none => invalid word
  | _ => invalid text

end Rule

namespace Filter

/-- A filter with a rule that replaces one of the same name. -/
def put (filter : Filter) (rule : Rule) : Filter :=
  if filter.rules.any (·.name == rule.name) then
    { filter with
      rules := filter.rules.map fun other => if other.name == rule.name then rule else other }
  else { filter with rules := filter.rules ++ [rule] }

/-- The rule that decides about an origin: the one with the longest name, and of those the
last. -/
def ruleFor? (filter : Filter) (origin : Origin) : Option Rule :=
  (filter.rules.filter (·.isFor origin)).foldl (fun best rule =>
    if best.all (·.length ≤ rule.length) then some rule else best) none

/-- Whether a notice is shown. -/
def shows (filter : Filter) (notice : Notice) : Bool :=
  ((filter.ruleFor? notice.origin).any fun rule => notice.level.rank < rule.levels) &&
    filter.pattern.all (·.isFoundIn notice.text)

/-- Adds rules that are set apart by commas, and leaves complaints about the wrong ones. -/
def addRules (filter : Filter) (text : String) : Filter × List String :=
  let parts := ((text.splitOn ",").map trimBlank).filter (!·.isEmpty)
  parts.foldl (fun (filter, complaints) part =>
    match Rule.ofText part with
    | .ok rule => (filter.put rule, complaints)
    | .error complaint => (filter, complaints ++ [complaint])) (filter, [])

/-- Adds what a text says: rules, and a pattern behind a slash. -/
def add (filter : Filter) (text : String) : Filter × List String :=
  match text.splitOn "/" with
  | [rules] => filter.addRules rules
  | [rules, pattern] =>
      let (filter, complaints) := filter.addRules rules
      match Regex.ofPattern pattern with
      | .ok regex => ({ filter with pattern := some regex }, complaints)
      | .error refusal =>
          (filter, complaints ++ ["invalid regex filter - " ++ refusal.text pattern])
  | _ => (filter, ["invalid logging spec '" ++ text ++ "' (too many '/'s)"])

end Filter

end CilPatch.Cli
