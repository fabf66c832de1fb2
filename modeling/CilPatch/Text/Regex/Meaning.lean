import CilPatch.Text.Regex.Reader

/-!
# What patterns match

Flags decide how a part of a pattern is understood. Patterns are about all scripts unless a flag
takes that back. There are no tables for properties of characters, for their upper and lower case
or for classes of all scripts, so whoever asks for those is refused. Patterns about ASCII have
all of that, but must not match what is outside of ASCII as bytes.
-/

namespace CilPatch.Regex

/-- The flags that are set. -/
structure Flags where
  /-- Upper and lower case are the same. -/
  anyCase : Bool := false
  /-- Lines have a start and an end of their own. -/
  lines : Bool := false
  /-- A dot stands for the end of a line too. -/
  dotAll : Bool := false
  /-- The pattern is about all scripts. -/
  allScripts : Bool := true
  /-- Carriage returns end lines too. -/
  atReturns : Bool := false

namespace Flags

/-- Flags with one of them set or taken back. Those that change how much a repetition takes, or
that decide how a pattern is read, do not change what is found. -/
def set (flags : Flags) (change : Flag × Bool) : Flags :=
  let value := change.2
  match change.1 with
  | .anyCase => { flags with anyCase := value }
  | .lines => { flags with lines := value }
  | .dotAll => { flags with dotAll := value }
  | .allScripts => { flags with allScripts := value }
  | .atReturns => { flags with atReturns := value }
  | .swapGreed | .free => flags

/-- Flags with some of them set or taken back. -/
def change (flags : Flags) (changes : Changes) : Flags := changes.foldl set flags

/-- A refusal of a part of a pattern. -/
def refuse {α : Type} (problem : Problem) (span : Span) : Except Refusal α :=
  .error (.fault problem span none)

/-- The set that is meant by another, which can be negated. -/
def meant (flags : Flags) (span : Span) (isNegated : Bool) (set : CharSet) :
    Except Refusal CharSet :=
  if flags.allScripts then
    if flags.anyCase && set.hasRange then refuse .noCases span
    else .ok (if isNegated then .complement set else set)
  else if isNegated then refuse .loneByte span
  else .ok (if flags.anyCase then .anyCase set else set)

/-- The set of a class. -/
def classSet (characters : AsciiClass) : CharSet :=
  .unions (characters.map fun (first, last) => .range first last)

/-- The set that a letter for a class stands for. -/
def shorthandSet (flags : Flags) (span : Span) (characters : AsciiClass) (isNegated : Bool) :
    Except Refusal CharSet :=
  if flags.allScripts then refuse .noShorthand span
  else if isNegated then refuse .loneByte span
  else .ok (classSet characters)

/-- The name of a property as it is looked up: blanks, underscores and dashes do not count, nor
do case, a leading "is" and what is not in ASCII. -/
def plainName (name : String) : String :=
  let chars := name.toList.map Char.toLower
  let chars := if ['i', 's'].isPrefixOf chars then chars.drop 2 else chars
  String.ofList (chars.filter fun c => c.toNat < 0x80 && !([' ', '_', '-'].contains c))

/-- The names of categories that are names of properties too. They are looked up as values. -/
def categories : List String := ["cf", "sc", "lc"]

/-- What is wrong with a property. -/
def propertyProblem (flags : Flags) (name : String) : Problem :=
  if !flags.allScripts then .notAscii
  else if categories.contains (plainName name) && !name.any [':', '='].contains then
    .noPropertyValue
  else .noProperty

/-- The character of a literal. Where patterns are about ASCII, bytes outside of it are refused. -/
def literalChar (flags : Flags) (literal : Literal) : Except Refusal Char :=
  if !flags.allScripts && literal.isByte && 0x80 ≤ literal.char.toNat then
    refuse .loneByte literal.span
  else .ok literal.char

/-- The character of a literal in brackets. Where patterns are about ASCII, it has to be there. -/
def memberChar (flags : Flags) (literal : Literal) : Except Refusal Char := do
  let c ← flags.literalChar literal
  if !flags.allScripts && 0x80 ≤ c.toNat then refuse .notAscii literal.span
  return c

/-- The set that a literal stands for. -/
def literalSet (flags : Flags) (literal : Literal) : Except Refusal CharSet := do
  let c ← flags.literalChar literal
  if !flags.anyCase then return .single c
  else if flags.allScripts then refuse .noCases literal.span
  else return .anyCase (.single c)

/-- The set that a dot stands for. -/
def dotSet (flags : Flags) (span : Span) : Except Refusal CharSet :=
  if !flags.allScripts then refuse .loneByte span
  else
    let ends := if flags.atReturns then ['\r', '\n'] else ['\n']
    .ok (.complement (if flags.dotAll then .empty else .unions (ends.map CharSet.single)))

/-- The condition on a position. -/
def anchor (flags : Flags) : Condition → Anchor
  | .lineStart => if flags.lines then .lineStart flags.atReturns else .start
  | .lineStop => if flags.lines then .lineStop flags.atReturns else .stop
  | .start => .start
  | .stop => .stop
  | .word place => if flags.allScripts then .scriptWord place else .word place

/-- The expression of an atom. -/
def atomRegex (flags : Flags) : Atom → Except Refusal Regex
  | .literal literal => return .one (← flags.literalSet literal)
  | .shorthand span characters isNegated =>
      return .one (← flags.shorthandSet span characters isNegated)
  | .property span name => refuse (flags.propertyProblem name) span
  | .condition _ condition => .ok (.anchor (flags.anchor condition))

end Flags

/-- Carries an operator out. -/
def SetOperator.apply : SetOperator → CharSet → CharSet → CharSet
  | meet => .meet
  | minus => .minus
  | differ => .differ

mutual

/-- The set that a member of brackets stands for. -/
def Member.set (flags : Flags) : Member → Except Refusal CharSet
  | empty _ => .ok .empty
  | literal given => return .single (← flags.memberChar given)
  | range _ first last => return .range (← flags.memberChar first) (← flags.memberChar last)
  | named span characters isNegated => flags.meant span isNegated (Flags.classSet characters)
  | shorthand span characters isNegated => flags.shorthandSet span characters isNegated
  | property span name => Flags.refuse (flags.propertyProblem name) span
  | brackets span isNegated inside => do flags.meant span isNegated (← inside.set flags)
  | union _ members => return .unions (← Member.sets flags members)
  | operation _ operator left right => do
      let leftSet ← left.set flags
      let rightSet ← right.set flags
      let rightSet ← flags.meant right.span false rightSet
      let leftSet ← flags.meant left.span false leftSet
      return operator.apply leftSet rightSet

/-- The sets that members of brackets stand for. -/
def Member.sets (flags : Flags) : List Member → Except Refusal (List CharSet)
  | [] => .ok []
  | member :: members => return (← member.set flags) :: (← Member.sets flags members)

end

mutual

/-- Checks that a member of brackets has not more than a number of levels. -/
def Member.checkDepth (limit depth : Nat) : Member → Except Refusal Unit
  | brackets span _ inside =>
      if depth = limit then Flags.refuse (.tooDeep limit) span
      else inside.checkDepth limit (depth + 1)
  | union span members =>
      if depth = limit then Flags.refuse (.tooDeep limit) span
      else Member.checkDepths limit (depth + 1) members
  | operation span _ left right =>
      if depth = limit then Flags.refuse (.tooDeep limit) span
      else do
        left.checkDepth limit (depth + 1)
        right.checkDepth limit (depth + 1)
  | _ => .ok ()

/-- Checks that no member of brackets has more than a number of levels. -/
def Member.checkDepths (limit depth : Nat) : List Member → Except Refusal Unit
  | [] => .ok ()
  | member :: members => do
      member.checkDepth limit depth
      Member.checkDepths limit depth members

end

mutual

/-- Checks that a part has not more than a number of levels. -/
def Part.checkDepth (limit depth : Nat) : Part → Except Refusal Unit
  | brackets span _ inside =>
      if depth = limit then Flags.refuse (.tooDeep limit) span
      else inside.checkDepth limit (depth + 1)
  | repeated span body _ _ | group span _ _ body =>
      if depth = limit then Flags.refuse (.tooDeep limit) span
      else body.checkDepth limit (depth + 1)
  | alternatives span parts | sequence span parts =>
      if depth = limit then Flags.refuse (.tooDeep limit) span
      else Part.checkDepths limit (depth + 1) parts
  | _ => .ok ()

/-- Checks that no part has more than a number of levels. -/
def Part.checkDepths (limit depth : Nat) : List Part → Except Refusal Unit
  | [] => .ok ()
  | part :: parts => do
      part.checkDepth limit depth
      Part.checkDepths limit depth parts

end

/-- Whether an expression matches nothing but the empty text. -/
def isEmptyOnly : Regex → Bool
  | .empty | .anchor _ => true
  | .one _ => false
  | .seq left right | .either left right => left.isEmptyOnly && right.isEmptyOnly
  | .times body _ most => most.isSome && body.isEmptyOnly
  | .capture body => body.isEmptyOnly

/-- An expression a number of times. The empty text is not repeated, and what is taken no times
at all need not be matched. -/
def repeatedly (body : Regex) (least : Nat) (most : Option Nat) : Regex :=
  let (least, most) :=
    if body.isEmptyOnly then (min least 1, some (min (most.getD 1) 1)) else (least, most)
  if least = 0 ∧ most = some 0 then .empty
  else if least = 1 ∧ most = some 1 then body
  else .times body least most

/-- The set of an expression that matches one character. -/
def set? : Regex → Option CharSet
  | .one set => some set
  | _ => none

/-- One of some expressions. If all of them match one character, it is one character of several
sets. -/
def anyOf (regexes : List Regex) : Regex :=
  match regexes.mapM set?, regexes with
  | some sets, _ => .one (.unions sets)
  | none, first :: others => choice first others
  | none, [] => .one .empty

/-- One expression after another, of which those that match the empty text make no difference. -/
def allOf (regexes : List Regex) : Regex :=
  seqs (regexes.filter fun regex => match regex with
    | .empty => false
    | _ => true)

mutual

/-- The expression of a part, and the flags for what follows. -/
def Part.regex (flags : Flags) : Part → Except Refusal (Regex × Flags)
  | empty _ => .ok (.empty, flags)
  | .flags _ changes => .ok (.empty, flags.change changes)
  | atom given => return (← flags.atomRegex given, flags)
  | dot span => return (.one (← flags.dotSet span), flags)
  | brackets span isNegated inside =>
      return (.one (← flags.meant span isNegated (← inside.set flags)), flags)
  | repeated _ body least most => do
      let (regex, flags) ← body.regex flags
      return (repeatedly regex least most, flags)
  | group _ isCapture changes body => do
      let (regex, _) ← body.regex (flags.change changes)
      return (if isCapture then .capture regex else regex, flags)
  | alternatives _ parts => do
      let (regexes, flags) ← Part.regexes flags parts
      return (anyOf regexes, flags)
  | sequence _ parts => do
      let (regexes, flags) ← Part.regexes flags parts
      return (allOf regexes, flags)

/-- The expressions of parts, each with the flags that the one before has left. -/
def Part.regexes (flags : Flags) : List Part → Except Refusal (List Regex × Flags)
  | [] => .ok ([], flags)
  | part :: parts => do
      let (first, flags) ← part.regex flags
      let (others, flags) ← Part.regexes flags parts
      return (first :: others, flags)

end

end CilPatch.Regex
