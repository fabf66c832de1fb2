import CilPatch.Text.Lines

/-!
# Refusals of patterns

Why a text is no pattern. A refusal shows the text, with its lines numbered if there are several,
and marks the characters that it is about.
-/

namespace CilPatch.Regex

/-- The characters of a pattern from one place to another. -/
structure Span where
  /-- Where the first character is. -/
  start : Nat
  /-- Where the character behind the last is. -/
  stop : Nat
  deriving DecidableEq

/-- What is wrong with a pattern. -/
inductive Problem where
  /-- A group is not closed. -/
  | unclosedGroup
  /-- A group is closed that was not opened. -/
  | unopenedGroup
  /-- The name of a group does not end. -/
  | unclosedName
  /-- The name of a group is empty. -/
  | emptyName
  /-- A character that cannot be in the name of a group. -/
  | nameCharacter
  /-- Two groups have the same name. -/
  | sameName
  /-- A flag that is not known. -/
  | unknownFlag
  /-- Flags do not end. -/
  | unclosedFlags
  /-- Flags are taken back without being named. -/
  | noFlag
  /-- A flag is named twice. -/
  | sameFlag
  /-- Flags are taken back twice. -/
  | secondMinus
  /-- The context of a match is asked for. -/
  | lookAround
  /-- A set of characters is not closed. -/
  | unclosedSet
  /-- A set of characters holds what is not a character. -/
  | setMember
  /-- A range is limited by what is not a character. -/
  | rangeLimit
  /-- The first character of a range comes behind the last. -/
  | rangeOrder
  /-- There is nothing to repeat. -/
  | nothingToRepeat
  /-- The number of repetitions is missing. -/
  | countMissing
  /-- The number of repetitions is too large. -/
  | countTooLarge
  /-- The number of repetitions does not end. -/
  | unclosedCount
  /-- The least number of repetitions is above the greatest. -/
  | countOrder
  /-- There is nothing behind a backslash. -/
  | unfinishedEscape
  /-- A letter that means nothing behind a backslash. -/
  | unknownEscape
  /-- A group is referred to. -/
  | backReference
  /-- What should be a hexadecimal digit is none. -/
  | hexDigit
  /-- A character is given by a number without digits. -/
  | noHexDigits
  /-- A number is that of no character. -/
  | noCharacter
  /-- A property of characters starts with a backslash. -/
  | propertyName
  /-- There is nothing behind the brace of a place at a word or of a repetition. -/
  | unfinishedPlace
  /-- A place at a word is not closed, or has a character that cannot be in its name. -/
  | unclosedPlace
  /-- A place at a word that is not known. -/
  | unknownPlace
  /-- Groups, brackets and repetitions are nested too deeply. -/
  | tooDeep (limit : Nat)
  /-- A character is not in ASCII where patterns are about ASCII. -/
  | notAscii
  /-- A byte could be matched that is no character. -/
  | loneByte
  /-- There is no table for a property of characters. -/
  | noProperty
  /-- There is no table for the value of a property. -/
  | noPropertyValue
  /-- There are no tables for digits, white space and words of all scripts. -/
  | noShorthand
  /-- There are no tables for upper and lower case in all scripts. -/
  | noCases
  deriving DecidableEq

/-- What a problem is called. -/
def Problem.text : Problem → String
  | unclosedGroup => "unclosed group"
  | unopenedGroup => "unopened group"
  | unclosedName => "unclosed capture group name"
  | emptyName => "empty capture group name"
  | nameCharacter => "invalid capture group character"
  | sameName => "duplicate capture group name"
  | unknownFlag => "unrecognized flag"
  | unclosedFlags => "expected flag but got end of regex"
  | noFlag => "dangling flag negation operator"
  | sameFlag => "duplicate flag"
  | secondMinus => "flag negation operator repeated"
  | lookAround => "look-around, including look-ahead and look-behind, is not supported"
  | unclosedSet => "unclosed character class"
  | setMember => "invalid escape sequence found in character class"
  | rangeLimit => "invalid range boundary, must be a literal"
  | rangeOrder => "invalid character class range, the start must be <= the end"
  | nothingToRepeat => "repetition operator missing expression"
  | countMissing => "repetition quantifier expects a valid decimal"
  | countTooLarge => "decimal literal invalid"
  | unclosedCount => "unclosed counted repetition"
  | countOrder => "invalid repetition count range, the start must be <= the end"
  | unfinishedEscape => "incomplete escape sequence, reached end of pattern prematurely"
  | unknownEscape => "unrecognized escape sequence"
  | backReference => "backreferences are not supported"
  | hexDigit => "invalid hexadecimal digit"
  | noHexDigits => "hexadecimal literal empty"
  | noCharacter => "hexadecimal literal is not a Unicode scalar value"
  | propertyName => "invalid Unicode character class"
  | unfinishedPlace =>
      "found either the beginning of a special word boundary or a bounded repetition on a \\b " ++
        "with an opening brace, but no closing brace"
  | unclosedPlace =>
      "special word boundary assertion is either unclosed or contains an invalid character"
  | unknownPlace =>
      "unrecognized special word boundary assertion, valid choices are: start, end, " ++
        "start-half or end-half"
  | tooDeep limit =>
      "exceed the maximum number of nested parentheses/brackets (" ++ toString limit ++ ")"
  | notAscii => "Unicode not allowed here"
  | loneByte => "pattern can match invalid UTF-8"
  | noProperty => "Unicode property not found"
  | noPropertyValue => "Unicode property value not found"
  | noShorthand =>
      "Unicode-aware Perl class not found (make sure the unicode-perl feature is enabled)"
  | noCases =>
      "Unicode-aware case insensitivity matching is not available " ++
        "(make sure the unicode-case feature is enabled)"

/-- A refusal of a pattern. -/
inductive Refusal where
  /-- A problem with some characters, and with others in front of them that they repeat. -/
  | fault (problem : Problem) (span : Span) (repeated : Option Span)
  /-- Places at words of all scripts are asked for. -/
  | scriptWords
  /-- An expression takes more room than there is. -/
  | tooLarge (limit : Nat)
  deriving DecidableEq

/-- A line and a column, both from zero on. -/
structure Place where
  /-- The line. -/
  line : Nat := 0
  /-- The column. -/
  column : Nat := 0

/-- The place behind some characters. -/
def Place.behind (chars : List Char) : Place :=
  chars.foldl (fun place c =>
    if c = '\n' then { line := place.line + 1 } else { place with column := place.column + 1 }) {}

/-- A character a number of times. -/
def several (count : Nat) (c : Char) : String := String.ofList (List.replicate count c)

/-- Marks from columns to columns. At least one column is marked. -/
def marks (columns : List (Nat × Nat)) : String :=
  let mark (text : String) (columns : Nat × Nat) : String :=
    let (start, stop) := columns
    text ++ several (start - text.length) ' ' ++ several (max 1 (stop - start)) '^'
  columns.foldl mark ""

/-- A line of a pattern with what is written in front of it, and the marks below. -/
def markedLine (label line : String) (columns : List (Nat × Nat)) : List String :=
  let below := if columns.isEmpty then [] else [several label.length ' ' ++ marks columns]
  (label ++ line) :: below

/-- The first and the last line of the picture of a pattern that has several. -/
def divider : String := several 79 '~'

/-- A pattern with marks below some of its characters. -/
def picture (pattern : String) (spans : List Span) : List String :=
  let chars := pattern.toList
  let places := spans.map fun span =>
    (Place.behind (chars.take span.start), Place.behind (chars.take span.stop))
  let columns (line : Nat) := (places.filter fun (start, stop) =>
    start.line = line ∧ stop.line = line).map fun (start, stop) => (start.column, stop.column)
  let lines := linesOf pattern
  if !chars.contains '\n' then
    lines.flatMap fun line => markedLine (several 4 ' ') line (columns 0)
  else
    let count := lines.length + if chars.getLast? = some '\n' then 1 else 0
    let width := (toString count).length
    let number (index : Nat) :=
      let digits := toString (index + 1)
      several (width - digits.length) ' ' ++ digits ++ ": "
    let across := (places.filter fun (start, stop) => start.line != stop.line).map
      fun (start, stop) =>
        "on line " ++ toString (start.line + 1) ++ " (column " ++ toString (start.column + 1) ++
          ") through line " ++ toString (stop.line + 1) ++ " (column " ++
          toString stop.column ++ ")"
    let numbered := lines.zipIdx.flatMap fun (line, index) =>
      markedLine (number index) line (columns index)
    [divider] ++ numbered ++ [divider] ++ across

/-- A refusal of a pattern as text. -/
def Refusal.text (refusal : Refusal) (pattern : String) : String :=
  match refusal with
  | fault problem span repeated =>
      let lines := picture pattern (repeated.toList ++ [span])
      "regex parse error:\n" ++ unlines lines ++ "error: " ++ problem.text
  | scriptWords => "error building NFA"
  | tooLarge limit => "Compiled regex exceeds size limit of " ++ toString limit ++ " bytes."

end CilPatch.Regex
