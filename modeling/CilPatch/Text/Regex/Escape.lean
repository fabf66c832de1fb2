import CilPatch.Text.Blank
import CilPatch.Text.Regex.Part

/-!
# Escapes in patterns

A backslash takes the meaning from a character that has one, and gives a meaning to a letter
that has none. What follows here reads from the characters that are left of a pattern; where in
the pattern they stand follows from their number.
-/

namespace CilPatch.Regex

/-- How the characters of a pattern are read. -/
structure Mode where
  /-- The number of characters of the pattern. -/
  size : Nat
  /-- Whether blanks do not count, nor comments from a number sign to the end of the line. -/
  isFree : Bool := false

namespace Mode

/-- The characters from some that are left to others. -/
def span (mode : Mode) (start stop : List Char) : Span :=
  ⟨mode.size - start.length, mode.size - stop.length⟩

/-- A refusal of the characters from some that are left to others. -/
def refuse {α : Type} (mode : Mode) (problem : Problem) (start stop : List Char) :
    Except Refusal α :=
  .error (.fault problem (mode.span start stop) none)

/-- The characters up to the first one that counts and does not satisfy a condition, without
those that do not count, and what is left from there. -/
def readWhile (mode : Mode) (condition : Char → Bool) (isInComment : Bool) :
    List Char → List Char × List Char
  | [] => ([], [])
  | c :: rest =>
      if isInComment then mode.readWhile condition (c != '\n') rest
      else if mode.isFree && isBlank c then mode.readWhile condition false rest
      else if mode.isFree && c == '#' then mode.readWhile condition true rest
      else if condition c then
        let (chars, left) := mode.readWhile condition false rest
        (c :: chars, left)
      else ([], c :: rest)

/-- Characters from the first one on that counts. -/
def skip (mode : Mode) (chars : List Char) : List Char :=
  (mode.readWhile (fun _ => false) false chars).2

/-- What is left has not become longer. -/
theorem length_readWhile_le (mode : Mode) (condition : Char → Bool) (isInComment : Bool)
    (chars : List Char) :
    (mode.readWhile condition isInComment chars).2.length ≤ chars.length := by
  induction chars generalizing isInComment with
  | nil => exact Nat.le_refl _
  | cons c rest ih =>
      have hrest := fun isInComment => Nat.le_trans (ih isInComment) (Nat.le_succ rest.length)
      unfold readWhile
      split
      · exact hrest _
      · split
        · exact hrest _
        · split
          · exact hrest _
          · split
            · exact hrest _
            · exact Nat.le_refl _

/-- Where everything counts nothing is skipped. -/
theorem skip_of_not_isFree {mode : Mode} (h : mode.isFree = false) (chars : List Char) :
    mode.skip chars = chars := by
  cases chars with
  | nil => rfl
  | cons c rest => simp [skip, readWhile, h]

end Mode

/-- The value of hexadecimal digits. -/
def hexValue (digits : List Char) : Nat :=
  digits.foldl (fun value c => 16 * value +
    if c.isDigit then c.toNat - '0'.toNat else c.toLower.toNat - 'a'.toNat + 10) 0

/-- Whether a character is a hexadecimal digit. -/
def isHexDigit (c : Char) : Bool :=
  c.isDigit || ('a' ≤ c && c ≤ 'f') || ('A' ≤ c && c ≤ 'F')

/-- The character with a number that was written in digits. -/
def hexChar (mode : Mode) (digits start stop : List Char) : Except Refusal Char :=
  let value := hexValue digits
  if value.isValidChar then .ok (Char.ofNat value) else mode.refuse .noCharacter start stop

/-- Reads a number of hexadecimal digits. -/
def readHexDigits (mode : Mode) : Nat → List Char → Except Refusal (List Char × List Char)
  | 0, left => .ok ([], left)
  | _ + 1, [] => mode.refuse .unfinishedEscape [] []
  | count + 1, c :: rest => do
      if !isHexDigit c then mode.refuse .hexDigit (c :: rest) rest
      let (digits, left) ← readHexDigits mode count (mode.skip rest)
      return (c :: digits, left)

/-- Reads a character that is given by a number of hexadecimal digits, or by any number of them
between braces, and tells whether it was the former. -/
def readHex (mode : Mode) (count : Nat) (chars : List Char) :
    Except Refusal (Char × Bool × List Char) := do
  match mode.skip chars with
  | '\x7b' :: inside =>
      let brace := '\x7b' :: inside
      match mode.readWhile isHexDigit false inside with
      | (_, []) => mode.refuse .unfinishedEscape brace []
      | (digits, '\x7d' :: rest) =>
          let left := mode.skip rest
          if digits.isEmpty then mode.refuse .noHexDigits brace left
          return (← hexChar mode digits inside ('\x7d' :: rest), false, left)
      | (_, c :: rest) => mode.refuse .hexDigit (c :: rest) rest
  | start =>
      let (digits, left) ← readHexDigits mode count start
      return (← hexChar mode digits start left, true, left)

/-- The classes of ASCII characters by their names. -/
def classes : List (String × AsciiClass) := [
  ("alnum", [('0', '9'), ('A', 'Z'), ('a', 'z')]),
  ("alpha", [('A', 'Z'), ('a', 'z')]),
  ("ascii", [('\x00', '\x7F')]),
  ("blank", [('\t', '\t'), (' ', ' ')]),
  ("cntrl", [('\x00', '\x1F'), ('\x7F', '\x7F')]),
  ("digit", [('0', '9')]),
  ("graph", [('!', '~')]),
  ("lower", [('a', 'z')]),
  ("print", [(' ', '~')]),
  ("punct", [('!', '/'), (':', '@'), ('[', '\x60'), ('\x7b', '~')]),
  ("space", [('\t', '\r'), (' ', ' ')]),
  ("upper", [('A', 'Z')]),
  ("word", [('0', '9'), ('A', 'Z'), ('_', '_'), ('a', 'z')]),
  ("xdigit", [('0', '9'), ('A', 'F'), ('a', 'f')])]

/-- The class that a letter behind a backslash stands for; a capital letter negates it. -/
def shorthand? (c : Char) : Option AsciiClass :=
  match c.toLower with
  | 'd' => classes.lookup "digit"
  | 's' => classes.lookup "space"
  | 'w' => classes.lookup "word"
  | _ => none

/-- The condition that a letter behind a backslash stands for. -/
def letterCondition? : Char → Option Condition
  | 'A' => some .start
  | 'z' => some .stop
  | 'b' => some (.word .edge)
  | 'B' => some (.word .inside)
  | '<' => some (.word .start)
  | '>' => some (.word .stop)
  | _ => none

/-- The place at a word that has a name. -/
def placeNamed? : String → Option WordPlace
  | "start" => some .start
  | "end" => some .stop
  | "start-half" => some .noneBefore
  | "end-half" => some .noneBehind
  | _ => none

/-- The control character that a letter behind a backslash stands for. -/
def letterControl? : Char → Option Char
  | 'a' => some '\x07'
  | 'f' => some '\x0C'
  | 't' => some '\t'
  | 'n' => some '\n'
  | 'r' => some '\r'
  | 'v' => some '\x0B'
  | _ => none

/-- How many hexadecimal digits follow a letter behind a backslash. -/
def hexDigits? : Char → Option Nat
  | 'x' => some 2
  | 'u' => some 4
  | 'U' => some 8
  | _ => none

/-- Whether a character can be in the name of a place at a word. -/
def isPlaceChar (c : Char) : Bool := c.isAlpha || c == '-'

/-- Reads the name of a place at a word in braces. What does not look like one is left for a
count of repetitions. -/
def readPlace (mode : Mode) (escape : List Char) :
    List Char → Except Refusal (WordPlace × List Char)
  | '\x7b' :: inside =>
      let brace := '\x7b' :: inside
      match mode.skip inside with
      | [] => mode.refuse .unfinishedPlace escape []
      | c :: rest =>
          if isPlaceChar c then
            match mode.readWhile isPlaceChar false (c :: rest) with
            | (name, '\x7d' :: left) =>
                match placeNamed? (String.ofList name) with
                | some place => .ok (place, left)
                | none => mode.refuse .unknownPlace (c :: rest) ('\x7d' :: left)
            | (_, left) => mode.refuse .unclosedPlace brace left
          else .ok (.edge, brace)
  | chars => .ok (.edge, chars)

/-- Reads the name of a property, a letter or a text in braces. -/
def readProperty (mode : Mode) (chars : List Char) : Except Refusal (String × List Char) :=
  match mode.skip chars with
  | [] => mode.refuse .unfinishedEscape [] []
  | '\x7b' :: inside =>
      match mode.readWhile (· != '\x7d') false inside with
      | (_, []) => mode.refuse .unfinishedEscape [] []
      | (name, _ :: left) => .ok (String.ofList name, left)
  | c :: rest =>
      if c = '\\' then mode.refuse .propertyName (c :: rest) rest
      else .ok (String.singleton c, mode.skip rest)

/-- Reads what follows a backslash. -/
def readEscape (mode : Mode) (escape : List Char) :
    List Char → Except Refusal (Atom × List Char)
  | [] => mode.refuse .unfinishedEscape escape []
  | c :: rest => do
      let span := mode.span escape rest
      if c.isDigit then mode.refuse .backReference escape rest
      else if let some count := hexDigits? c then
        let (char, isFixed, left) ← readHex mode count rest
        return (.literal ⟨char, mode.span escape left, isFixed && c == 'x'⟩, left)
      else if c = 'p' ∨ c = 'P' then
        let (name, left) ← readProperty mode rest
        return (.property (mode.span escape left) name, left)
      else if let some characters := shorthand? c then
        return (.shorthand span characters c.isUpper, rest)
      else if c = 'b' then
        let (place, left) ← readPlace mode escape rest
        return (.condition (mode.span escape left) (.word place), left)
      else if let some condition := letterCondition? c then
        return (.condition span condition, rest)
      else if let some char := letterControl? c then return (.literal { char, span }, rest)
      else if c.toNat < 0x80 && !c.isAlpha then return (.literal { char := c, span }, rest)
      else mode.refuse .unknownEscape escape rest

/-- Reads a character or an escape. -/
def readAtom (mode : Mode) (c : Char) (rest : List Char) : Except Refusal (Atom × List Char) :=
  if c = '\\' then readEscape mode (c :: rest) rest
  else .ok (.literal { char := c, span := mode.span (c :: rest) rest }, rest)

end CilPatch.Regex
