import CilPatch.Text.NameTables
import CilPatch.Text.Regex.Bracket

/-!
# Reading patterns

A pattern is read from its first character to its last. Groups that are open wait for their end
with what has been read of them: alternatives that are complete, and the parts of the one that is
being read.
-/

namespace CilPatch.Regex

/-- The parenthesis at the start of a group. -/
structure Opening where
  /-- What is left of the pattern at the parenthesis. -/
  start : List Char
  /-- What is left of it behind the parenthesis. -/
  stop : List Char
  /-- Whether the match of the group is of interest. -/
  isCapture : Bool
  /-- The flags for what is in the group. -/
  changes : Changes
  /-- Whether blanks have counted for nothing in front of the group. -/
  wasFree : Bool

/-- A group that is being read, or the whole pattern. -/
structure Group where
  /-- How the group was opened. -/
  opening : Option Opening := none
  /-- Where its first alternative starts. -/
  first : Nat := 0
  /-- Where the alternative starts that is being read. -/
  start : Nat := 0
  /-- The alternatives that are complete, the last one first. -/
  complete : List Part := []
  /-- The parts of the alternative that is being read, the last one first. -/
  parts : List Part := []

namespace Group

/-- The alternative that is being read, up to a place. -/
def current (group : Group) (stop : Nat) : Part :=
  match group.parts with
  | [] => .empty ⟨group.start, stop⟩
  | [only] => only
  | parts => .sequence ⟨group.start, stop⟩ parts.reverse

/-- A group whose current alternative ends at one place, while the next starts at another. -/
def split (group : Group) (stop start : Nat) : Group :=
  { group with complete := group.current stop :: group.complete, parts := [], start }

/-- What a group holds, up to a place. -/
def body (group : Group) (stop : Nat) : Part :=
  match group.complete with
  | [] => group.current stop
  | complete => .alternatives ⟨group.first, stop⟩ (group.current stop :: complete).reverse

/-- A group with one more part. -/
def add (group : Group) (part : Part) : Group := { group with parts := part :: group.parts }

end Group

/-- How far a pattern has been read. -/
structure Reader where
  /-- How its characters are read. -/
  mode : Mode
  /-- The innermost group. -/
  group : Group := {}
  /-- The groups around it, the innermost first. -/
  outer : List Group := []
  /-- The names of groups that have been read, and where. -/
  names : List (String × Span) := []

namespace Reader

/-- The number of characters in front of those that are left. -/
def place (reader : Reader) (left : List Char) : Nat := reader.mode.size - left.length

/-- A reader that has read a part. -/
def add (reader : Reader) (part : Part) : Reader :=
  { reader with group := reader.group.add part }

/-- The part that a sign at its place repeats. -/
def repeatable (reader : Reader) (sign : List Char) : Except Refusal Part :=
  match reader.group.parts with
  | [] | .empty _ :: _ | .flags _ _ :: _ => reader.mode.refuse .nothingToRepeat sign sign
  | part :: _ => .ok part

/-- A reader that has repeated the last part, up to the characters that are left. -/
def repeated (reader : Reader) (part : Part) (least : Nat) (most : Option Nat)
    (left : List Char) : Reader :=
  let whole := .repeated ⟨part.span.start, reader.place left⟩ part least most
  { reader with group := { reader.group with parts := whole :: reader.group.parts.drop 1 } }

/-- The value of a flag among changes, or the one that it had before. -/
def flagOf (flag : Flag) (changes : Changes) (value : Bool) : Bool :=
  (changes.lookup flag).getD value

/-- A reader at flags for what follows in the group. -/
def change (reader : Reader) (span : Span) (changes : Changes) : Reader :=
  let isFree := flagOf .free changes reader.mode.isFree
  { reader.add (.flags span changes) with mode := { reader.mode with isFree } }

/-- A reader that has opened a group, up to the characters that are left. -/
def opened (reader : Reader) (start stop : List Char) (isCapture : Bool) (changes : Changes)
    (left : List Char) : Reader :=
  let wasFree := reader.mode.isFree
  { reader with
    mode := { reader.mode with isFree := flagOf .free changes wasFree }
    group := {
      opening := some { start, stop, isCapture, changes, wasFree }
      first := reader.place left
      start := reader.place left }
    outer := reader.group :: reader.outer }

/-- A reader that has closed the innermost group at a parenthesis. -/
def closed (reader : Reader) (start stop : List Char) : Except Refusal Reader :=
  match reader.group.opening, reader.outer with
  | some opening, around :: outer =>
      let part := .group (reader.mode.span opening.start stop) opening.isCapture opening.changes
        (reader.group.body (reader.place start))
      .ok { reader with
        mode := { reader.mode with isFree := opening.wasFree }
        group := around.add part
        outer }
  | _, _ => reader.mode.refuse .unopenedGroup start stop

/-- What a list of flags has named: a flag, or a minus sign. -/
abbrev Named := Option Flag × Span

/-- The flags that are set in front of a minus sign and taken back behind it. -/
def changesOf : List Named → Changes
  | [] => []
  | (some flag, _) :: rest => (flag, true) :: changesOf rest
  | (none, _) :: rest => rest.filterMap fun (flag, _) => flag.map (·, false)

/-- Reads flags up to the end of the list of them. A minus sign in front of those that are taken
back is written once, and not at the end; no flag is written twice. -/
def readFlags (mode : Mode) (named : List Named) : List Char → Except Refusal (Changes × List Char)
  | [] => mode.refuse .unclosedFlags [] []
  | c :: rest => do
      if c = ':' ∨ c = ')' then
        match named.getLast? with
        | some (none, span) => .error (.fault .noFlag span none)
        | _ => return (changesOf named, c :: rest)
      else
        let span := mode.span (c :: rest) rest
        let flag := Flag.ofChar? c
        if flag.isNone && c != '-' then .error (.fault .unknownFlag span none)
        else
          match named.lookup flag with
          | some first =>
              let problem := if flag.isNone then Problem.secondMinus else .sameFlag
              .error (.fault problem span (some first))
          | none => readFlags mode (named ++ [(flag, span)]) rest

/-- Whether a character can be in the name of a group. -/
def isNameChar (isFirst : Bool) (c : Char) : Bool :=
  isLetter c || c == '_' || (!isFirst && (isNumber c || ['.', '[', ']'].contains c))

/-- Reads the name of a group up to the angle bracket behind it. -/
def readName (mode : Mode) (isFirst : Bool) :
    List Char → Except Refusal (List Char × List Char)
  | [] => mode.refuse .unclosedName [] []
  | c :: rest => do
      if c = '>' then
        if isFirst then mode.refuse .emptyName (c :: rest) (c :: rest)
        return ([], c :: rest)
      if !isNameChar isFirst c then mode.refuse .nameCharacter (c :: rest) rest
      let (name, left) ← readName mode false rest
      return (c :: name, left)

/-- The signs behind an opening parenthesis that ask for the context of a match. -/
def contexts : List (List Char) :=
  [['?', '='], ['?', '!'], ['?', '<', '='], ['?', '<', '!']]

/-- Reads what follows an opening parenthesis. -/
def readGroup (reader : Reader) (start stop : List Char) :
    Except Refusal (Reader × List Char) := do
  let mode := reader.mode
  let rest := mode.skip stop
  if let some context := contexts.find? (·.isPrefixOf rest) then
    mode.refuse .lookAround start (rest.drop context.length)
  match rest with
  | '?' :: 'P' :: '<' :: chars | '?' :: '<' :: chars =>
      let (name, left) ← readName mode true chars
      let span := mode.span chars left
      let name := String.ofList name
      if let some first := reader.names.lookup name then
        .error (.fault .sameName span (some first))
      let left := left.drop 1
      let reader := { reader with names := (name, span) :: reader.names }
      return (reader.opened start stop true [] left, left)
  | '?' :: [] => mode.refuse .unclosedGroup start stop
  | '?' :: ')' :: _ => mode.refuse .nothingToRepeat rest rest
  | '?' :: inside =>
      let (changes, left) ← readFlags mode [] inside
      match left with
      | ')' :: left => return (reader.change (mode.span start left) changes, left)
      | left =>
          let left := left.drop 1
          return (reader.opened start stop false changes left, left)
  | _ => return (reader.opened start stop true [] rest, rest)

/-- Reads a number of repetitions; the blanks around it do not count. -/
def readCount (mode : Mode) (chars : List Char) : Except Refusal Nat × List Char :=
  let start := chars.dropWhile isBlank
  let (digits, stop) := mode.readWhile Char.isDigit false start
  let value := digits.foldl (fun value c => 10 * value + (c.toNat - '0'.toNat)) 0
  let result :=
    if digits.isEmpty then mode.refuse .countMissing start stop
    else if value < 0x100000000 then .ok value
    else mode.refuse .countTooLarge start stop
  (result, mode.skip (stop.dropWhile isBlank))

/-- The characters behind a sign that makes a repetition take as little as it can, which makes
no difference to what is found. -/
def skipLazy : List Char → List Char
  | '?' :: rest => rest
  | rest => rest

/-- Reads the numbers of repetitions in braces. -/
def readCounts (reader : Reader) (start inside : List Char) :
    Except Refusal (Reader × List Char) := do
  let mode := reader.mode
  let part ← reader.repeatable start
  let unclosed {α : Type} (left : List Char) : Except Refusal α :=
    mode.refuse .unclosedCount start left
  let inside := mode.skip inside
  if inside.isEmpty then unclosed []
  let (least, left) := readCount mode inside
  let finish (least : Nat) (most : Option Nat) (left : List Char) := do
    match left with
    | '\x7d' :: left =>
        let left := skipLazy (mode.skip left)
        if most.any (· < least) then mode.refuse .countOrder start left
        return (reader.repeated part least most left, left)
    | left => unclosed left
  match left with
  | [] => unclosed []
  | ',' :: left =>
      match mode.skip left with
      | [] => unclosed []
      | '\x7d' :: left => finish (← least) none ('\x7d' :: left)
      | left =>
          let least ← least
          let (most, left) := readCount mode left
          finish least (some (← most)) left
  | left =>
      let least ← least
      finish least (some least) left

/-- Reads on from a character, to the characters that are left. -/
def step (reader : Reader) (c : Char) (rest : List Char) :
    Except Refusal (Reader × List Char) := do
  let start := c :: rest
  let span := reader.mode.span start rest
  let again (least : Nat) (most : Option Nat) := do
    let part ← reader.repeatable start
    let left := skipLazy rest
    return (reader.repeated part least most left, left)
  match c with
  | '(' => reader.readGroup start rest
  | ')' => return (← reader.closed start rest, rest)
  | '|' =>
      let group := reader.group.split (reader.place start) (reader.place rest)
      return ({ reader with group }, rest)
  | '[' =>
      let (bracket, left) ← openBracket reader.mode start rest
      let (part, left) ← readBrackets reader.mode bracket [] left
      return (reader.add part, left)
  | '?' => again 0 (some 1)
  | '*' => again 0 none
  | '+' => again 1 none
  | '\x7b' => reader.readCounts start rest
  | '.' => return (reader.add (.dot span), rest)
  | '^' => return (reader.add (.atom (.condition span .lineStart)), rest)
  | '$' => return (reader.add (.atom (.condition span .lineStop)), rest)
  | _ =>
      let (atom, left) ← readAtom reader.mode c rest
      return (reader.add (.atom atom), left)

/-- Reads all characters. -/
def run (reader : Reader) : List Char → Except Refusal Reader
  | [] => .ok reader
  | c :: rest => do
      let (reader, left) ← reader.step c rest
      run reader (rest.drop (rest.length - (reader.mode.skip left).length))
termination_by chars => chars.length
decreasing_by simp only [List.length_drop, List.length_cons]; omega

end Reader

/-- The part that is the whole of a pattern. -/
def Part.ofPattern (pattern : String) : Except Refusal Part := do
  let mode : Mode := { size := pattern.length }
  let reader ← Reader.run { mode } pattern.toList
  match reader.group.opening with
  | some opening => mode.refuse .unclosedGroup opening.start opening.stop
  | none => return reader.group.body mode.size

end CilPatch.Regex
