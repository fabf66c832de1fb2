import CilPatch.Text.Regex.Escape

/-!
# Sets of characters in brackets

Brackets hold characters, ranges, names of classes and other brackets. Operators between them
take what is common to both sides, leave the right side out of the left, or take what is on one
side only; they are carried out from left to right.
-/

namespace CilPatch.Regex

/-- The operator that is written as a character twice. -/
def SetOperator.ofChar? : Char → Option SetOperator
  | '&' => some meet
  | '-' => some minus
  | '~' => some differ
  | _ => none

/-- Brackets that have been opened. -/
structure Bracket where
  /-- What is left of the pattern at the opening bracket. -/
  start : List Char
  /-- What is left of it behind all that belongs to the opening. -/
  stop : List Char
  /-- Whether the characters outside of the brackets are meant. -/
  isNegated : Bool
  /-- The operator that was read last, with its left side. -/
  left : Option (SetOperator × Member) := none
  /-- Where its right side starts, or what the brackets hold. -/
  place : Nat
  /-- The members that have been read since then, the last one first. -/
  members : List Member := []

namespace Bracket

/-- Brackets with one more member. -/
def add (bracket : Bracket) (member : Member) : Bracket :=
  { bracket with members := member :: bracket.members }

/-- What has been read since the last operator. -/
def side (bracket : Bracket) : Member :=
  match bracket.members with
  | [] => .empty ⟨bracket.place, bracket.place⟩
  | [only] => only
  | last :: others =>
      let first := (others.getLast?.map (·.span.start)).getD bracket.place
      .union ⟨first, last.span.stop⟩ bracket.members.reverse

/-- What has been read. -/
def read (bracket : Bracket) : Member :=
  let right := bracket.side
  match bracket.left with
  | some (operator, left) => .operation ⟨left.span.start, right.span.stop⟩ operator left right
  | none => right

/-- Brackets at an operator, behind which a place is. -/
def operate (bracket : Bracket) (operator : SetOperator) (place : Nat) : Bracket :=
  { bracket with left := some (operator, bracket.read), place, members := [] }

end Bracket

/-- Reads the name of a class between colons and its closing bracket, and whether it is
negated. -/
def readClass? : List Char → Option (AsciiClass × Bool × List Char)
  | ':' :: inside =>
      let (isNegated, inside) := match inside with
        | '^' :: inside => (true, inside)
        | inside => (false, inside)
      let name := inside.takeWhile (· != ':')
      match inside.drop name.length, classes.lookup (String.ofList name) with
      | ':' :: ']' :: left, some characters => some (characters, isNegated, left)
      | _, _ => none
  | _ => none

/-- Reads dashes. -/
def readDashes (mode : Mode) : List Char → List Member × List Char
  | '-' :: rest =>
      let (dashes, left) := readDashes mode (mode.skip rest)
      (.literal { char := '-', span := mode.span ('-' :: rest) rest } :: dashes, left)
  | chars => ([], chars)
termination_by chars => chars.length
decreasing_by exact Nat.lt_succ_of_le (mode.length_readWhile_le _ _ rest)

/-- Reads what belongs to an opening bracket: a sign that negates it, and characters that close
or divide nothing in this place. -/
def openBracket (mode : Mode) (start inside : List Char) :
    Except Refusal (Bracket × List Char) := do
  let (isNegated, left) := match mode.skip inside with
    | '^' :: left => (true, mode.skip left)
    | left => (false, left)
  if left.isEmpty then mode.refuse .unclosedSet start []
  let place := mode.size - left.length
  let (dashes, stop) := readDashes mode left
  match stop, dashes with
  | [], _ => mode.refuse .unclosedSet start start
  | ']' :: rest, [] =>
      let bracket := .literal { char := ']', span := mode.span stop rest }
      let stop := mode.skip rest
      if stop.isEmpty then mode.refuse .unclosedSet start []
      return ({ start, stop, isNegated, place, members := [bracket] }, stop)
  | _, _ => return ({ start, stop, isNegated, place, members := dashes.reverse }, stop)

/-- The member that an atom is between brackets. -/
def memberOf : Atom → Except Refusal Member
  | .literal literal => .ok (.literal literal)
  | .shorthand span characters isNegated => .ok (.shorthand span characters isNegated)
  | .property span name => .ok (.property span name)
  | .condition span _ => .error (.fault .setMember span none)

/-- The character that limits a range. -/
def limitOf : Atom → Except Refusal Literal
  | .literal literal => .ok literal
  | atom => .error (.fault .rangeLimit atom.span none)

/-- The character behind a dash, given what is left from there. Where blanks do not count it is the
next character that is none, be it in a comment. -/
def behindDash (mode : Mode) (chars : List Char) : Option Char :=
  let counted := if mode.isFree then chars.dropWhile isBlank else chars
  let counted := match mode.isFree, counted with
    | true, '#' :: comment => comment.dropWhile isBlank
    | _, counted => counted
  counted.head?.or chars.head?

/-- Reads a character, a class or a range. -/
def readMember (mode : Mode) (bracket : Bracket) (c : Char) (rest : List Char) :
    Except Refusal (Member × List Char) := do
  let (first, left) ← readAtom mode c rest
  let left := mode.skip left
  match left with
  | [] => mode.refuse .unclosedSet bracket.start bracket.stop
  | '-' :: others =>
      if (behindDash mode others).any [']', '-'].contains then
        return (← memberOf first, left)
      match mode.skip others with
      | [] => mode.refuse .unclosedSet bracket.start bracket.stop
      | c :: others =>
          let (last, stop) ← readAtom mode c others
          let low ← limitOf first
          let high ← limitOf last
          let span := ⟨first.span.start, last.span.stop⟩
          if high.char < low.char then .error (.fault .rangeOrder span none)
          return (.range span low high, stop)
  | _ => return (← memberOf first, left)

/-- Reads to the end of brackets that are open, the innermost first. -/
def readBrackets (mode : Mode) (bracket : Bracket) (outer : List Bracket) :
    List Char → Except Refusal (Part × List Char)
  | [] => mode.refuse .unclosedSet bracket.start bracket.stop
  | c :: rest => do
      let onward (bracket : Bracket) (outer : List Bracket) (left : List Char) :=
        readBrackets mode bracket outer (rest.drop (rest.length - (mode.skip left).length))
      if c = ']' then
        let span := mode.span bracket.start rest
        match outer with
        | [] => return (.brackets span bracket.isNegated bracket.read, rest)
        | around :: outer =>
            onward (around.add (.brackets span bracket.isNegated bracket.read)) outer rest
      else if c = '[' then
        if let some (characters, isNegated, left) := readClass? rest then
          onward (bracket.add (.named (mode.span (c :: rest) left) characters isNegated)) outer left
        else
          let (inner, left) ← openBracket mode (c :: rest) rest
          onward inner (bracket :: outer) left
      else
        match if rest.head? = some c then SetOperator.ofChar? c else none with
        | some operator =>
            let left := rest.drop 1
            onward (bracket.operate operator (mode.size - left.length)) outer left
        | none =>
            let (member, left) ← readMember mode bracket c rest
            onward (bracket.add member) outer left
termination_by chars => chars.length
decreasing_by all_goals simp only [List.length_drop, List.length_cons]; omega

end CilPatch.Regex
