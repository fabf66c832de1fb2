import CilPatch.Text.CharSet

/-!
# Regular expressions

An expression leads from a position in a text to the positions where a match from there can end.
It is found in a text if it leads somewhere from any of its positions. Repetitions need no more
rounds than the text has characters: a longer way has a round that stays where it is.
-/

namespace CilPatch

/-- A place at a word. -/
inductive WordPlace where
  /-- The start or the end of a word. -/
  | edge
  /-- Neither the start nor the end of a word. -/
  | inside
  /-- The start of a word. -/
  | start
  /-- The end of a word. -/
  | stop
  /-- Where no word is in front. -/
  | noneBefore
  /-- Where no word is behind. -/
  | noneBehind
  deriving DecidableEq

/-- A condition on a position in a text. -/
inductive Anchor where
  /-- The start of the text. -/
  | start
  /-- The end of the text. -/
  | stop
  /-- The start of a line. A line ends at a line feed, or also at a carriage return. -/
  | lineStart (atReturns : Bool)
  /-- The end of a line. -/
  | lineStop (atReturns : Bool)
  /-- A place at a word of ASCII letters. -/
  | word (place : WordPlace)
  /-- A place at a word of any script. There are no tables of such words, so no position is
  known to be one. -/
  | scriptWord (place : WordPlace)
  deriving DecidableEq

/-- A regular expression. -/
inductive Regex where
  /-- Matches the empty text. -/
  | empty
  /-- Matches one character of a set. -/
  | one (set : CharSet)
  /-- Matches the empty text where a condition holds. -/
  | anchor (condition : Anchor)
  /-- Matches one expression and then another. -/
  | seq (first second : Regex)
  /-- Matches one of two expressions. -/
  | either (left right : Regex)
  /-- Matches an expression a number of times. -/
  | times (body : Regex) (least : Nat) (most : Option Nat)
  /-- Matches an expression whose match is of interest. -/
  | capture (body : Regex)

/-- Whether a word of ASCII letters goes over a character. -/
def isWordChar (c : Char) : Bool := c.isAlphanum || c == '_'

/-- Whether words with or without a character in front and behind make up a place. -/
def WordPlace.holds (place : WordPlace) (before behind : Bool) : Bool :=
  match place with
  | edge => before != behind
  | inside => before == behind
  | start => !before && behind
  | stop => before && !behind
  | noneBefore => !before
  | noneBehind => !behind

/-- Whether a condition holds at a position. -/
def Anchor.holds (condition : Anchor) (text : Array Char) (position : Nat) : Bool :=
  let before := if position = 0 then none else text[position - 1]?
  let behind := text[position]?
  match condition with
  | start => before.isNone
  | stop => behind.isNone
  | lineStart atReturns =>
      before.all fun c => c == '\n' || (atReturns && c == '\r' && behind != some '\n')
  | lineStop atReturns =>
      behind.all fun c =>
        if atReturns then c == '\r' || (c == '\n' && before != some '\r') else c == '\n'
  | word place => place.holds (before.any isWordChar) (behind.any isWordChar)
  | scriptWord _ => false

namespace Regex

/-- The positions that are reached in a number of rounds or less, given those that have been seen
and those of them that the last round has added. -/
def within (round : List Nat → List Nat) : Nat → List Nat → List Nat → List Nat
  | 0, seen, _ => seen
  | rounds + 1, seen, added =>
      match ((round added).filter (!seen.contains ·)).eraseDups with
      | [] => seen
      | fresh => within round rounds (seen ++ fresh) fresh

/-- The positions where matches end that start at one of the given positions. As many rounds as
there are positions stand for any larger number: one of so many takes no character, and it can
be left out or done again. -/
def ends (text : Array Char) : Regex → List Nat → List Nat
  | empty, starts => starts
  | one set, starts => (starts.filter fun i => text[i]?.any set.has).map (· + 1)
  | anchor condition, starts => starts.filter (condition.holds text)
  | seq first second, starts => second.ends text (first.ends text starts)
  | either left right, starts => (left.ends text starts ++ right.ends text starts).eraseDups
  | times body least most, starts =>
      let reached := Nat.repeat (body.ends text) (min least (text.size + 1)) starts
      let rounds := match most with
        | some most => min (most - least) text.size
        | none => text.size
      within (body.ends text) rounds reached reached
  | capture body, starts => body.ends text starts

/-- Whether an expression is found in a text. -/
def isFoundIn (regex : Regex) (text : String) : Bool :=
  let chars := text.toList.toArray
  !(regex.ends chars (List.range (chars.size + 1))).isEmpty

/-- One expression after another. -/
def seqs : List Regex → Regex
  | [] => empty
  | [only] => only
  | first :: rest => seq first (seqs rest)

/-- One of some expressions, of which there is at least one. -/
def choice (first : Regex) (others : List Regex) : Regex := others.foldl either first

/-- A position in reach stays in reach. -/
theorem mem_within {round : List Nat → List Nat} {rounds position : Nat}
    {seen added : List Nat} (h : position ∈ seen) : position ∈ within round rounds seen added := by
  induction rounds generalizing seen added with
  | zero => exact h
  | succ rounds ih =>
      unfold within
      split
      · exact h
      · exact ih (List.mem_append_left _ h)

end Regex

end CilPatch
