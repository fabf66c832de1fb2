import CilPatch.Text.Regex
import CilPatch.Text.Regex.Refusal

/-!
# Parts of patterns

A pattern as it is written: what stands where, before it is decided what it matches.
-/

namespace CilPatch.Regex

/-- A character. -/
structure Literal where
  /-- The character. -/
  char : Char
  /-- Where it is written. -/
  span : Span
  /-- Whether it is given by two hexadecimal digits. They stand for a byte where patterns are
  about ASCII. -/
  isByte : Bool := false

/-- A class of ASCII characters, by its ranges. -/
abbrev AsciiClass := List (Char × Char)

/-- A condition on a position. -/
inductive Condition where
  /-- The start of the text, or of a line. -/
  | lineStart
  /-- The end of the text, or of a line. -/
  | lineStop
  /-- The start of the text. -/
  | start
  /-- The end of the text. -/
  | stop
  /-- A place at a word. -/
  | word (place : WordPlace)

/-- A character or an escape. -/
inductive Atom where
  /-- A character. -/
  | literal (given : Literal)
  /-- A letter for a class. -/
  | shorthand (span : Span) (characters : AsciiClass) (isNegated : Bool)
  /-- A property of characters. -/
  | property (span : Span) (name : String)
  /-- A condition on a position. -/
  | condition (span : Span) (condition : Condition)

/-- Where an atom is written. -/
def Atom.span : Atom → Span
  | literal given => given.span
  | shorthand span _ _ | property span _ | condition span _ => span

/-- An operator on sets. -/
inductive SetOperator where
  /-- What is common to both sides. -/
  | meet
  /-- What is on the left side only. -/
  | minus
  /-- What is on one side only. -/
  | differ

/-- What brackets hold. -/
inductive Member where
  /-- Nothing. -/
  | empty (span : Span)
  /-- A character. -/
  | literal (given : Literal)
  /-- The characters from one to another. -/
  | range (span : Span) (first last : Literal)
  /-- A class by its name. -/
  | named (span : Span) (characters : AsciiClass) (isNegated : Bool)
  /-- A letter for a class. -/
  | shorthand (span : Span) (characters : AsciiClass) (isNegated : Bool)
  /-- A property of characters. -/
  | property (span : Span) (name : String)
  /-- Other brackets. -/
  | brackets (span : Span) (isNegated : Bool) (inside : Member)
  /-- Several members. -/
  | union (span : Span) (members : List Member)
  /-- Two sides of an operator. -/
  | operation (span : Span) (operator : SetOperator) (left right : Member)

/-- Where a member is written. -/
def Member.span : Member → Span
  | literal given => given.span
  | empty span | range span _ _ | named span _ _ | shorthand span _ _ | property span _
  | brackets span _ _ | union span _ | operation span _ _ _ => span

/-- How a pattern is read. -/
inductive Flag where
  /-- Upper and lower case are the same. -/
  | anyCase
  /-- Lines have a start and an end of their own. -/
  | lines
  /-- A dot stands for the end of a line too. -/
  | dotAll
  /-- Repetitions take as little as they can, unless they are asked to take much. -/
  | swapGreed
  /-- The pattern is about all scripts. -/
  | allScripts
  /-- Carriage returns end lines too. -/
  | atReturns
  /-- Blanks and comments do not count. -/
  | free
  deriving DecidableEq

/-- The flag with a letter. -/
def Flag.ofChar? : Char → Option Flag
  | 'i' => some anyCase
  | 'm' => some lines
  | 's' => some dotAll
  | 'U' => some swapGreed
  | 'u' => some allScripts
  | 'R' => some atReturns
  | 'x' => some free
  | _ => none

/-- Flags that are set or taken back. -/
abbrev Changes := List (Flag × Bool)

/-- A part of a pattern. -/
inductive Part where
  /-- Nothing. -/
  | empty (span : Span)
  /-- Flags for what follows. -/
  | flags (span : Span) (changes : Changes)
  /-- A character or an escape. -/
  | atom (given : Atom)
  /-- A dot. -/
  | dot (span : Span)
  /-- A set of characters in brackets. -/
  | brackets (span : Span) (isNegated : Bool) (inside : Member)
  /-- A part that is repeated. -/
  | repeated (span : Span) (body : Part) (least : Nat) (most : Option Nat)
  /-- A group, with flags for what is in it. -/
  | group (span : Span) (isCapture : Bool) (changes : Changes) (body : Part)
  /-- Parts of which one is chosen. -/
  | alternatives (span : Span) (parts : List Part)
  /-- Parts one after another. -/
  | sequence (span : Span) (parts : List Part)

/-- Where a part is written. -/
def Part.span : Part → Span
  | atom given => given.span
  | empty span | flags span _ | dot span | brackets span _ _ | repeated span _ _ _
  | group span _ _ _ | alternatives span _ | sequence span _ => span

end CilPatch.Regex
