/-!
# Lines of text

A line feed ends a line, and a carriage return in front of it belongs to the ending. What follows
the last line feed is a line of its own unless it is empty.
-/

namespace CilPatch

/-- A text without a carriage return at its end. -/
def withoutReturn (text : String) : String :=
  match text.toList.reverse with
  | '\r' :: rest => String.ofList rest.reverse
  | _ => text

/-- The lines of a text. -/
def linesOf (text : String) : List String :=
  let parts := text.splitOn "\n"
  parts.dropLast.map withoutReturn ++ parts.getLast?.toList.filter (!·.isEmpty)

/-- The text that has the given lines, each of which ends in a line feed. -/
def unlines (lines : List String) : String := String.join (lines.map (· ++ "\n"))

end CilPatch
