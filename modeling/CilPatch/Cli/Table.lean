import CilPatch.Text.Blank
import CilPatch.Text.Width

/-!
# Text tables

A table has a line of headings and one line a row, or several where a cell has line feeds. Texts
start at the left of their column, counts end at its right, and two blanks set columns apart.
-/

namespace CilPatch.Cli

/-- A table of texts followed by counts. -/
structure Table where
  /-- The headings of the texts. -/
  texts : List String
  /-- The headings of the counts. -/
  counts : List String
  /-- The rows. -/
  rows : List (List String × List Nat)

namespace Table

/-- A cell by its lines. -/
abbrev Cell := List String

/-- All cells of a table, row by row, the headings first. -/
def cells (table : Table) : List (List Cell) :=
  let rows := (table.texts ++ table.counts) ::
    table.rows.map fun (texts, counts) => texts ++ counts.map toString
  rows.map fun row => row.map (·.splitOn "\n")

/-- The width of a cell, that of its widest line; no cell is without width. -/
def cellWidth (cell : Cell) : Nat := (cell.map Width.ofText).foldl max 1

/-- The greatest width of each column. -/
def widths (cells : List (List Cell)) : List Nat :=
  match cells with
  | [] => []
  | first :: rest => rest.foldl (fun widths row =>
      List.zipWith (fun width cell => max width (cellWidth cell)) widths row)
      (first.map cellWidth)

/-- The text of a cell filled up with blanks to a width. -/
def fill (isCount : Bool) (width : Nat) (text : String) : String :=
  let blanks := String.ofList (List.replicate (width - Width.ofText text) ' ')
  if isCount then blanks ++ text else text ++ blanks

/-- The lines of a table, each with a margin of two blanks. -/
def lines (table : Table) : List String :=
  let cells := table.cells
  let columns := (table.texts.map (fun _ => false) ++ table.counts.map fun _ => true).zip
    (widths cells)
  cells.flatMap fun row =>
    let height := (row.map List.length).foldl max 0
    (List.range height).map fun index =>
      let filled := List.zipWith (fun (isCount, width) cell =>
        fill isCount width (cell.getD index "")) columns row
      "  " ++ trimEnd ("  ".intercalate filled)

end Table

end CilPatch.Cli
