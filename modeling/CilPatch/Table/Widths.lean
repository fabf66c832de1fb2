import CilPatch.Table.Column

/-!
# Column widths

Row counts and heap sizes decide whether an index column takes two or four bytes: two as long
as every row number, shifted past its tag, fits sixteen bits.
-/

namespace CilPatch

/-- The facts about an image on which the widths of its columns depend. -/
structure Widths where
  /-- How many rows a table has, by table number; a table past the end has none. -/
  counts : List UInt32
  /-- The flags of heaps with four-byte indexes. -/
  heapSizes : UInt8
  deriving DecidableEq, Repr

namespace Widths

/-- Set in `heapSizes` when string indexes take four bytes. -/
def largeStrings : UInt8 := 0x01

/-- Set in `heapSizes` when GUID indexes take four bytes. -/
def largeGuids : UInt8 := 0x02

/-- Set in `heapSizes` when blob indexes take four bytes. -/
def largeBlobs : UInt8 := 0x04

/-- Set in `heapSizes` when a further word follows the row counts. -/
def extraWord : UInt8 := 0x40

/-- How many rows a table has. -/
def rows (widths : Widths) (table : TableId) : UInt32 := widths.counts.getD table.number 0

/-- Whether a flag of `heapSizes` is set. -/
def hasFlag (widths : Widths) (flag : UInt8) : Bool := widths.heapSizes &&& flag != 0

/-- How many bits the row count of a table takes, at least one. -/
def rowBits (widths : Widths) (table : TableId) : Nat :=
  let count := (widths.rows table).toNat
  if count = 0 then 1 else Nat.log2 count + 1

/-- Whether row numbers of a table take four bytes. -/
def isLargeRow (widths : Widths) (table : TableId) : Bool := 16 < widths.rowBits table

/-- How many bits a coded index takes: its tag and the largest of its tables. -/
def codedBits (widths : Widths) (kind : CodedIndex) : Nat :=
  (kind.tables.map widths.rowBits).foldl max 0 + kind.tagBits

/-- Whether coded indexes of a kind take four bytes. -/
def isLargeCoded (widths : Widths) (kind : CodedIndex) : Bool := 16 < widths.codedBits kind

/-- Whether a column is stored with four bytes instead of two. -/
def isLarge (widths : Widths) : Column → Bool
  | .half => false
  | .word => true
  | .string => widths.hasFlag largeStrings
  | .guid => widths.hasFlag largeGuids
  | .blob => widths.hasFlag largeBlobs
  | .row table => widths.isLargeRow table
  | .coded kind => widths.isLargeCoded kind

/-- How many bytes a column takes. -/
def columnSize (widths : Widths) (column : Column) : Nat := if widths.isLarge column then 4 else 2

/-- How many bytes a row of a table takes. -/
def rowSize (widths : Widths) (table : TableId) : Nat :=
  table.columns.foldl (fun size column => size + widths.columnSize column) 0

/-- How many bytes all rows of all tables take. -/
def totalSize (widths : Widths) : Nat :=
  TableId.all.foldl (fun size table => size + widths.rowSize table * (widths.rows table).toNat) 0

end Widths

end CilPatch
