import CilPatch.Bytes.Align
import CilPatch.Bytes.Cursor
import CilPatch.Table.Widths

/-!
# The tables stream

All tables of an image are stored in one stream (ECMA-335 II.24.2.6): a header with a mask of
the present tables, their row counts, and then the rows of one table after another. A row is
kept as the values of its columns; how wide they are stored is decided anew on writing.
-/

namespace CilPatch

/-- The values of the columns of one row. -/
abbrev Row := List UInt32

/-- The decoded tables of an image. -/
structure TableStream where
  /-- The first word of the header, which has no meaning. -/
  reserved : UInt32
  /-- The first part of the version of the format. -/
  major : UInt8
  /-- The second part of the version of the format. -/
  minor : UInt8
  /-- The flags of heaps with four-byte indexes. -/
  heapSizes : UInt8
  /-- A byte of the header without meaning. -/
  reserved2 : UInt8
  /-- The mask of the tables that were present when the stream was read. -/
  valid : UInt64
  /-- The mask of the sorted tables. -/
  sorted : UInt64
  /-- The word behind the row counts, if there is one. -/
  extra : Option UInt32
  /-- The rows of the tables, by table number. -/
  tables : Array (Array Row)
  /-- What follows the rows. -/
  trailing : List UInt8
  deriving DecidableEq, Repr

/-- A stored column value, which takes four bytes or must fit two. -/
def encodeColumn (large : Bool) (value : UInt32) : Except Fault (List UInt8) :=
  if large then .ok (LittleEndian.u32 value)
  else if value.toNat < UInt16.size then .ok (LittleEndian.encode 2 value.toNat)
  else .error (.malformed (.narrowColumn value))

/-- A stored column value takes the bytes of its width. -/
theorem length_encodeColumn {large : Bool} {value : UInt32} {bytes : List UInt8}
    (h : encodeColumn large value = .ok bytes) : bytes.length = if large then 4 else 2 := by
  unfold encodeColumn at h
  cases large with
  | true =>
      rw [← Except.ok.inj h]
      rfl
  | false =>
      simp only [Bool.false_eq_true, if_false] at h ⊢
      split at h
      · rw [← Except.ok.inj h, LittleEndian.length_encode]
      · simp at h

/-- The stored columns of a row, given which of them are large. -/
def encodeRow : List Bool → Row → Except Fault (List UInt8)
  | large :: sizes, value :: row => do
      let first ← encodeColumn large value
      let rest ← encodeRow sizes row
      return first ++ rest
  | _, _ => .ok []

/-- The next columns of a row, given which of them are large. -/
def readRow : List Bool → Read Row
  | [] => return []
  | large :: sizes => do
      let value ← Read.column large
      let rest ← readRow sizes
      return value :: rest

/-- The next rows of a table, put behind those that were read before. -/
def readRows (sizes : List Bool) : Nat → Array Row → Read (Array Row)
  | 0, rows => return rows
  | count + 1, rows => do
      let row ← readRow sizes
      readRows sizes count (rows.push row)

namespace TableStream

/-- How many bytes stand in front of the row counts. -/
def headerSize : Nat := 24

/-- The rows of a table. -/
def rows (stream : TableStream) (table : TableId) : Array Row :=
  stream.tables.getD table.number #[]

/-- How many rows a table has. -/
def rowCount (stream : TableStream) (table : TableId) : UInt32 :=
  UInt32.ofNat (stream.rows table).size

/-- The row of a table with a number, counted from one. -/
def row? (stream : TableStream) (table : TableId) (rid : UInt32) : Option Row :=
  if rid = 0 then none else (stream.rows table)[rid.toNat - 1]?

/-- What the widths of the columns depend on. -/
def widths (stream : TableStream) : Widths :=
  ⟨TableId.all.map stream.rowCount, stream.heapSizes⟩

/-- How many tables are marked as present. -/
def presentCount (stream : TableStream) : Nat :=
  ((List.range 64).filter stream.valid.toNat.testBit).length

/-- Puts a row at the end of a table and yields its number. -/
def push (stream : TableStream) (table : TableId) (row : Row) :
    Except Fault (TableStream × UInt32) :=
  if row.length = table.columns.length then
    let stream :=
      { stream with tables := stream.tables.modify table.number fun rows => rows.push row }
    .ok (stream, stream.rowCount table)
  else .error (.malformed (.rowWidth table table.columns.length row.length))

/-- Changes one column of the row with a number, if there is such a row. -/
def setColumn (stream : TableStream) (table : TableId) (rid : UInt32) (column : Nat)
    (value : UInt32) : TableStream :=
  if rid = 0 then stream
  else
    { stream with
      tables := stream.tables.modify table.number fun rows =>
        rows.modify (rid.toNat - 1) fun row => row.set column value }

/-- A row put at the end of a table stands behind its other rows. -/
theorem rows_push {stream after : TableStream} {table : TableId} {row : Row} {rid : UInt32}
    (h : stream.push table row = .ok (after, rid)) (hpresent : table.number < stream.tables.size) :
    after.rows table = (stream.rows table).push row := by
  unfold push at h
  split at h
  · have hafter := congrArg Prod.fst (Except.ok.inj h)
    subst hafter
    simp [rows, Array.getElem_modify, hpresent]
  · simp at h

/-- A row put at the end of a table leaves the other tables alone. -/
theorem rows_push_of_ne {stream after : TableStream} {table other : TableId} {row : Row}
    {rid : UInt32} (h : stream.push table row = .ok (after, rid)) (hne : other ≠ table) :
    after.rows other = stream.rows other := by
  unfold push at h
  split at h
  · have hafter := congrArg Prod.fst (Except.ok.inj h)
    have hnumber : ¬ table.number = other.number :=
      fun heq => hne (TableId.number_inj.mp heq).symm
    subst hafter
    simp [rows, Array.getElem?_modify, hnumber]
  · simp at h

/-- Changing a column of a table leaves the other tables alone. -/
theorem rows_setColumn_of_ne (stream : TableStream) {table other : TableId} (rid : UInt32)
    (column : Nat) (value : UInt32) (hne : other ≠ table) :
    (stream.setColumn table rid column value).rows other = stream.rows other := by
  have hnumber : ¬ table.number = other.number :=
    fun heq => hne (TableId.number_inj.mp heq).symm
  unfold setColumn
  split
  · rfl
  · simp [rows, Array.getElem?_modify, hnumber]

/-- Changing a column keeps the number of rows of every table. -/
theorem size_rows_setColumn (stream : TableStream) (table other : TableId) (rid : UInt32)
    (column : Nat) (value : UInt32) :
    ((stream.setColumn table rid column value).rows other).size = (stream.rows other).size := by
  unfold setColumn
  split
  · rfl
  · by_cases hnumber : table.number = other.number
    · cases hrows : stream.tables[other.number]? <;>
        simp [rows, Array.getElem?_modify, hnumber, hrows]
    · simp [rows, Array.getElem?_modify, hnumber]

/-- Marks a heap as having four-byte indexes when it has outgrown two bytes. -/
def widenHeap (stream : TableStream) (flag : UInt8) (heapSize : Nat) : TableStream :=
  if 0xFFFF < heapSize then { stream with heapSizes := stream.heapSizes ||| flag } else stream

/-- The row counts of the given tables, of which only those in the mask are stored. -/
def readCounts (valid : UInt64) : List TableId → Read (List UInt32)
  | [] => return []
  | table :: rest => do
      let count ← if valid.toNat.testBit table.number then Read.u32 else pure 0
      let counts ← readCounts valid rest
      return count :: counts

/-- The rows of the given tables. -/
def readTables (widths : Widths) : List TableId → Read (List (Array Row))
  | [] => return []
  | table :: rest => do
      let rows ← readRows (table.columns.map widths.isLarge) (widths.rows table).toNat #[]
      let tables ← readTables widths rest
      return rows :: tables

/-- Reads a whole tables stream. -/
def read : Read TableStream := do
  let cursor ← get
  if cursor.data.size < headerSize then throw .outOfBounds
  let reserved ← Read.u32
  let major ← Read.u8
  let minor ← Read.u8
  let heapSizes ← Read.u8
  let reserved2 ← Read.u8
  let valid ← Read.u64
  let sorted ← Read.u64
  if valid = 0 then throw (.malformed .noTables)
  if 1 <<< TableId.count ≤ valid.toNat then throw .notSupported
  let counts ← readCounts valid TableId.all
  let extra ← if heapSizes &&& Widths.extraWord != 0 then some <$> Read.u32 else pure none
  let tables ← readTables ⟨counts, heapSizes⟩ TableId.all
  let trailing := (← get).rest
  return {
    reserved, major, minor, heapSizes, reserved2, valid, sorted, extra, trailing
    tables := tables.toArray }

/-- Decodes the tables stream in a block of bytes. -/
def ofBytes (data : Bytes) : Except Fault TableStream := Cursor.parse read data

/-- The mask that a written stream has: a table with rows is always present. -/
def mask (stream : TableStream) : Nat :=
  (TableId.all.filter fun table => (stream.rows table).size != 0).foldl
    (fun mask table => mask ||| 1 <<< table.number) stream.valid.toNat

/-- The stored rows of a table. -/
def encodeRows (stream : TableStream) (table : TableId) : Except Fault (List UInt8) := do
  let sizes := table.columns.map stream.widths.isLarge
  let rows ← (stream.rows table).toList.mapM (encodeRow sizes)
  return rows.flatten

/-- The stored form of a stream, padded to a multiple of four bytes. -/
def encode (stream : TableStream) : Except Fault (List UInt8) := do
  let mask := stream.mask
  let header := LittleEndian.u32 stream.reserved ++
    ([stream.major, stream.minor, stream.heapSizes, stream.reserved2] ++
    (LittleEndian.encode 8 mask ++ LittleEndian.u64 stream.sorted))
  let counts := (TableId.all.filter fun table => mask.testBit table.number).flatMap fun table =>
    LittleEndian.u32 (stream.rowCount table)
  let extra := match stream.extra with
    | some word => LittleEndian.u32 word
    | none => []
  let rows ← TableId.all.mapM stream.encodeRows
  return padTo (header ++ (counts ++ (extra ++ (rows.flatten ++ stream.trailing)))) 4

end TableStream

end CilPatch
