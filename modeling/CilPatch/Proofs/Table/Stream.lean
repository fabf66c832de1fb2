import CilPatch.Proofs.Bytes.Align
import CilPatch.Proofs.Table.Row
import Mathlib.Data.Nat.Bitwise

/-!
# Stored tables

A block is read as a tables stream exactly when it is the stored form of that stream: every row has
its columns and fits their widths, these are the widths that the stored row counts make a reader
expect, and no table with rows is missing from the mask. So a stream that was read is encoded to
what it was read from, and what a well-formed stream is encoded to is read as the same tables.
-/

namespace CilPatch

open LittleEndian

namespace TableStream

variable {before after : Cursor}

/-- Every table stands in the list of all tables at its number. -/
theorem getElem?_all_number (table : TableId) : TableId.all[table.number]? = some table :=
  TableId.ofNumber?_number table

/-- Every table is one of all tables. -/
theorem mem_all (table : TableId) : table ∈ TableId.all :=
  List.mem_of_getElem? (getElem?_all_number table)

/-- A list with a member for each table holds what each table has there. -/
theorem map_all_getD {α : Type} {list : List α} (h : list.length = TableId.count) (default : α) :
    (TableId.all.map fun table => list.getD table.number default) = list := by
  have hnumbers : TableId.all.map TableId.number = List.range TableId.count := by decide
  have hrange : (TableId.all.map fun table => list.getD table.number default) =
      (List.range list.length).map fun number => list.getD number default := by
    rw [h, ← hnumbers, List.map_map]
    rfl
  rw [hrange]
  apply List.ext_getElem
  · simp
  · intro number _ hnumber
    simp [hnumber]

/-- What each table has in a list that was made for all tables. -/
theorem getD_map_all {α : Type} (each : TableId → α) (default : α) (table : TableId) :
    (TableId.all.map each).getD table.number default = each table := by
  rw [List.getD_eq_getElem?_getD, List.getElem?_map, getElem?_all_number]
  rfl

/-! ## Counts and rows -/

/-- The row count of a table, which is only stored when the mask has the table. -/
def readCount (valid : UInt64) (table : TableId) : Read UInt32 :=
  if valid.toNat.testBit table.number then Read.u32 else pure 0

/-- The row counts of tables are read one after another. -/
theorem readCounts_cons (valid : UInt64) (table : TableId) (rest : List TableId) :
    readCounts valid (table :: rest) = (do
      let count ← readCount valid table
      let counts ← readCounts valid rest
      return count :: counts) := by
  rw [readCounts, readCount]
  split <;> rfl

/-- A row count is read for each of the tables. -/
theorem length_of_readCounts {valid : UInt64} {tables : List TableId} {counts : List UInt32}
    (h : (readCounts valid tables).run before = (.ok counts, after)) :
    counts.length = tables.length := by
  induction tables generalizing before counts with
  | nil =>
    obtain rfl := Except.ok.inj (Prod.mk.inj h).1
    rfl
  | cons table rest ih =>
    rw [readCounts_cons] at h
    obtain ⟨count, middle, -, h⟩ := run_bind_eq_ok_iff.mp h
    obtain ⟨others, last, hothers, h⟩ := run_bind_eq_ok_iff.mp h
    obtain ⟨hcounts, rfl⟩ := Prod.mk.inj h
    obtain rfl := Except.ok.inj hcounts
    rw [List.length_cons, List.length_cons, ih hothers]

/-- The stored row counts of some tables, of which only those in the mask are stored. -/
def storedCounts (valid : UInt64) (count : TableId → UInt32) (tables : List TableId) :
    List UInt8 :=
  (tables.filter fun table => valid.toNat.testBit table.number).flatMap fun table =>
    LittleEndian.u32 (count table)

/-- Row counts are read when those of the tables in the mask are passed; the others are zero. -/
theorem run_readCounts_eq_ok_iff {valid : UInt64} {count : TableId → UInt32}
    {tables : List TableId} (hbounded : before.pos ≤ before.data.size) :
    (readCounts valid tables).run before = (.ok (tables.map count), after) ↔
      (∀ table ∈ tables, valid.toNat.testBit table.number = false → count table = 0) ∧
        before.Passes (storedCounts valid count tables) after := by
  induction tables generalizing before with
  | nil =>
    rw [readCounts, step_pure, storedCounts, List.filter_nil, List.flatMap_nil,
      Cursor.passes_nil_iff hbounded]
    constructor
    · intro h
      exact ⟨nofun, (Prod.mk.inj h).2.symm⟩
    · rintro ⟨-, rfl⟩
      rfl
  | cons table rest ih =>
    have hcons {middle : Cursor} (hmiddle : middle.pos ≤ middle.data.size) {found : UInt32} :
        (readCounts valid rest >>= fun counts => pure (found :: counts)).run middle =
            (.ok ((table :: rest).map count), after) ↔
          found = count table ∧
            (∀ other ∈ rest, valid.toNat.testBit other.number = false → count other = 0) ∧
            middle.Passes (storedCounts valid count rest) after := by
      rw [← ih hmiddle, run_bind_eq_ok_iff]
      constructor
      · rintro ⟨others, last, hothers, h⟩
        obtain ⟨hcounts, rfl⟩ := Prod.mk.inj h
        obtain ⟨hfound, rfl⟩ := List.cons.inj (Except.ok.inj hcounts)
        exact ⟨hfound, hothers⟩
      · rintro ⟨rfl, hothers⟩
        exact ⟨_, after, hothers, rfl⟩
    rw [readCounts_cons, run_bind_eq_ok_iff, List.forall_mem_cons, readCount, storedCounts,
      List.filter_cons]
    cases hvalid : valid.toNat.testBit table.number with
    | true =>
      simp only [if_true, List.flatMap_cons, reduceCtorEq, false_implies, true_and,
        Cursor.passes_append_iff]
      constructor
      · rintro ⟨found, middle, hfound, h⟩
        have hfound := Read.run_u32_eq_ok_iff.mp hfound
        obtain ⟨rfl, hzero, hrest⟩ := (hcons hfound.bounded).mp h
        exact ⟨hzero, middle, hfound, hrest⟩
      · rintro ⟨hzero, middle, hfound, hrest⟩
        exact ⟨_, middle, Read.run_u32_eq_ok_iff.mpr hfound,
          (hcons hfound.bounded).mpr ⟨rfl, hzero, hrest⟩⟩
    | false =>
      simp only [Bool.false_eq_true, if_false, true_implies]
      constructor
      · rintro ⟨found, middle, hfound, h⟩
        obtain ⟨hnone, rfl⟩ := Prod.mk.inj hfound
        obtain rfl := Except.ok.inj hnone
        obtain ⟨hfound, hzero, hrest⟩ := (hcons hbounded).mp h
        exact ⟨⟨hfound.symm, hzero⟩, hrest⟩
      · rintro ⟨⟨hfound, hzero⟩, hrest⟩
        exact ⟨0, before, rfl, (hcons hbounded).mpr ⟨hfound.symm, hzero, hrest⟩⟩

/-- The stored rows of a table with given widths. -/
def storedRows (widths : Widths) (table : TableId) (rows : Array Row) :
    Except Fault (List UInt8) := do
  return (← rows.toList.mapM (encodeRow (table.columns.map widths.isLarge))).flatten

/-- A table has as many rows as its count says, and each has its columns. -/
structure Fits (widths : Widths) (table : TableId) (rows : Array Row) : Prop where
  count : rows.size = (widths.rows table).toNat
  columns : ∀ row ∈ rows.toList, row.length = table.columns.length

/-- A table is read when its rows are passed. -/
theorem run_readTable_eq_ok_iff {widths : Widths} {table : TableId} {rows : Array Row}
    (hbounded : before.pos ≤ before.data.size) :
    (readRows (table.columns.map widths.isLarge) (widths.rows table).toNat #[]).run before =
        (.ok rows, after) ↔
      Fits widths table rows ∧
        ∃ stored, storedRows widths table rows = .ok stored ∧ before.Passes stored after := by
  rw [run_readRows_eq_ok_iff hbounded]
  constructor
  · rintro ⟨more, parts, hrows, hlength, hwidths, hparts, hpasses⟩
    obtain rfl : rows.toList = more := hrows
    refine ⟨⟨hlength, fun row hrow => ?_⟩, parts.flatten, ?_, hpasses⟩
    · rw [hwidths row hrow, List.length_map]
    · exact bind_eq_ok_iff.mpr ⟨parts, hparts, rfl⟩
  · rintro ⟨hfits, stored, hstored, hpasses⟩
    obtain ⟨parts, hparts, hjoin⟩ := bind_eq_ok_iff.mp hstored
    obtain rfl := Except.ok.inj hjoin
    refine ⟨rows.toList, parts, rfl, hfits.count, fun row hrow => ?_, hparts, hpasses⟩
    rw [hfits.columns row hrow, List.length_map]

/-- Rows are read for each of the tables. -/
theorem length_of_readTables {widths : Widths} {tables : List TableId} {result : List (Array Row)}
    (h : (readTables widths tables).run before = (.ok result, after)) :
    result.length = tables.length := by
  induction tables generalizing before result with
  | nil =>
    obtain rfl := Except.ok.inj (Prod.mk.inj h).1
    rfl
  | cons table rest ih =>
    obtain ⟨rows, middle, -, h⟩ := run_bind_eq_ok_iff.mp h
    obtain ⟨others, last, hothers, h⟩ := run_bind_eq_ok_iff.mp h
    obtain ⟨hresult, rfl⟩ := Prod.mk.inj h
    obtain rfl := Except.ok.inj hresult
    rw [List.length_cons, List.length_cons, ih hothers]

/-- Tables are read when the stored rows of all of them are passed. -/
theorem run_readTables_eq_ok_iff {widths : Widths} {rows : TableId → Array Row}
    {tables : List TableId} (hbounded : before.pos ≤ before.data.size) :
    (readTables widths tables).run before = (.ok (tables.map rows), after) ↔
      (∀ table ∈ tables, Fits widths table (rows table)) ∧
        ∃ parts, (tables.mapM fun table => storedRows widths table (rows table)) = .ok parts ∧
          before.Passes parts.flatten after := by
  induction tables generalizing before with
  | nil =>
    rw [readTables, step_pure]
    constructor
    · intro h
      obtain ⟨-, rfl⟩ := Prod.mk.inj h
      exact ⟨nofun, [], rfl, (Cursor.passes_nil_iff hbounded).mpr rfl⟩
    · rintro ⟨-, parts, hparts, hpasses⟩
      obtain rfl := Except.ok.inj hparts
      rw [(Cursor.passes_nil_iff hbounded).mp hpasses]
      rfl
  | cons table rest ih =>
    rw [readTables, run_bind_eq_ok_iff, List.forall_mem_cons]
    constructor
    · rintro ⟨found, middle, hfound, h⟩
      obtain ⟨others, last, hothers, h⟩ := run_bind_eq_ok_iff.mp h
      obtain ⟨htables, rfl⟩ := Prod.mk.inj h
      obtain ⟨rfl, rfl⟩ := List.cons.inj (Except.ok.inj htables)
      obtain ⟨hfits, stored, hstored, hpasses⟩ := (run_readTable_eq_ok_iff hbounded).mp hfound
      obtain ⟨hrest, parts, hparts, hpasses'⟩ := (ih hpasses.bounded).mp hothers
      refine ⟨⟨hfits, hrest⟩, stored :: parts,
        mapM_cons_eq_ok_iff.mpr ⟨_, _, hstored, hparts, rfl⟩, ?_⟩
      rw [List.flatten_cons]
      exact Cursor.passes_append_iff.mpr ⟨middle, hpasses, hpasses'⟩
    · rintro ⟨⟨hfits, hrest⟩, parts, hparts, hpasses⟩
      obtain ⟨stored, others, hstored, hothers, rfl⟩ := mapM_cons_eq_ok_iff.mp hparts
      rw [List.flatten_cons] at hpasses
      obtain ⟨middle, hpasses, hpasses'⟩ := Cursor.passes_append_iff.mp hpasses
      refine ⟨rows table, middle,
        (run_readTable_eq_ok_iff hbounded).mpr ⟨hfits, stored, hstored, hpasses⟩, ?_⟩
      exact run_bind_eq_ok_iff.mpr ⟨_, after,
        (ih hpasses.bounded).mpr ⟨hrest, others, hothers, hpasses'⟩, rfl⟩

/-! ## Well-formed streams -/

/-- What holds of every stream that was read, and keeps holding when rows are changed. -/
structure WellFormed (stream : TableStream) : Prop where
  tables : stream.tables.size = TableId.count
  columns : ∀ table, ∀ row ∈ (stream.rows table).toList, row.length = table.columns.length
  counted : ∀ table, (stream.rows table).size < UInt32.size
  valid : stream.valid ≠ 0
  known : stream.valid.toNat < 1 <<< TableId.count
  extra : stream.extra.isSome = (stream.heapSizes &&& Widths.extraWord != 0)

variable {stream : TableStream}

/-- The rows of a table in the list of all tables. -/
theorem rows_eq_getD (stream : TableStream) (table : TableId) :
    stream.rows table = stream.tables.toList.getD table.number #[] := by
  rw [rows, Array.getD_eq_getD_getElem?, List.getD_eq_getElem?_getD, Array.getElem?_toList]

/-- The tables in order are the rows of each. -/
theorem WellFormed.tables_eq (h : stream.WellFormed) :
    (TableId.all.map stream.rows).toArray = stream.tables := by
  have hlength : stream.tables.toList.length = TableId.count := h.tables
  rw [funext stream.rows_eq_getD, map_all_getD hlength, Array.toArray_toList]

/-- The widths of a stream are those of its row counts. -/
theorem rows_widths (stream : TableStream) (table : TableId) :
    stream.widths.rows table = stream.rowCount table :=
  getD_map_all stream.rowCount 0 table

/-- The tables of a well-formed stream fit its widths. -/
theorem WellFormed.fits (h : stream.WellFormed) (table : TableId) :
    Fits stream.widths table (stream.rows table) := by
  refine ⟨?_, h.columns table⟩
  rw [rows_widths, rowCount, UInt32.toNat_ofNat_of_lt' (h.counted table)]

/-! ## The mask -/

/-- Tables with rows and tables that were present are in the mask. -/
theorem testBit_mask (stream : TableStream) (number : Nat) :
    stream.mask.testBit number = (stream.valid.toNat.testBit number ||
      (TableId.all.filter fun table => (stream.rows table).size != 0).any
        fun table => table.number == number) := by
  have hfold (tables : List TableId) (mask : Nat) :
      (tables.foldl (fun mask table => mask ||| 1 <<< table.number) mask).testBit number =
        (mask.testBit number || tables.any fun table => table.number == number) := by
    induction tables generalizing mask with
    | nil => simp
    | cons table rest ih =>
      rw [List.foldl_cons, ih, Nat.testBit_or, Nat.one_shiftLeft, Nat.testBit_two_pow,
        List.any_cons, Bool.or_assoc]
      rfl
  exact hfold _ _

/-- A table is in the mask when it was present or has rows. -/
theorem testBit_mask_number (stream : TableStream) (table : TableId) :
    stream.mask.testBit table.number =
      (stream.valid.toNat.testBit table.number || (stream.rows table).size != 0) := by
  rw [testBit_mask]
  congr 1
  rw [Bool.eq_iff_iff, List.any_eq_true]
  constructor
  · rintro ⟨other, hother, hnumber⟩
    obtain rfl := TableId.number_inj.mp (beq_iff_eq.mp hnumber)
    exact (List.mem_filter.mp hother).2
  · intro hsize
    exact ⟨table, List.mem_filter.mpr ⟨mem_all table, hsize⟩, beq_self_eq_true _⟩

/-- The mask has bits of tables only. -/
theorem WellFormed.mask_lt (h : stream.WellFormed) : stream.mask < 1 <<< TableId.count := by
  rw [Nat.one_shiftLeft]
  apply Nat.lt_pow_two_of_testBit
  intro number hnumber
  have hknown := h.known
  rw [Nat.one_shiftLeft] at hknown
  rw [testBit_mask, Nat.testBit_lt_two_pow (hknown.trans_le (Nat.pow_le_pow_right (by omega) hnumber)),
    Bool.false_or, List.any_eq_false]
  intro table _
  have hlt := table.number_lt_count
  simp only [beq_iff_eq]
  omega

/-- A mask is not empty. -/
theorem WellFormed.mask_ne_zero (h : stream.WellFormed) : stream.mask ≠ 0 := by
  intro hmask
  apply h.valid
  apply UInt64.toNat_inj.mp
  apply Nat.eq_of_testBit_eq
  intro number
  have hbit := testBit_mask stream number
  rw [hmask, Nat.zero_testBit] at hbit
  rw [UInt64.toNat_zero, Nat.zero_testBit]
  exact (Bool.or_eq_false_iff.mp hbit.symm).1

/-- The stored mask is the mask. -/
theorem WellFormed.toNat_mask (h : stream.WellFormed) :
    (UInt64.ofNat stream.mask).toNat = stream.mask :=
  UInt64.toNat_ofNat_of_lt' (h.mask_lt.trans (by decide))

/-- The mask is what was present when every table with rows was. -/
theorem mask_eq_iff :
    stream.mask = stream.valid.toNat ↔
      ∀ table, stream.valid.toNat.testBit table.number = false → (stream.rows table).size = 0 := by
  constructor
  · intro h table hvalid
    have hbit := stream.testBit_mask_number table
    rw [h, hvalid, Bool.false_or] at hbit
    simpa using hbit.symm
  · intro h
    apply Nat.eq_of_testBit_eq
    intro number
    rw [testBit_mask, Bool.or_eq_left_iff_imp, List.any_eq_true]
    rintro ⟨table, htable, hnumber⟩
    have hsize := (List.mem_filter.mp htable).2
    rw [← beq_iff_eq.mp hnumber]
    by_contra hvalid
    rw [h table (Bool.eq_false_of_not_eq_true hvalid)] at hsize
    cases hsize

/-! ## Stored streams -/

/-- The stored form of a stream up to the end of its rows. -/
def front (stream : TableStream) (rows : List UInt8) : List UInt8 :=
  LittleEndian.u32 stream.reserved ++ ([stream.major] ++ ([stream.minor] ++
    ([stream.heapSizes] ++ ([stream.reserved2] ++
    (LittleEndian.u64 stream.valid ++ (LittleEndian.u64 stream.sorted ++
    (storedCounts stream.valid stream.rowCount TableId.all ++
    ((stream.extra.map LittleEndian.u32).getD [] ++ rows))))))))

/-- The front of a stream holds a header. -/
theorem headerSize_le_front (stream : TableStream) (rows : List UInt8) :
    headerSize ≤ (stream.front rows).length := by
  simp only [front, List.length_append, LittleEndian.u32, LittleEndian.u64,
    LittleEndian.length_encode, List.length_cons, List.length_nil, headerSize]
  omega

/-- A block is the stored form of a stream, in which every table with rows is marked as present. -/
structure Stored (stream : TableStream) (data : Bytes) : Prop where
  wellFormed : stream.WellFormed
  mask : stream.mask = stream.valid.toNat
  data_eq : ∃ parts, TableId.all.mapM stream.encodeRows = .ok parts ∧
    data.toList = stream.front parts.flatten ++ stream.trailing

/-- The word behind the row counts is read when it is announced and passed. -/
theorem run_extra_eq_ok_iff {heapSizes : UInt8} {extra : Option UInt32}
    (hbounded : before.pos ≤ before.data.size) :
    (if heapSizes &&& Widths.extraWord != 0 then some <$> Read.u32 else pure none :
        Read (Option UInt32)).run before = (.ok extra, after) ↔
      extra.isSome = (heapSizes &&& Widths.extraWord != 0) ∧
        before.Passes ((extra.map LittleEndian.u32).getD []) after := by
  cases hflag : heapSizes &&& Widths.extraWord != 0 with
  | true =>
    rw [if_pos rfl, run_map_eq_ok_iff]
    constructor
    · rintro ⟨word, hword, rfl⟩
      exact ⟨rfl, Read.run_u32_eq_ok_iff.mp hword⟩
    · rintro ⟨hsome, hpasses⟩
      obtain ⟨word, rfl⟩ := Option.isSome_iff_exists.mp hsome
      exact ⟨word, Read.run_u32_eq_ok_iff.mpr hpasses, rfl⟩
  | false =>
    rw [if_neg Bool.false_ne_true, step_pure]
    constructor
    · intro h
      obtain ⟨hnone, rfl⟩ := Prod.mk.inj h
      obtain rfl := Except.ok.inj hnone
      exact ⟨rfl, (Cursor.passes_nil_iff hbounded).mpr rfl⟩
    · rintro ⟨hnone, hpasses⟩
      obtain rfl := Option.isSome_eq_false_iff.mp hnone |> Option.isNone_iff_eq_none.mp
      rw [(Cursor.passes_nil_iff hbounded).mp hpasses]

/-- A block that was read is the stored form of the stream. -/
theorem stored_of_ofBytes {data : Bytes} (h : ofBytes data = .ok stream) : stream.Stored data := by
  obtain ⟨last, h⟩ : ∃ last, read.run ⟨data, 0⟩ = (.ok stream, last) := ⟨_, Prod.ext h rfl⟩
  unfold read at h
  obtain ⟨cursor, c0, hget, h⟩ := run_bind_eq_ok_iff.mp h
  obtain ⟨-, rfl⟩ := Prod.mk.inj hget
  obtain ⟨-, h⟩ := run_check_eq_ok_iff.mp h
  obtain ⟨reserved, c1, hreserved, h⟩ := run_bind_eq_ok_iff.mp h
  obtain ⟨major, c2, hmajor, h⟩ := run_bind_eq_ok_iff.mp h
  obtain ⟨minor, c3, hminor, h⟩ := run_bind_eq_ok_iff.mp h
  obtain ⟨heapSizes, c4, hheapSizes, h⟩ := run_bind_eq_ok_iff.mp h
  obtain ⟨reserved2, c5, hreserved2, h⟩ := run_bind_eq_ok_iff.mp h
  obtain ⟨valid, c6, hvalid, h⟩ := run_bind_eq_ok_iff.mp h
  obtain ⟨sorted, c7, hsorted, h⟩ := run_bind_eq_ok_iff.mp h
  obtain ⟨hne, h⟩ := run_check_eq_ok_iff.mp h
  obtain ⟨hknown, h⟩ := run_check_eq_ok_iff.mp h
  obtain ⟨counts, c8, hcounts, h⟩ := run_bind_eq_ok_iff.mp h
  obtain ⟨extra, c9, hextra, h⟩ := run_ite_bind_eq_ok_iff.mp h
  obtain ⟨tables, c10, htables, h⟩ := run_bind_eq_ok_iff.mp h
  obtain ⟨cursor, c11, hget, h⟩ := run_bind_eq_ok_iff.mp h
  obtain ⟨hcursor, rfl⟩ := Prod.mk.inj hget
  obtain rfl := Except.ok.inj hcursor
  obtain rfl := Except.ok.inj (Prod.mk.inj h).1
  have hreserved := Read.run_u32_eq_ok_iff.mp hreserved
  have hmajor := Read.run_u8_eq_ok_iff.mp hmajor
  have hminor := Read.run_u8_eq_ok_iff.mp hminor
  have hheapSizes := Read.run_u8_eq_ok_iff.mp hheapSizes
  have hreserved2 := Read.run_u8_eq_ok_iff.mp hreserved2
  have hvalid := Read.run_u64_eq_ok_iff.mp hvalid
  have hsorted := Read.run_u64_eq_ok_iff.mp hsorted
  generalize hstream : TableStream.mk reserved major minor heapSizes reserved2 valid sorted extra
    tables.toArray c10.rest = stream
  have hcount : counts.length = TableId.count := length_of_readCounts hcounts
  have hlength : tables.length = TableId.count := length_of_readTables htables
  have hrows : TableId.all.map stream.rows = tables := by
    rw [funext stream.rows_eq_getD, ← hstream]
    exact map_all_getD hlength #[]
  rw [← map_all_getD hcount 0] at hcounts
  rw [← hrows] at htables
  obtain ⟨hmissing, hcounted⟩ := (run_readCounts_eq_ok_iff hsorted.bounded).mp hcounts
  obtain ⟨hsome, hword⟩ := (run_extra_eq_ok_iff hcounted.bounded).mp hextra
  obtain ⟨hfits, parts, hparts, hpassed⟩ := (run_readTables_eq_ok_iff hword.bounded).mp htables
  -- the widths with which the rows were read are those of the stream
  have hsize (table : TableId) : (stream.rows table).size = (counts.getD table.number 0).toNat :=
    (hfits table (mem_all table)).count
  have hrowCount : stream.rowCount = fun table => counts.getD table.number 0 := by
    funext table
    rw [rowCount, hsize, UInt32.ofNat_toNat]
  have hwidths : stream.widths = ⟨counts, heapSizes⟩ := by
    rw [widths, hrowCount, map_all_getD hcount, ← hstream]
  rw [← hrowCount] at hcounted
  rw [← hwidths] at hparts
  refine ⟨⟨?_, fun table => (hfits table (mem_all table)).columns, fun table => ?_, ?_, ?_, ?_⟩, ?_,
    parts, hparts, ?_⟩
  · rw [← hstream]
    exact hlength
  · rw [hsize]
    exact UInt32.toNat_lt _
  · rw [← hstream]
    exact hne
  · rw [← hstream]
    exact Nat.not_le.mp hknown
  · rw [← hstream]
    exact hsome
  · refine mask_eq_iff.mpr fun table hvalid => ?_
    rw [← hstream] at hvalid
    rw [hsize, hmissing table (mem_all table) hvalid]
    rfl
  · subst hstream
    have hpasses : Cursor.Passes ⟨data, 0⟩ _ c10 :=
      Cursor.passes_append_iff.mpr ⟨c1, hreserved, Cursor.passes_append_iff.mpr ⟨c2, hmajor,
        Cursor.passes_append_iff.mpr ⟨c3, hminor, Cursor.passes_append_iff.mpr ⟨c4, hheapSizes,
        Cursor.passes_append_iff.mpr ⟨c5, hreserved2, Cursor.passes_append_iff.mpr ⟨c6, hvalid,
        Cursor.passes_append_iff.mpr ⟨c7, hsorted, Cursor.passes_append_iff.mpr ⟨c8, hcounted,
        Cursor.passes_append_iff.mpr ⟨c9, hword, hpassed⟩⟩⟩⟩⟩⟩⟩⟩⟩
    exact hpasses.rest

/-- The stored form of a stream is read as the stream. -/
theorem Stored.ofBytes_eq {data : Bytes} (h : stream.Stored data) : ofBytes data = .ok stream := by
  obtain ⟨hwell, hmask, parts, hparts, hdata⟩ := h
  have hsize : headerSize ≤ data.size := by
    have hfront := stream.headerSize_le_front parts.flatten
    have hlength := congrArg List.length hdata
    rw [Array.length_toList, List.length_append] at hlength
    omega
  obtain ⟨last, hpasses⟩ : ∃ last, Cursor.Passes ⟨data, 0⟩ (stream.front parts.flatten) last :=
    ⟨_, Cursor.passes_of_rest hdata (Nat.zero_le _)⟩
  have htrailing : last.rest = stream.trailing := hpasses.rest_eq hdata
  obtain ⟨c1, hreserved, hpasses⟩ := Cursor.passes_append_iff.mp hpasses
  obtain ⟨c2, hmajor, hpasses⟩ := Cursor.passes_append_iff.mp hpasses
  obtain ⟨c3, hminor, hpasses⟩ := Cursor.passes_append_iff.mp hpasses
  obtain ⟨c4, hheapSizes, hpasses⟩ := Cursor.passes_append_iff.mp hpasses
  obtain ⟨c5, hreserved2, hpasses⟩ := Cursor.passes_append_iff.mp hpasses
  obtain ⟨c6, hvalid, hpasses⟩ := Cursor.passes_append_iff.mp hpasses
  obtain ⟨c7, hsorted, hpasses⟩ := Cursor.passes_append_iff.mp hpasses
  obtain ⟨c8, hcounts, hpasses⟩ := Cursor.passes_append_iff.mp hpasses
  obtain ⟨c9, hextra, hrows⟩ := Cursor.passes_append_iff.mp hpasses
  have hmissing (table : TableId) (_ : table ∈ TableId.all)
      (hvalid : stream.valid.toNat.testBit table.number = false) : stream.rowCount table = 0 := by
    rw [rowCount, mask_eq_iff.mp hmask table hvalid]
    rfl
  have htables := (run_readTables_eq_ok_iff hextra.bounded).mpr
    ⟨fun table _ => hwell.fits table, parts, hparts, hrows⟩
  suffices hrun : read.run ⟨data, 0⟩ = (.ok stream, last) from congrArg Prod.fst hrun
  unfold read
  refine run_bind_eq_ok_iff.mpr ⟨_, ⟨data, 0⟩, rfl, ?_⟩
  refine run_check_eq_ok_iff.mpr ⟨Nat.not_lt.mpr hsize, ?_⟩
  refine run_bind_eq_ok_iff.mpr ⟨_, c1, Read.run_u32_eq_ok_iff.mpr hreserved, ?_⟩
  refine run_bind_eq_ok_iff.mpr ⟨_, c2, Read.run_u8_eq_ok_iff.mpr hmajor, ?_⟩
  refine run_bind_eq_ok_iff.mpr ⟨_, c3, Read.run_u8_eq_ok_iff.mpr hminor, ?_⟩
  refine run_bind_eq_ok_iff.mpr ⟨_, c4, Read.run_u8_eq_ok_iff.mpr hheapSizes, ?_⟩
  refine run_bind_eq_ok_iff.mpr ⟨_, c5, Read.run_u8_eq_ok_iff.mpr hreserved2, ?_⟩
  refine run_bind_eq_ok_iff.mpr ⟨_, c6, Read.run_u64_eq_ok_iff.mpr hvalid, ?_⟩
  refine run_bind_eq_ok_iff.mpr ⟨_, c7, Read.run_u64_eq_ok_iff.mpr hsorted, ?_⟩
  refine run_check_eq_ok_iff.mpr ⟨hwell.valid, ?_⟩
  refine run_check_eq_ok_iff.mpr ⟨Nat.not_le.mpr hwell.known, ?_⟩
  refine run_bind_eq_ok_iff.mpr ⟨_, c8,
    (run_readCounts_eq_ok_iff hsorted.bounded).mpr ⟨hmissing, hcounts⟩, ?_⟩
  refine run_ite_bind_eq_ok_iff.mpr ⟨stream.extra, c9,
    (run_extra_eq_ok_iff hcounts.bounded).mpr ⟨hwell.extra, hextra⟩, ?_⟩
  refine run_bind_eq_ok_iff.mpr ⟨_, last, htables, ?_⟩
  refine run_bind_eq_ok_iff.mpr ⟨last, last, rfl, ?_⟩
  simp only [htrailing, hwell.tables_eq]
  rfl

/-- A block is read as a tables stream when it is its stored form. -/
theorem ofBytes_eq_ok_iff {data : Bytes} : ofBytes data = .ok stream ↔ stream.Stored data :=
  ⟨stored_of_ofBytes, Stored.ofBytes_eq⟩

/-- A stream that was read is well formed. -/
theorem wellFormed_of_ofBytes {data : Bytes} (h : ofBytes data = .ok stream) :
    stream.WellFormed :=
  (ofBytes_eq_ok_iff.mp h).wellFormed

/-! ## Encoded streams -/

/-- A stream in which the tables with rows are marked as present, as its encoded form has it. -/
def marked (stream : TableStream) : TableStream :=
  { stream with valid := UInt64.ofNat stream.mask }

/-- A stream whose tables with rows are all marked is what it is encoded as. -/
theorem marked_eq_self (h : stream.mask = stream.valid.toNat) : stream.marked = stream := by
  rw [marked, h, UInt64.ofNat_toNat]

/-- Marking tables as present changes no row. -/
@[simp] theorem rows_marked (stream : TableStream) (table : TableId) :
    stream.marked.rows table = stream.rows table := rfl

/-- What is marked as present is the mask. -/
theorem WellFormed.toNat_valid_marked (h : stream.WellFormed) :
    stream.marked.valid.toNat = stream.mask := h.toNat_mask

/-- Marking tables as present keeps a stream well formed. -/
theorem WellFormed.marked (h : stream.WellFormed) : stream.marked.WellFormed where
  tables := h.tables
  columns := h.columns
  counted := h.counted
  valid := fun hzero =>
    h.mask_ne_zero (h.toNat_valid_marked.symm.trans (congrArg UInt64.toNat hzero))
  known := h.toNat_valid_marked.trans_lt h.mask_lt
  extra := h.extra

/-- Every table with rows is marked in the encoded form. -/
theorem WellFormed.mask_marked (h : stream.WellFormed) :
    stream.marked.mask = stream.marked.valid.toNat := by
  refine mask_eq_iff.mpr fun table hvalid => ?_
  rw [h.toNat_valid_marked, testBit_mask_number, Bool.or_eq_false_iff] at hvalid
  simpa using hvalid.2

/-- A well-formed stream is encoded as what it is stored as, padded to whole words. -/
theorem WellFormed.encode_eq_ok_iff (h : stream.WellFormed) {bytes : List UInt8} :
    stream.encode = .ok bytes ↔ ∃ parts, TableId.all.mapM stream.encodeRows = .ok parts ∧
      bytes = padTo (stream.marked.front parts.flatten ++ stream.trailing) 4 := by
  have hmask : LittleEndian.u64 stream.marked.valid = LittleEndian.encode 8 stream.mask := by
    rw [LittleEndian.u64, h.toNat_valid_marked]
  have hencode : stream.encode = (do
      let parts ← TableId.all.mapM stream.encodeRows
      return padTo (stream.marked.front parts.flatten ++ stream.trailing) 4) := by
    have hextra : stream.marked.extra = stream.extra := rfl
    simp only [encode, front, storedCounts, hmask, h.toNat_valid_marked, hextra]
    cases stream.extra <;>
      simp only [List.append_assoc, List.cons_append, List.nil_append, Option.map_some,
        Option.map_none, Option.getD_some, Option.getD_none] <;>
      rfl
  rw [hencode, bind_eq_ok_iff]
  constructor
  · rintro ⟨parts, hparts, hbytes⟩
    exact ⟨parts, hparts, (Except.ok.inj hbytes).symm⟩
  · rintro ⟨parts, hparts, rfl⟩
    exact ⟨parts, hparts, rfl⟩

/-- The stored form of a well-formed stream is read as a stream with the same tables, whatever
follows it. -/
theorem WellFormed.ofBytes_encode (h : stream.WellFormed) {bytes : List UInt8}
    (hencode : stream.encode = .ok bytes) (more : List UInt8) : ∃ trailing,
    ofBytes (bytes ++ more).toArray =
      .ok { stream with valid := UInt64.ofNat stream.mask, trailing } := by
  obtain ⟨parts, hparts, rfl⟩ := h.encode_eq_ok_iff.mp hencode
  rw [padTo]
  generalize padding _ 4 = zeros
  refine ⟨stream.trailing ++ (zeros ++ more), ofBytes_eq_ok_iff.mpr ⟨?_, ?_, parts, hparts, ?_⟩⟩
  · obtain ⟨htables, hcolumns, hcounted, hvalid, hknown, hextra⟩ := h.marked
    exact ⟨htables, hcolumns, hcounted, hvalid, hknown, hextra⟩
  · exact h.mask_marked
  · simp only [List.append_assoc]
    rfl

/-! ## Unchanged streams -/

/-- A stream that was read is encoded to what it was read from, behind which stand the fewest zeros
that fill whole words. Rounding up leaves the machine words only for a block as long as the address
space. -/
theorem encode_of_ofBytes {data : Bytes} (h : ofBytes data = .ok stream) :
    ∃ zeros, stream.encode = .ok (data.toList ++ List.replicate zeros 0) ∧
      (data.size + 4 ≤ wordRange →
        (data.size + zeros) % 4 = 0 ∧ ∀ fewer < zeros, (data.size + fewer) % 4 ≠ 0) := by
  obtain ⟨hwell, hmask, parts, hparts, hdata⟩ := ofBytes_eq_ok_iff.mp h
  refine ⟨alignUp data.size 4 - data.size, ?_, fun hroom => ?_⟩
  · refine hwell.encode_eq_ok_iff.mpr ⟨parts, hparts, ?_⟩
    rw [marked_eq_self hmask, ← hdata, padTo, padding, Array.length_toList]
  · rw [alignUp_four hroom]
    exact ⟨by omega, fun fewer hfewer => by omega⟩

/-- A stream with one row, a table that is present but empty, wide strings, a further word and a
byte behind the rows. -/
def sparse : TableStream where
  reserved := 0
  major := 2
  minor := 0
  heapSizes := Widths.largeStrings ||| Widths.extraWord
  reserved2 := 1
  valid := 0b11
  sorted := 0
  extra := some 7
  tables := #[#[[0, 0x10001, 1, 0, 0]]] ++ Array.replicate 44 #[]
  trailing := [9]

/-- The block from which the sparse stream is read. -/
def sparseData : Bytes := #[
  0, 0, 0, 0, 2, 0, 0x41, 1, 3, 0, 0, 0, 0, 0, 0, 0, 0, 0, 0, 0, 0, 0, 0, 0,
  1, 0, 0, 0, 0, 0, 0, 0, 7, 0, 0, 0,
  0, 0, 1, 0, 1, 0, 1, 0, 0, 0, 0, 0, 9]

/-- The sparse stream is read, and encoded to the same block and three zeros. -/
theorem encode_of_ofBytes_sparse :
    ofBytes sparseData = .ok sparse ∧ sparse.encode = .ok (sparseData.toList ++ [0, 0, 0]) := by
  have hread : ofBytes sparseData = .ok sparse := eq_ok_of_toOption (by decide +kernel)
  obtain ⟨zeros, hencode, hfewest⟩ := encode_of_ofBytes hread
  have hsize : sparseData.size = 49 := rfl
  obtain ⟨hwhole, hfewest⟩ := hfewest (by rw [hsize]; decide)
  rw [hsize] at hwhole
  have hle : ¬3 < zeros := fun hlt => hfewest 3 hlt (by rw [hsize])
  obtain rfl : zeros = 3 := by omega
  exact ⟨hread, hencode⟩

end TableStream

end CilPatch
