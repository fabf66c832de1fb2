import CilPatch.Proofs.Table.Stream
import CilPatch.Table.Rows

/-!
# Changed tables

The tables of an edited assembly differ from those that were loaded by the addresses of methods, by
further local signatures and by how wide blob indexes are. Every such change keeps a stream well
formed, and changes no more than it says.
-/

namespace CilPatch.TableStream

variable {stream after : TableStream}

/-- Changing a column changes nothing but the tables. -/
theorem exists_setColumn_eq (stream : TableStream) (table : TableId) (rid : UInt32) (column : Nat)
    (value : UInt32) :
    ∃ tables, tables.size = stream.tables.size ∧
      stream.setColumn table rid column value = { stream with tables } := by
  unfold setColumn
  split
  · exact ⟨stream.tables, rfl, rfl⟩
  · exact ⟨_, Array.size_modify, rfl⟩

/-- Putting a row at the end changes nothing but the tables. -/
theorem exists_push_eq {table : TableId} {row : Row} {rid : UInt32}
    (h : stream.push table row = .ok (after, rid)) :
    row.length = table.columns.length ∧ rid = after.rowCount table ∧
      ∃ tables, tables.size = stream.tables.size ∧ after = { stream with tables } := by
  unfold push at h
  split at h
  · next hlength =>
    obtain ⟨hafter, hrid⟩ := Prod.mk.inj (Except.ok.inj h)
    refine ⟨hlength, by rw [← hrid, ← hafter], _, Array.size_modify, hafter.symm⟩
  · cases h

/-- Changing a column of a row changes the row with that number only. -/
theorem rows_setColumn_self (stream : TableStream) (table : TableId) (rid : UInt32) (column : Nat)
    (value : UInt32) :
    (stream.setColumn table rid column value).rows table =
      if rid = 0 then stream.rows table
      else (stream.rows table).modify (rid.toNat - 1) fun row => row.set column value := by
  unfold setColumn
  split
  · rfl
  · cases hrows : stream.tables[table.number]? with
    | none =>
      have hle := Array.getElem?_eq_none_iff.mp hrows
      simp [rows, Array.getElem?_modify, hrows]
    | some found => simp [rows, Array.getElem?_modify, hrows]

/-- Changing a column of a row changes what is found under its number only. -/
theorem row?_setColumn (stream : TableStream) (table : TableId) (rid other : UInt32)
    (column : Nat) (value : UInt32) :
    (stream.setColumn table rid column value).row? table other =
      (stream.row? table other).map fun row =>
        if other = rid then row.set column value else row := by
  unfold row?
  by_cases hother : other = 0
  · rw [if_pos hother, if_pos hother, Option.map_none]
  rw [if_neg hother, if_neg hother, rows_setColumn_self]
  by_cases hrid : rid = 0
  · have hne : other ≠ rid := fun heq => hother (heq.trans hrid)
    rw [if_pos hrid]
    simp only [if_neg hne, Option.map_id']
  rw [if_neg hrid, Array.getElem?_modify]
  have hpos : other.toNat ≠ 0 := fun hzero => hother (UInt32.toNat_inj.mp hzero)
  have hpos' : rid.toNat ≠ 0 := fun hzero => hrid (UInt32.toNat_inj.mp hzero)
  by_cases heq : other = rid
  · subst heq
    simp only [if_true]
  · have hne : rid.toNat - 1 ≠ other.toNat - 1 := by
      intro hsame
      exact heq (UInt32.toNat_inj.mp (by omega))
    simp only [if_neg hne, if_neg heq, Option.map_id']

/-- Every row of a table after a change of a column was there, or is the changed one. -/
theorem mem_rows_setColumn {table other : TableId} {rid : UInt32} {column : Nat} {value : UInt32}
    {found : Row} (h : found ∈ ((stream.setColumn table rid column value).rows other).toList) :
    found ∈ (stream.rows other).toList ∨
      other = table ∧ ∃ old ∈ (stream.rows other).toList, found = old.set column value := by
  by_cases hother : other = table
  · subst hother
    rw [rows_setColumn_self] at h
    split at h
    · exact .inl h
    · obtain ⟨index, hindex, rfl⟩ := Array.mem_iff_getElem.mp (Array.mem_toList_iff.mp h)
      rw [Array.size_modify] at hindex
      have hold := Array.mem_toList_iff.mpr (Array.getElem_mem hindex)
      rw [Array.getElem_modify]
      split
      · exact .inr ⟨rfl, _, hold, rfl⟩
      · exact .inl hold
  · rw [rows_setColumn_of_ne stream rid column value hother] at h
    exact .inl h

/-- Changing a column keeps a stream well formed. -/
theorem WellFormed.setColumn (h : stream.WellFormed) (table : TableId) (rid : UInt32)
    (column : Nat) (value : UInt32) : (stream.setColumn table rid column value).WellFormed := by
  obtain ⟨tables, hsize, heq⟩ := stream.exists_setColumn_eq table rid column value
  have hcolumns (other : TableId) :
      ∀ row ∈ ((stream.setColumn table rid column value).rows other).toList,
        row.length = other.columns.length := by
    intro row hrow
    rcases mem_rows_setColumn hrow with hrow | ⟨-, old, hold, rfl⟩
    · exact h.columns other row hrow
    · rw [List.length_set, h.columns other old hold]
  have hcounted (other : TableId) :
      ((stream.setColumn table rid column value).rows other).size < UInt32.size := by
    rw [size_rows_setColumn]
    exact h.counted other
  rw [heq] at hcolumns hcounted ⊢
  exact ⟨hsize.trans h.tables, hcolumns, hcounted, h.valid, h.known, h.extra⟩

/-- A well-formed stream has rows for every table. -/
theorem WellFormed.present (h : stream.WellFormed) (table : TableId) :
    table.number < stream.tables.size :=
  table.number_lt_count.trans_eq h.tables.symm

/-- Every row of a table was there before a row was put at the end, or is that row. -/
theorem WellFormed.mem_rows_push (h : stream.WellFormed) {table other : TableId} {row found : Row}
    {rid : UInt32} (hpush : stream.push table row = .ok (after, rid))
    (hfound : found ∈ (after.rows other).toList) :
    found ∈ (stream.rows other).toList ∨ other = table ∧ found = row := by
  by_cases hother : other = table
  · subst hother
    rw [rows_push hpush (h.present other), Array.toList_push, List.mem_append,
      List.mem_singleton] at hfound
    exact hfound.imp_right fun heq => ⟨rfl, heq⟩
  · rw [rows_push_of_ne hpush hother] at hfound
    exact .inl hfound

/-- A row at the end keeps a stream well formed as long as it can be counted. -/
theorem WellFormed.push (h : stream.WellFormed) {table : TableId} {row : Row} {rid : UInt32}
    (hpush : stream.push table row = .ok (after, rid))
    (hroom : (stream.rows table).size + 1 < UInt32.size) : after.WellFormed := by
  obtain ⟨hlength, -, tables, hsize, heq⟩ := exists_push_eq hpush
  have hcolumns (other : TableId) :
      ∀ row ∈ (after.rows other).toList, row.length = other.columns.length := by
    intro found hfound
    rcases h.mem_rows_push hpush hfound with hfound | ⟨rfl, rfl⟩
    · exact h.columns other found hfound
    · exact hlength
  have hcounted (other : TableId) : (after.rows other).size < UInt32.size := by
    by_cases hother : other = table
    · subst hother
      rw [rows_push hpush (h.present other), Array.size_push]
      exact hroom
    · rw [rows_push_of_ne hpush hother]
      exact h.counted other
  rw [heq] at hcolumns hcounted ⊢
  exact ⟨hsize.trans h.tables, hcolumns, hcounted, h.valid, h.known, h.extra⟩

/-- A row that is found has all columns. -/
theorem WellFormed.length_row? (h : stream.WellFormed) {table : TableId} {rid : UInt32} {row : Row}
    (hrow : stream.row? table rid = some row) : row.length = table.columns.length := by
  unfold row? at hrow
  split at hrow
  · cases hrow
  · exact h.columns table row (Array.mem_toList_iff.mpr (Array.mem_of_getElem? hrow))

/-- Widening blob indexes changes no row. -/
@[simp] theorem rows_widenHeap (stream : TableStream) (flag : UInt8) (size : Nat)
    (table : TableId) : (stream.widenHeap flag size).rows table = stream.rows table := by
  unfold widenHeap
  split <;> rfl

/-- Widening a heap changes nothing but the flags. -/
theorem widenHeap_eq (stream : TableStream) (flag : UInt8) (size : Nat) :
    stream.widenHeap flag size = { stream with
      heapSizes := if 0xFFFF < size then stream.heapSizes ||| flag else stream.heapSizes } := by
  unfold widenHeap
  split <;> rfl

/-- A flag is set in two sets of flags when it is in one. -/
theorem or_and_flag (first second flag : UInt8) :
    (first ||| second) &&& flag = (first &&& flag) ||| (second &&& flag) := by
  apply UInt8.toBitVec_inj.mp
  simp only [UInt8.toBitVec_and, UInt8.toBitVec_or]
  exact BitVec.and_or_distrib_right

/-- Widening blob indexes keeps a stream well formed. -/
theorem WellFormed.widenBlobs (h : stream.WellFormed) (size : Nat) :
    (stream.widenHeap Widths.largeBlobs size).WellFormed := by
  have hword (flags : UInt8) :
      (flags ||| Widths.largeBlobs) &&& Widths.extraWord = flags &&& Widths.extraWord := by
    rw [or_and_flag]
    exact UInt8.or_zero
  unfold widenHeap
  split
  · exact ⟨h.tables, h.columns, h.counted, h.valid, h.known, by
      rw [hword]
      exact h.extra⟩
  · exact h

/-! ## Tables of an edited assembly -/

/-- Tables in which some methods have new addresses and some local signatures were added. All other
rows keep their numbers and what they say. -/
structure Extends (before after : TableStream) (moved : UInt32 → Prop) (count : Nat) : Prop where
  others : ∀ table, table ≠ .methodDef → table ≠ .standAloneSig →
    after.rows table = before.rows table
  signatures : ∃ added, added.size = count ∧
    after.rows .standAloneSig = before.rows .standAloneSig ++ added
  methodCount : (after.rows .methodDef).size = (before.rows .methodDef).size
  methods : ∀ rid, ∃ rva, after.row? .methodDef rid =
    (before.row? .methodDef rid).map fun row => row.set MethodDefRow.rvaColumn rva
  unmoved : ∀ rid, ¬moved rid → after.row? .methodDef rid = before.row? .methodDef rid

namespace Extends

variable {before after next : TableStream} {moved : UInt32 → Prop} {count : Nat}

/-- A local signature that was there is found under its number. -/
theorem signature? (h : Extends before after moved count) {rid : UInt32} {row : Row}
    (hrow : before.row? .standAloneSig rid = some row) :
    after.row? .standAloneSig rid = some row := by
  obtain ⟨added, -, hadded⟩ := h.signatures
  unfold row? at hrow ⊢
  split at hrow
  · cases hrow
  · next hpos =>
    obtain ⟨hlt, -⟩ := Array.getElem?_eq_some_iff.mp hrow
    rw [if_neg hpos, hadded, Array.getElem?_append_left hlt, hrow]

/-- Tables extend themselves. -/
theorem refl (before : TableStream) : Extends before before (fun _ => False) 0 where
  others := fun _ _ _ => rfl
  signatures := ⟨#[], rfl, Array.append_empty.symm⟩
  methodCount := rfl
  methods := by
    intro rid
    cases hrow : before.row? .methodDef rid with
    | none => exact ⟨0, rfl⟩
    | some row =>
      refine ⟨row.getD MethodDefRow.rvaColumn 0, congrArg some ?_⟩
      cases row <;> rfl
  unmoved := fun _ _ => rfl

/-- A method gets another address. -/
theorem setColumn (h : Extends before after moved count) (rid rva : UInt32) :
    Extends before (after.setColumn .methodDef rid MethodDefRow.rvaColumn rva)
      (fun other => moved other ∨ other = rid) count := by
  refine ⟨fun table hmethod hsig => ?_, ?_, ?_, fun other => ?_, fun other hother => ?_⟩
  · rw [rows_setColumn_of_ne after _ _ _ hmethod, h.others table hmethod hsig]
  · rw [rows_setColumn_of_ne after _ _ _ (by decide)]
    exact h.signatures
  · rw [size_rows_setColumn, h.methodCount]
  · obtain ⟨old, hold⟩ := h.methods other
    rw [row?_setColumn, hold, Option.map_map]
    by_cases heq : other = rid
    · refine ⟨rva, congrArg (Option.map · _) (funext fun row => ?_)⟩
      rw [Function.comp_apply, if_pos heq, List.set_set]
    · refine ⟨old, congrArg (Option.map · _) (funext fun row => ?_)⟩
      rw [Function.comp_apply, if_neg heq]
  · have hne : other ≠ rid := fun heq => hother (.inr heq)
    rw [row?_setColumn, h.unmoved other fun hmoved => hother (.inl hmoved)]
    simp only [if_neg hne, Option.map_id']

/-- A local signature is put behind the others. -/
theorem push (h : Extends before after moved count) (hwell : after.WellFormed) {row : Row}
    {rid : UInt32} (hpush : after.push .standAloneSig row = .ok (next, rid)) :
    Extends before next moved (count + 1) := by
  have hmethods : next.rows .methodDef = after.rows .methodDef :=
    rows_push_of_ne hpush (by decide)
  have hrow (other : UInt32) : next.row? .methodDef other = after.row? .methodDef other := by
    rw [row?, row?, hmethods]
  refine ⟨fun table hmethod hsig => ?_, ?_, ?_, fun other => ?_, fun other hother => ?_⟩
  · rw [rows_push_of_ne hpush hsig, h.others table hmethod hsig]
  · obtain ⟨added, hsize, hadded⟩ := h.signatures
    refine ⟨added.push row, by rw [Array.size_push, hsize], ?_⟩
    rw [rows_push hpush (hwell.present _), hadded, Array.append_push]
  · rw [hmethods, h.methodCount]
  · rw [hrow]
    exact h.methods other
  · rw [hrow, h.unmoved other hother]

end Extends

end CilPatch.TableStream
