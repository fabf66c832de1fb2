import CilPatch.Proofs.Table.Edit
import Mathlib.Data.Nat.Log
import Mathlib.Order.MinMax

/-!
# Tables that outgrow their columns

A further local signature can make the row numbers of its table, and every coded index that may name
it, take four bytes, and a larger blob heap widens all blob columns at once. Columns only get wider
by such edits, so every value that was stored can be stored again, and a reader that goes by the new
row counts and flags finds the rows as they were edited.
-/

namespace CilPatch

/-! ## Wider columns -/

namespace Widths

variable {before after : Widths}

/-- Tables may get more rows, and heaps may be marked as large. -/
structure Grow (before after : Widths) : Prop where
  rows : ∀ table, (before.rows table).toNat ≤ (after.rows table).toNat
  flags : ∀ flag, before.hasFlag flag → after.hasFlag flag

/-- More rows have numbers with no fewer bits. -/
theorem Grow.rowBits_le (h : Grow before after) (table : TableId) :
    before.rowBits table ≤ after.rowBits table := by
  have hrows := h.rows table
  have hlog : Nat.log2 (before.rows table).toNat ≤ Nat.log2 (after.rows table).toNat := by
    rw [Nat.log2_eq_log_two, Nat.log2_eq_log_two]
    exact Nat.log_mono_right hrows
  unfold rowBits
  dsimp only
  split <;> split <;> omega

/-- The largest of some numbers grows with each of them. -/
theorem foldl_max_le {α : Type} {smaller larger : α → Nat} (list : List α) {low high : Nat}
    (hstart : low ≤ high) (h : ∀ member, smaller member ≤ larger member) :
    (list.map smaller).foldl max low ≤ (list.map larger).foldl max high := by
  induction list generalizing low high with
  | nil => exact hstart
  | cons head tail ih => exact ih (max_le_max hstart (h head))

/-- Coded indexes of tables with more rows have no fewer bits. -/
theorem Grow.codedBits_le (h : Grow before after) (kind : CodedIndex) :
    before.codedBits kind ≤ after.codedBits kind :=
  Nat.add_le_add_right (foldl_max_le kind.tables (Nat.le_refl 0) h.rowBits_le) kind.tagBits

/-- A column that took four bytes still does. -/
theorem Grow.isLarge (h : Grow before after) {column : Column} (hlarge : before.isLarge column) :
    after.isLarge column := by
  cases column with
  | half => cases hlarge
  | word => rfl
  | string => exact h.flags _ hlarge
  | guid => exact h.flags _ hlarge
  | blob => exact h.flags _ hlarge
  | row table =>
    have hwide : 16 < before.rowBits table := of_decide_eq_true hlarge
    exact decide_eq_true (hwide.trans_le (h.rowBits_le table))
  | coded kind =>
    have hwide : 16 < before.codedBits kind := of_decide_eq_true hlarge
    exact decide_eq_true (hwide.trans_le (h.codedBits_le kind))

/-- A column holds every value when it takes four bytes, and every small one when it takes two. -/
def Holds (widths : Widths) (column : Column) (value : UInt32) : Prop :=
  widths.isLarge column ∨ value.toNat < UInt16.size

/-- Columns that do not get narrower hold what they held. -/
theorem Grow.holds (h : Grow before after) {column : Column} {value : UInt32}
    (hholds : before.Holds column value) : after.Holds column value :=
  hholds.imp_left h.isLarge

/-- A value has a stored form when its column holds it. -/
theorem exists_encodeColumn_iff {widths : Widths} {column : Column} {value : UInt32} :
    (∃ bytes, encodeColumn (widths.isLarge column) value = .ok bytes) ↔
      widths.Holds column value := by
  unfold Holds encodeColumn
  constructor
  · rintro ⟨bytes, h⟩
    split at h
    · next hlarge => exact .inl hlarge
    · split at h
      · next hsmall => exact .inr hsmall
      · cases h
  · rintro (hlarge | hsmall)
    · exact ⟨_, if_pos hlarge⟩
    · split <;> exact ⟨_, rfl⟩

/-- A row has a stored form when its columns hold its values. -/
theorem exists_encodeRow_iff {widths : Widths} {columns : List Column} {row : Row}
    (hlength : row.length = columns.length) :
    (∃ bytes, encodeRow (columns.map widths.isLarge) row = .ok bytes) ↔
      List.Forall₂ widths.Holds columns row := by
  induction columns generalizing row with
  | nil =>
    obtain rfl := List.length_eq_zero_iff.mp hlength
    exact ⟨fun _ => .nil, fun _ => ⟨[], rfl⟩⟩
  | cons column columns ih =>
    cases row with
    | nil => cases hlength
    | cons value row =>
      rw [List.forall₂_cons, ← exists_encodeColumn_iff, ← ih (Nat.succ.inj hlength)]
      constructor
      · rintro ⟨bytes, h⟩
        obtain ⟨front, hfront, h⟩ := bind_eq_ok_iff.mp h
        obtain ⟨back, hback, -⟩ := bind_eq_ok_iff.mp h
        exact ⟨⟨front, hfront⟩, back, hback⟩
      · rintro ⟨⟨front, hfront⟩, back, hback⟩
        exact ⟨_, bind_eq_ok_iff.mpr ⟨front, hfront, bind_eq_ok_iff.mpr ⟨back, hback, rfl⟩⟩⟩

end Widths

namespace TableStream

variable {stream after : TableStream}

/-- Every value of every row can be stored in columns of given widths. -/
def Storable (stream : TableStream) (widths : Widths) : Prop :=
  ∀ table, ∀ row ∈ (stream.rows table).toList, List.Forall₂ widths.Holds table.columns row

/-- The rows of a table have a stored form when its columns hold their values. -/
theorem WellFormed.exists_encodeRows_iff (h : stream.WellFormed) (table : TableId) :
    (∃ bytes, stream.encodeRows table = .ok bytes) ↔
      ∀ row ∈ (stream.rows table).toList,
        List.Forall₂ stream.widths.Holds table.columns row := by
  have hrows : (∃ bytes, stream.encodeRows table = .ok bytes) ↔
      ∃ parts, (stream.rows table).toList.mapM
        (encodeRow (table.columns.map stream.widths.isLarge)) = .ok parts := by
    constructor
    · rintro ⟨bytes, hbytes⟩
      obtain ⟨parts, hparts, -⟩ := bind_eq_ok_iff.mp hbytes
      exact ⟨parts, hparts⟩
    · rintro ⟨parts, hparts⟩
      exact ⟨_, bind_eq_ok_iff.mpr ⟨parts, hparts, rfl⟩⟩
  rw [hrows, exists_mapM_eq_ok_iff]
  exact forall₂_congr fun row hrow => Widths.exists_encodeRow_iff (h.columns table row hrow)

/-- A well-formed stream is encoded when its values fit the widths of its columns. -/
theorem WellFormed.exists_encode_iff (h : stream.WellFormed) :
    (∃ bytes, stream.encode = .ok bytes) ↔ stream.Storable stream.widths := by
  have hparts : (∃ bytes, stream.encode = .ok bytes) ↔
      ∃ parts, TableId.all.mapM stream.encodeRows = .ok parts := by
    constructor
    · rintro ⟨bytes, hbytes⟩
      obtain ⟨parts, hparts, -⟩ := h.encode_eq_ok_iff.mp hbytes
      exact ⟨parts, hparts⟩
    · rintro ⟨parts, hparts⟩
      exact ⟨_, h.encode_eq_ok_iff.mpr ⟨parts, hparts, rfl⟩⟩
  rw [hparts, exists_mapM_eq_ok_iff]
  constructor
  · intro hall table
    exact (h.exists_encodeRows_iff table).mp (hall table (mem_all table))
  · intro hstorable table _
    exact (h.exists_encodeRows_iff table).mpr (hstorable table)

/-- What was read can be stored in the columns that it was read from. -/
theorem Stored.storable {data : Bytes} (h : stream.Stored data) :
    stream.Storable stream.widths := by
  obtain ⟨hwell, -, parts, hparts, -⟩ := h
  exact hwell.exists_encode_iff.mp ⟨_, hwell.encode_eq_ok_iff.mpr ⟨parts, hparts, rfl⟩⟩

end TableStream

/-! ## Edits -/

/-- What an edited assembly changes in its tables. -/
inductive TableEdit where
  /-- A further local signature, by its blob index. -/
  | signature (index : UInt32)
  /-- Another address for the method with a number. -/
  | address (rid rva : UInt32)
  deriving DecidableEq, Repr

namespace TableEdit

/-- Makes one change. -/
def apply (stream : TableStream) : TableEdit → Except Fault TableStream
  | signature index => Prod.fst <$> stream.push .standAloneSig [index]
  | address rid rva => .ok (stream.setColumn .methodDef rid MethodDefRow.rvaColumn rva)

/-- Makes changes one after another. -/
def applyAll (stream : TableStream) (edits : List TableEdit) : Except Fault TableStream :=
  edits.foldlM apply stream

/-- The row of a further local signature. -/
def row? : TableEdit → Option Row
  | signature index => some [index]
  | address _ _ => none

/-- The rows of further local signatures, in order. -/
def rows (edits : List TableEdit) : List Row := edits.filterMap row?

/-- The address for the method with a number. -/
def rva? (rid : UInt32) : TableEdit → Option UInt32
  | signature _ => none
  | address other rva => if rid = other then some rva else none

/-- A method with a number after changes: its address is the last that it was given. -/
def readdress (edits : List TableEdit) (rid : UInt32) (row : Row) : Row :=
  (edits.filterMap (rva? rid)).getLast?.elim row (row.set MethodDefRow.rvaColumn)

/-- The first of several addresses for a method only counts without the others. -/
theorem readdress_cons (edit : TableEdit) (rest : List TableEdit) (rid : UInt32) (row : Row) :
    readdress (edit :: rest) rid row =
      readdress rest rid ((edit.rva? rid).elim row (row.set MethodDefRow.rvaColumn)) := by
  unfold readdress
  rw [List.filterMap_cons]
  cases edit.rva? rid with
  | none => rfl
  | some rva =>
    dsimp only
    rw [List.getLast?_cons]
    cases (rest.filterMap (rva? rid)).getLast? with
    | none => rfl
    | some last => exact (List.set_set ..).symm

end TableEdit

namespace TableStream

variable {before after : TableStream} {edits rest : List TableEdit}

/-- What changes have made of tables: the rows that were there keep their numbers, methods have their
last addresses, and further local signatures stand behind the others. -/
structure Edited (before after : TableStream) (edits : List TableEdit) : Prop where
  others : ∀ table, table ≠ .methodDef → table ≠ .standAloneSig →
    after.rows table = before.rows table
  signatures : (after.rows .standAloneSig).toList =
    (before.rows .standAloneSig).toList ++ TableEdit.rows edits
  methodCount : (after.rows .methodDef).size = (before.rows .methodDef).size
  methods : ∀ rid, after.row? .methodDef rid =
    (before.row? .methodDef rid).map (TableEdit.readdress edits rid)

/-- No change leaves tables alone. -/
theorem Edited.refl (before : TableStream) : Edited before before [] where
  others := fun _ _ _ => rfl
  signatures := (List.append_nil _).symm
  methodCount := rfl
  methods := fun _ => (Option.map_id' ..).symm

/-- A change in front of others: its signature comes before theirs, and its address counts until
there is a later one. -/
theorem Edited.cons {middle : TableStream} {edit : TableEdit} (h : Edited middle after rest)
    (hwell : before.WellFormed) (happly : edit.apply before = .ok middle) :
    Edited before after (edit :: rest) := by
  cases edit with
  | signature index =>
    obtain ⟨⟨_, rid⟩, hpush, rfl⟩ := map_eq_ok_iff.mp happly
    have hmethods := @rows_push_of_ne _ _ _ .methodDef _ _ hpush (by decide)
    refine ⟨fun table hmethod hsig => ?_, ?_, ?_, fun other => ?_⟩
    · rw [h.others table hmethod hsig, rows_push_of_ne hpush hsig]
    · rw [h.signatures, rows_push hpush (hwell.present _), Array.toList_push, List.append_assoc]
      rfl
    · rw [h.methodCount, hmethods]
    · rw [h.methods, row?, row?, hmethods]
      refine congrArg (Option.map · _) (funext fun row => ?_)
      rw [TableEdit.readdress_cons]
      rfl
  | address rid rva =>
    obtain rfl := Except.ok.inj happly
    refine ⟨fun table hmethod hsig => ?_, ?_, ?_, fun other => ?_⟩
    · rw [h.others table hmethod hsig, rows_setColumn_of_ne before _ _ _ hmethod]
    · rw [h.signatures, rows_setColumn_of_ne before _ _ _ (by decide)]
      rfl
    · rw [h.methodCount, size_rows_setColumn]
    · rw [h.methods, row?_setColumn, Option.map_map]
      refine congrArg (Option.map · _) (funext fun row => ?_)
      rw [Function.comp_apply, TableEdit.readdress_cons, TableEdit.rva?]
      split <;> rfl

/-- Changes add no rows but those of their signatures. -/
theorem Edited.size_le (h : Edited before after edits) (table : TableId) :
    (before.rows table).size ≤ (after.rows table).size := by
  by_cases hmethod : table = .methodDef
  · rw [hmethod, h.methodCount]
  by_cases hsig : table = .standAloneSig
  · have hsize := congrArg List.length h.signatures
    rw [List.length_append, Array.length_toList, Array.length_toList] at hsize
    rw [hsig, hsize]
    exact Nat.le_add_right _ _
  · rw [h.others table hmethod hsig]

/-- A change can be made when its signature can be counted. It keeps the stream well formed, adds a
row for its signature and changes nothing but the tables. -/
theorem WellFormed.apply (h : before.WellFormed) (edit : TableEdit)
    (hroom : (before.rows .standAloneSig).size + (TableEdit.rows [edit]).length < UInt32.size) :
    ∃ after, edit.apply before = .ok after ∧ after.WellFormed ∧
      (after.rows .standAloneSig).size =
        (before.rows .standAloneSig).size + (TableEdit.rows [edit]).length ∧
      ∃ tables, after = { before with tables } := by
  cases edit with
  | signature index =>
    obtain ⟨after, rid, hpush⟩ : ∃ after rid,
      before.push .standAloneSig [index] = .ok (after, rid) := ⟨_, _, if_pos rfl⟩
    obtain ⟨-, -, tables, -, htables⟩ := exists_push_eq hpush
    refine ⟨after, map_eq_ok_iff.mpr ⟨_, hpush, rfl⟩, h.push hpush hroom, ?_, tables, htables⟩
    rw [rows_push hpush (h.present _), Array.size_push]
    rfl
  | address rid rva =>
    obtain ⟨tables, -, htables⟩ :=
      before.exists_setColumn_eq .methodDef rid MethodDefRow.rvaColumn rva
    exact ⟨_, rfl, h.setColumn .methodDef rid MethodDefRow.rvaColumn rva,
      size_rows_setColumn before .methodDef .standAloneSig rid MethodDefRow.rvaColumn rva,
      tables, htables⟩

/-- Changes keep values storable when their signatures are: the address of a method takes four bytes
in any case. -/
theorem Storable.apply {widths : Widths} (h : before.Storable widths) (hwell : before.WellFormed)
    {edit : TableEdit} (happly : edit.apply before = .ok after)
    (hindex : ∀ index, edit = .signature index → widths.Holds .blob index) :
    after.Storable widths := by
  intro table found hfound
  cases edit with
  | signature index =>
    obtain ⟨⟨_, rid⟩, hpush, rfl⟩ := map_eq_ok_iff.mp happly
    rcases hwell.mem_rows_push hpush hfound with hfound | ⟨rfl, rfl⟩
    · exact h table found hfound
    · exact .cons (hindex index rfl) .nil
  | address rid rva =>
    obtain rfl := Except.ok.inj happly
    rcases mem_rows_setColumn hfound with hfound | ⟨rfl, old, hold, rfl⟩
    · exact h table found hfound
    · cases h .methodDef old hold with
      | cons _ hrest => exact .cons (.inl rfl) hrest

/-- Changes can be made as long as their signatures can be counted. They keep the stream well formed
and change nothing but the tables, whose values stay storable where their signatures are. -/
theorem WellFormed.applyAll (h : before.WellFormed)
    (hroom : (before.rows .standAloneSig).size + (TableEdit.rows edits).length < UInt32.size) :
    ∃ after, TableEdit.applyAll before edits = .ok after ∧ after.WellFormed ∧
      Edited before after edits ∧ (∃ tables, after = { before with tables }) ∧
      ∀ widths : Widths, before.Storable widths →
        (∀ index, TableEdit.signature index ∈ edits → widths.Holds .blob index) →
        after.Storable widths := by
  induction edits generalizing before with
  | nil =>
    exact ⟨before, rfl, h, .refl before, ⟨before.tables, rfl⟩, fun _ hstorable _ => hstorable⟩
  | cons edit rest ih =>
    have hcount : (TableEdit.rows (edit :: rest)).length =
        (TableEdit.rows [edit]).length + (TableEdit.rows rest).length := by
      rw [← List.length_append]
      exact congrArg List.length (List.filterMap_append (l := [edit]))
    obtain ⟨middle, happly, hmiddle, hsize, tables, htables⟩ := h.apply edit (by omega)
    obtain ⟨after, hrest, hwell, hedited, ⟨others, hothers⟩, hstorable⟩ := ih hmiddle (by omega)
    refine ⟨after, ?_, hwell, hedited.cons h happly, ⟨others, by rw [hothers, htables]⟩,
      fun widths hbefore hindexes => ?_⟩
    · rw [TableEdit.applyAll, List.foldlM_cons, happly]
      exact hrest
    · refine hstorable widths (hbefore.apply h happly fun index hedit => ?_)
        fun index hindex => hindexes index (List.mem_cons_of_mem _ hindex)
      exact hindexes index (hedit ▸ List.mem_cons_self)

/-! ## Written again -/

/-- The widths of a stream with more rows and more flags. -/
theorem WellFormed.grow (h : before.WellFormed) (hafter : after.WellFormed)
    (hsize : ∀ table, (before.rows table).size ≤ (after.rows table).size)
    (hflags : ∃ flags, after.heapSizes = before.heapSizes ||| flags) :
    Widths.Grow before.widths after.widths := by
  refine ⟨fun table => ?_, fun flag hflag => ?_⟩
  · rw [← (h.fits table).count, ← (hafter.fits table).count]
    exact hsize table
  · obtain ⟨flags, hflags⟩ := hflags
    have hset : before.heapSizes &&& flag ≠ 0 := bne_iff_ne.mp hflag
    refine bne_iff_ne.mpr fun hzero => hset ?_
    have hor : (before.heapSizes ||| flags) &&& flag = 0 := hflags ▸ hzero
    rw [or_and_flag] at hor
    exact (UInt8.or_eq_zero_iff.mp hor).1

/-- An index into a blob heap fits the columns of a stream that is widened for the heap. -/
theorem holds_blob_widenHeap (stream : TableStream) {index : UInt32} {blobSize : Nat}
    (h : index.toNat < blobSize) :
    (stream.widenHeap Widths.largeBlobs blobSize).widths.Holds .blob index := by
  by_cases hlarge : 0xFFFF < blobSize
  · refine .inl (bne_iff_ne.mpr fun hzero => ?_)
    rw [widenHeap, if_pos hlarge] at hzero
    have hor : (stream.heapSizes ||| Widths.largeBlobs) &&& Widths.largeBlobs = 0 := hzero
    rw [or_and_flag] at hor
    exact absurd (UInt8.or_eq_zero_iff.mp hor).2 (by decide)
  · have hsmall : index.toNat < 2 ^ 16 := by omega
    exact .inr hsmall

/-- The columns of edited tables that were widened for a blob heap are no narrower. -/
theorem Edited.grow (h : Edited before after edits) (hbefore : before.WellFormed)
    (hafter : after.WellFormed) (hflags : after.heapSizes = before.heapSizes) (blobSize : Nat) :
    Widths.Grow before.widths (after.widenHeap Widths.largeBlobs blobSize).widths := by
  refine hbefore.grow (hafter.widenBlobs blobSize) (fun table => ?_) ?_
  · rw [rows_widenHeap]
    exact h.size_le table
  · rw [widenHeap_eq, hflags]
    dsimp only
    split
    · exact ⟨Widths.largeBlobs, rfl⟩
    · exact ⟨0, UInt8.or_zero.symm⟩

/-- What is read from the written form of edited tables: the rows as they were edited, the header as
it was, and a mask in which tables with their first rows are added. -/
structure Reread (before found : TableStream) (edits : List TableEdit) : Prop
    extends Edited before found edits where
  reserved : found.reserved = before.reserved
  major : found.major = before.major
  minor : found.minor = before.minor
  reserved2 : found.reserved2 = before.reserved2
  sorted : found.sorted = before.sorted
  extra : found.extra = before.extra
  valid : ∀ number, found.valid.toNat.testBit number ↔ before.valid.toNat.testBit number ∨
    ∃ table : TableId, table.number = number ∧ before.rows table = #[] ∧ found.rows table ≠ #[]

/-- The mask of edited tables adds those that got their first rows. -/
theorem Stored.testBit_mask_iff {data : Bytes} (h : before.Stored data)
    (hvalid : after.valid = before.valid) (number : Nat) :
    after.mask.testBit number ↔ before.valid.toNat.testBit number ∨
      ∃ table : TableId, table.number = number ∧ before.rows table = #[] ∧
        after.rows table ≠ #[] := by
  rw [testBit_mask, hvalid, Bool.or_eq_true, List.any_eq_true]
  constructor
  · rintro (hbit | ⟨table, htable, hnumber⟩)
    · exact .inl hbit
    · obtain rfl := beq_iff_eq.mp hnumber
      refine or_iff_not_imp_left.mpr fun hbit => ⟨table, rfl, ?_, fun hempty => ?_⟩
      · exact Array.size_eq_zero_iff.mp
          (mask_eq_iff.mp h.mask table (Bool.eq_false_of_not_eq_true hbit))
      · have hrows := (List.mem_filter.mp htable).2
        rw [hempty] at hrows
        cases hrows
  · rintro (hbit | ⟨table, hnumber, -, hrows⟩)
    · exact .inl hbit
    · refine .inr ⟨table, List.mem_filter.mpr ⟨mem_all table, ?_⟩, beq_iff_eq.mpr hnumber⟩
      exact bne_iff_ne.mpr fun hzero => hrows (Array.size_eq_zero_iff.mp hzero)

/-- Tables that were read can be written after further local signatures below the size of a blob heap
and other addresses of methods, once their blob indexes are widened for the heap. They are read back
as they were edited. -/
theorem exists_reread_of_applyAll {data : Bytes} {blobSize : Nat}
    (hread : ofBytes data = .ok before)
    (hindexes : ∀ index, TableEdit.signature index ∈ edits → index.toNat < blobSize)
    (hroom : (before.rows .standAloneSig).size + (TableEdit.rows edits).length < UInt32.size) :
    ∃ after bytes found, TableEdit.applyAll before edits = .ok after ∧
      (after.widenHeap Widths.largeBlobs blobSize).encode = .ok bytes ∧
      ofBytes bytes.toArray = .ok found ∧ found.tables = after.tables ∧
      Reread before found edits := by
  have hstored := ofBytes_eq_ok_iff.mp hread
  obtain ⟨after, happly, hwell, hedited, ⟨tables, htables⟩, hstorable⟩ :=
    hstored.wellFormed.applyAll hroom
  -- the values are stored with the widths that the edited and widened tables have
  have hgrow := hedited.grow hstored.wellFormed hwell (by rw [htables]) blobSize
  have hfit : (after.widenHeap Widths.largeBlobs blobSize).Storable
      (after.widenHeap Widths.largeBlobs blobSize).widths := by
    intro table row hrow
    rw [rows_widenHeap] at hrow
    refine hstorable _ (fun other old hold => ?_) (fun index hindex => ?_) table row hrow
    · exact (hstored.storable other old hold).imp fun _ _ => hgrow.holds
    · exact holds_blob_widenHeap after (hindexes index hindex)
  obtain ⟨bytes, hencode⟩ := (hwell.widenBlobs blobSize).exists_encode_iff.mpr hfit
  obtain ⟨trailing, hagain⟩ := (hwell.widenBlobs blobSize).ofBytes_encode hencode []
  rw [List.append_nil] at hagain
  refine ⟨after, bytes, _, happly, hencode, hagain, by rw [widenHeap_eq], ?_⟩
  have hvalid := @Stored.testBit_mask_iff _ (after.widenHeap Widths.largeBlobs blobSize) _ hstored
    (by rw [widenHeap_eq, htables])
  rw [← (hwell.widenBlobs blobSize).toNat_mask] at hvalid
  rw [widenHeap_eq] at hvalid ⊢
  subst htables
  obtain ⟨hothers, hsignatures, hcount, hmethods⟩ := hedited
  exact ⟨⟨hothers, hsignatures, hcount, hmethods⟩, rfl, rfl, rfl, rfl, rfl, rfl, hvalid⟩

/-- A stream with one method and no local signature. -/
def lone : TableStream where
  reserved := 0
  major := 2
  minor := 0
  heapSizes := 0
  reserved2 := 1
  valid := 0x40
  sorted := 0
  extra := none
  tables := Array.replicate 6 #[] ++ #[#[[0x2050, 0, 0x10, 1, 1, 1]]] ++ Array.replicate 38 #[]
  trailing := []

/-- The block from which the stream with one method is read. -/
def loneData : Bytes := #[
  0, 0, 0, 0, 2, 0, 0, 1, 0x40, 0, 0, 0, 0, 0, 0, 0, 0, 0, 0, 0, 0, 0, 0, 0,
  1, 0, 0, 0, 0x50, 0x20, 0, 0, 0, 0, 0x10, 0, 1, 0, 1, 0, 1, 0]

/-- A method gets a local signature behind the first words of a blob heap, and is moved twice. -/
theorem exists_reread_of_applyAll_lone : ofBytes loneData = .ok lone ∧ ∃ after bytes found,
    TableEdit.applyAll lone [.address 1 0x3000, .signature 0x10000, .address 1 0x4000] =
      .ok after ∧
    (after.widenHeap Widths.largeBlobs 0x10001).encode = .ok bytes ∧
    ofBytes bytes.toArray = .ok found ∧ found.rows .standAloneSig = #[[0x10000]] ∧
    found.row? .methodDef 1 = some [0x4000, 0, 0x10, 1, 1, 1] ∧
    found.valid.toNat.testBit 0x11 := by
  have hread : ofBytes loneData = .ok lone := eq_ok_of_toOption (by decide +kernel)
  have hindexes (index : UInt32) (h : TableEdit.signature index ∈
      [.address 1 0x3000, .signature 0x10000, .address 1 0x4000]) : index.toNat < 0x10001 := by
    simp only [List.mem_cons, TableEdit.signature.injEq, reduceCtorEq, List.not_mem_nil,
      false_or, or_false] at h
    rw [h]
    decide
  obtain ⟨after, bytes, found, happly, hencode, hagain, -, hfound⟩ :=
    exists_reread_of_applyAll hread hindexes (by decide)
  have hrows : found.rows .standAloneSig = #[[0x10000]] := Array.toList_inj.mp hfound.signatures
  refine ⟨hread, after, bytes, found, happly, hencode, hagain, hrows, hfound.methods 1, ?_⟩
  exact (hfound.valid 0x11).mpr (.inr ⟨.standAloneSig, rfl, rfl, by rw [hrows]; decide⟩)

end TableStream

end CilPatch
