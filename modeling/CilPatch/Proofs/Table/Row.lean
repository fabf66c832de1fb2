import CilPatch.Proofs.Bytes.Cursor
import CilPatch.Table.Stream

/-!
# Reading rows back

A row that was stored with some widths of its columns is read back with the same widths, and
nothing else is read for it. So the rows of a table, and those of all tables, come back as they
were.
-/

namespace CilPatch

open LittleEndian

variable {before after : Cursor}

/-- A column is read when the stored form of its value is passed. -/
theorem Read.run_column_eq_ok_iff {large : Bool} {value : UInt32} :
    (column large).run before = (.ok value, after) ↔
      ∃ bytes, encodeColumn large value = .ok bytes ∧ before.Passes bytes after := by
  rw [column, bind_pure_comp, run_map_eq_ok_iff]
  cases large with
  | true =>
    constructor
    · rintro ⟨number, hword, rfl⟩
      obtain ⟨hlt, hpasses⟩ := run_word_eq_ok_iff.mp hword
      refine ⟨_, rfl, ?_⟩
      rwa [LittleEndian.u32, UInt32.toNat_ofNat_of_lt' hlt]
    · rintro ⟨bytes, hbytes, hpasses⟩
      obtain rfl := Except.ok.inj hbytes
      exact ⟨value.toNat, run_word_eq_ok_iff.mpr ⟨value.toNat_lt, hpasses⟩, UInt32.ofNat_toNat⟩
  | false =>
    constructor
    · rintro ⟨number, hword, rfl⟩
      obtain ⟨hlt, hpasses⟩ := run_word_eq_ok_iff.mp hword
      have hsmall : number < UInt16.size := hlt
      have hnumber : (UInt32.ofNat number).toNat = number :=
        UInt32.toNat_ofNat_of_lt' (by simp only [UInt16.size, UInt32.size] at *; omega)
      refine ⟨encode 2 number, ?_, hpasses⟩
      rw [encodeColumn, if_neg (by simp), hnumber, if_pos hsmall]
    · rintro ⟨bytes, hbytes, hpasses⟩
      rw [encodeColumn, if_neg (by simp)] at hbytes
      split at hbytes
      · next hsmall =>
        obtain rfl := Except.ok.inj hbytes
        exact ⟨value.toNat, run_word_eq_ok_iff.mpr ⟨hsmall, hpasses⟩, UInt32.ofNat_toNat⟩
      · cases hbytes

/-- A row is read when the stored form of its columns is passed. -/
theorem run_readRow_eq_ok_iff {sizes : List Bool} {row : Row}
    (hbounded : before.pos ≤ before.data.size) :
    (readRow sizes).run before = (.ok row, after) ↔
      row.length = sizes.length ∧
        ∃ bytes, encodeRow sizes row = .ok bytes ∧ before.Passes bytes after := by
  induction sizes generalizing before row with
  | nil =>
    rw [readRow, step_pure]
    constructor
    · intro h
      obtain ⟨hrow, rfl⟩ := Prod.mk.inj h
      obtain rfl := Except.ok.inj hrow
      exact ⟨rfl, [], rfl, (Cursor.passes_nil_iff hbounded).mpr rfl⟩
    · rintro ⟨hlength, bytes, hbytes, hpasses⟩
      obtain rfl := List.length_eq_zero_iff.mp hlength
      obtain rfl := Except.ok.inj hbytes
      rw [(Cursor.passes_nil_iff hbounded).mp hpasses]
  | cons large sizes ih =>
    rw [readRow, run_bind_eq_ok_iff]
    constructor
    · rintro ⟨value, middle, hvalue, h⟩
      obtain ⟨rest, last, hrest, h⟩ := run_bind_eq_ok_iff.mp h
      obtain ⟨hrow, rfl⟩ := Prod.mk.inj h
      obtain rfl := Except.ok.inj hrow
      obtain ⟨front, hfront, hpasses⟩ := Read.run_column_eq_ok_iff.mp hvalue
      obtain ⟨hlength, back, hback, hpasses'⟩ := (ih hpasses.bounded).mp hrest
      refine ⟨by rw [List.length_cons, List.length_cons, hlength], front ++ back, ?_, ?_⟩
      · rw [encodeRow, hfront, hback]
        rfl
      · exact Cursor.passes_append_iff.mpr ⟨middle, hpasses, hpasses'⟩
    · rintro ⟨hlength, bytes, hbytes, hpasses⟩
      cases row with
      | nil => cases hlength
      | cons value row =>
        obtain ⟨front, hfront, h⟩ := bind_eq_ok_iff.mp hbytes
        obtain ⟨back, hback, hjoin⟩ := bind_eq_ok_iff.mp h
        obtain rfl := Except.ok.inj hjoin
        obtain ⟨middle, hpasses, hpasses'⟩ := Cursor.passes_append_iff.mp hpasses
        refine ⟨value, middle, Read.run_column_eq_ok_iff.mpr ⟨front, hfront, hpasses⟩, ?_⟩
        refine run_bind_eq_ok_iff.mpr ⟨row, after, ?_, rfl⟩
        exact (ih hpasses.bounded).mpr ⟨Nat.succ.inj hlength, back, hback, hpasses'⟩

/-- Rows are read when the stored forms of all of them are passed. -/
theorem run_readRows_eq_ok_iff {sizes : List Bool} {count : Nat} {rows result : Array Row}
    (hbounded : before.pos ≤ before.data.size) :
    (readRows sizes count rows).run before = (.ok result, after) ↔
      ∃ more parts, result.toList = rows.toList ++ more ∧ more.length = count ∧
        (∀ row ∈ more, row.length = sizes.length) ∧ more.mapM (encodeRow sizes) = .ok parts ∧
        before.Passes parts.flatten after := by
  induction count generalizing before rows with
  | zero =>
    rw [readRows, step_pure]
    constructor
    · intro h
      obtain ⟨hrows, rfl⟩ := Prod.mk.inj h
      obtain rfl := Except.ok.inj hrows
      exact ⟨[], [], by rw [List.append_nil], rfl, nofun, rfl,
        (Cursor.passes_nil_iff hbounded).mpr rfl⟩
    · rintro ⟨more, parts, hresult, hlength, -, hparts, hpasses⟩
      obtain rfl := List.length_eq_zero_iff.mp hlength
      obtain rfl := Except.ok.inj hparts
      rw [List.append_nil] at hresult
      rw [(Cursor.passes_nil_iff hbounded).mp hpasses, Array.toList_inj.mp hresult]
  | succ count ih =>
    rw [readRows, run_bind_eq_ok_iff]
    constructor
    · rintro ⟨row, middle, hrow, h⟩
      obtain ⟨hwidth, front, hfront, hpasses⟩ := (run_readRow_eq_ok_iff hbounded).mp hrow
      obtain ⟨more, parts, hresult, hlength, hwidths, hparts, hpasses'⟩ :=
        (ih hpasses.bounded).mp h
      refine ⟨row :: more, front :: parts, ?_, by rw [List.length_cons, hlength], ?_, ?_, ?_⟩
      · rw [hresult, Array.toList_push, List.append_assoc]
        rfl
      · intro other hother
        rcases List.mem_cons.mp hother with rfl | hother
        · exact hwidth
        · exact hwidths other hother
      · exact mapM_cons_eq_ok_iff.mpr ⟨front, parts, hfront, hparts, rfl⟩
      · rw [List.flatten_cons]
        exact Cursor.passes_append_iff.mpr ⟨middle, hpasses, hpasses'⟩
    · rintro ⟨more, parts, hresult, hlength, hwidths, hparts, hpasses⟩
      cases more with
      | nil => cases hlength
      | cons row more =>
        obtain ⟨front, back, hfront, hback, rfl⟩ := mapM_cons_eq_ok_iff.mp hparts
        rw [List.flatten_cons] at hpasses
        obtain ⟨middle, hpasses, hpasses'⟩ := Cursor.passes_append_iff.mp hpasses
        refine ⟨row, middle, ?_, ?_⟩
        · exact (run_readRow_eq_ok_iff hbounded).mpr
            ⟨hwidths row List.mem_cons_self, front, hfront, hpasses⟩
        · refine (ih hpasses.bounded).mpr ⟨more, back, ?_, Nat.succ.inj hlength, ?_, hback, hpasses'⟩
          · rw [hresult, Array.toList_push, List.append_assoc]
            rfl
          · exact fun other hother => hwidths other (List.mem_cons_of_mem _ hother)

end CilPatch
