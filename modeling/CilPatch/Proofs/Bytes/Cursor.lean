import CilPatch.Bytes.Cursor
import CilPatch.Proofs.Step

/-!
# What cursors pass

A reading step that succeeds passes some bytes: they stand in front of what is left. A step is
understood once it is known which bytes it passes and what it yields for them.
-/

namespace CilPatch

open LittleEndian

namespace Cursor

/-- A cursor has passed some bytes of its block. -/
structure Passes (before : Cursor) (bytes : List UInt8) (after : Cursor) : Prop where
  rest : before.rest = bytes ++ after.rest
  moved : after = { before with pos := before.pos + bytes.length }
  bounded : after.pos ≤ after.data.size

variable {cursor before middle after : Cursor} {front back : List UInt8}

/-- How many bytes are left. -/
theorem length_rest (cursor : Cursor) :
    cursor.rest.length = cursor.data.size - cursor.pos := by
  rw [rest, List.length_drop, Array.length_toList]

/-- There are bytes left exactly when something is left. -/
theorem hasMore_eq_false_iff : cursor.hasMore = false ↔ cursor.rest.head? = none := by
  rw [hasMore, decide_eq_false_iff_not, List.head?_eq_none_iff, ← List.length_eq_zero_iff,
    length_rest]
  omega

/-- There are bytes left when there is a next one. -/
theorem hasMore_of_head? {byte : UInt8} (h : cursor.rest.head? = some byte) :
    cursor.hasMore = true := by
  rw [← Bool.not_eq_false, hasMore_eq_false_iff, h]
  exact nofun

/-- Nothing is passed where a cursor stays. -/
theorem passes_nil_iff (hbounded : before.pos ≤ before.data.size) :
    before.Passes [] after ↔ after = before := by
  constructor
  · intro h
    exact h.moved
  · rintro rfl
    exact ⟨rfl, rfl, hbounded⟩

/-- What is left behind some bytes. -/
theorem rest_moved (cursor : Cursor) (count : Nat) :
    ({ cursor with pos := cursor.pos + count } : Cursor).rest = cursor.rest.drop count := by
  rw [Cursor.rest, Cursor.rest, List.drop_drop]

/-- Bytes that stand at a cursor can be passed. -/
theorem passes_of_rest {tail : List UInt8} (hrest : before.rest = front ++ tail)
    (hbounded : before.pos ≤ before.data.size) :
    before.Passes front { before with pos := before.pos + front.length } := by
  refine ⟨?_, rfl, ?_⟩
  · rw [rest_moved, hrest, List.drop_left]
  · have hlength := congrArg List.length hrest
    rw [length_rest, List.length_append] at hlength
    simp only
    omega

/-- What is passed is no longer left. -/
theorem Passes.length_rest (h : before.Passes front after) :
    before.rest.length = front.length + after.rest.length := by
  rw [h.rest, List.length_append]

/-- What is left behind bytes that are passed is what stood behind them. -/
theorem Passes.rest_eq {tail : List UInt8} (h : before.Passes front after)
    (hrest : before.rest = front ++ tail) : after.rest = tail :=
  List.append_cancel_left (h.rest.symm.trans hrest)

/-- A cursor that has passed bytes was within its block. -/
theorem Passes.bounded_before (h : before.Passes front after) :
    before.pos ≤ before.data.size := by
  have hbounded := h.bounded
  rw [h.moved] at hbounded
  simp only at hbounded
  omega

/-- Bytes are passed one part after another. -/
theorem passes_append_iff :
    before.Passes (front ++ back) after ↔
      ∃ middle, before.Passes front middle ∧ middle.Passes back after := by
  constructor
  · intro h
    have hrest := h.rest
    rw [List.append_assoc] at hrest
    have hfront := passes_of_rest hrest h.bounded_before
    refine ⟨_, hfront, hfront.rest_eq hrest, ?_, h.bounded⟩
    rw [h.moved, List.length_append, Nat.add_assoc]
  · rintro ⟨middle, hfront, hback⟩
    refine ⟨?_, ?_, hback.bounded⟩
    · rw [hfront.rest, hback.rest, List.append_assoc]
    · rw [hback.moved, hfront.moved, List.length_append, Nat.add_assoc]

end Cursor

namespace Read

variable {before after : Cursor}

/-- The bytes of a word at a cursor. -/
private theorem wordAt_eq_decode (cursor : Cursor) (width : Nat) :
    wordAt cursor.data cursor.pos width = decode (cursor.rest.take width) := by
  simp [wordAt, Cursor.rest]

/-- A word is read when its bytes are passed. -/
theorem run_word_eq_ok_iff {width value : Nat} :
    (word width).run before = (.ok value, after) ↔
      value < range width ∧ before.Passes (encode width value) after := by
  rw [run_word, wordAt_eq_decode]
  constructor
  · intro h
    split at h
    · cases h
    · next hroom =>
      obtain ⟨hvalue, rfl⟩ := Prod.mk.inj h
      obtain rfl := Except.ok.inj hvalue
      have hlength : (before.rest.take width).length = width := by
        rw [List.length_take, Cursor.length_rest]
        omega
      have hencode := encode_decode (before.rest.take width)
      have hlt := decode_lt (before.rest.take width)
      rw [hlength] at hencode hlt
      have hpasses : before.Passes (before.rest.take width) _ :=
        Cursor.passes_of_rest (List.take_append_drop width before.rest).symm (by omega)
      rw [hlength] at hpasses
      exact ⟨hlt, by rw [hencode]; exact hpasses⟩
  · rintro ⟨hvalue, hpasses⟩
    have hmoved := hpasses.moved
    have hbounded := hpasses.bounded
    rw [length_encode] at hmoved
    rw [hmoved] at hbounded
    have hroom : ¬before.data.size < before.pos + width := Nat.not_lt.mpr hbounded
    have htake : before.rest.take width = encode width value := by
      rw [hpasses.rest, List.take_left' (length_encode width value)]
    rw [if_neg hroom, htake, decode_encode, Nat.mod_eq_of_lt hvalue, ← hmoved]

/-- A byte is read when it is passed. -/
theorem run_u8_eq_ok_iff {value : UInt8} :
    u8.run before = (.ok value, after) ↔ before.Passes [value] after := by
  rw [u8, bind_pure_comp, run_map_eq_ok_iff]
  constructor
  · rintro ⟨word, hword, rfl⟩
    exact (run_word_eq_ok_iff.mp hword).2
  · intro h
    refine ⟨value.toNat, run_word_eq_ok_iff.mpr ⟨value.toNat_lt, ?_⟩, UInt8.ofNat_toNat⟩
    rwa [encode, UInt8.ofNat_toNat, encode]

/-- A number of some width is read when its bytes are passed. -/
theorem run_number_eq_ok_iff {α : Type} (width : Nat) {ofNat : Nat → α} {toNat : α → Nat}
    (hback : ∀ value, ofNat (toNat value) = value)
    (hnumber : ∀ number < range width, toNat (ofNat number) = number)
    (hrange : ∀ value, toNat value < range width) {value : α} :
    (do return ofNat (← word width) : Read α).run before = (.ok value, after) ↔
      before.Passes (encode width (toNat value)) after := by
  rw [bind_pure_comp, run_map_eq_ok_iff]
  constructor
  · rintro ⟨number, hword, rfl⟩
    obtain ⟨hlt, hpasses⟩ := run_word_eq_ok_iff.mp hword
    rwa [hnumber number hlt]
  · intro h
    exact ⟨toNat value, run_word_eq_ok_iff.mpr ⟨hrange value, h⟩, hback value⟩

/-- A 16-bit word is read when its bytes are passed. -/
theorem run_u16_eq_ok_iff {value : UInt16} :
    Read.u16.run before = (.ok value, after) ↔ before.Passes (LittleEndian.u16 value) after :=
  run_number_eq_ok_iff 2 (fun _ => UInt16.ofNat_toNat) (fun _ => UInt16.toNat_ofNat_of_lt')
    fun value => value.toNat_lt

/-- A 32-bit word is read when its bytes are passed. -/
theorem run_u32_eq_ok_iff {value : UInt32} :
    Read.u32.run before = (.ok value, after) ↔ before.Passes (LittleEndian.u32 value) after :=
  run_number_eq_ok_iff 4 (fun _ => UInt32.ofNat_toNat) (fun _ => UInt32.toNat_ofNat_of_lt')
    fun value => value.toNat_lt

/-- A 64-bit word is read when its bytes are passed. -/
theorem run_u64_eq_ok_iff {value : UInt64} :
    Read.u64.run before = (.ok value, after) ↔ before.Passes (LittleEndian.u64 value) after :=
  run_number_eq_ok_iff 8 (fun _ => UInt64.ofNat_toNat) (fun _ => UInt64.toNat_ofNat_of_lt')
    fun value => value.toNat_lt

/-- Bytes are read when they are passed. -/
theorem run_bytes_eq_ok_iff {count : Nat} {value : Bytes} :
    (bytes count).run before = (.ok value, after) ↔
      value.size = count ∧ before.Passes value.toList after := by
  rw [run_bytes]
  constructor
  · intro h
    split at h
    · cases h
    · next hroom =>
      obtain ⟨hvalue, rfl⟩ := Prod.mk.inj h
      obtain rfl := Except.ok.inj hvalue
      have hsize : (before.data.extract before.pos (before.pos + count)).size = count := by
        rw [Array.size_extract]
        omega
      have htake : (before.data.extract before.pos (before.pos + count)).toList =
          before.rest.take count := by
        simp [Cursor.rest]
      refine ⟨hsize, ?_⟩
      have hpasses : before.Passes (before.rest.take count) _ :=
        Cursor.passes_of_rest (List.take_append_drop count before.rest).symm (by omega)
      rw [← htake, Array.length_toList, hsize] at hpasses
      exact hpasses
  · rintro ⟨rfl, hpasses⟩
    have hmoved := hpasses.moved
    have hbounded := hpasses.bounded
    rw [Array.length_toList] at hmoved
    rw [hmoved] at hbounded
    have hvalue : before.data.extract before.pos (before.pos + value.size) = value := by
      apply Array.toList_inj.mp
      have htake : (before.data.extract before.pos (before.pos + value.size)).toList =
          before.rest.take value.size := by
        simp [Cursor.rest]
      rw [htake, hpasses.rest, ← Array.length_toList, List.take_left]
    rw [if_neg (Nat.not_lt.mpr hbounded), hvalue, ← hmoved]

/-- A step that is taken several times yields what it yields for each of the parts that are
passed. -/
theorem run_many_of_passes {α β : Type} {step : Read β} {encode : α → List UInt8} {found : α → β}
    {values : List α} (hstep : ∀ value ∈ values, ∀ before after : Cursor,
      before.Passes (encode value) after → step.run before = (.ok (found value), after))
    (h : before.Passes (values.flatMap encode) after) :
    (many step values.length).run before = (.ok (values.map found), after) := by
  induction values generalizing before with
  | nil =>
    rw [(Cursor.passes_nil_iff h.bounded_before).mp h]
    rfl
  | cons value rest ih =>
    obtain ⟨hvalue, hothers⟩ := List.forall_mem_cons.mp hstep
    rw [List.flatMap_cons] at h
    obtain ⟨middle, hfirst, hrest⟩ := Cursor.passes_append_iff.mp h
    refine run_bind_eq_ok_iff.mpr ⟨_, middle, hvalue _ _ hfirst, ?_⟩
    exact run_bind_eq_ok_iff.mpr ⟨_, after, ih hothers hrest, rfl⟩

/-- Several 32-bit words are read when the bytes of all of them are passed. -/
theorem run_many_u32_eq_ok_iff {count : Nat} {values : List UInt32}
    (hbounded : before.pos ≤ before.data.size) :
    (many Read.u32 count).run before = (.ok values, after) ↔
      values.length = count ∧ before.Passes (values.map LittleEndian.u32).flatten after := by
  induction count generalizing before values with
  | zero =>
    rw [many, step_pure]
    constructor
    · intro h
      obtain ⟨hvalues, rfl⟩ := Prod.mk.inj h
      obtain rfl := Except.ok.inj hvalues
      exact ⟨rfl, (Cursor.passes_nil_iff hbounded).mpr rfl⟩
    · rintro ⟨hlength, hpasses⟩
      obtain rfl := List.length_eq_zero_iff.mp hlength
      rw [(Cursor.passes_nil_iff hbounded).mp hpasses]
  | succ count ih =>
    rw [many, run_bind_eq_ok_iff]
    constructor
    · rintro ⟨first, middle, hfirst, h⟩
      obtain ⟨rest, last, hrest, h⟩ := run_bind_eq_ok_iff.mp h
      obtain ⟨hvalues, rfl⟩ := Prod.mk.inj h
      obtain rfl := Except.ok.inj hvalues
      have hfirst := run_u32_eq_ok_iff.mp hfirst
      obtain ⟨hlength, hpasses⟩ := (ih hfirst.bounded).mp hrest
      refine ⟨by rw [List.length_cons, hlength], ?_⟩
      rw [List.map_cons, List.flatten_cons]
      exact Cursor.passes_append_iff.mpr ⟨middle, hfirst, hpasses⟩
    · rintro ⟨hlength, hpasses⟩
      cases values with
      | nil => cases hlength
      | cons first rest =>
        rw [List.map_cons, List.flatten_cons] at hpasses
        obtain ⟨middle, hfirst, hrest⟩ := Cursor.passes_append_iff.mp hpasses
        refine ⟨first, middle, run_u32_eq_ok_iff.mpr hfirst, ?_⟩
        refine run_bind_eq_ok_iff.mpr ⟨rest, after, ?_, rfl⟩
        exact (ih hfirst.bounded).mpr ⟨Nat.succ.inj hlength, hrest⟩

end Read

end CilPatch
