import CilPatch.Proofs.Bytes.Block
import CilPatch.Proofs.Step

/-!
# Strict readings

What stands past the end of a block does not count for a word, so a word can be asked for anywhere.
A strict reading may only look at bytes that are there: where it looks elsewhere, or never comes to
an end, it has neither a result nor a fault. A reading that is the same as a strict one ends and
stays within the block.
-/

namespace CilPatch

open LittleEndian

/-- A reading with a result or a fault, or with nothing at all. -/
abbrev Strict (α : Type) := ExceptT Fault Option α

namespace Strict

variable {α β : Type} {data : Bytes}

/-- The reading that has nothing. -/
def nothing : Strict α := ExceptT.mk none

/-- The reading that has what is known. -/
def given (result : Except Fault α) : Strict α := ExceptT.mk (some result)

/-- The bytes between two offsets, where all of them are there. -/
def part (data : Bytes) (start stop : Nat) : Strict Bytes :=
  if start ≤ stop ∧ stop ≤ data.size then pure (data.extract start stop) else nothing

/-- The number in the bytes from an offset on, where all of them are there. -/
def word (data : Bytes) (offset width : Nat) : Strict Nat := do
  return decode (← part data offset (offset + width)).toList

/-- What a step yields for a block. A step that gives up has asked for bytes behind the block. -/
def parse (step : Read α) (data : Bytes) : Strict α :=
  match Cursor.parse step data with
  | .ok value => pure value
  | .error _ => nothing

/-- What is known after another result is known when both are. -/
theorem given_bind (result : Except Fault α) (next : α → Except Fault β) :
    given (result >>= next) = given result >>= fun value => given (next value) := by
  cases result <;> rfl

/-- A part that is there is looked at. -/
theorem part_eq {start stop : Nat} (hle : start ≤ stop) (hroom : stop ≤ data.size) :
    part data start stop = pure (data.extract start stop) := if_pos ⟨hle, hroom⟩

/-- A word whose bytes are there is looked at. -/
theorem word_eq {offset width : Nat} (hroom : offset + width ≤ data.size) :
    word data offset width = pure (wordAt data offset width) := by
  rw [word, part_eq (Nat.le_add_right _ _) hroom, pure_bind, wordAt]

/-- A step that yields is one that stays within its block. -/
theorem parse_eq {step : Read α} {value : α} (h : Cursor.parse step data = .ok value) :
    parse step data = given (.ok value) := by
  rw [parse, h]
  rfl

end Strict

/-! ## Parts of words -/

namespace LittleEndian

variable {data : Bytes}

/-- A word of one byte is the byte. -/
theorem wordAt_one {offset : Nat} {byte : UInt8} (h : data[offset]? = some byte) :
    wordAt data offset 1 = byte.toNat := by
  have hpart : (data.extract offset (offset + 1)).toList = [byte] := by
    rw [Array.toList_extract, List.extract_eq_take_drop, Nat.add_sub_cancel_left, List.take_one,
      List.head?_drop, Array.getElem?_toList, h]
    rfl
  rw [wordAt, hpart, decode, decode, Nat.mul_zero, Nat.add_zero]

/-- The high bytes of a word count as often as the low bytes have values. -/
theorem wordAt_add {offset low : Nat} (hroom : offset + low ≤ data.size) (high : Nat) :
    wordAt data offset (low + high) =
      wordAt data offset low + range low * wordAt data (offset + low) high := by
  have hsplit : data.extract offset (offset + (low + high)) =
      data.extract offset (offset + low) ++ data.extract (offset + low) (offset + low + high) := by
    rw [Array.extract_append_extract, Nat.min_eq_left (Nat.le_add_right _ _),
      Nat.max_eq_right (Nat.le_add_right _ _), Nat.add_assoc]
  have hlength : (data.extract offset (offset + low)).toList.length = low := by
    rw [Array.length_toList, Array.size_extract]
    omega
  rw [wordAt, hsplit, Array.toList_append, decode_append, hlength]
  rfl

/-- The low bytes of a word. -/
theorem wordAt_eq_mod {offset low : Nat} (hroom : offset + low ≤ data.size) (high : Nat) :
    wordAt data offset low = wordAt data offset (low + high) % range low := by
  rw [wordAt_add hroom, Nat.add_mul_mod_self_left, Nat.mod_eq_of_lt (wordAt_lt _ _ _)]

/-- The high bytes of a word. -/
theorem wordAt_eq_div {offset low : Nat} (hroom : offset + low ≤ data.size) (high : Nat) :
    wordAt data (offset + low) high = wordAt data offset (low + high) / range low := by
  rw [wordAt_add hroom, Nat.add_mul_div_left _ _ (range_pos low),
    Nat.div_eq_of_lt (wordAt_lt _ _ _), Nat.zero_add]

end LittleEndian

/-! ## Steps that span a number of bytes -/

namespace Read

variable {α β : Type} {step : Read α} {size : Nat}

/-- Whether a step passes so many bytes wherever they are there, and then yields. -/
def Spans (step : Read α) (size : Nat) : Prop :=
  ∀ cursor : Cursor, cursor.pos + size ≤ cursor.data.size →
    ∃ value, step.run cursor = (.ok value, { cursor with pos := cursor.pos + size })

/-- A step that only yields spans nothing. -/
theorem spans_pure (value : α) : Spans (pure value) 0 := fun _ _ => ⟨value, rfl⟩

/-- Steps after each other span what they span together. -/
theorem Spans.bind {next : α → Read β} {more : Nat} (h : Spans step size)
    (hnext : ∀ value, Spans (next value) more) : Spans (step >>= next) (size + more) := by
  intro cursor hroom
  rw [← Nat.add_assoc] at hroom ⊢
  obtain ⟨first, hfirst⟩ := h cursor (Nat.le_of_add_right_le hroom)
  obtain ⟨value, hvalue⟩ := hnext first { cursor with pos := cursor.pos + size } hroom
  exact ⟨value, run_bind_eq_ok_iff.mpr ⟨first, _, hfirst, hvalue⟩⟩

/-- A word spans its width. -/
theorem spans_word (width : Nat) : Spans (word width) width := by
  intro cursor hroom
  exact ⟨_, by rw [run_word, if_neg (Nat.not_lt.mpr hroom)]⟩

theorem spans_u8 : Spans u8 1 := (spans_word 1).bind fun _ => spans_pure _

theorem spans_u16 : Spans u16 2 := (spans_word 2).bind fun _ => spans_pure _

theorem spans_u32 : Spans u32 4 := (spans_word 4).bind fun _ => spans_pure _

/-- A step that is taken several times spans as often what it spans. -/
theorem Spans.many (h : Spans step size) (count : Nat) :
    Spans (many step count) (count * size) := by
  induction count with
  | zero =>
    rw [Nat.zero_mul]
    exact spans_pure []
  | succ count ih =>
    rw [Nat.succ_mul, Nat.add_comm (count * size)]
    exact h.bind fun first => ih.bind fun rest => spans_pure (first :: rest)

/-- A step yields for a block that holds what the step spans. -/
theorem Spans.exists_parse (h : Spans step size) {data : Bytes} (hroom : size ≤ data.size) :
    ∃ value, Cursor.parse step data = .ok value := by
  obtain ⟨value, hvalue⟩ := h ⟨data, 0⟩ (by rwa [Nat.zero_add])
  exact ⟨value, congrArg Prod.fst hvalue⟩

end Read

end CilPatch
