import CilPatch.Proofs.Code.Encoding

/-!
# Decoding what was encoded

What a list is encoded to stores the final layout of the list, and decoding names each instruction
by its position. So one renaming of slots takes the list to what is decoded.
-/

namespace CilPatch.Code

/-- What decoding recovers of a list from its code: the instruction at each position, as one
renaming of slots takes it there. -/
structure Recovers (list : InstrList) (encoded : EncodedCode) (decoded : DecodedCode)
    (rename : Slot → Slot) : Prop where
  length : decoded.instructions.length = list.length
  /-- The renaming takes the instruction at a position to the one at the same position. -/
  placed : ∀ position slot, list.slotAt? position = some slot →
    decoded.instructions.slotAt? position = some (rename slot)
  /-- Every target is an instruction with a position. -/
  targets : ∀ slot ∈ list.order, ∀ target ∈ (list.get slot).targets, target ∈ list.order
  operands : ∀ slot ∈ list.order, (decoded.instructions.get (rename slot)).operand =
    (list.get slot).operand.mapTargets rename
  /-- Opcodes are kept, save for short branches that have been relaxed. -/
  opcodes : ∀ slot ∈ list.order,
    (decoded.instructions.get (rename slot)).opcode = (list.get slot).opcode ∨
      (list.get slot).opcode.isShortBranch = true ∧
        (decoded.instructions.get (rename slot)).opcode = (list.get slot).opcode.longForm
  relaxed : encoded.relaxed = list.order.toList.countP fun slot =>
    (list.get slot).opcode != (decoded.instructions.get (rename slot)).opcode
  /-- An instruction starts where the code says, and the code ends where it says. -/
  starts : ∀ slot ∈ list.order, ∃ offset, encoded.offsetOf (some slot) = .ok offset ∧
    decoded.slotAt offset = .ok (some (rename slot))
  stop : ∃ offset, encoded.offsetOf none = .ok offset ∧ decoded.slotAt offset = .ok none

/-- The instruction at a position, as decoding names it. -/
def renamed (list : InstrList) (slot : Slot) : Slot :=
  ⟨(Layout.positionsOf list)[slot]?.getD 0⟩

/-- A slot is renamed to its position. -/
theorem renamed_of_slotAt? {list : InstrList} (hdistinct : list.order.toList.Nodup)
    {position : Nat} {slot : Slot} (h : list.slotAt? position = some slot) :
    renamed list slot = ⟨position⟩ := by
  rw [renamed, (Layout.positionsOf_eq_some_iff hdistinct).mpr h]
  rfl

/-- The instructions that are decoded from what a list encodes to. -/
def decodedInstructions (list : InstrList) : List Instruction :=
  (Layout.final list).map fun placement =>
    ⟨placement.form, placement.operand.mapTargets (renamed list)⟩

/-- The list that is decoded from what a list encodes to. -/
def decodedList (list : InstrList) : InstrList :=
  .ofInstructions (decodedInstructions list).toArray

section Decoded

variable {list : InstrList} {raws : List RawInstruction}

/-- Decoded instructions are resolved to those of the list, renamed. -/
theorem resolve_decodedInstructions (hdistinct : list.order.toList.Nodup)
    (hlays : Lays (Layout.startOf? list) 0 (Layout.final list) raws)
    (hoffsets : (raws.map RawInstruction.offset).Nodup) :
    resolveAll (startsOf raws.toArray) raws = .ok (decodedInstructions list) := by
  refine resolve_of_lays ?_ hlays
  intro slot target htarget
  obtain ⟨position, hslot, hoffset⟩ := (Layout.startOf?_eq_some_iff hdistinct).mp htarget
  refine resolve_eq_ok_iff.mpr ⟨target, rfl, (startsOf_eq_some_iff hoffsets).mpr ?_⟩
  rw [renamed_of_slotAt? hdistinct hslot, hlays.offsets_eq]
  exact hoffset

/-- The decoded instruction at a position is the one that is laid out there, renamed. -/
theorem get_decoded (hdistinct : list.order.toList.Nodup) {position : Nat} {slot : Slot}
    {placement : Placement} (hslot : list.slotAt? position = some slot)
    (hplacement : (Layout.final list)[position]? = some placement) :
    (decodedList list).get (renamed list slot) =
      ⟨placement.form, placement.operand.mapTargets (renamed list)⟩ := by
  rw [renamed_of_slotAt? hdistinct hslot]
  apply InstrList.get_ofInstructions
  rw [List.getElem?_toArray, decodedInstructions, List.getElem?_map, hplacement]
  rfl

/-- The decoded instruction for a slot has been widened, if at all, and renamed. -/
theorem exists_decoded (hdistinct : list.order.toList.Nodup) {slot : Slot}
    (hslot : slot ∈ list.order) :
    ∃ placement, Layout.Widened (.of (list.get slot)) placement ∧
      (decodedList list).get (renamed list slot) =
        ⟨placement.form, placement.operand.mapTargets (renamed list)⟩ := by
  obtain ⟨position, hposition⟩ := InstrList.exists_slotAt? hslot
  obtain ⟨placement, hplacement, hwidened⟩ := Layout.final_getElem? hposition
  exact ⟨placement, hwidened, get_decoded hdistinct hposition hplacement⟩

/-- The forms of the final layout are the opcodes of the decoded instructions. -/
theorem map_form_final (hdistinct : list.order.toList.Nodup) :
    (Layout.final list).map Placement.form = list.order.toList.map fun slot =>
      ((decodedList list).get (renamed list slot)).opcode := by
  apply List.ext_getElem?
  intro position
  rw [List.getElem?_map, List.getElem?_map]
  cases hslot : list.order.toList[position]? with
  | none =>
    have hle := List.getElem?_eq_none_iff.mp hslot
    have hnone : (Layout.final list)[position]? = none := by
      rw [List.getElem?_eq_none_iff, Layout.length_final]
      exact hle
    rw [hnone]
    rfl
  | some slot =>
    have hslot : list.slotAt? position = some slot := by
      rw [InstrList.slotAt?, ← Array.getElem?_toList, hslot]
    obtain ⟨placement, hplacement, -⟩ := Layout.final_getElem? hslot
    rw [hplacement, Option.map_some, Option.map_some, get_decoded hdistinct hslot hplacement]

/-- As many branches have been relaxed as there are slots whose opcode has changed. -/
theorem relaxed_eq_countP (hdistinct : list.order.toList.Nodup) (parts : List (List UInt8)) :
    (encodedOf list parts).relaxed = list.order.toList.countP fun slot =>
      (list.get slot).opcode != ((decodedList list).get (renamed list slot)).opcode := by
  have hforms : ((Layout.initial list).zip (Layout.final list)).map
      (Prod.map Placement.form Placement.form) = list.order.toList.map fun slot =>
        ((list.get slot).opcode, ((decodedList list).get (renamed list slot)).opcode) := by
    rw [← List.zip_map, map_form_final hdistinct, Layout.initial, InstrList.placed, List.map_map,
      List.map_map, List.zip_map']
    rfl
  have hcount := congrArg (List.countP fun pair => pair.1 != pair.2) hforms
  rw [List.countP_map, List.countP_map] at hcount
  rw [relaxed_encodedOf]
  exact hcount

end Decoded

/-- What a list without repeated slots is encoded to is decoded to its instructions. -/
theorem recovers_of_encode {list : InstrList} {parts : List (List UInt8)}
    {raws : List RawInstruction} (hdistinct : list.order.toList.Nodup)
    (htargets : unplacedTarget? (Layout.positionsOf list) list = none)
    (hlays : Lays (Layout.startOf? list) 0 (Layout.final list) raws)
    (hwritten : WrittenCode 0 raws parts.flatten) :
    Recovers list (encodedOf list parts)
      ⟨decodedList list, startsOf raws.toArray, parts.flatten.length⟩ (renamed list) where
  length := by
    rw [decodedList, InstrList.length_ofInstructions, List.size_toArray, decodedInstructions,
      List.length_map, Layout.length_final]
  placed position slot hslot := by
    rw [renamed_of_slotAt? hdistinct hslot]
    refine (InstrList.slotAt?_ofInstructions_iff _).mpr ⟨?_, rfl⟩
    obtain ⟨hlt, -⟩ := Array.getElem?_eq_some_iff.mp hslot
    rw [List.size_toArray, decodedInstructions, List.length_map, Layout.length_final]
    exact hlt
  targets := unplacedTarget?_eq_none_iff.mp htargets
  operands slot hslot := by
    obtain ⟨placement, hwidened, hdecoded⟩ := exists_decoded hdistinct hslot
    rw [hdecoded, hwidened.1]
    rfl
  opcodes slot hslot := by
    obtain ⟨placement, hwidened, hdecoded⟩ := exists_decoded hdistinct hslot
    rw [hdecoded]
    exact hwidened.2
  relaxed := relaxed_eq_countP hdistinct parts
  starts slot hslot := by
    obtain ⟨position, hposition⟩ := InstrList.exists_slotAt? hslot
    obtain ⟨placement, hplacement, -⟩ := Layout.final_getElem? hposition
    have hlt : position < (Layout.offsetsFrom 0 (Layout.final list)).length := by
      rw [Layout.length_offsetsFrom]
      exact (List.getElem?_eq_some_iff.mp hplacement).1
    have hoffset := List.getElem?_eq_getElem hlt
    refine ⟨_, offsetOf_encodedOf hdistinct parts hposition hoffset, ?_⟩
    generalize (Layout.offsetsFrom 0 (Layout.final list))[position] = offset at hoffset
    rw [← hlays.offsets_eq] at hoffset
    have hfound : (startsOf raws.toArray)[offset]? = some ⟨position⟩ :=
      (startsOf_eq_some_iff hwritten.distinct).mpr hoffset
    obtain ⟨raw, hraw, rfl⟩ := List.mem_map.mp (List.mem_of_getElem? hoffset)
    -- the instruction has a byte, so it is not taken for the end of the code
    have hbefore := (hwritten.offset_lt hraw).2
    rw [DecodedCode.slotAt, if_neg (by simp only; omega), hfound,
      renamed_of_slotAt? hdistinct hposition]
  stop := ⟨parts.flatten.length, rfl, by rw [DecodedCode.slotAt, if_pos rfl]⟩

/-- What a list of instructions that have a meaning and are placed once is encoded to is decoded,
unless it is too long to be, and every instruction is recovered. -/
theorem exists_recovers {list : InstrList} {encoded : EncodedCode}
    (hvalid : ∀ slot ∈ list.order, (list.get slot).opcode.isValid = true)
    (hdistinct : list.order.toList.Nodup) (hencode : encode list = .ok encoded)
    (hsize : encoded.code.length < UInt32.size) :
    ∃ decoded, decode encoded.code.toArray = .ok decoded ∧
      ∃ rename, Recovers list encoded decoded rename := by
  obtain ⟨htargets, parts, hparts, rfl⟩ := encode_eq_ok_iff.mp hencode
  have hforms : ∀ placement ∈ Layout.final list, placement.form.isValid = true := by
    intro placement hplacement
    obtain ⟨slot, hslot, hwidened⟩ := Layout.exists_of_mem_final hplacement
    exact hwidened.isValid (hvalid slot hslot)
  obtain ⟨raws, hlays, hwritten⟩ := written_of_encodeParts hforms hparts
  refine ⟨_, decode_eq_ok_iff.mpr ⟨?_, raws.toArray, decodedInstructions list, ?_, ?_, rfl⟩,
    renamed list, ?_⟩
  · simpa using hsize
  · exact hwritten
  · exact resolve_decodedInstructions hdistinct hlays hwritten.distinct
  · exact recovers_of_encode hdistinct htargets hlays hwritten

/-! ## Boundaries -/

/-- Only what is placed has an offset in the code. -/
theorem mem_order_of_offsetOf {list : InstrList} {encoded : EncodedCode}
    (hencode : encode list = .ok encoded) {slot : Slot} {offset : Nat}
    (h : encoded.offsetOf (some slot) = .ok offset) : slot ∈ list.order := by
  obtain ⟨-, parts, -, rfl⟩ := encode_eq_ok_iff.mp hencode
  rw [EncodedCode.offsetOf] at h
  split at h
  · next start hstart =>
    have hcontains : (encodedOf list parts).starts.contains slot = true := by
      rw [Std.HashMap.contains_eq_isSome_getElem?, hstart]
      rfl
    rw [encodedOf, Std.HashMap.contains_ofList, List.contains_iff_mem] at hcontains
    obtain ⟨entry, hentry, rfl⟩ := List.mem_map.mp hcontains
    exact Array.mem_toList_iff.mp (List.of_mem_zip hentry).1
  · cases h

/-- Boundaries of decoded code lie within the code. -/
theorem le_size_of_slotAt {code : Bytes} {decoded : DecodedCode}
    (hdecode : decode code = .ok decoded) {offset : Nat} {found : Option Slot} (h : decoded.slotAt offset = .ok found) :
    offset ≤ code.size := by
  obtain ⟨-, raws, instructions, hwritten, -, rfl⟩ := decode_eq_ok_iff.mp hdecode
  rw [DecodedCode.slotAt] at h
  split at h
  · next hend => exact Nat.le_of_eq hend
  · split at h
    · next slot hslot =>
      have hoffset := (startsOf_eq_some_iff hwritten.distinct).mp hslot
      obtain ⟨raw, hraw, rfl⟩ := List.mem_map.mp (List.mem_of_getElem? hoffset)
      have hbefore := (hwritten.offset_lt hraw).2
      rw [Array.length_toList] at hbefore
      omega
    · cases h

/-- A boundary of the list is found at its offset in the decoded code. -/
theorem Recovers.slotAt_eq {list : InstrList} {encoded : EncodedCode} {decoded : DecodedCode}
    {rename : Slot → Slot} (h : Recovers list encoded decoded rename)
    (hencode : encode list = .ok encoded) {boundary : Option Slot} {offset : Nat}
    (hoffset : encoded.offsetOf boundary = .ok offset) :
    decoded.slotAt offset = .ok (boundary.map rename) := by
  cases boundary with
  | none =>
    obtain ⟨stop, hstop, hslot⟩ := h.stop
    obtain rfl := Except.ok.inj (hoffset.symm.trans hstop)
    exact hslot
  | some slot =>
    obtain ⟨start, hstart, hslot⟩ := h.starts slot (mem_order_of_offsetOf hencode hoffset)
    obtain rfl := Except.ok.inj (hoffset.symm.trans hstart)
    exact hslot

end CilPatch.Code
