import CilPatch.Proofs.Code.Resolution

/-!
# Encoding and decoding

Encoding lays the instructions of a list out and writes them one by one; decoding reads stored
instructions one by one and resolves their jumps. Neither is unfolded after this.
-/

namespace CilPatch

namespace InstrList

variable (instructions : Array Instruction)

/-- Decoded instructions stand in the order of their slots. -/
theorem slotAt?_ofInstructions_iff {position : Nat} {slot : Slot} :
    (ofInstructions instructions).slotAt? position = some slot ↔
      position < instructions.size ∧ slot = ⟨position⟩ := by
  simp only [ofInstructions, slotAt?, Array.getElem?_map, Option.map_eq_some_iff,
    Array.getElem?_range]
  constructor
  · rintro ⟨index, hindex, rfl⟩
    split at hindex
    · next hlt =>
      obtain rfl := Option.some.inj hindex
      exact ⟨hlt, rfl⟩
    · cases hindex
  · rintro ⟨hlt, rfl⟩
    exact ⟨position, if_pos hlt, rfl⟩

/-- Decoded instructions are as many as there are slots. -/
theorem length_ofInstructions : (ofInstructions instructions).length = instructions.size := by
  simp [ofInstructions, length]

/-- A decoded instruction is found by its slot. -/
theorem get_ofInstructions {position : Nat} {instruction : Instruction}
    (h : instructions[position]? = some instruction) :
    (ofInstructions instructions).get ⟨position⟩ = instruction := by
  simp [ofInstructions, get, get?, h]

/-- Decoded instructions are placed once. -/
theorem nodup_order_ofInstructions : (ofInstructions instructions).order.toList.Nodup := by
  rw [ofInstructions, Array.toList_map, Array.toList_range]
  refine List.pairwise_map.mpr (List.nodup_range.imp ?_)
  intro left right hne heq
  exact hne (Slot.mk.inj heq)

/-- A placed slot has a position. -/
theorem exists_slotAt? {list : InstrList} {slot : Slot} (h : slot ∈ list.order) :
    ∃ position, list.slotAt? position = some slot := Array.getElem?_of_mem h

end InstrList

namespace Layout

/-- A position is known for a slot exactly when the slot stands there. -/
theorem positionsOf_eq_some_iff {list : InstrList} (hdistinct : list.order.toList.Nodup)
    {slot : Slot} {position : Nat} :
    (positionsOf list)[slot]? = some position ↔ list.slotAt? position = some slot := by
  have hkeys : (list.order.toList.zipIdx.map Prod.fst).Nodup := by
    rw [List.zipIdx_map_fst]
    exact hdistinct
  rw [positionsOf, getElem?_ofList_eq_some_iff hkeys, List.mk_mem_zipIdx_iff_getElem?,
    InstrList.slotAt?, Array.getElem?_toList]

/-- A list as it is laid out first, each instruction with its own opcode. -/
def initial (list : InstrList) : List Placement :=
  list.placed.map fun (_, instruction) => .of instruction

/-- The final layout of a list. -/
def final (list : InstrList) : List Placement := relaxed (positionsOf list) list

/-- Each instruction of the final layout has been widened if at all. -/
theorem widenedAll_final (list : InstrList) : WidenedAll (initial list) (final list) :=
  widenedAll_relax (positionsOf list) (shortCount (initial list) + 1) (initial list)

/-- A list that needs no widening is laid out as it is. -/
theorem final_of_widen {list : InstrList}
    (h : widen (positionsOf list) (initial list) = initial list) : final list = initial list :=
  relax_of_widen h (shortCount (initial list) + 1)

/-- At first an instruction is laid out at its position. -/
theorem initial_getElem? {list : InstrList} {position : Nat} {slot : Slot}
    (h : list.slotAt? position = some slot) :
    (initial list)[position]? = some (.of (list.get slot)) := by
  rw [InstrList.slotAt?, ← Array.getElem?_toList] at h
  simp [initial, InstrList.placed, h]

/-- In the final layout an instruction is at its position, widened if at all. -/
theorem final_getElem? {list : InstrList} {position : Nat} {slot : Slot}
    (h : list.slotAt? position = some slot) :
    ∃ placement, (final list)[position]? = some placement ∧
      Widened (.of (list.get slot)) placement :=
  (widenedAll_final list).2 position _ (initial_getElem? h)

/-- The first layout is as long as the list. -/
theorem length_initial (list : InstrList) : (initial list).length = list.length := by
  rw [initial, List.length_map, InstrList.placed, List.length_map, Array.length_toList,
    InstrList.length]

/-- Decoded instructions are laid out at first as they are. -/
theorem initial_ofInstructions (instructions : List Instruction) :
    initial (.ofInstructions instructions.toArray) = instructions.map Placement.of := by
  have hlength : (initial (.ofInstructions instructions.toArray)).length =
      (instructions.map Placement.of).length := by
    rw [length_initial, InstrList.length_ofInstructions, List.size_toArray, List.length_map]
  refine List.ext_getElem? fun position => ?_
  cases hinstruction : instructions[position]? with
  | none =>
    have hle := List.getElem?_eq_none_iff.mp hinstruction
    rw [List.getElem?_eq_none (by rw [hlength, List.length_map]; exact hle), List.getElem?_map,
      hinstruction]
    rfl
  | some instruction =>
    have hlt := (List.getElem?_eq_some_iff.mp hinstruction).1
    have hslot := (InstrList.slotAt?_ofInstructions_iff instructions.toArray).mpr
      ⟨by rw [List.size_toArray]; exact hlt, rfl⟩
    rw [initial_getElem? hslot, List.getElem?_map, hinstruction,
      InstrList.get_ofInstructions _ (by rw [List.getElem?_toArray, hinstruction])]
    rfl

/-- The final layout is as long as the list. -/
theorem length_final (list : InstrList) : (final list).length = list.length :=
  (widenedAll_final list).1.trans (length_initial list)

/-- Every instruction of the final layout has been widened, if at all, from a placed one. -/
theorem exists_of_mem_final {list : InstrList} {placement : Placement}
    (h : placement ∈ final list) :
    ∃ slot ∈ list.order, Widened (.of (list.get slot)) placement := by
  obtain ⟨position, hplacement⟩ := List.getElem?_of_mem h
  have hlt : position < list.order.size := by
    have hlt := (List.getElem?_eq_some_iff.mp hplacement).1
    rwa [length_final] at hlt
  have hslot : list.slotAt? position = some list.order[position] := Array.getElem?_eq_getElem hlt
  obtain ⟨same, hsame, hwidened⟩ := final_getElem? hslot
  obtain rfl := Option.some.inj (hplacement.symm.trans hsame)
  exact ⟨_, Array.getElem_mem hlt, hwidened⟩

/-- Where the instruction with a slot starts in the final layout. -/
def startOf? (list : InstrList) : Slot → Option Nat :=
  targetOffset? (positionsOf list) (offsets (final list)).1

/-- An instruction starts where the layout puts its position. -/
theorem startOf?_eq_some_iff {list : InstrList} (hdistinct : list.order.toList.Nodup)
    {slot : Slot} {offset : Nat} :
    startOf? list slot = some offset ↔ ∃ position, list.slotAt? position = some slot ∧
      (offsetsFrom 0 (final list))[position]? = some offset := by
  rw [startOf?, targetOffset?, Option.bind_eq_some_iff]
  simp only [positionsOf_eq_some_iff hdistinct, ← toList_offsets, Array.getElem?_toList]

end Layout

namespace Code

/-- All targets have positions exactly when every target of a placed instruction is placed. -/
theorem unplacedTarget?_eq_none_iff {list : InstrList} :
    unplacedTarget? (Layout.positionsOf list) list = none ↔
      ∀ slot ∈ list.order, ∀ target ∈ (list.get slot).targets, target ∈ list.order := by
  have hcontains (target : Slot) :
      (Layout.positionsOf list).contains target = true ↔ target ∈ list.order := by
    rw [Layout.positionsOf, Std.HashMap.contains_ofList, List.zipIdx_map_fst,
      List.contains_iff_mem, Array.mem_toList_iff]
  rw [unplacedTarget?, List.findSome?_eq_none_iff]
  simp only [InstrList.placed, List.mem_map, Array.mem_toList_iff, Option.map_eq_none_iff,
    List.find?_eq_none, Bool.not_eq_true', Bool.not_eq_false, hcontains]
  constructor
  · intro h slot hslot
    exact h _ ⟨slot, hslot, rfl⟩
  · rintro h _ ⟨slot, hslot, rfl⟩
    exact h slot hslot

/-- The bytes of each instruction in the final layout of a list. -/
def partsOf (list : InstrList) : Except Fault (List (List UInt8)) :=
  encodeParts (Layout.startOf? list) 0 (Layout.final list)

/-- Code that was encoded from a list. -/
def encodedOf (list : InstrList) (parts : List (List UInt8)) : EncodedCode where
  code := parts.flatten
  relaxed := (list.placed.zip (Layout.final list)).countP fun ((_, instruction), placement) =>
    instruction.opcode != placement.form
  starts := .ofList (list.order.toList.zip (Layout.offsetsFrom 0 (Layout.final list)))

/-- As many branches have been relaxed as there are places where the final layout is not the
first one. -/
theorem relaxed_encodedOf (list : InstrList) (parts : List (List UInt8)) :
    (encodedOf list parts).relaxed =
      ((Layout.initial list).zip (Layout.final list)).countP fun (before, after) =>
        before.form != after.form := by
  rw [Layout.initial, List.zip_map_left, List.countP_map]
  rfl

/-- A list is encoded when its jumps lead to placed instructions and each one can be written. -/
theorem encode_eq_ok_iff {list : InstrList} {encoded : EncodedCode} :
    encode list = .ok encoded ↔ unplacedTarget? (Layout.positionsOf list) list = none ∧
      ∃ parts, partsOf list = .ok parts ∧ encoded = encodedOf list parts := by
  rw [encode]
  cases htarget : unplacedTarget? (Layout.positionsOf list) list with
  | some jump =>
    constructor
    · intro h
      cases h
    · rintro ⟨h, -⟩
      cases h
  | none =>
    simp only [Layout.toList_offsets]
    change partsOf list >>= (fun parts => pure (encodedOf list parts)) = .ok encoded ↔ _
    rw [bind_eq_ok_iff]
    constructor
    · rintro ⟨parts, hparts, h⟩
      exact ⟨trivial, parts, hparts, (Except.ok.inj h).symm⟩
    · rintro ⟨-, parts, hparts, rfl⟩
      exact ⟨parts, hparts, rfl⟩

/-- Code is decoded when it is short enough, it stores instructions and their jumps are resolved. -/
theorem decode_eq_ok_iff {code : Bytes} {decoded : DecodedCode} :
    decode code = .ok decoded ↔ code.size < UInt32.size ∧
      ∃ (raws : Array RawInstruction) (instructions : List Instruction),
        WrittenCode 0 raws.toList code.toList ∧
        resolveAll (startsOf raws) raws.toList = .ok instructions ∧
        decoded = ⟨.ofInstructions instructions.toArray, startsOf raws, code.size⟩ := by
  rw [decode]
  by_cases hsize : UInt32.size ≤ code.size
  · simp only [hsize, if_true]
    constructor
    · intro h
      cases h
    · rintro ⟨hfew, -⟩
      omega
  · have hfew : code.size < UInt32.size := Nat.lt_of_not_le hsize
    simp only [hsize, if_false, Array.mapM_eq_mapM_toList, bind_eq_ok_iff, parse_eq_ok_iff]
    constructor
    · rintro ⟨raws, hwritten, array, harray, h⟩
      obtain ⟨instructions, hinstructions, rfl⟩ := map_eq_ok_iff.mp harray
      exact ⟨hfew, raws, instructions, hwritten, hinstructions, (Except.ok.inj h).symm⟩
    · rintro ⟨-, raws, instructions, hwritten, hinstructions, rfl⟩
      exact ⟨raws, hwritten, _, map_eq_ok_iff.mpr ⟨instructions, hinstructions, rfl⟩, rfl⟩

/-- Where the instruction at a position starts in what a list is encoded to. -/
theorem offsetOf_encodedOf {list : InstrList} (hdistinct : list.order.toList.Nodup)
    (parts : List (List UInt8)) {position offset : Nat} {slot : Slot}
    (hslot : list.slotAt? position = some slot)
    (hoffset : (Layout.offsetsFrom 0 (Layout.final list))[position]? = some offset) :
    (encodedOf list parts).offsetOf (some slot) = .ok offset := by
  have hkeys : ((list.order.toList.zip
      (Layout.offsetsFrom 0 (Layout.final list))).map Prod.fst).Nodup := by
    rw [List.map_fst_zip]
    · exact hdistinct
    · rw [Layout.length_offsetsFrom, Layout.length_final]
      exact Nat.le_refl _
  have hfound : (encodedOf list parts).starts[slot]? = some offset := by
    rw [InstrList.slotAt?, ← Array.getElem?_toList] at hslot
    have hpair : (list.order.toList.zip
        (Layout.offsetsFrom 0 (Layout.final list)))[position]? = some (slot, offset) :=
      List.getElem?_zip_eq_some.mpr ⟨hslot, hoffset⟩
    exact (getElem?_ofList_eq_some_iff hkeys).mpr (List.mem_of_getElem? hpair)
  rw [EncodedCode.offsetOf, hfound]

end Code

end CilPatch
