import CilPatch.Proofs.Code.Encoding

/-!
# Encoding what was decoded

Resolved instructions are laid out as they are stored: every short branch reaches its target, so
none is widened, and what is written are the bytes that were read.
-/

namespace CilPatch

/-- Instructions that were read off code, with the jumps of the stored ones resolved. -/
structure Code.Resolved (code : List UInt8) (raws : Array RawInstruction)
    (instructions : List Instruction) : Prop where
  written : WrittenCode 0 raws.toList code
  resolved : resolveAll (startsOf raws) raws.toList = .ok instructions

namespace Code.Resolved

variable {code : List UInt8} {raws : Array RawInstruction} {instructions : List Instruction}

/-- Where the stored instruction of a slot starts. -/
def startOf? (raws : Array RawInstruction) (slot : Slot) : Option Nat :=
  (raws.toList.map RawInstruction.offset)[slot.index]?

/-- Resolved instructions are laid out where the stored ones start. -/
theorem lays (h : Resolved code raws instructions) :
    Lays (startOf? raws) 0 (instructions.map Placement.of) raws.toList := by
  refine lays_of_resolve ?_ h.written h.resolved
  intro target slot hslot
  obtain ⟨offset, rfl, hoffset⟩ := resolve_eq_ok_iff.mp hslot
  exact ⟨offset, rfl, (startsOf_eq_some_iff h.written.distinct).mp hoffset⟩

/-- In the layout of the resolved instructions each starts where the stored one does. -/
theorem targetOffset?_eq (h : Resolved code raws instructions) :
    Layout.targetOffset? (Layout.positionsOf (.ofInstructions instructions.toArray))
      (Layout.offsets (instructions.map Placement.of)).1 = startOf? raws := by
  have hdistinct := InstrList.nodup_order_ofInstructions instructions.toArray
  have hoffsets := h.lays.offsets_eq
  funext slot
  rw [Layout.targetOffset?, startOf?, hoffsets]
  cases hposition : (Layout.positionsOf (.ofInstructions instructions.toArray))[slot]? with
  | some position =>
    obtain ⟨-, rfl⟩ := (InstrList.slotAt?_ofInstructions_iff _).mp
      ((Layout.positionsOf_eq_some_iff hdistinct).mp hposition)
    rw [Option.bind_some, ← Array.getElem?_toList, Layout.toList_offsets]
  | none =>
    have hle : instructions.length ≤ slot.index := by
      refine Nat.le_of_not_lt fun hlt => ?_
      have hslot := (InstrList.slotAt?_ofInstructions_iff instructions.toArray).mpr
        ⟨by rw [List.size_toArray]; exact hlt, rfl⟩
      rw [(Layout.positionsOf_eq_some_iff hdistinct).mpr hslot] at hposition
      cases hposition
    rw [Option.bind_none, eq_comm, List.getElem?_eq_none_iff, Layout.length_offsetsFrom,
      List.length_map]
    exact hle

/-- The resolved instructions need no widening. -/
theorem final_eq (h : Resolved code raws instructions) :
    Layout.final (.ofInstructions instructions.toArray) = instructions.map Placement.of := by
  have hlays := h.lays
  rw [← h.targetOffset?_eq] at hlays
  have hwiden : Layout.widen (Layout.positionsOf (.ofInstructions instructions.toArray))
      (Layout.initial (.ofInstructions instructions.toArray)) =
        Layout.initial (.ofInstructions instructions.toArray) := by
    rw [Layout.initial_ofInstructions, Layout.widen, Layout.toList_offsets]
    exact Layout.map_widenEntry_of_lays hlays h.written
  rw [Layout.final_of_widen hwiden, Layout.initial_ofInstructions]

/-- In the final layout each resolved instruction starts where the stored one does. -/
theorem startOf?_eq (h : Resolved code raws instructions) :
    Layout.startOf? (.ofInstructions instructions.toArray) = startOf? raws := by
  rw [Layout.startOf?, h.final_eq, h.targetOffset?_eq]

/-- Every target of the resolved instructions is placed. -/
theorem unplacedTarget?_eq (h : Resolved code raws instructions) :
    unplacedTarget? (Layout.positionsOf (.ofInstructions instructions.toArray))
      (.ofInstructions instructions.toArray) = none := by
  refine unplacedTarget?_eq_none_iff.mpr fun slot hslot target htarget => ?_
  obtain ⟨position, hposition⟩ := InstrList.exists_slotAt? hslot
  have hinitial := Layout.initial_getElem? hposition
  rw [Layout.initial_ofInstructions] at hinitial
  obtain ⟨raw, hlocated⟩ := h.lays.exists_located (List.mem_of_getElem? hinitial)
  obtain ⟨offset, hoffset⟩ := hlocated.exists_of_target htarget
  rw [← h.startOf?_eq] at hoffset
  obtain ⟨_, hplaced, -⟩ := (Layout.startOf?_eq_some_iff
    (InstrList.nodup_order_ofInstructions _)).mp hoffset
  exact Array.mem_of_getElem? hplaced

/-- What the resolved instructions are encoded to are the bytes that store them. -/
theorem exists_partsOf (h : Resolved code raws instructions) :
    ∃ parts, partsOf (.ofInstructions instructions.toArray) = .ok parts ∧
      parts.flatten = code := by
  rw [partsOf, h.startOf?_eq, h.final_eq]
  exact encodeParts_of_written h.lays h.written

/-- None of the resolved instructions is relaxed. -/
theorem relaxed_eq_zero (h : Resolved code raws instructions) (parts : List (List UInt8)) :
    (encodedOf (.ofInstructions instructions.toArray) parts).relaxed = 0 := by
  rw [relaxed_encodedOf, h.final_eq, Layout.initial_ofInstructions, List.zip_map',
    List.countP_eq_zero]
  intro pair hpair
  obtain ⟨instruction, -, rfl⟩ := List.mem_map.mp hpair
  simp

/-- Each offset that is an instruction or the end is where that starts in what is written. -/
theorem offsetOf_eq (h : Resolved code raws instructions) {parts : List (List UInt8)}
    (hflatten : parts.flatten = code) {offset : Nat} {found : Option Slot}
    (hfound : DecodedCode.slotAt ⟨.ofInstructions instructions.toArray, startsOf raws,
      code.length⟩ offset = .ok found) :
    (encodedOf (.ofInstructions instructions.toArray) parts).offsetOf found = .ok offset := by
  rw [DecodedCode.slotAt] at hfound
  split at hfound
  · next hend =>
    obtain rfl := Except.ok.inj hfound
    rw [EncodedCode.offsetOf, encodedOf, hflatten, hend]
  · cases hslot : (startsOf raws)[offset]? with
    | none =>
      rw [hslot] at hfound
      cases hfound
    | some slot =>
      rw [hslot] at hfound
      obtain rfl := Except.ok.inj hfound
      have hoffset := (startsOf_eq_some_iff h.written.distinct).mp hslot
      rw [h.lays.offsets_eq] at hoffset
      have hlt : slot.index < instructions.toArray.size := by
        have hlt := (List.getElem?_eq_some_iff.mp hoffset).1
        rwa [Layout.length_offsetsFrom, List.length_map] at hlt
      refine offsetOf_encodedOf (InstrList.nodup_order_ofInstructions _) parts
        ((InstrList.slotAt?_ofInstructions_iff _).mpr ⟨hlt, rfl⟩) ?_
      rw [h.final_eq]
      exact hoffset

end Code.Resolved

/-- What code is decoded to is encoded to that code, no short branch is relaxed, and each offset that
is an instruction or the end is the offset of that. -/
theorem Code.exists_encode_of_decode {code : Bytes} {decoded : DecodedCode}
    (h : decode code = .ok decoded) :
    ∃ encoded, encode decoded.instructions = .ok encoded ∧ encoded.code = code.toList ∧
      encoded.relaxed = 0 ∧ ∀ offset found, decoded.slotAt offset = .ok found →
        encoded.offsetOf found = .ok offset := by
  obtain ⟨-, raws, instructions, hwritten, hresolved, rfl⟩ := decode_eq_ok_iff.mp h
  have hresolved : Resolved code.toList raws instructions := ⟨hwritten, hresolved⟩
  obtain ⟨parts, hparts, hflatten⟩ := hresolved.exists_partsOf
  exact ⟨encodedOf (.ofInstructions instructions.toArray) parts,
    encode_eq_ok_iff.mpr ⟨hresolved.unplacedTarget?_eq, parts, hparts, rfl⟩, hflatten,
    hresolved.relaxed_eq_zero parts, fun _ _ hfound => hresolved.offsetOf_eq hflatten hfound⟩

end CilPatch
