import CilPatch.Proofs.Code.Layout
import CilPatch.Proofs.Instruction

/-!
# Resolving jumps

Decoding replaces the offsets that jumps lead to by the instructions that start there. Since no two
instructions start at one offset, this undoes what laying out does to the targets of jumps.
-/

namespace CilPatch

namespace WrittenCode

variable {start : Nat} {raws : List RawInstruction} {code : List UInt8}

/-- Stored instructions start within the code. -/
theorem offset_lt (h : WrittenCode start raws code) {raw : RawInstruction} (hraw : raw ∈ raws) :
    start ≤ raw.offset ∧ raw.offset < start + code.length := by
  induction h with
  | nil => cases hraw
  | @cons start opcode operand rest bytes code hvalid hoperand hrest ih =>
    have hpos := opcode.length_bytes_pos
    simp only [List.length_append]
    rcases List.mem_cons.mp hraw with rfl | hmem
    · simp only
      omega
    · obtain ⟨hlow, hhigh⟩ := ih hmem
      rw [Opcode.size] at hlow hhigh
      omega

/-- No two stored instructions start at one offset. -/
theorem distinct (h : WrittenCode start raws code) : (raws.map RawInstruction.offset).Nodup := by
  induction h with
  | nil => exact List.nodup_nil
  | @cons start opcode operand rest bytes code hvalid hoperand hrest ih =>
    have hpos := opcode.length_bytes_pos
    rw [List.map_cons, List.nodup_cons]
    refine ⟨?_, ih⟩
    intro hmem
    obtain ⟨raw, hraw, hoffset⟩ := List.mem_map.mp hmem
    have hlow := (hrest.offset_lt hraw).1
    rw [Opcode.size] at hlow
    simp only at hoffset
    omega

end WrittenCode

/-- A stored operand without jumps names no instructions. -/
theorem Written.isJump_eq_false {kind : OperandKind} {stop : Nat} {operand : Operand}
    {bytes : List UInt8} (h : Written kind stop (.ready operand) bytes) :
    operand.isJump = false := by
  generalize hraw : RawOperand.ready operand = raw at h
  cases h with
  | switch => cases hraw
  | word =>
    cases kind <;> cases hraw <;> rfl

namespace Code

/-- The instruction that starts at an offset is found, and nothing else is. -/
theorem startsOf_eq_some_iff {raws : Array RawInstruction}
    (hdistinct : (raws.toList.map RawInstruction.offset).Nodup) {offset : Nat} {slot : Slot} :
    (startsOf raws)[offset]? = some slot ↔
      (raws.toList.map RawInstruction.offset)[slot.index]? = some offset := by
  have hkeys : ((raws.toList.zipIdx.map fun entry =>
      (entry.1.offset, Slot.mk entry.2)).map Prod.fst) =
        raws.toList.map RawInstruction.offset := by
    rw [List.map_map]
    conv => rhs; rw [← List.zipIdx_map_fst 0 raws.toList, List.map_map]
    rfl
  change (Std.HashMap.ofList (raws.toList.zipIdx.map fun entry =>
    (entry.1.offset, Slot.mk entry.2)))[offset]? = some slot ↔ _
  rw [getElem?_ofList_eq_some_iff (by rw [hkeys]; exact hdistinct), List.mem_map,
    List.getElem?_map, Option.map_eq_some_iff]
  constructor
  · rintro ⟨⟨raw, index⟩, hmem, hentry⟩
    obtain ⟨rfl, rfl⟩ := Prod.mk.inj hentry
    exact ⟨raw, List.mk_mem_zipIdx_iff_getElem?.mp hmem, rfl⟩
  · rintro ⟨raw, hraw, rfl⟩
    exact ⟨(raw, slot.index), List.mk_mem_zipIdx_iff_getElem?.mpr hraw, rfl⟩

/-- A target is resolved to the instruction that starts there. -/
theorem resolve_eq_ok_iff {starts : Std.HashMap Nat Slot} {target : Int} {slot : Slot} :
    resolve starts target = .ok slot ↔
      ∃ offset : Nat, target = offset ∧ starts[offset]? = some slot := by
  constructor
  · intro h
    rw [resolve] at h
    by_cases hnegative : target < 0
    · rw [if_pos hnegative] at h
      cases h
    · rw [if_neg hnegative] at h
      cases hfound : starts[target.toNat]? with
      | none =>
        rw [hfound] at h
        cases h
      | some found =>
        rw [hfound] at h
        obtain rfl := Except.ok.inj h
        exact ⟨target.toNat, by omega, hfound⟩
  · rintro ⟨offset, rfl, hfound⟩
    have hnegative : ¬(offset : Int) < 0 := by omega
    rw [resolve, if_neg hnegative, Int.toNat_natCast, hfound]

variable {offsetOf : Slot → Option Nat} {starts : Std.HashMap Nat Slot}

/-- The instructions that stored ones stand for, with their jumps resolved. -/
def resolveAll (starts : Std.HashMap Nat Slot) (raws : List RawInstruction) :
    Except Fault (List Instruction) :=
  raws.mapM fun raw => do
    let operand ← RawOperand.resolve starts raw.operand
    return ⟨raw.opcode, operand⟩

/-- The targets of a switch are resolved one by one to what stands at their starts. -/
theorem mapM_resolve_of_starts {rename : Slot → Slot} {slots : List Slot} {targets : List Nat}
    (hresolve : ∀ slot target, offsetOf slot = some target →
      resolve starts target = .ok (rename slot))
    (htargets : slots.map offsetOf = targets.map some) :
    (targets.map Int.ofNat).mapM (resolve starts) = .ok (slots.map rename) := by
  induction slots generalizing targets with
  | nil =>
    obtain rfl := List.map_eq_nil_iff.mp htargets.symm
    rfl
  | cons slot rest ih =>
    cases targets with
    | nil => cases htargets
    | cons target targets =>
      obtain ⟨htarget, hrest⟩ := List.cons.inj htargets
      rw [List.map_cons, List.map_cons]
      exact mapM_cons_eq_ok_iff.mpr ⟨_, _, hresolve _ _ htarget, ih hrest, rfl⟩

/-- The targets of a switch that are resolved are the starts of what they are resolved to. -/
theorem exists_of_mapM_resolve {targets : List Int} {slots : List Slot}
    (hresolve : ∀ target slot, resolve starts target = .ok slot →
      ∃ offset : Nat, target = offset ∧ offsetOf slot = some offset)
    (h : targets.mapM (resolve starts) = .ok slots) :
    ∃ offsets : List Nat, targets = offsets.map Int.ofNat ∧
      slots.map offsetOf = offsets.map some := by
  induction targets generalizing slots with
  | nil =>
    obtain rfl := Except.ok.inj h
    exact ⟨[], rfl, rfl⟩
  | cons target rest ih =>
    obtain ⟨slot, others, hslot, hothers, rfl⟩ := mapM_cons_eq_ok_iff.mp h
    obtain ⟨offset, rfl, hoffset⟩ := hresolve _ _ hslot
    obtain ⟨offsets, rfl, hoffsets⟩ := ih hothers
    exact ⟨offset :: offsets, rfl, by rw [List.map_cons, List.map_cons, hoffset, hoffsets]⟩

/-- Where targets are resolved to what stands at their starts, a located operand is resolved to
the operand with that in place of its targets. -/
theorem resolve_of_located {rename : Slot → Slot} {operand : Operand} {raw : RawOperand}
    (hresolve : ∀ slot target, offsetOf slot = some target →
      resolve starts target = .ok (rename slot))
    (h : Located offsetOf operand raw) :
    RawOperand.resolve starts raw = .ok (operand.mapTargets rename) := by
  cases h with
  | ready hready => cases operand <;> first | rfl | cases hready
  | jump htarget =>
    rw [RawOperand.resolve, hresolve _ _ htarget]
    rfl
  | @jumps slots targets htargets =>
    rw [RawOperand.resolve, mapM_resolve_of_starts hresolve htargets]
    rfl

/-- Where targets are resolved to what starts there, a stored operand is resolved to one that is
located as it says. -/
theorem located_of_resolve {kind : OperandKind} {stop : Nat} {operand : Operand}
    {raw : RawOperand} {bytes : List UInt8}
    (hresolve : ∀ target slot, resolve starts target = .ok slot →
      ∃ offset : Nat, target = offset ∧ offsetOf slot = some offset)
    (hwritten : Written kind stop raw bytes) (h : RawOperand.resolve starts raw = .ok operand) :
    Located offsetOf operand raw := by
  cases raw with
  | ready stored =>
    obtain rfl := Except.ok.inj h
    exact .ready hwritten.isJump_eq_false
  | jump target =>
    obtain ⟨slot, hslot, rfl⟩ := map_eq_ok_iff.mp h
    obtain ⟨offset, rfl, hoffset⟩ := hresolve _ _ hslot
    exact .jump hoffset
  | jumps targets =>
    obtain ⟨slots, hslots, rfl⟩ := map_eq_ok_iff.mp h
    obtain ⟨offsets, rfl, hoffsets⟩ := exists_of_mapM_resolve hresolve hslots
    exact .jumps hoffsets

/-- Stored instructions are resolved to those that are laid out, with what stands at the starts of
their targets in place of the targets. -/
theorem resolve_of_lays {rename : Slot → Slot} {start : Nat} {placements : List Placement}
    {raws : List RawInstruction}
    (hresolve : ∀ slot target, offsetOf slot = some target →
      resolve starts target = .ok (rename slot))
    (h : Lays offsetOf start placements raws) :
    resolveAll starts raws = .ok (placements.map fun placement =>
      ⟨placement.form, placement.operand.mapTargets rename⟩) := by
  induction h with
  | nil => rfl
  | cons hlocated _ ih =>
    refine mapM_cons_eq_ok_iff.mpr ⟨_, _, ?_, ih, rfl⟩
    exact bind_eq_ok_iff.mpr ⟨_, resolve_of_located hresolve hlocated, rfl⟩

/-- Stored instructions are laid out as those that they are resolved to. -/
theorem lays_of_resolve {start : Nat} {raws : List RawInstruction} {code : List UInt8}
    {instructions : List Instruction}
    (hresolve : ∀ target slot, resolve starts target = .ok slot →
      ∃ offset : Nat, target = offset ∧ offsetOf slot = some offset)
    (hwritten : WrittenCode start raws code)
    (h : resolveAll starts raws = .ok instructions) :
    Lays offsetOf start (instructions.map Placement.of) raws := by
  induction hwritten generalizing instructions with
  | nil =>
    obtain rfl := Except.ok.inj h
    exact .nil
  | @cons start opcode raw rest bytes code hvalid hoperand hrest ih =>
    obtain ⟨instruction, others, hinstruction, hothers, rfl⟩ := mapM_cons_eq_ok_iff.mp h
    obtain ⟨operand, hresolved, hsame⟩ := bind_eq_ok_iff.mp hinstruction
    obtain rfl := Except.ok.inj hsame
    have hlocated := located_of_resolve hresolve hoperand hresolved
    have hlays := ih hothers
    have hsize : (⟨opcode, operand⟩ : Placement).size = opcode.size + bytes.length :=
      size_of_written hlocated hoperand
    rw [Nat.add_assoc, ← hsize] at hlays
    exact .cons hlocated hlays

end Code

end CilPatch
