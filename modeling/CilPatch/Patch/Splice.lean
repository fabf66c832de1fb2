import CilPatch.Bytes.Align
import CilPatch.Patch.Fragment

/-!
# Splicing

A fragment is put in front of its continuation. Every jump and every region boundary that named
the continuation then names the first instruction of the fragment, so whatever led to the
continuation now runs the fragment first; the jumps of the fragment itself stay.
-/

namespace CilPatch

/-- What a splice did. -/
structure SpliceReport where
  /-- Where the fragment starts. -/
  index : Nat
  /-- How many instructions were put in. -/
  inserted : Nat
  /-- The positions of instructions whose jumps were redirected. -/
  retargeted : List Nat
  /-- How many region boundaries were moved. -/
  regions : Nat
  /-- How many local variables were added. -/
  locals : Nat
  deriving DecidableEq

/-- A step that edits a body and keeps its effects when it fails. -/
abbrev Edit (α : Type) := ExceptT Fault (StateM Body) α

namespace Splice

/-- Whether an instruction of a fragment returns from the method. -/
def returns (body : Body) (fragment : Fragment) : Bool :=
  fragment.instructions.any fun slot => (body.instructions.get slot).opcode.flow == .ret

/-- Turns the jumps of placed instructions to one slot into jumps to another, except in the
instructions of a fragment, and lists the positions where there were any. -/
def redirect (list : InstrList) (fragment : Fragment) (source destination : Slot) :
    InstrList × Array Nat :=
  list.order.toList.zipIdx.foldl (fun (list, found) (slot, position) =>
    if fragment.instructions.contains slot then (list, found)
    else if (list.get slot).targets.contains source then
      (list.modify slot (·.retarget source destination), found.push position)
    else (list, found)) (list, #[])

/-- Adds local variables one after another, as long as there is room. -/
def addLocals (slots : List LocalSlot) : Edit Unit := do
  let body ← get
  let room := Body.localLimit - body.localCount
  set { body with added := body.added ++ slots.take room }
  if room < slots.length then throw (.output .localTableFull)

/-- A single variable is added, or the body stays as it is. -/
theorem addLocals_singleton (slot : LocalSlot) (body : Body) :
    addLocals [slot] body =
      match body.addLocal slot with
      | .ok body => (.ok (), body)
      | .error fault => (.error fault, body) := by
  have hrun (slots : List LocalSlot) : addLocals slots body =
      (if Body.localLimit - body.localCount < slots.length then
          .error (.output .localTableFull) else .ok (),
        { body with
          added := body.added ++ slots.take (Body.localLimit - body.localCount) }) := by
    unfold addLocals
    show (if _ then _ else _ : Edit Unit) _ = _
    split <;> rfl
  rw [hrun, Body.addLocal]
  by_cases h : body.localCount < Body.localLimit
  · have hroom : ¬Body.localLimit - body.localCount < 1 := by omega
    have htake : [slot].take (Body.localLimit - body.localCount) = [slot] :=
      List.take_of_length_le (by simp; omega)
    simp [h, hroom, htake]
  · have hroom : Body.localLimit - body.localCount = 0 := by omega
    simp [h, hroom]

/-- Checks that a fragment can be put at a position, and yields the instruction there and the
first one of the fragment. -/
def check (body : Body) (index : Nat) (fragment : Fragment) : Except Fault (Slot × Slot) := do
  match body.instructions.slotAt? index with
  | none => throw (.branch (.spliceIndex index body.instructions.length))
  | some anchor =>
      if anchor != fragment.continuation then
        throw (.branch (.wrongAnchor fragment.continuation anchor index))
      match fragment.entry? with
      | none => throw (.branch .emptyFragment)
      | some entry =>
          if body.isProtected index && returns body fragment then
            throw (.instruction (.returnsFromClause index))
          if body.localCount != fragment.firstLocal then
            throw (.output (.localNumbering fragment.firstLocal body.localCount))
          return (anchor, entry)

end Splice

/-- Puts a fragment in front of the instruction at a position. -/
def splice (index : Nat) (fragment : Fragment) : Edit SpliceReport := do
  let body ← get
  match Splice.check body index fragment with
  | .error fault => throw fault
  | .ok (anchor, entry) =>
      let (list, found) := Splice.redirect body.instructions fragment anchor entry
      let regions := (body.regions.flatMap Region.boundaries).count anchor
      set { body with
        instructions := list
        regions := body.regions.map (Region.retarget · anchor entry) }
      Splice.addLocals fragment.locals
      modify fun body => { body with
        instructions := body.instructions.insert index fragment.instructions
        maxStack := min (body.maxStack + fragment.maxStack) (wordRange - 1) }
      return {
        index
        inserted := fragment.instructions.size
        retargeted := found.toList.map fun position =>
          if position < index then position else position + fragment.instructions.size
        regions
        locals := fragment.locals.length }

end CilPatch
