import CilPatch.Patch.Splice
import CilPatch.Proofs.Instruction
import CilPatch.Proofs.Step

/-!
# Redirection

A splice first turns every jump to the continuation into a jump to the first instruction of the
fragment. It does so in one pass over the placed instructions; here is what the pass does to each
instruction, and which positions it reports.
-/

namespace CilPatch

namespace InstrList

/-- An instruction is retargeted in its slot, also in one that was never given out. -/
theorem get_modify_retarget (list : InstrList) (slot source destination : Slot) :
    (list.modify slot (·.retarget source destination)).get slot =
      (list.get slot).retarget source destination := by
  rw [get, get, get?_modify_self]
  cases list.get? slot <;> rfl

/-- Changing an instruction leaves those of the other slots alone. -/
theorem get_modify_of_ne (list : InstrList) {slot other : Slot}
    (change : Instruction → Instruction) (h : other ≠ slot) :
    (list.modify slot change).get other = list.get other := by
  rw [get, get, get?_modify_of_ne list change h]

end InstrList

namespace Splice

variable (fragment : Fragment) (source destination : Slot)

/-- One step of the pass: a placed instruction that is not one of the fragment is redirected, and
its position is noted if it has a jump to redirect. -/
def redirectEntry (state : InstrList × Array Nat) (entry : Slot × Nat) : InstrList × Array Nat :=
  if fragment.instructions.contains entry.1 then state
  else if (state.1.get entry.1).targets.contains source then
    (state.1.modify entry.1 (·.retarget source destination), state.2.push entry.2)
  else state

/-- The pass goes over the placed slots with their positions. -/
theorem redirect_eq_foldl (list : InstrList) :
    redirect list fragment source destination =
      list.order.toList.zipIdx.foldl (redirectEntry fragment source destination) (list, #[]) := rfl

/-- A step of the pass moves nothing and gives no slot out. -/
theorem shape_redirectEntry (state : InstrList × Array Nat) (entry : Slot × Nat) :
    (redirectEntry fragment source destination state entry).1.order = state.1.order ∧
      (redirectEntry fragment source destination state entry).1.arena.size =
        state.1.arena.size := by
  unfold redirectEntry
  split
  · exact ⟨rfl, rfl⟩
  · split
    · exact ⟨rfl, by simp [InstrList.modify]⟩
    · exact ⟨rfl, rfl⟩

/-- The instruction of the entry is redirected by a step unless it is one of the fragment. -/
theorem get_redirectEntry_self (state : InstrList × Array Nat) (entry : Slot × Nat) :
    (redirectEntry fragment source destination state entry).1.get entry.1 =
      if entry.1 ∈ fragment.instructions then state.1.get entry.1
      else (state.1.get entry.1).retarget source destination := by
  unfold redirectEntry
  by_cases hmember : entry.1 ∈ fragment.instructions
  · simp [hmember]
  · by_cases htarget : source ∈ (state.1.get entry.1).targets
    · simp only [hmember, htarget, Array.contains_eq_mem, List.contains_iff_mem, if_false,
        if_true]
      exact InstrList.get_modify_retarget ..
    · simp [hmember, htarget, Instruction.retarget_of_not_mem htarget]

/-- The other instructions stay in a step. -/
theorem get_redirectEntry_of_ne (state : InstrList × Array Nat) (entry : Slot × Nat)
    {slot : Slot} (h : slot ≠ entry.1) :
    (redirectEntry fragment source destination state entry).1.get slot = state.1.get slot := by
  unfold redirectEntry
  split
  · rfl
  · split
    · exact InstrList.get_modify_of_ne _ _ h
    · rfl

/-- Whether a step of the pass notes the position of an entry. -/
def isRedirected (list : InstrList) (entry : Slot × Nat) : Bool :=
  !fragment.instructions.contains entry.1 && (list.get entry.1).targets.contains source

/-- The positions that a step notes. -/
theorem found_redirectEntry (state : InstrList × Array Nat) (entry : Slot × Nat) :
    (redirectEntry fragment source destination state entry).2.toList =
      state.2.toList ++
        if isRedirected fragment source state.1 entry then [entry.2] else [] := by
  unfold redirectEntry isRedirected
  by_cases hmember : entry.1 ∈ fragment.instructions <;>
    by_cases htarget : source ∈ (state.1.get entry.1).targets <;> simp [hmember, htarget]

section Pass

variable {fragment source destination} {entries : List (Slot × Nat)} {state : InstrList × Array Nat}

/-- The pass moves nothing and gives no slot out. -/
theorem shape_foldl_redirectEntry :
    (entries.foldl (redirectEntry fragment source destination) state).1.order = state.1.order ∧
      (entries.foldl (redirectEntry fragment source destination) state).1.arena.size =
        state.1.arena.size := by
  induction entries generalizing state with
  | nil => exact ⟨rfl, rfl⟩
  | cons entry rest ih =>
    have hstep := shape_redirectEntry fragment source destination state entry
    rw [List.foldl_cons, ih.1, ih.2]
    exact hstep

/-- The pass leaves the instructions alone that it does not come to. -/
theorem get_foldl_redirectEntry_of_not_mem {slot : Slot} (h : slot ∉ entries.map (·.1)) :
    (entries.foldl (redirectEntry fragment source destination) state).1.get slot =
      state.1.get slot := by
  induction entries generalizing state with
  | nil => rfl
  | cons entry rest ih =>
    simp only [List.map_cons, List.mem_cons, not_or] at h
    rw [List.foldl_cons, ih h.2,
      get_redirectEntry_of_ne fragment source destination state entry h.1]

/-- The pass redirects each instruction it comes to unless it is one of the fragment. -/
theorem get_foldl_redirectEntry_of_mem (hnodup : (entries.map (·.1)).Nodup) {slot : Slot}
    (h : slot ∈ entries.map (·.1)) :
    (entries.foldl (redirectEntry fragment source destination) state).1.get slot =
      if slot ∈ fragment.instructions then state.1.get slot
      else (state.1.get slot).retarget source destination := by
  induction entries generalizing state with
  | nil => simp at h
  | cons entry rest ih =>
    simp only [List.map_cons, List.nodup_cons] at hnodup
    rw [List.foldl_cons]
    rcases List.mem_cons.mp h with rfl | hrest
    · rw [get_foldl_redirectEntry_of_not_mem hnodup.1, get_redirectEntry_self]
    · have hne : slot ≠ entry.1 := fun heq => hnodup.1 (heq ▸ hrest)
      rw [ih hnodup.2 hrest,
        get_redirectEntry_of_ne fragment source destination state entry hne]

/-- The pass notes the positions of the entries that have a jump to redirect, in order. -/
theorem found_foldl_redirectEntry (hnodup : (entries.map (·.1)).Nodup) :
    (entries.foldl (redirectEntry fragment source destination) state).2.toList =
      state.2.toList ++ (entries.filter (isRedirected fragment source state.1)).map (·.2) := by
  induction entries generalizing state with
  | nil => simp
  | cons entry rest ih =>
    simp only [List.map_cons, List.nodup_cons] at hnodup
    have hrest : rest.filter (isRedirected fragment source
        (redirectEntry fragment source destination state entry).1) =
        rest.filter (isRedirected fragment source state.1) := by
      apply List.filter_congr
      intro other hother
      have hne : other.1 ≠ entry.1 := by
        intro heq
        exact hnodup.1 (heq ▸ List.mem_map_of_mem hother)
      rw [isRedirected, get_redirectEntry_of_ne fragment source destination state entry hne,
        isRedirected]
    rw [List.foldl_cons, ih hnodup.2, hrest, found_redirectEntry, List.append_assoc]
    congr 1
    by_cases hentry : isRedirected fragment source state.1 entry <;> simp [hentry]

end Pass

section Redirect

variable {fragment source destination} {list : InstrList}

/-- Redirecting moves nothing. -/
theorem order_redirect : (redirect list fragment source destination).1.order = list.order :=
  shape_foldl_redirectEntry.1

/-- Redirecting gives no slot out. -/
theorem size_redirect :
    (redirect list fragment source destination).1.arena.size = list.arena.size :=
  shape_foldl_redirectEntry.2

/-- Redirecting leaves what is not placed alone. -/
theorem get_redirect_of_not_mem {slot : Slot} (h : slot ∉ list.order) :
    (redirect list fragment source destination).1.get slot = list.get slot := by
  rw [redirect_eq_foldl, get_foldl_redirectEntry_of_not_mem]
  simpa [List.zipIdx_map_fst] using h

/-- Redirecting moves the targets of each placed instruction that is not one of the fragment. -/
theorem get_redirect_of_mem (hnodup : list.order.toList.Nodup) {slot : Slot}
    (h : slot ∈ list.order) (hfragment : slot ∉ fragment.instructions) :
    (redirect list fragment source destination).1.get slot =
      (list.get slot).mapTargets (Slot.moved source destination) := by
  rw [redirect_eq_foldl, get_foldl_redirectEntry_of_mem, if_neg hfragment,
    Instruction.retarget_eq_mapTargets]
  · simpa [List.zipIdx_map_fst] using hnodup
  · simpa [List.zipIdx_map_fst] using h

/-- The noted positions are those of the placed instructions, other than those of the fragment,
that had a jump to redirect. -/
theorem found_redirect (hnodup : list.order.toList.Nodup) :
    (redirect list fragment source destination).2.toList =
      (list.order.toList.zipIdx.filter (isRedirected fragment source list)).map (·.2) := by
  rw [redirect_eq_foldl, found_foldl_redirectEntry]
  · rfl
  · simpa [List.zipIdx_map_fst] using hnodup

end Redirect

end Splice

end CilPatch
