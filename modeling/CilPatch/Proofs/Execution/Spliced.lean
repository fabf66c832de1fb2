import CilPatch.Proofs.Execution.Machine
import CilPatch.Proofs.Patch.Coverage
import CilPatch.Proofs.Patch.Landing
import CilPatch.Proofs.Patch.Numbering
import CilPatch.Proofs.Patch.Refusal

/-!
# Execution of fragments

Where the code of a fragment stands once it is spliced: from the index on, in the order in which it
was emitted. A label is at the instruction that it was bound to, and the continuation, which is no
instruction of the fragment, stands behind the last one.
-/

namespace CilPatch

namespace InstrList

variable {list : InstrList} {slot : Slot} {position : Nat}

/-- A slot is found where it stands for the first time. -/
theorem position?_eq_some_of_first (h : list.slotAt? position = some slot)
    (hfirst : ∀ earlier < position, list.slotAt? earlier ≠ some slot) :
    list.position? slot = some position := by
  have hlist : list.position? slot = list.order.toList.idxOf? slot := by
    rw [position?, ← List.idxOf?_toArray, Array.toArray_toList]
  rw [hlist, List.idxOf?_eq_some_iff]
  rw [slotAt?, ← Array.getElem?_toList, List.getElem?_eq_some_iff] at h
  obtain ⟨hlt, hslot⟩ := h
  refine ⟨hlt, hslot, fun earlier hearlier heq => hfirst earlier hearlier ?_⟩
  rw [slotAt?, ← Array.getElem?_toList, List.getElem?_eq_some_iff]
  exact ⟨by omega, heq⟩

/-- A slot that is placed stands where it is found. -/
theorem slotAt?_of_position? (h : list.position? slot = some position) :
    list.slotAt? position = some slot := by
  have hlist : list.position? slot = list.order.toList.idxOf? slot := by
    rw [position?, ← List.idxOf?_toArray, Array.toArray_toList]
  rw [hlist, List.idxOf?_eq_some_iff] at h
  obtain ⟨hlt, hslot, -⟩ := h
  rw [slotAt?, ← Array.getElem?_toList, List.getElem?_eq_some_iff]
  exact ⟨hlt, hslot⟩

end InstrList

namespace Builder

variable {builder after : Builder} {start : Body} {past : List Followed} {fragment : Fragment}

/-- Calls that are accepted lead to the builder after them. -/
theorem after_of_forM {calls : List Call}
    (h : (forM calls Call.step : Build Unit).run builder = (.ok (), after)) :
    builder.after calls = after := by
  induction calls generalizing builder with
  | nil => exact congrArg Prod.snd h
  | cons call rest ih =>
    rw [List.forM_cons, step_bind] at h
    rcases hstep : call.step.run builder with ⟨⟨⟩ | ⟨⟩, next⟩
    · rw [hstep] at h
      cases h
    · rw [hstep] at h
      rw [after_cons, hstep]
      exact ih h

/-- What was emitted at a position stands there in the finished fragment. -/
theorem Follows.exists_slot (h : builder.Follows start past) (hfinish : builder.Finishes fragment)
    {position : Nat} {emitted : Emitted}
    (hcode : (past.map Followed.emitted)[position]? = some emitted) :
    ∃ slot, fragment.instructions[position]? = some slot ∧
      builder.body.instructions.get slot = emitted.instruction := by
  obtain ⟨followed, hfollowed, rfl⟩ := Followed.exists_of_code hcode
  refine ⟨followed.slot, ?_, h.spelled followed (List.mem_of_getElem? hfollowed)⟩
  rw [h.slot_getElem? hfinish, hfollowed, Option.map_some]

/-- Whatever a call does, the fragment goes in front of the same instruction. -/
theorem continuation_step (builder : Builder) (call : Call) :
    (call.step.run builder).2.continuation = builder.continuation := by
  have houtcome := call.outcome builder
  generalize (call.step.run builder).1 = result at houtcome
  generalize (call.step.run builder).2 = after at houtcome ⊢
  cases houtcome with
  | @jumped opcode label =>
    rw [Builder.jumped, Builder.behind]
    split <;> rfl
  | refused | declared | reserved | bound | emitted | stranded => rfl

/-- Whatever the calls are, the fragment goes in front of the same instruction. -/
theorem continuation_after (builder : Builder) (calls : List Call) :
    (builder.after calls).continuation = builder.continuation := by
  induction calls generalizing builder with
  | nil => rfl
  | cons call rest ih =>
    rw [after_cons, ih]
    exact builder.continuation_step call

/-- What a call emits comes last. -/
theorem emitted_step (builder : Builder) {call : Call} {emitted : Emitted}
    (hemits : call.emits? = some emitted) (haccepted : (call.step.run builder).1 = .ok ()) :
    (call.step.run builder).2.emitted = builder.emitted.push builder.nextSlot := by
  have houtcome := call.outcome builder
  rw [haccepted] at houtcome
  generalize (call.step.run builder).2 = after at houtcome ⊢
  cases houtcome with
  | declared | reserved | bound => cases hemits
  | emitted => rfl
  | @jumped opcode label =>
    rw [Builder.jumped, Builder.behind]
    split <;> rfl

/-- A label is at the instruction that is emitted next. -/
theorem emitted_of_bind {continuation : Slot} {front back : List Call} {label : Label}
    {call : Call} {emitted : Emitted} (hemits : call.emits? = some emitted)
    (hrun : (forM (front ++ .bind label :: call :: back) Call.step : Build Unit).run
      (Builder.start start continuation) = (.ok (), after)) :
    after.emitted.toList[(Call.code front).length]? = some label.slot := by
  rw [List.forM_append, run_bind_eq_ok_iff] at hrun
  obtain ⟨⟨⟩, before, hfront, hrun⟩ := hrun
  rw [List.forM_cons, run_bind_eq_ok_iff] at hrun
  obtain ⟨⟨⟩, waiting, hbind, hrun⟩ := hrun
  rw [List.forM_cons, run_bind_eq_ok_iff] at hrun
  obtain ⟨⟨⟩, next, hcall, hback⟩ := hrun
  obtain ⟨hfollows, -⟩ := follows_run hfront (follows_start start continuation) (by simp [Lands])
  have hsize : before.emitted.toList.length = (Call.code front).length := by
    rw [← hfollows.slots, List.nil_append, List.length_map, ← map_emitted_follow, List.length_map]
  -- binding makes the label wait, and the call emits its instruction there
  have hwaiting : before.CanBind label.slot ∧ waiting = before.bound label.slot := by
    rcases Build.run_bind before label with ⟨fault, hother⟩ | ⟨hcan, hother⟩
    · cases hbind.symm.trans hother
    · exact ⟨hcan, congrArg Prod.snd (hbind.symm.trans hother)⟩
  obtain ⟨hcan, rfl⟩ := hwaiting
  have hplaced : next.emitted.toList = before.emitted.toList ++ [label.slot] := by
    have hpushed := emitted_step (before.bound label.slot) hemits (congrArg Prod.fst hcall)
    rw [hcall] at hpushed
    rw [hpushed, Array.toList_push]
    rfl
  have hnext : next.Owns start := by
    have hstep := (hfollows.owns.bound hcan).step call
    rwa [hcall] at hstep
  obtain ⟨rest, hrest⟩ := (hnext.extends_after back).emitted
  rw [after_of_forM hback] at hrest
  rw [← hrest, hplaced, List.append_assoc, List.getElem?_append_right (by omega), hsize]
  simp

end Builder

/-- A body into which a fragment was spliced that some calls have built. -/
structure Spliced (body : Body) (gate : Slot) (calls : List Call) (index : Nat)
    (report : SpliceReport) (after : Body) : Prop where
  backed : body.instructions.isBacked = true
  exists_fragment : ∃ builder fragment,
    (forM calls Call.step : Build Unit).run (Builder.start body gate) = (.ok (), builder) ∧
      builder.finish = .ok fragment ∧
      (splice index fragment).run builder.body = (.ok report, after)

namespace Spliced

variable {body after : Body} {gate : Slot} {calls : List Call} {index : Nat}
  {report : SpliceReport}

/-- What holds of the fragment and of its builder. -/
theorem exists_ready (h : Spliced body gate calls index report after) :
    ∃ builder fragment entry, (forM calls Call.step : Build Unit).run (Builder.start body gate) =
        (.ok (), builder) ∧
      builder.Follows body ((Builder.start body gate).follow calls) ∧
      builder.Finishes fragment ∧ fragment.Ready builder.body ∧ fragment.continuation = gate ∧
      builder.body.instructions.slotAt? index = some fragment.continuation ∧
      report = Splice.reportOf builder.body index fragment entry ∧
      after = Splice.spliced builder.body index fragment entry := by
  obtain ⟨builder, fragment, hrun, hfinish, hsplice⟩ := h.exists_fragment
  obtain ⟨hfollows, -⟩ := Builder.follows_run hrun (Builder.follows_start body gate)
    (by simp [Builder.Lands])
  obtain ⟨entry, hfits, hreport, hafter⟩ := Splice.eq_spliced_of_ok hsplice
  have hfinishes := Builder.finishes_of_finish hfinish
  have hready := (Workbench.Arises.start.sound h.backed).ready_of_finish hfollows.owns hfinish
  have hgate : builder.continuation = gate := by
    rw [← Builder.after_of_forM hrun]
    exact Builder.continuation_after _ calls
  exact ⟨builder, fragment, entry, hrun, hfollows, hfinishes, hready,
    hfinishes.continuation.trans hgate, hfits.anchor, hreport, hafter⟩

/-- The splice is reported at its index. -/
theorem index_eq (h : Spliced body gate calls index report after) : report.index = index := by
  obtain ⟨builder, fragment, entry, -, -, -, -, -, -, rfl, -⟩ := h.exists_ready
  rfl

/-- The calls stand for the code from the index on. -/
theorem instructionAt? (h : Spliced body gate calls index report after) {offset : Nat}
    {emitted : Emitted} (hcode : (Call.code calls)[offset]? = some emitted) :
    after.instructions.instructionAt? (index + offset) = some emitted.instruction := by
  obtain ⟨builder, fragment, entry, -, hfollows, hfinishes, hready, -, hanchor, -, rfl⟩ :=
    h.exists_ready
  rw [← Builder.map_emitted_follow] at hcode
  obtain ⟨slot, hslot, hget⟩ := hfollows.exists_slot hfinishes hcode
  rw [InstrList.instructionAt?, Splice.slotAt?_inside hanchor hslot, Option.map_some,
    Splice.get_spliced_of_ready hready (Array.mem_of_getElem? hslot), hget]

/-- The continuation is no instruction of the fragment. -/
theorem slotAt?_ne (h : Spliced body gate calls index report after) {offset : Nat}
    (hoffset : offset < (Call.code calls).length) :
    after.instructions.slotAt? (index + offset) ≠ some gate := by
  obtain ⟨builder, fragment, entry, -, hfollows, hfinishes, hready, rfl, hanchor, -, rfl⟩ :=
    h.exists_ready
  have hlt : offset < fragment.instructions.size := by
    rwa [hfinishes.instructions, ← Array.length_toList, ← hfollows.slots, List.length_map,
      ← List.length_map, Builder.map_emitted_follow]
  have hslot := Array.getElem?_eq_getElem hlt
  rw [Splice.slotAt?_inside hanchor hslot, ← hslot]
  intro hsame
  exact hready.unplaced _ (Array.mem_of_getElem? hsame) (Array.mem_of_getElem? hanchor)

/-- The continuation stands behind the code. -/
theorem slotAt?_behind (h : Spliced body gate calls index report after) :
    after.instructions.slotAt? (index + (Call.code calls).length) = some gate := by
  obtain ⟨builder, fragment, entry, -, hfollows, hfinishes, -, rfl, hanchor, -, rfl⟩ :=
    h.exists_ready
  have hsize : fragment.instructions.size = (Call.code calls).length := by
    rw [hfinishes.instructions, ← Array.length_toList, ← hfollows.slots,
      ← Builder.map_emitted_follow, List.length_map, List.length_map]
  have hmoved : (Splice.spliced builder.body index fragment entry).instructions.slotAt?
      (if index < index then index else index + fragment.instructions.size) =
        some fragment.continuation := Splice.slotAt?_spliced hanchor hanchor
  rwa [if_neg (Nat.lt_irrefl _), hsize] at hmoved

/-- The continuation is found where it stands. -/
theorem exists_position?_gate (h : Spliced body gate calls index report after) :
    ∃ position, after.instructions.position? gate = some position ∧
      after.instructions.slotAt? position = some gate := by
  have hmem : gate ∈ after.instructions.order := Array.mem_of_getElem? h.slotAt?_behind
  obtain ⟨position, hposition⟩ :=
    Option.isSome_iff_exists.mp (InstrList.position?_isSome_iff.mpr hmem)
  exact ⟨position, hposition, InstrList.slotAt?_of_position? hposition⟩

/-- A label is found at the instruction that it was bound to. -/
theorem position?_label (h : Spliced body gate calls index report after) {position : Nat}
    {label : Label} {call : Call} {emitted : Emitted}
    (hbind : calls[position]? = some (.bind label)) (hcall : calls[position + 1]? = some call)
    (hemits : call.emits? = some emitted) : after.instructions.position? label.slot =
      some (index + (Call.code (calls.take position)).length) := by
  obtain ⟨front, back, hcalls, hfront⟩ : ∃ front back,
      calls = front ++ .bind label :: call :: back ∧ front = calls.take position := by
    obtain ⟨hless, hbind⟩ := List.getElem?_eq_some_iff.mp hbind
    obtain ⟨hlast, hcall⟩ := List.getElem?_eq_some_iff.mp hcall
    refine ⟨calls.take position, calls.drop (position + 2), ?_, rfl⟩
    rw [← hbind, ← hcall, ← List.drop_eq_getElem_cons, ← List.drop_eq_getElem_cons,
      List.take_append_drop]
  rw [← hfront]
  subst hcalls
  obtain ⟨builder, fragment, entry, hrun, -, hfinishes, hready, -, hanchor, -, rfl⟩ :=
    h.exists_ready
  have hslot : fragment.instructions[(Call.code front).length]? = some label.slot := by
    rw [hfinishes.instructions, ← Array.getElem?_toList]
    exact Builder.emitted_of_bind hemits hrun
  refine InstrList.position?_eq_some_of_first (Splice.slotAt?_inside hanchor hslot) ?_
  intro earlier hearlier hsame
  by_cases hfront : earlier < index
  · -- before the fragment stand instructions of the body, and the label is none of them
    obtain ⟨hindex, -⟩ := Array.getElem?_eq_some_iff.mp hanchor
    have hold := Array.getElem?_eq_getElem (Nat.lt_trans hfront hindex)
    have hmoved : (Splice.spliced builder.body index fragment entry).instructions.slotAt?
        (if earlier < index then earlier else earlier + fragment.instructions.size) =
          some builder.body.instructions.order[earlier] := Splice.slotAt?_spliced hanchor hold
    rw [if_pos hfront, hsame] at hmoved
    have hplaced := Array.mem_of_getElem? (hold.trans hmoved.symm)
    exact hready.unplaced _ (Array.mem_of_getElem? hslot) hplaced
  · obtain ⟨offset, rfl⟩ := Nat.exists_eq_add_of_le (Nat.not_lt.mp hfront)
    obtain ⟨hlt, -⟩ := Array.getElem?_eq_some_iff.mp hslot
    have hthere := Array.getElem?_eq_getElem (show offset < fragment.instructions.size by omega)
    rw [Splice.slotAt?_inside hanchor hthere, ← hthere, ← hslot] at hsame
    rw [← Array.getElem?_toList, ← Array.getElem?_toList] at hsame
    have hoffset := (List.getElem?_inj (by simpa using by omega) hready.distinct).mp hsame
    omega

/-- The calls stand for what their instructions do. -/
theorem placed (h : Spliced body gate calls index report after) {code : List Execution.Action}
    (hcode : (Call.code calls).map (fun emitted => Execution.meaning? emitted.instruction) =
      code.map some) : Execution.Placed after.instructions gate index code where
  action offset action haction := by
    have hsome := congrArg (·[offset]?) hcode
    rw [List.getElem?_map, List.getElem?_map, haction, Option.map_some,
      Option.map_eq_some_iff] at hsome
    obtain ⟨emitted, hemitted, hmeaning⟩ := hsome
    rw [Execution.actionAt?, h.instructionAt? hemitted]
    exact hmeaning
  apart offset hoffset := by
    refine h.slotAt?_ne ?_
    rwa [← List.length_map (f := some), ← hcode, List.length_map] at hoffset

/-- The method has the variables that the calls have declared. -/
theorem localCount_eq (h : Spliced body gate calls index report after) {builder : Builder}
    (hrun : (forM calls Call.step : Build Unit).run (Builder.start body gate) = (.ok (), builder)) :
    after.localCount = builder.localCount := by
  obtain ⟨other, fragment, hother, hfinish, hsplice⟩ := h.exists_fragment
  obtain ⟨-, rfl⟩ := Prod.mk.inj (hrun.symm.trans hother)
  obtain ⟨entry, hfits, -, rfl⟩ := Splice.eq_spliced_of_ok hsplice
  have hfinishes := Builder.finishes_of_finish hfinish
  rw [hfits.localCount_spliced, hfinishes.firstLocal, hfinishes.locals]
  rfl

end Spliced

end CilPatch
