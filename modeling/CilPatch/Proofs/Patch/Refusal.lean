import CilPatch.Proofs.Patch.Session

/-!
# Refused calls

A call of the builder that is refused leaves the builder as it was, with one exception: a branch
is emitted before the depth at its target is looked at, and it stays when that depth does not
agree. The exception is named `Strands`, and it is seen in every fragment that is finished later.
-/

namespace CilPatch

namespace Build

variable {builder : Builder}

/-- What the stack affords is emitted. -/
theorem run_push_of_affords {instruction : Instruction} {pops pushes : Nat}
    (h : builder.Affords pops) : (push instruction pops pushes).run builder =
      (.ok builder.nextSlot, builder.pushed ⟨instruction, pops, pushes⟩) := by
  rcases run_push builder instruction pops pushes with ⟨fault, hrun⟩ | ⟨-, hrun⟩
  · have henough : ¬(builder.depth < pops && !builder.unreachable) = true := by
      simp only [Bool.and_eq_true, decide_eq_true_eq, Bool.not_eq_true', not_and]
      intro hless hreach
      have := h hreach
      omega
    simp only [push, step_bind, step_get, henough] at hrun
    cases hpending : builder.pending <;> rw [hpending] at hrun <;> cases hrun
  · exact hrun

/-- A jump whose depth agrees with what is known is noted. -/
theorem run_recordDepth_of_agrees {label : Slot} (h : builder.Agrees label) :
    (recordDepth label).run builder = (.ok (), builder.noted label) := by
  rcases run_recordDepth builder label with ⟨fault, hrun⟩ | ⟨-, hrun⟩
  · exfalso
    by_cases hcont : label = builder.continuation
    · have hzero : (builder.depth != 0) = false := by simpa using h.continuation hcont
      simp only [recordDepth, step_bind, step_get, hcont, if_true, hzero,
        Bool.false_eq_true, if_false] at hrun
      cases hrun
    · simp only [recordDepth, step_bind, step_get, hcont, if_false] at hrun
      cases hknown : builder.labelDepth? label with
      | none =>
        rw [hknown] at hrun
        cases hrun
      | some expected =>
        have hsame : (expected != builder.depth) = false := by
          simpa using h.inside hcont expected hknown
        simp only [hknown, hsame, Bool.false_eq_true, if_false] at hrun
        cases hrun
  · exact hrun

/-- A jump whose depth does not agree with what is known is refused. -/
theorem run_recordDepth_of_not_agrees {label : Slot} (h : ¬builder.Agrees label) :
    ∃ fault, (recordDepth label).run builder = (.error fault, builder) :=
  (run_recordDepth builder label).resolve_right fun hagrees => h hagrees.1

end Build

namespace Builder

/-- Whether a call is a branch that is emitted and then refused: control comes to it, and the
depth behind it does not agree with what is known for its target. -/
inductive Strands (builder : Builder) : Call → Prop
  | branch {opcode : Opcode} {label : Label} (hbranch : builder.CanBranch opcode label.slot)
      (hreached : builder.unreachable = false)
      (hclash : ¬(builder.pushed (.ofTable ⟨opcode, .target label.slot⟩)).Agrees label.slot) :
      Strands builder (.branch opcode label)

variable {builder : Builder} {opcode : Opcode} {label : Label}

/-- A branch that can be emitted is emitted first, then the depth at its target is noted. -/
theorem CanBranch.run (h : builder.CanBranch opcode label.slot) :
    (Build.branch opcode label).run builder =
      (do
        if !builder.unreachable then Build.recordDepth label.slot
        if opcode.flow = .unconditionalBranch then
          modify fun builder => { builder with unreachable := true }
        return builder.nextSlot : Build Slot).run
      (builder.pushed (.ofTable ⟨opcode, .target label.slot⟩)) := by
  have hpush : (Build.push ⟨opcode, .target label.slot⟩ opcode.entry.pops
      opcode.entry.pushes).run builder =
      (.ok builder.nextSlot, builder.pushed (.ofTable ⟨opcode, .target label.slot⟩)) :=
    Build.run_push_of_affords h.affords
  have hflow : ¬(opcode.flow != .conditionalBranch && opcode.flow != .unconditionalBranch) =
      true := by
    rcases h.isBranch with hflow | hflow <;> simp [hflow]
  have hinside : ¬(label.slot != builder.continuation &&
      !builder.reserved.contains label.slot) = true := by
    rcases h.inside with hinside | hinside <;> simp [hinside]
  simp only [Build.branch, step_bind, step_get, hflow, hinside, Bool.false_eq_true, if_false]
  rw [hpush]

/-- A branch that is stranded is refused and stays emitted. -/
theorem Strands.run (h : builder.Strands (.branch opcode label)) :
    ∃ fault, (Build.branch opcode label).run builder =
      (.error fault, builder.pushed (.ofTable ⟨opcode, .target label.slot⟩)) := by
  obtain ⟨hbranch, hreached, hclash⟩ := h
  obtain ⟨fault, hrecord⟩ := Build.run_recordDepth_of_not_agrees hclash
  refine ⟨fault, ?_⟩
  rw [hbranch.run]
  simp only [hreached, Bool.not_false, if_true]
  rw [step_bind, hrecord]

/-- A branch that can be emitted is accepted unless it is stranded. -/
theorem CanBranch.run_of_not_strands (h : builder.CanBranch opcode label.slot)
    (hstrands : ¬builder.Strands (.branch opcode label)) :
    ∃ slot after, (Build.branch opcode label).run builder = (.ok slot, after) := by
  rw [h.run]
  cases hreached : builder.unreachable with
  | true =>
    simp only [Bool.not_true, Bool.false_eq_true, if_false]
    split <;> exact ⟨_, _, rfl⟩
  | false =>
    have hagrees : (builder.pushed (.ofTable ⟨opcode, .target label.slot⟩)).Agrees
        label.slot := by
      by_contra hclash
      exact hstrands ⟨h, hreached, hclash⟩
    simp only [Bool.not_false, if_true]
    rw [step_bind, Build.run_recordDepth_of_agrees hagrees]
    dsimp only
    split <;> exact ⟨_, _, rfl⟩

/-- A refused call that is not stranded leaves the builder as it was. -/
theorem step_eq_of_not_strands {call : Call} {fault : Fault}
    (hrefused : (call.step.run builder).1 = .error fault) (hstrands : ¬builder.Strands call) :
    (call.step.run builder).2 = builder := by
  have houtcome := call.outcome builder
  rw [hrefused] at houtcome
  generalize hafter : (call.step.run builder).2 = after at houtcome ⊢
  cases houtcome with
  | refused => rfl
  | @stranded opcode label _ hbranch =>
    obtain ⟨slot, after, hrun⟩ := hbranch.run_of_not_strands hstrands
    rw [Call.step, step_map, hrun] at hrefused
    cases hrefused

/-- What a stranded branch leaves behind. -/
theorem Strands.step_eq (h : builder.Strands (.branch opcode label)) :
    ((Call.branch opcode label).step.run builder).2 =
      builder.pushed (.ofTable ⟨opcode, .target label.slot⟩) := by
  obtain ⟨fault, hrun⟩ := h.run
  rw [Call.step, step_map, hrun]

/-- What was emitted stays as it is, in front of what is emitted later. -/
structure Extends (before after : Builder) : Prop where
  emitted : before.emitted.toList <+: after.emitted.toList
  get : ∀ slot ∈ before.emitted,
    after.body.instructions.get slot = before.body.instructions.get slot

/-- What was emitted stays as it is when nothing happens. -/
theorem Extends.refl (builder : Builder) : Extends builder builder :=
  ⟨List.prefix_refl _, fun _ _ => rfl⟩

/-- What was emitted stays as it is over several calls. -/
theorem Extends.trans {first second third : Builder} (h : Extends first second)
    (hnext : Extends second third) : Extends first third where
  emitted := h.emitted.trans hnext.emitted
  get slot hslot := by
    have hmem : slot ∈ second.emitted := by
      simpa using h.emitted.subset (by simpa using hslot)
    rw [hnext.get slot hmem, h.get slot hslot]

variable {start : Body}

/-- What was emitted stays as it is when a label is given out. -/
theorem Owns.extends_reservedNext (h : builder.Owns start) :
    Extends builder builder.reservedNext where
  emitted := List.prefix_refl _
  get slot hslot := by
    have hne : slot ≠ builder.body.instructions.next := by
      rintro rfl
      exact Nat.lt_irrefl _ (h.emitted _ hslot).2
    exact congrArg (Option.getD · _) (InstrList.get?_alloc_of_ne _ hne)

/-- What was emitted stays as it is when an instruction is emitted behind it. -/
theorem Owns.extends_pushed (h : builder.Owns start) (emitted : Emitted) :
    Extends builder (builder.pushed emitted) where
  emitted := by
    simp only [Builder.pushed, Array.toList_push]
    exact List.prefix_append _ _
  get slot hslot := h.get_written_of_mem emitted.instruction hslot

/-- What was emitted stays as it is when a branch is emitted behind it. -/
theorem Owns.extends_jumped (h : builder.Owns start) (opcode : Opcode) (label : Slot) :
    Extends builder (builder.jumped opcode label) := by
  have hpushed := h.extends_pushed (.ofTable ⟨opcode, .target label⟩)
  rw [Builder.jumped, behind]
  split
  · exact ⟨hpushed.emitted, hpushed.get⟩
  · exact ⟨hpushed.emitted, hpushed.get⟩

/-- Whatever a call does, what was emitted stays as it is. -/
theorem Owns.extends_step (h : builder.Owns start) (call : Call) :
    Extends builder (call.step.run builder).2 := by
  have houtcome := call.outcome builder
  generalize (call.step.run builder).1 = result at houtcome
  generalize (call.step.run builder).2 = after at houtcome ⊢
  cases houtcome with
  | refused => exact .refl _
  | declared => exact ⟨List.prefix_refl _, fun _ _ => rfl⟩
  | reserved => exact h.extends_reservedNext
  | bound => exact ⟨List.prefix_refl _, fun _ _ => rfl⟩
  | emitted => exact h.extends_pushed _
  | jumped => exact h.extends_jumped _ _
  | stranded => exact h.extends_pushed _

/-- Whatever the calls are, what was emitted stays as it is. -/
theorem Owns.extends_after (h : builder.Owns start) (calls : List Call) :
    Extends builder (builder.after calls) := by
  induction calls generalizing builder with
  | nil => exact .refl _
  | cons call rest ih => exact (h.extends_step call).trans (ih (h.step call))

/-- What is emitted at a point is in every fragment that is finished later. -/
theorem Owns.get_of_finish (h : builder.Owns start) (emitted : Emitted) {later : List Call}
    {fragment : Fragment} (hfinish : ((builder.pushed emitted).after later).finish = .ok fragment) :
    fragment.instructions[builder.emitted.size]? = some builder.nextSlot ∧
      ((builder.pushed emitted).after later).body.instructions.get builder.nextSlot =
        emitted.instruction := by
  have hextends := (h.pushed emitted).extends_after later
  have hfinishes := finishes_of_finish hfinish
  constructor
  · rw [hfinishes.instructions]
    have hlast : (builder.pushed emitted).emitted.toList[builder.emitted.size]? =
        some builder.nextSlot := by
      simp [Builder.pushed]
    obtain ⟨rest, hrest⟩ := hextends.emitted
    rw [← Array.getElem?_toList, ← hrest, List.getElem?_append_left, hlast]
    simp [Builder.pushed]
  · have hmem : builder.nextSlot ∈ (builder.pushed emitted).emitted := by
      simp [Builder.pushed]
    rw [hextends.get _ hmem]
    exact h.get_written _

/-- A builder that has emitted one more instruction is another one. -/
theorem pushed_ne (emitted : Emitted) : builder.pushed emitted ≠ builder := by
  intro h
  have hsize := congrArg (fun builder => builder.emitted.size) h
  simp [Builder.pushed] at hsize

end Builder

/-- A refused call leaves the builder exactly as it was, and all that comes later goes on as if the
call had not been made, unless the call is a branch that control reaches and whose depth does not
agree with what is known for its target. Such a branch stays emitted: it is in every fragment that
is finished later. -/
theorem refused_call_keeps_builder_iff {body : Body} {continuation : Slot} {calls : List Call}
    {builder : Builder} {call : Call} {fault : Fault}
    (hbuilder : (Builder.start body continuation).after calls = builder)
    (hrefused : (call.step.run builder).1 = .error fault) :
    ((call.step.run builder).2 = builder ↔ ¬builder.Strands call) ∧
      (¬builder.Strands call → ∀ later, builder.after (call :: later) = builder.after later) ∧
      ∀ opcode label, call = .branch opcode label → builder.Strands call →
        (call.step.run builder).2 = builder.pushed (.ofTable ⟨opcode, .target label.slot⟩) ∧
        ∀ later fragment, (builder.after (call :: later)).finish = .ok fragment →
          fragment.instructions[builder.emitted.size]? = some builder.nextSlot ∧
            (builder.after (call :: later)).body.instructions.get builder.nextSlot =
              ⟨opcode, .target label.slot⟩ := by
  have howns : builder.Owns body := hbuilder ▸ (Builder.owns_start body continuation).after calls
  refine ⟨⟨?_, Builder.step_eq_of_not_strands hrefused⟩, ?_, ?_⟩
  · rintro hsame ⟨hbranch, hreached, hclash⟩
    rw [Builder.Strands.step_eq ⟨hbranch, hreached, hclash⟩] at hsame
    exact Builder.pushed_ne _ hsame
  · intro hstrands later
    rw [Builder.after, List.foldl_cons, Builder.step_eq_of_not_strands hrefused hstrands]
    rfl
  · rintro opcode label rfl hstrands
    refine ⟨hstrands.step_eq, fun later fragment hfinish => ?_⟩
    have hafter : builder.after (.branch opcode label :: later) =
        (builder.pushed (.ofTable ⟨opcode, .target label.slot⟩)).after later := by
      rw [Builder.after, List.foldl_cons, hstrands.step_eq]
      rfl
    rw [hafter] at hfinish ⊢
    exact howns.get_of_finish _ hfinish

/-- A body that does nothing and returns. -/
def restingBody : Body where
  instructions := ⟨#[⟨.single 0, .none⟩, ⟨.ret, .none⟩], #[⟨0⟩, ⟨1⟩]⟩
  regions := []
  maxStack := 8
  initLocals := false
  localSig := 0
  declared := 0
  added := []

/-- A builder in front of the return that has pushed one value. -/
def loadedBuilder : Builder := (Builder.start restingBody ⟨1⟩).after [.constant 1]

/-- A call that does not yield is refused. -/
private theorem exists_refused {builder : Builder} {call : Call}
    (h : (call.step.run builder).1.isOk = false) :
    ∃ fault, (call.step.run builder).1 = .error fault := by
  cases hresult : (call.step.run builder).1 with
  | error fault => exact ⟨fault, rfl⟩
  | ok =>
    rw [hresult] at h
    cases h

/-- A return that is refused because of a value left on the stack changes nothing. -/
theorem refused_ret_keeps_builder : ∃ fault,
    (Call.ret.step.run loadedBuilder).1 = .error fault ∧
      (Call.ret.step.run loadedBuilder).2 = loadedBuilder := by
  have hrun : (Call.ret.step.run loadedBuilder).1.isOk = false := by decide +kernel
  obtain ⟨fault, hrefused⟩ := exists_refused hrun
  exact ⟨fault, hrefused, (refused_call_keeps_builder_iff rfl hrefused).1.mpr nofun⟩

/-- A branch to the continuation that is refused because of a value left on the stack stays
emitted, and once the value is gone the fragment is finished with it. -/
theorem refused_branch_stays_emitted :
    (∃ fault, ((Call.branch .br ⟨⟨1⟩⟩).step.run loadedBuilder).1 = .error fault) ∧
      ((Call.branch .br ⟨⟨1⟩⟩).step.run loadedBuilder).2 ≠ loadedBuilder ∧
      (loadedBuilder.after [.branch .br ⟨⟨1⟩⟩, .op (.single 0x26)]).finish.toOption.map
        Fragment.instructions = some #[⟨2⟩, ⟨3⟩, ⟨4⟩] ∧
      (loadedBuilder.after [.op (.single 0x26)]).finish.toOption.map Fragment.instructions =
        some #[⟨2⟩, ⟨3⟩] := by
  refine ⟨exists_refused (by decide +kernel), ?_, by decide +kernel, by decide +kernel⟩
  intro hsame
  have hemitted : ((Call.branch .br ⟨⟨1⟩⟩).step.run loadedBuilder).2.emitted.size ≠
      loadedBuilder.emitted.size := by decide +kernel
  exact hemitted (congrArg (fun builder => builder.emitted.size) hsame)

end CilPatch
