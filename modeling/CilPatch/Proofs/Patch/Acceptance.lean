import CilPatch.Proofs.Patch.Access
import CilPatch.Proofs.Patch.Landing

/-!
# Accepted sessions

Code whose jumps all leave an empty stack is accepted by the builder as long as the stack holds what
each instruction takes, every label is bound once and in its turn, and fields and variables are
those that the calls expect. `Outline.pass?` checks the former without a builder; a session that it
passes is accepted whatever the method is, and its fragment is finished.
-/

namespace CilPatch

namespace Build

variable {builder : Builder}

/-- A variable is declared while there is room for it. -/
theorem run_declare_of_room {type : TypeSig} {name : String}
    (h : builder.localCount < Body.localLimit) : (declare type name).run builder =
      (.ok ⟨UInt16.ofNat builder.localCount⟩, builder.declared ⟨type, some name⟩) := by
  unfold declare
  simp only [step_bind, step_get, Nat.not_le.mpr h, if_false]
  rfl

/-- A label that can be bound is. -/
theorem run_bind_of_canBind {label : Label} (h : builder.CanBind label.slot) :
    (bind label).run builder = (.ok (), builder.bound label.slot) := by
  rcases run_bind builder label with ⟨fault, hrun⟩ | ⟨-, hrun⟩
  · exfalso
    have hown : ¬(!builder.reserved.contains label.slot ||
        builder.emitted.contains label.slot) = true := by
      simp [h.reserved, h.notEmitted]
    simp only [bind, step_bind, step_get, hown, Bool.false_eq_true, if_false, h.noPending] at hrun
    cases hdepth : builder.labelDepth? label.slot with
    | none =>
      rw [hdepth] at hrun
      cases hreach : builder.unreachable <;> simp only [hreach] at hrun <;> cases hrun
    | some expected =>
      rw [hdepth] at hrun
      cases hreach : builder.unreachable with
      | true =>
        simp only [hreach] at hrun
        cases hrun
      | false =>
        simp only [hreach, h.agrees hreach expected hdepth] at hrun
        cases hrun
  · exact hrun

/-- What the stack affords is emitted, if control goes on behind it. -/
theorem run_emit_of_affords {instruction : Instruction}
    (hflow : instruction.opcode.flow = .sequential)
    (haffords : builder.Affords instruction.opcode.entry.pops) :
    (emit instruction).run builder =
      (.ok builder.nextSlot, builder.pushed (.ofTable instruction)) := by
  unfold emit
  rw [hflow]
  exact run_push_of_affords haffords

/-- A branch that can be emitted and whose depth agrees is noted. -/
theorem run_branch_of_agrees {opcode : Opcode} {label : Label}
    (hbranch : builder.CanBranch opcode label.slot)
    (hagrees : (builder.pushed (.ofTable ⟨opcode, .target label.slot⟩)).Agrees label.slot) :
    (branch opcode label).run builder =
      (.ok builder.nextSlot, builder.jumped opcode label.slot) := by
  have hnot : ¬builder.Strands (.branch opcode label) := by
    rintro ⟨-, -, hclash⟩
    exact hclash hagrees
  obtain ⟨slot, after, hrun⟩ := hbranch.run_of_not_strands hnot
  rcases run_branch builder opcode label with
    ⟨fault, hother⟩ | ⟨-, ⟨fault, hother⟩ | ⟨-, hother⟩⟩
  · rw [hrun] at hother
    cases hother
  · rw [hrun] at hother
    cases hother
  · exact hother

end Build

/-! ## Outlines -/

/-- How many values an opcode takes from the stack and leaves there, if control goes on behind
it. -/
def Opcode.effect? (opcode : Opcode) : Option (Nat × Nat) :=
  if opcode.flow = .sequential then some (opcode.entry.pops, opcode.entry.pushes) else none

/-- What it means that an opcode has an effect. -/
theorem Opcode.effect?_eq_some_iff {opcode : Opcode} {pops pushes : Nat} :
    opcode.effect? = some (pops, pushes) ↔
      opcode.flow = .sequential ∧ opcode.entry.pops = pops ∧ opcode.entry.pushes = pushes := by
  rw [effect?]
  split
  · next hflow => simp [hflow]
  · next hflow => simp [hflow]

namespace Call

/-- How many values a call takes from the stack and leaves there, if it emits an instruction behind
which control goes on. -/
def effect? : Call → Option (Nat × Nat)
  | op opcode | field opcode _ => opcode.effect?
  | constant _ | load _ | loadIndex _ => some (0, 1)
  | store _ => some (1, 0)
  | _ => none

/-- Whether the field of a call is one of objects or of types as the opcode expects, and a variable
that is loaded is one of those a method has. -/
def Fits (count : Nat) : Call → Prop
  | field opcode handle => Build.accessesStatic opcode = handle.isStatic
  | load slot => slot.index.toNat < count
  | loadIndex index => index.toNat < count
  | _ => True

end Call

/-- What is known of a builder without looking at the method. -/
structure Outline where
  /-- How many values are on the stack. -/
  depth : Nat
  /-- Whether control comes to the next instruction. -/
  live : Bool
  /-- Whether a label is bound to the next instruction. -/
  labelled : Bool
  /-- The labels that are not bound yet. -/
  unbound : List Slot
  deriving DecidableEq

/-- The outline behind a call. It passes no jump and no label with values on the stack. -/
def Outline.pass? (outline : Outline) (targets : List Slot) (call : Call) : Option Outline :=
  match call with
  | .bind label =>
      if label.slot ∈ outline.unbound ∧ outline.labelled = false ∧ outline.depth = 0 then
        some ⟨0, true, true, outline.unbound.erase label.slot⟩
      else none
  | .branch opcode label =>
      if outline.live = true ∧ outline.depth = opcode.entry.pops ∧ opcode.entry.pushes = 0 ∧
          (opcode.flow = .conditionalBranch ∨ opcode.flow = .unconditionalBranch) ∧
          label.slot ∈ targets then
        some ⟨0, opcode.flow != .unconditionalBranch, false, outline.unbound⟩
      else none
  | call =>
      match call.effect? with
      | some (pops, pushes) =>
          if outline.live = true ∧ pops ≤ outline.depth then
            some ⟨outline.depth - pops + pushes, true, false, outline.unbound⟩
          else none
      | none => none

/-- The outline behind calls that pass one after the other. -/
def Outline.passAll? (targets : List Slot) (calls : List Call) (outline : Outline) :
    Option Outline :=
  match calls with
  | [] => some outline
  | call :: rest =>
      match outline.pass? targets call with
      | some between => passAll? targets rest between
      | none => none

namespace Outline

variable {targets : List Slot} {opcode : Opcode} {depth pops pushes : Nat} {labelled : Bool}
  {unbound : List Slot}

@[simp] theorem pass?_constant (value : Int32) :
    pass? ⟨depth, true, labelled, unbound⟩ targets (.constant value) =
      some ⟨depth + 1, true, false, unbound⟩ := by
  simp [pass?, Call.effect?]

@[simp] theorem pass?_load (slot : Local) :
    pass? ⟨depth, true, labelled, unbound⟩ targets (.load slot) =
      some ⟨depth + 1, true, false, unbound⟩ := by
  simp [pass?, Call.effect?]

@[simp] theorem pass?_loadIndex (index : UInt16) :
    pass? ⟨depth, true, labelled, unbound⟩ targets (.loadIndex index) =
      some ⟨depth + 1, true, false, unbound⟩ := by
  simp [pass?, Call.effect?]

@[simp] theorem pass?_store (slot : Local) :
    pass? ⟨depth + 1, true, labelled, unbound⟩ targets (.store slot) =
      some ⟨depth, true, false, unbound⟩ := by
  simp [pass?, Call.effect?]

@[simp] theorem pass?_bind (live : Bool) (label : Label) :
    pass? ⟨0, live, false, label.slot :: unbound⟩ targets (.bind label) =
      some ⟨0, true, true, unbound⟩ := by
  simp [pass?]

/-- An opcode passes where the stack holds what it takes. -/
theorem pass?_op (heffect : opcode.effect? = some (pops, pushes)) (hdepth : pops ≤ depth) :
    pass? ⟨depth, true, labelled, unbound⟩ targets (.op opcode) =
      some ⟨depth - pops + pushes, true, false, unbound⟩ := by
  simp [pass?, Call.effect?, heffect, hdepth]

/-- An access to a field passes where the stack holds what it takes. -/
theorem pass?_field (heffect : opcode.effect? = some (pops, pushes)) (handle : FieldHandle)
    (hdepth : pops ≤ depth) :
    pass? ⟨depth, true, labelled, unbound⟩ targets (.field opcode handle) =
      some ⟨depth - pops + pushes, true, false, unbound⟩ := by
  simp [pass?, Call.effect?, heffect, hdepth]

/-- A branch passes where the stack holds nothing but what it takes. -/
theorem pass?_branch (heffect : opcode.entry.pops = depth ∧ opcode.entry.pushes = 0)
    (hflow : opcode.flow = .conditionalBranch) {label : Label} (hlabel : label.slot ∈ targets) :
    pass? ⟨depth, true, labelled, unbound⟩ targets (.branch opcode label) =
      some ⟨0, true, false, unbound⟩ := by
  simp [pass?, heffect, hflow, hlabel]

/-- So does a branch behind which control does not go on. -/
theorem pass?_goto (heffect : opcode.entry.pops = depth ∧ opcode.entry.pushes = 0)
    (hflow : opcode.flow = .unconditionalBranch) {label : Label} (hlabel : label.slot ∈ targets) :
    pass? ⟨depth, true, labelled, unbound⟩ targets (.branch opcode label) =
      some ⟨0, false, false, unbound⟩ := by
  simp [pass?, heffect, hflow, hlabel]

end Outline

namespace Builder

/-- Whether a builder that has declared some variables and reserved some labels is as an outline
says. -/
structure Shows (start : Body) (count : Nat) (labels : List Slot) (outline : Outline)
    (builder : Builder) : Prop where
  owns : builder.Owns start
  reserved : builder.reserved = labels
  firstLocal : builder.firstLocal = start.localCount
  locals : builder.localCount = count
  live : builder.unreachable = !outline.live
  depth : outline.live = true → builder.depth = outline.depth
  idle : outline.live = false → outline.depth = 0
  labelled : builder.pending.isSome = outline.labelled
  /-- No jump carries values. -/
  empty : ∀ label depth, builder.labelDepth? label = some depth → depth = 0
  distinct : outline.unbound.Nodup
  unbound : ∀ label ∈ outline.unbound,
    label ∈ labels ∧ label ∉ builder.emitted ∧ builder.pending ≠ some label
  placed : ∀ label ∈ labels,
    label ∈ outline.unbound ∨ label ∈ builder.emitted ∨ builder.pending = some label
  closed : ∀ slot ∈ builder.emitted, ∀ target ∈ (builder.body.instructions.get slot).targets,
    target = builder.continuation ∨ target ∈ labels
  stays : ∀ slot ∈ builder.emitted, (builder.body.instructions.get slot).opcode.flow ≠ .ret

variable {start : Body} {count : Nat} {labels : List Slot} {outline : Outline}
  {builder : Builder} {gate : Slot}

/-- The outline of a builder that has done nothing yet. -/
theorem shows_start (body : Body) (continuation : Slot) :
    Shows body body.localCount [] ⟨0, true, false, []⟩ (Builder.start body continuation) where
  owns := owns_start body continuation
  reserved := rfl
  firstLocal := rfl
  locals := rfl
  live := rfl
  depth _ := rfl
  idle := by simp
  labelled := rfl
  empty := by simp [labelDepth?, Builder.start]
  distinct := List.nodup_nil
  unbound := by simp
  placed := by simp
  closed := by simp [Builder.start]
  stays := by simp [Builder.start]

/-- One more variable is declared. -/
theorem Shows.declared (h : Shows start count labels outline builder) (slot : LocalSlot) :
    Shows start (count + 1) labels outline (builder.declared slot) where
  owns := h.owns.congr rfl rfl rfl rfl
  reserved := h.reserved
  firstLocal := h.firstLocal
  locals := by
    rw [← h.locals, localCount, localCount, Builder.declared, List.length_append]
    rfl
  live := h.live
  depth := h.depth
  idle := h.idle
  labelled := h.labelled
  empty := h.empty
  distinct := h.distinct
  unbound := h.unbound
  placed := h.placed
  closed := h.closed
  stays := h.stays

/-- One more label is given out. -/
theorem Shows.reservedNext (h : Shows start count labels outline builder) :
    Shows start count (labels ++ [builder.body.instructions.next])
      { outline with unbound := outline.unbound ++ [builder.body.instructions.next] }
      builder.reservedNext := by
  -- the label is new, so it is none of those that were given out or emitted before
  have hnew : ∀ slot, builder.body.instructions.Since start.instructions.arena.size slot →
      slot ≠ builder.body.instructions.next := by
    rintro slot hslot rfl
    exact Nat.lt_irrefl _ hslot.2
  have hlabels : ∀ label ∈ labels, label ≠ builder.body.instructions.next := fun label hlabel =>
    hnew label (h.owns.reserved label (h.reserved.symm ▸ hlabel))
  exact {
    owns := h.owns.reservedNext
    reserved := by rw [Builder.reservedNext, h.reserved]
    firstLocal := h.firstLocal
    locals := h.locals
    live := h.live
    depth := h.depth
    idle := h.idle
    labelled := h.labelled
    empty := h.empty
    distinct := by
      rw [List.nodup_append]
      refine ⟨h.distinct, by simp, fun label hlabel other hother => ?_⟩
      rw [List.mem_singleton.mp hother]
      exact hlabels label (h.unbound label hlabel).1
    unbound := by
      intro label hlabel
      rcases List.mem_append.mp hlabel with hold | hlast
      · obtain ⟨hmem, hrest⟩ := h.unbound label hold
        exact ⟨List.mem_append_left _ hmem, hrest⟩
      · obtain rfl := List.mem_singleton.mp hlast
        refine ⟨List.mem_append_right _ hlast, fun hemitted => ?_, fun hpending => ?_⟩
        · exact hnew _ (h.owns.emitted _ hemitted) rfl
        · have hmem := (h.owns.pending _ hpending).1
          exact hnew _ (h.owns.reserved _ hmem) rfl
    placed := by
      intro label hlabel
      rcases List.mem_append.mp hlabel with hold | hlast
      · exact (h.placed label hold).imp_left (List.mem_append_left _)
      · exact Or.inl (List.mem_append_right _ hlast)
    closed := by
      intro slot hslot target htarget
      have hsame := h.owns.extends_reservedNext.get slot hslot
      rw [hsame] at htarget
      exact (h.closed slot hslot target htarget).imp_right (List.mem_append_left _)
    stays := by
      intro slot hslot
      rw [h.owns.extends_reservedNext.get slot hslot]
      exact h.stays slot hslot }

/-- The instructions of a builder after one more was emitted are those from before and the new
one. -/
theorem Owns.get_pushed (h : builder.Owns start) {emitted : Emitted} {slot : Slot}
    (hslot : slot ∈ (builder.pushed emitted).emitted) :
    (slot ∈ builder.emitted ∧ (builder.pushed emitted).body.instructions.get slot =
      builder.body.instructions.get slot) ∨
    (builder.pushed emitted).body.instructions.get slot = emitted.instruction := by
  rcases Array.mem_push.mp hslot with hold | rfl
  · exact Or.inl ⟨hold, (h.extends_pushed emitted).get slot hold⟩
  · exact Or.inr (h.get_written emitted.instruction)

/-- One more instruction is emitted, from which control may go on. -/
theorem Shows.pushed (h : Shows start count labels outline builder) (hlive : outline.live = true)
    (emitted : Emitted) (hflow : emitted.instruction.opcode.flow ≠ .ret)
    (hraise : emitted.instruction.opcode.flow ≠ .raise)
    (htargets : ∀ target ∈ emitted.instruction.targets,
      target = builder.continuation ∨ target ∈ labels) :
    Shows start count labels
      ⟨outline.depth - emitted.pops + emitted.pushes, true, false, outline.unbound⟩
      (builder.pushed emitted) where
  owns := h.owns.pushed emitted
  reserved := h.reserved
  firstLocal := h.firstLocal
  locals := h.locals
  live := by simp [Builder.pushed, h.live, hlive, hflow, hraise]
  depth _ := by rw [Builder.pushed, ← h.depth hlive]
  idle := by simp
  labelled := rfl
  empty := h.empty
  distinct := h.distinct
  unbound label hlabel := by
    obtain ⟨hmem, hemitted, hpending⟩ := h.unbound label hlabel
    refine ⟨hmem, fun hpushed => ?_, by simp [Builder.pushed]⟩
    rcases Array.mem_push.mp hpushed with hold | hlast
    · exact hemitted hold
    · have hnext : builder.nextSlot ∈ builder.reserved := by rwa [← hlast, h.reserved]
      exact hpending (hlast ▸ h.owns.pending_of_nextSlot_mem hnext)
  placed label hlabel := by
    rcases h.placed label hlabel with hunbound | hemitted | hpending
    · exact Or.inl hunbound
    · exact Or.inr (Or.inl (Array.mem_push_of_mem _ hemitted))
    · refine Or.inr (Or.inl ?_)
      have hnext : builder.nextSlot = label := by rw [nextSlot, hpending, Option.getD_some]
      rw [Builder.pushed, hnext]
      exact Array.mem_push_self
  closed slot hslot target htarget := by
    rcases h.owns.get_pushed hslot with ⟨hold, hget⟩ | hget
    · exact h.closed slot hold target (hget ▸ htarget)
    · exact htargets target (hget ▸ htarget)
  stays slot hslot := by
    rcases h.owns.get_pushed hslot with ⟨hold, hget⟩ | hget
    · exact hget ▸ h.stays slot hold
    · exact hget ▸ hflow

/-- A branch is emitted that leaves an empty stack. -/
theorem Shows.jumped (h : Shows start count labels outline builder) (hlive : outline.live = true)
    {opcode : Opcode} {label : Slot} (hpops : outline.depth = opcode.entry.pops)
    (hpushes : opcode.entry.pushes = 0)
    (hflow : opcode.flow = .conditionalBranch ∨ opcode.flow = .unconditionalBranch)
    (hlabel : label = builder.continuation ∨ label ∈ labels) :
    Shows start count labels ⟨0, opcode.flow != .unconditionalBranch, false, outline.unbound⟩
      (builder.jumped opcode label) := by
  have hpushed := h.pushed hlive (.ofTable ⟨opcode, .target label⟩)
    (by rcases hflow with hflow | hflow <;> simp [Emitted.ofTable, hflow])
    (by rcases hflow with hflow | hflow <;> simp [Emitted.ofTable, hflow])
    (fun target htarget => List.mem_singleton.mp htarget ▸ hlabel)
  have hzero : outline.depth - (Emitted.ofTable ⟨opcode, .target label⟩).pops +
      (Emitted.ofTable ⟨opcode, .target label⟩).pushes = 0 := by
    simp [Emitted.ofTable, hpops, hpushes]
  rw [hzero] at hpushed
  have hreach : builder.unreachable = false := by rw [h.live, hlive]; rfl
  simp only [Builder.jumped, hreach, Bool.false_eq_true, if_false]
  exact {
    owns := hpushed.owns.congr rfl rfl rfl rfl
    reserved := hpushed.reserved
    firstLocal := hpushed.firstLocal
    locals := hpushed.locals
    live := by
      have hlive := hpushed.live
      simp only [behind, noted] at hlive ⊢
      rw [hlive]
      rcases hflow with hflow | hflow <;> rw [hflow] <;> rfl
    depth := fun _ => hpushed.depth rfl
    idle := fun _ => rfl
    labelled := hpushed.labelled
    empty := by
      intro other depth hknown
      have hknown : ((builder.pushed (.ofTable ⟨opcode, .target label⟩)).noted label).labelDepth?
          other = some depth := hknown
      rcases labelDepth?_of_noted hknown with hold | hnew
      · exact hpushed.empty other depth hold
      · exact hnew.trans (hpushed.depth rfl)
    distinct := hpushed.distinct
    unbound := hpushed.unbound
    placed := hpushed.placed
    closed := hpushed.closed
    stays := hpushed.stays }

/-- A label is bound where the stack is empty. -/
theorem Shows.bound (h : Shows start count labels outline builder) {label : Slot}
    (hlabel : label ∈ outline.unbound) (hlabelled : outline.labelled = false)
    (hdepth : outline.depth = 0) : builder.CanBind label ∧
      Shows start count labels ⟨0, true, true, outline.unbound.erase label⟩
        (builder.bound label) := by
  obtain ⟨hmem, hemitted, -⟩ := h.unbound label hlabel
  have hpending : builder.pending = none := by
    have := h.labelled
    rwa [hlabelled, Option.isSome_eq_false_iff, Option.isNone_iff_eq_none] at this
  have hzero : builder.unreachable = false → builder.depth = 0 := by
    intro hreach
    have hlive := h.live
    rw [hreach] at hlive
    rw [h.depth (by simpa using hlive.symm), hdepth]
  have hbind : builder.CanBind label :=
    ⟨h.reserved.symm ▸ hmem, hemitted, hpending,
      fun hreach depth hknown => (h.empty label depth hknown).trans (hzero hreach).symm⟩
  refine ⟨hbind, ?_⟩
  exact {
    owns := h.owns.bound hbind
    reserved := h.reserved
    firstLocal := h.firstLocal
    locals := h.locals
    live := rfl
    depth := by
      intro _
      cases hreach : builder.unreachable with
      | false => simp [Builder.bound, hreach, hzero hreach]
      | true =>
        cases hknown : builder.labelDepth? label with
        | none => simp [Builder.bound, hreach, hknown]
        | some depth => simp [Builder.bound, hreach, hknown, h.empty label depth hknown]
    idle := by simp
    labelled := rfl
    empty := by
      intro other depth hknown
      cases hreach : builder.unreachable with
      | false =>
        rcases labelDepth?_of_bound hknown with hold | hnew
        · exact h.empty other depth hold
        · exact hnew.trans (hzero hreach)
      | true =>
        refine h.empty other depth ?_
        simpa [Builder.bound, labelDepth?, hreach] using hknown
    distinct := h.distinct.erase label
    unbound := by
      intro other hother
      obtain ⟨hne, hold⟩ := h.distinct.mem_erase_iff.mp hother
      obtain ⟨hmem, hemitted, -⟩ := h.unbound other hold
      exact ⟨hmem, hemitted, fun hsame => hne (Option.some.inj hsame).symm⟩
    placed := by
      intro other hother
      by_cases hsame : other = label
      · exact Or.inr (Or.inr (hsame ▸ rfl))
      · rcases h.placed other hother with hunbound | hemitted | hwaits
        · exact Or.inl ((List.mem_erase_of_ne hsame).mpr hunbound)
        · exact Or.inr (Or.inl hemitted)
        · rw [hpending] at hwaits
          cases hwaits
    closed := h.closed
    stays := h.stays }

end Builder

/-! ## Calls that an outline passes -/

namespace Build

/-- Loading a variable takes nothing and leaves its value. -/
theorem effect?_loadOf (index : UInt16) : (loadOf index).opcode.effect? = some (0, 1) := by
  unfold loadOf
  split
  · next hshort =>
    rcases eq_of_le_three hshort with rfl | rfl | rfl | rfl <;> decide +kernel
  · split <;> (dsimp only; decide +kernel)

/-- Storing into a variable takes its value and leaves nothing. -/
theorem effect?_storeOf (index : UInt16) : (storeOf index).opcode.effect? = some (1, 0) := by
  unfold storeOf
  split
  · next hshort =>
    rcases eq_of_le_three hshort with rfl | rfl | rfl | rfl <;> decide +kernel
  · split <;> (dsimp only; decide +kernel)

/-- The opcodes that load a constant. -/
theorem exists_opcode_constantOf (value : Int32) : ∃ code : UInt8,
    (constantOf value).opcode = .single code ∧ 0x15 ≤ code.toNat ∧ code.toNat ≤ 0x20 := by
  unfold constantOf
  split
  · next hsmall =>
    obtain ⟨hlow, hhigh⟩ := hsmall
    refine ⟨_, rfl, ?_⟩
    rw [UInt8.toNat_ofNat_of_lt']
    · omega
    · have hsize : UInt8.size = 256 := rfl
      omega
  · split
    · exact ⟨0x1F, rfl, by decide, by decide⟩
    · exact ⟨0x20, rfl, by decide, by decide⟩

/-- Loading a constant takes nothing and leaves it. -/
theorem effect?_constantOf (value : Int32) :
    (constantOf value).opcode.effect? = some (0, 1) := by
  have hcodes : ∀ code : Fin 256, 0x15 ≤ code.val → code.val ≤ 0x20 →
      (Opcode.single (UInt8.ofFin code)).effect? = some (0, 1) := by decide +kernel
  obtain ⟨code, hopcode, hlow, hhigh⟩ := exists_opcode_constantOf value
  rw [hopcode]
  exact hcodes code.toFin hlow hhigh

end Build

namespace Call

variable {call : Call} {pops pushes : Nat}

/-- What has an effect jumps nowhere. -/
theorem targets_eq_nil {emitted : Emitted} (heffect : call.effect? = some (pops, pushes))
    (hemits : call.emits? = some emitted) : emitted.instruction.targets = [] := by
  cases call with
  | op | field =>
    obtain rfl := Option.some.inj hemits
    rfl
  | constant value =>
    obtain rfl := Option.some.inj hemits
    simp only [Emitted.ofTable, Build.constantOf]
    split
    · rfl
    · split <;> rfl
  | load | loadIndex =>
    obtain rfl := Option.some.inj hemits
    simp only [Emitted.ofTable, Build.loadOf]
    split
    · rfl
    · split <;> rfl
  | store =>
    obtain rfl := Option.some.inj hemits
    simp only [Emitted.ofTable, Build.storeOf]
    split
    · rfl
    · split <;> rfl
  | _ => cases heffect

/-- A declaration is accepted exactly when there is room for the variable. -/
theorem run_declare_eq_ok_iff {type : TypeSig} {name : String} {builder next : Builder}
    {value : Unit} : (declare type name).step.run builder = (.ok value, next) ↔
      builder.localCount < Body.localLimit ∧ next = builder.declared ⟨type, some name⟩ := by
  rw [step, step_map]
  constructor
  · intro h
    rcases Build.run_declare builder type name with ⟨fault, hrun⟩ | ⟨hroom, slot, hrun⟩
    · rw [hrun] at h
      cases h
    · rw [hrun] at h
      exact ⟨hroom, (Prod.mk.inj h).2.symm⟩
  · rintro ⟨hroom, rfl⟩
    rw [Build.run_declare_of_room hroom]

/-- A field that is accessed is one of objects or of types as the opcode expects. -/
theorem accessesStatic_eq_of_run {opcode : Opcode} {handle : FieldHandle} {before next : Builder}
    (h : (field opcode handle).step.run before = (.ok (), next)) :
    Build.accessesStatic opcode = handle.isStatic := by
  by_contra hkind
  simp only [step, Build.field, hkind, if_false] at h
  cases h

/-- What has an effect is emitted, if the stack affords it and the field and the variable are those
that are expected. -/
theorem run_of_effect? (heffect : call.effect? = some (pops, pushes)) {builder : Builder}
    {count : Nat} (hfits : call.Fits count) (hcount : builder.localCount = count)
    (haffords : builder.Affords pops) : ∃ instruction : Instruction,
      call.emits? = some (.ofTable instruction) ∧
      instruction.opcode.effect? = some (pops, pushes) ∧
      call.step.run builder = (.ok (), builder.pushed (.ofTable instruction)) := by
  have hemit {instruction : Instruction}
      (hopcode : instruction.opcode.effect? = some (pops, pushes)) :
      ((fun _ => ()) <$> Build.emit instruction : Build Unit).run builder =
        (.ok (), builder.pushed (.ofTable instruction)) := by
    obtain ⟨hflow, hpops, -⟩ := Opcode.effect?_eq_some_iff.mp hopcode
    rw [step_map, Build.run_emit_of_affords hflow (hpops ▸ haffords)]
  have hload {index : UInt16} (hindex : index.toNat < count) :
      ((fun _ => ()) <$> Build.loadIndex index : Build Unit).run builder =
        ((fun _ => ()) <$> Build.emit (Build.loadOf index) : Build Unit).run builder := by
    have hdeclared : ¬builder.localCount ≤ index.toNat := by omega
    rw [step_map, step_map, Build.loadIndex, step_bind, step_get]
    simp only [hdeclared, if_false]
  cases call with
  | op opcode => exact ⟨_, rfl, heffect, hemit heffect⟩
  | field opcode handle =>
    refine ⟨_, rfl, heffect, ?_⟩
    have hkind : Build.accessesStatic opcode = handle.isStatic := hfits
    rw [step, Build.field, if_pos hkind]
    exact hemit heffect
  | constant value =>
    have hopcode := (Build.effect?_constantOf value).trans heffect
    exact ⟨_, rfl, hopcode, hemit hopcode⟩
  | load slot =>
    have hopcode := (Build.effect?_loadOf slot.index).trans heffect
    exact ⟨_, rfl, hopcode, (hload hfits).trans (hemit hopcode)⟩
  | loadIndex index =>
    have hopcode := (Build.effect?_loadOf index).trans heffect
    exact ⟨_, rfl, hopcode, (hload hfits).trans (hemit hopcode)⟩
  | store slot =>
    have hopcode := (Build.effect?_storeOf slot.index).trans heffect
    exact ⟨_, rfl, hopcode, hemit hopcode⟩
  | _ => cases heffect

end Call

namespace Builder

variable {start : Body} {count : Nat} {labels targets : List Slot} {outline after : Outline}
  {builder : Builder}

/-- A call with an effect is accepted if the stack affords it, and has that effect. -/
theorem Shows.exists_emitted (h : Shows start count labels outline builder) {call : Call}
    {pops pushes : Nat} (hfits : call.Fits count) (heffect : call.effect? = some (pops, pushes))
    (hlive : outline.live = true) (hdepth : pops ≤ outline.depth) :
    ∃ next, call.step.run builder = (.ok (), next) ∧ next.continuation = builder.continuation ∧
      Shows start count labels ⟨outline.depth - pops + pushes, true, false, outline.unbound⟩
        next := by
  have haffords : builder.Affords pops := fun _ => (h.depth hlive).symm ▸ hdepth
  obtain ⟨instruction, hemits, hopcode, hrun⟩ :=
    Call.run_of_effect? heffect hfits h.locals haffords
  obtain ⟨hflow, rfl, rfl⟩ := Opcode.effect?_eq_some_iff.mp hopcode
  refine ⟨_, hrun, rfl, h.pushed hlive (.ofTable instruction) ?_ ?_ fun target htarget => ?_⟩
  · simp [Emitted.ofTable, hflow]
  · simp [Emitted.ofTable, hflow]
  · rw [Call.targets_eq_nil heffect hemits] at htarget
    cases htarget

/-- A branch that leaves an empty stack is accepted. -/
theorem Shows.exists_jumped (h : Shows start count labels outline builder) {opcode : Opcode}
    {label : Label} (hlive : outline.live = true) (hpops : outline.depth = opcode.entry.pops)
    (hpushes : opcode.entry.pushes = 0)
    (hflow : opcode.flow = .conditionalBranch ∨ opcode.flow = .unconditionalBranch)
    (hlabel : label.slot = builder.continuation ∨ label.slot ∈ labels) :
    ∃ next, (Call.branch opcode label).step.run builder = (.ok (), next) ∧
      next.continuation = builder.continuation ∧
      Shows start count labels ⟨0, opcode.flow != .unconditionalBranch, false, outline.unbound⟩
        next := by
  have hbranch : builder.CanBranch opcode label.slot :=
    ⟨hflow, h.reserved.symm ▸ hlabel, fun _ => (hpops ▸ h.depth hlive).ge⟩
  have hdepth : (builder.pushed (.ofTable ⟨opcode, .target label.slot⟩)).depth = 0 := by
    simp [Builder.pushed, Emitted.ofTable, h.depth hlive, hpops, hpushes]
  have hagrees : (builder.pushed (.ofTable ⟨opcode, .target label.slot⟩)).Agrees label.slot :=
    ⟨fun _ => hdepth, fun _ depth hknown => (h.empty _ depth hknown).trans hdepth.symm⟩
  refine ⟨builder.jumped opcode label.slot, ?_, ?_, h.jumped hlive hpops hpushes hflow hlabel⟩
  · rw [Call.step, step_map, Build.run_branch_of_agrees hbranch hagrees]
  · rw [Builder.jumped, Builder.behind]
    split <;> rfl

/-- A call that an outline passes is accepted, and the builder is then as the outline says. -/
theorem Shows.step (h : Shows start count labels outline builder)
    (htargets : ∀ target ∈ targets, target = builder.continuation ∨ target ∈ labels) {call : Call}
    (hfits : call.Fits count) (hpass : outline.pass? targets call = some after) :
    ∃ next, call.step.run builder = (.ok (), next) ∧ next.continuation = builder.continuation ∧
      Shows start count labels after next := by
  unfold Outline.pass? at hpass
  split at hpass
  · next label =>
    split at hpass
    · next hready =>
      obtain rfl := Option.some.inj hpass
      obtain ⟨hbind, hshows⟩ := h.bound hready.1 hready.2.1 hready.2.2
      exact ⟨_, Build.run_bind_of_canBind hbind, rfl, hshows⟩
    · cases hpass
  · next opcode label =>
    split at hpass
    · next hready =>
      obtain ⟨hlive, hpops, hpushes, hflow, hlabel⟩ := hready
      obtain rfl := Option.some.inj hpass
      exact h.exists_jumped hlive hpops hpushes hflow (htargets _ hlabel)
    · cases hpass
  · split at hpass
    · next heffect =>
      split at hpass
      · next hready =>
        obtain rfl := Option.some.inj hpass
        exact h.exists_emitted hfits heffect hready.1 hready.2
      · cases hpass
    · cases hpass

/-- Calls that an outline passes are accepted. -/
theorem Shows.run (h : Shows start count labels outline builder)
    (htargets : ∀ target ∈ targets, target = builder.continuation ∨ target ∈ labels)
    {calls : List Call} (hfits : ∀ call ∈ calls, call.Fits count)
    (hpass : outline.passAll? targets calls = some after) :
    ∃ next, (forM calls Call.step : Build Unit).run builder = (.ok (), next) ∧
      next.continuation = builder.continuation ∧ Shows start count labels after next := by
  induction calls generalizing outline builder with
  | nil =>
    obtain rfl := Option.some.inj hpass
    exact ⟨builder, rfl, rfl, h⟩
  | cons call rest ih =>
    rw [Outline.passAll?] at hpass
    split at hpass
    · next between hbetween =>
      obtain ⟨next, hstep, hsame, hshows⟩ :=
        h.step htargets (hfits call List.mem_cons_self) hbetween
      obtain ⟨last, hrun, hlast, hdone⟩ := ih hshows (hsame.symm ▸ htargets)
        (fun other hother => hfits other (List.mem_cons_of_mem _ hother)) hpass
      refine ⟨last, ?_, hlast.trans hsame, hdone⟩
      rw [List.forM_cons, step_bind, hstep]
      exact hrun
    · cases hpass

/-- Each call of a session that is accepted is accepted. -/
theorem exists_run_eq_ok {calls : List Call} {last : Builder}
    (h : (forM calls Call.step : Build Unit).run builder = (.ok (), last)) {call : Call}
    (hcall : call ∈ calls) : ∃ before next, call.step.run before = (.ok (), next) := by
  induction calls generalizing builder with
  | nil => cases hcall
  | cons first rest ih =>
    rw [List.forM_cons, run_bind_eq_ok_iff] at h
    obtain ⟨⟨⟩, next, hfirst, hrest⟩ := h
    rcases List.mem_cons.mp hcall with rfl | hcall
    · exact ⟨builder, next, hfirst⟩
    · exact ih hrest hcall

/-- A fragment is finished once all labels are bound and the stack is empty. -/
theorem Shows.finish {live : Bool} (h : Shows start count labels ⟨0, live, false, []⟩ builder) :
    ∃ fragment, builder.finish = .ok fragment := by
  have hpending : builder.pending = none := by
    have := h.labelled
    rwa [Option.isSome_eq_false_iff, Option.isNone_iff_eq_none] at this
  have hemitted : ∀ label ∈ labels, label ∈ builder.emitted := by
    intro label hlabel
    rcases h.placed label hlabel with hunbound | hemitted | hwaits
    · cases hunbound
    · exact hemitted
    · rw [hpending] at hwaits
      cases hwaits
  have hplaced : (builder.reserved.find? fun slot => !builder.emitted.contains slot) = none := by
    rw [List.find?_eq_none, h.reserved]
    intro label hlabel
    simp [hemitted label hlabel]
  have hempty : (!builder.unreachable && builder.depth != 0) = false := by
    cases live with
    | false => simp [h.live]
    | true => simp [h.depth rfl]
  have hinside : builder.outsideJump? = none := by
    rw [outsideJump?, List.findSome?_eq_none_iff]
    intro slot hslot
    simp only [Option.map_eq_none_iff, List.find?_eq_none]
    intro target htarget
    rcases h.closed slot (Array.mem_toList_iff.mp hslot) target htarget with hleaves | hlabel
    · simp [hleaves]
    · simp [hemitted target hlabel]
  unfold Builder.finish
  rw [hpending, hplaced, hinside]
  simp only [hempty]
  exact ⟨_, rfl⟩

/-- A fragment is spliced in front of the instruction that it waits for. -/
theorem Shows.fits {live : Bool} (h : Shows start count labels ⟨0, live, false, []⟩ builder)
    {fragment : Fragment} (hfinish : builder.finish = .ok fragment)
    (hemitted : 0 < builder.emitted.size) {index : Nat}
    (hanchor : start.instructions.slotAt? index = some builder.continuation) :
    ∃ entry, Splice.Fits builder.body index fragment entry := by
  have hfinishes := finishes_of_finish hfinish
  refine ⟨builder.emitted[0], ⟨?_, ?_, fun _ => ?_, ?_⟩⟩
  · rw [InstrList.slotAt?, h.owns.grows.order, hfinishes.continuation]
    exact hanchor
  · rw [Fragment.entry?, hfinishes.instructions]
    exact Array.getElem?_eq_getElem hemitted
  · rw [Splice.returns, hfinishes.instructions, Array.any_eq_false]
    intro position hposition
    simpa using h.stays _ (Array.getElem_mem hposition)
  · rw [hfinishes.firstLocal, h.firstLocal, h.owns.frame]
    rfl

end Builder

end CilPatch
