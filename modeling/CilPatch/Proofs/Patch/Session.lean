import CilPatch.Proofs.Patch.Call

/-!
# Sessions of building

A session is a sequence of calls, some of which may be refused. Whatever the calls are, a session
only adds to the arena of the body: what it emits and the labels it gives out are new slots, and
nothing that the body had before is placed anew or changed.
-/

namespace CilPatch

namespace InstrList

/-- A list has grown: slots were given out and nothing else has happened. -/
structure Grows (before after : InstrList) : Prop where
  order : after.order = before.order
  size : before.arena.size ≤ after.arena.size
  get? : ∀ slot : Slot, slot.index < before.arena.size → after.get? slot = before.get? slot

/-- The slots that were given out since a list had a size. -/
def Since (size : Nat) (list : InstrList) (slot : Slot) : Prop :=
  size ≤ slot.index ∧ slot.index < list.arena.size

theorem Grows.refl (list : InstrList) : Grows list list := ⟨rfl, Nat.le_refl _, fun _ _ => rfl⟩

/-- Giving out a slot makes a list grow. -/
theorem Grows.alloc {before after : InstrList} (h : Grows before after)
    (instruction : Instruction) : Grows before (after.alloc instruction) where
  order := h.order
  size := by
    have hsize := h.size
    simp only [InstrList.alloc, Array.size_push]
    omega
  get? slot hslot := by
    have hne : slot ≠ after.next := by
      rintro rfl
      have hsize := h.size
      simp only [next] at hslot
      omega
    rw [get?_alloc_of_ne instruction hne, h.get? slot hslot]

/-- Changing what was given out since a list had its size leaves what it had alone. -/
theorem Grows.modify {before after : InstrList} (h : Grows before after) {slot : Slot}
    (hslot : Since before.arena.size after slot) (change : Instruction → Instruction) :
    Grows before (after.modify slot change) where
  order := h.order
  size := by
    have hsize := h.size
    simp only [InstrList.modify, Array.size_modify]
    omega
  get? other hother := by
    have hne : other ≠ slot := by
      rintro rfl
      have := hslot.1
      omega
    rw [get?_modify_of_ne after change hne, h.get? other hother]

/-- A slot that was given out stays so when another one is. -/
theorem Since.alloc {size : Nat} {list : InstrList} {slot : Slot} (h : Since size list slot)
    (instruction : Instruction) : Since size (list.alloc instruction) slot := by
  refine ⟨h.1, ?_⟩
  have := h.2
  simp only [InstrList.alloc, Array.size_push]
  omega

/-- The next slot is given out when the list grows. -/
theorem since_next {size : Nat} {list : InstrList} (h : size ≤ list.arena.size)
    (instruction : Instruction) : Since size (list.alloc instruction) list.next := by
  refine ⟨h, ?_⟩
  simp [InstrList.alloc, next]

/-- The instruction of a slot that was there before a list grew. -/
theorem Grows.get {before after : InstrList} (h : Grows before after) {slot : Slot}
    (hslot : slot.index < before.arena.size) : after.get slot = before.get slot := by
  rw [InstrList.get, InstrList.get, h.get? slot hslot]

end InstrList

namespace Builder

/-- What a builder owns: all it has emitted or reserved was given out since the body had its
start, and the body is otherwise as it was. -/
structure Owns (start : Body) (builder : Builder) : Prop where
  frame : builder.body = { start with instructions := builder.body.instructions }
  grows : start.instructions.Grows builder.body.instructions
  emitted : ∀ slot ∈ builder.emitted,
    builder.body.instructions.Since start.instructions.arena.size slot
  reserved : ∀ slot ∈ builder.reserved,
    builder.body.instructions.Since start.instructions.arena.size slot
  pending : ∀ slot, builder.pending = some slot →
    slot ∈ builder.reserved ∧ slot ∉ builder.emitted
  distinct : builder.emitted.toList.Nodup

variable {start : Body} {builder : Builder}

/-- At its start a builder owns nothing. -/
theorem owns_start (body : Body) (continuation : Slot) :
    (Builder.start body continuation).Owns body where
  frame := rfl
  grows := .refl _
  emitted := by simp [Builder.start]
  reserved := by simp [Builder.start]
  pending := by simp [Builder.start]
  distinct := by simp [Builder.start]

/-- What a builder owns depends on its body and on what it has emitted, reserved and bound. -/
theorem Owns.congr {other : Builder} (h : builder.Owns start) (hbody : other.body = builder.body)
    (hemitted : other.emitted = builder.emitted) (hreserved : other.reserved = builder.reserved)
    (hpending : other.pending = builder.pending) : other.Owns start where
  frame := by rw [hbody]; exact h.frame
  grows := by rw [hbody]; exact h.grows
  emitted := by rw [hbody, hemitted]; exact h.emitted
  reserved := by rw [hbody, hreserved]; exact h.reserved
  pending := by rw [hpending, hreserved, hemitted]; exact h.pending
  distinct := by rw [hemitted]; exact h.distinct

/-- A label that is given out is owned. -/
theorem Owns.reservedNext (h : builder.Owns start) : builder.reservedNext.Owns start where
  frame := by
    rw [Builder.reservedNext, Builder.withInstructions, h.frame]
  grows := h.grows.alloc _
  emitted slot hslot := (h.emitted slot hslot).alloc _
  reserved slot hslot := by
    rcases List.mem_append.mp hslot with hold | hnew
    · exact (h.reserved slot hold).alloc _
    · rw [List.mem_singleton.mp hnew]
      exact InstrList.since_next h.grows.size _
  pending slot hslot :=
    ⟨List.mem_append_left _ (h.pending slot hslot).1, (h.pending slot hslot).2⟩
  distinct := h.distinct

/-- A label that can be bound is owned. -/
theorem Owns.bound (h : builder.Owns start) {label : Slot} (hbind : builder.CanBind label) :
    (builder.bound label).Owns start where
  frame := h.frame
  grows := h.grows
  emitted := h.emitted
  reserved := h.reserved
  pending slot hslot := by
    obtain rfl : label = slot := Option.some.inj hslot
    exact ⟨hbind.reserved, hbind.notEmitted⟩
  distinct := h.distinct

/-- The slot that the next instruction gets holds none of those emitted before. -/
theorem Owns.nextSlot_not_mem (h : builder.Owns start) : builder.nextSlot ∉ builder.emitted := by
  intro hmem
  cases hpending : builder.pending with
  | none =>
    have hlt := (h.emitted _ hmem).2
    simp only [nextSlot, hpending, Option.getD_none] at hlt
    exact Nat.lt_irrefl _ hlt
  | some label =>
    simp only [nextSlot, hpending, Option.getD_some] at hmem
    exact (h.pending label hpending).2 hmem

/-- Writing the next instruction makes the list grow. -/
theorem Owns.grows_written (h : builder.Owns start) (instruction : Instruction) :
    start.instructions.Grows (builder.written instruction) := by
  cases hpending : builder.pending with
  | none =>
    simp only [written, hpending]
    exact h.grows.alloc _
  | some label =>
    simp only [written, hpending]
    exact h.grows.modify (h.reserved _ (h.pending label hpending).1) _

/-- What was given out stays so when the next instruction is written. -/
theorem since_written {size : Nat} {slot : Slot}
    (hslot : builder.body.instructions.Since size slot) (instruction : Instruction) :
    (builder.written instruction).Since size slot := by
  cases hpending : builder.pending with
  | none =>
    simp only [written, hpending]
    exact hslot.alloc _
  | some label =>
    simp only [written, hpending]
    exact ⟨hslot.1, by simpa [InstrList.modify] using hslot.2⟩

/-- The slot that the next instruction gets is given out once that is written. -/
theorem Owns.since_nextSlot (h : builder.Owns start) (instruction : Instruction) :
    (builder.written instruction).Since start.instructions.arena.size builder.nextSlot := by
  cases hpending : builder.pending with
  | none =>
    simp only [written, nextSlot, hpending, Option.getD_none]
    exact InstrList.since_next h.grows.size _
  | some label =>
    have hlabel := since_written (h.reserved _ (h.pending label hpending).1) instruction
    simpa only [nextSlot, hpending, Option.getD_some] using hlabel

/-- The slot that the next instruction gets holds it once it is written. -/
theorem Owns.get_written (h : builder.Owns start) (instruction : Instruction) :
    (builder.written instruction).get builder.nextSlot = instruction := by
  cases hpending : builder.pending with
  | none =>
    simp only [written, nextSlot, hpending, Option.getD_none, InstrList.get]
    rw [InstrList.get?_alloc_next]
    rfl
  | some label =>
    have hlt := (h.reserved _ (h.pending label hpending).1).2
    simp only [written, nextSlot, hpending, Option.getD_some, InstrList.get]
    rw [InstrList.get?_modify_self, InstrList.get?, Array.getElem?_eq_getElem hlt]
    rfl

/-- Writing the next instruction leaves those emitted before alone. -/
theorem Owns.get_written_of_mem (h : builder.Owns start) (instruction : Instruction)
    {slot : Slot} (hslot : slot ∈ builder.emitted) :
    (builder.written instruction).get slot = builder.body.instructions.get slot := by
  have hne : slot ≠ builder.nextSlot := by
    rintro rfl
    exact h.nextSlot_not_mem hslot
  cases hpending : builder.pending with
  | none =>
    simp only [nextSlot, hpending, Option.getD_none] at hne
    simp only [written, hpending, InstrList.get]
    rw [InstrList.get?_alloc_of_ne _ hne]
  | some label =>
    simp only [nextSlot, hpending, Option.getD_some] at hne
    simp only [written, hpending, InstrList.get]
    rw [InstrList.get?_modify_of_ne _ _ hne]

/-- The slot that the next instruction gets is a label only if that label waits. -/
theorem Owns.pending_of_nextSlot_mem (h : builder.Owns start)
    (hslot : builder.nextSlot ∈ builder.reserved) :
    builder.pending = some builder.nextSlot := by
  cases hpending : builder.pending with
  | none =>
    have hlt := (h.reserved _ hslot).2
    simp only [nextSlot, hpending, Option.getD_none] at hlt
    exact absurd hlt (Nat.lt_irrefl _)
  | some label => simp [nextSlot, hpending]

/-- The slot that an instruction gets is owned from then on. -/
theorem Owns.pushed (h : builder.Owns start) (emitted : Emitted) :
    (builder.pushed emitted).Owns start where
  frame := by rw [Builder.pushed, withInstructions, h.frame]
  grows := h.grows_written _
  emitted slot hslot := by
    rcases Array.mem_push.mp hslot with hold | rfl
    · exact since_written (h.emitted slot hold) _
    · exact h.since_nextSlot _
  reserved slot hslot := since_written (h.reserved slot hslot) _
  pending := by simp [Builder.pushed]
  distinct := by
    have hfresh := h.nextSlot_not_mem
    simp only [Builder.pushed, Array.toList_push, List.nodup_append]
    refine ⟨h.distinct, by simp, ?_⟩
    intro slot hslot other hother
    rw [List.mem_singleton.mp hother]
    rintro rfl
    exact hfresh (by simpa using hslot)

/-- A branch is owned as any other instruction is. -/
theorem Owns.jumped (h : builder.Owns start) (opcode : Opcode) (label : Slot) :
    (builder.jumped opcode label).Owns start := by
  refine (h.pushed (.ofTable ⟨opcode, .target label⟩)).congr ?_ ?_ ?_ ?_ <;>
    (rw [Builder.jumped, behind]; split <;> rfl)

/-- Whatever a call does, what the builder owns stays apart from what the body had. -/
theorem Owns.step (h : builder.Owns start) (call : Call) :
    (call.step.run builder).2.Owns start := by
  have houtcome := call.outcome builder
  generalize (call.step.run builder).1 = result at houtcome
  generalize (call.step.run builder).2 = after at houtcome ⊢
  cases houtcome with
  | refused => exact h
  | declared => exact h.congr rfl rfl rfl rfl
  | reserved => exact h.reservedNext
  | bound hbind => exact h.bound hbind
  | emitted => exact h.pushed _
  | jumped => exact h.jumped _ _
  | stranded => exact h.pushed _

/-- A builder after some calls, each of which may have been refused. -/
def after (builder : Builder) (calls : List Call) : Builder :=
  calls.foldl (fun builder call => (call.step.run builder).2) builder

/-- The first call comes before the others. -/
theorem after_cons (builder : Builder) (call : Call) (calls : List Call) :
    builder.after (call :: calls) = (call.step.run builder).2.after calls :=
  rfl

/-- Calls after others go on where those stopped. -/
theorem after_append (builder : Builder) (calls more : List Call) :
    builder.after (calls ++ more) = (builder.after calls).after more :=
  List.foldl_append

/-- Whatever the calls are, what the builder owns stays apart from what the body had. -/
theorem Owns.after (h : builder.Owns start) (calls : List Call) :
    (builder.after calls).Owns start := by
  induction calls generalizing builder with
  | nil => exact h
  | cons call rest ih => exact ih (h.step call)

/-- What a finished fragment is: what the builder has emitted, all labels placed, no values left
where control falls through, and no jump that leads elsewhere than into the fragment or to the
continuation. -/
structure Finishes (builder : Builder) (fragment : Fragment) : Prop where
  instructions : fragment.instructions = builder.emitted
  locals : fragment.locals = builder.locals
  firstLocal : fragment.firstLocal = builder.firstLocal
  continuation : fragment.continuation = builder.continuation
  maxStack : fragment.maxStack = min builder.maxDepth stackLimit
  noPending : builder.pending = none
  placed : ∀ slot ∈ builder.reserved, slot ∈ builder.emitted
  empty : builder.unreachable = false → builder.depth = 0
  closed : ∀ slot ∈ builder.emitted, ∀ target ∈ (builder.body.instructions.get slot).targets,
    target = builder.continuation ∨ target ∈ builder.emitted

/-- A jump out of the fragment is found if there is one. -/
theorem closed_of_outsideJump? (h : builder.outsideJump? = none) {slot target : Slot}
    (hslot : slot ∈ builder.emitted)
    (htarget : target ∈ (builder.body.instructions.get slot).targets) :
    target = builder.continuation ∨ target ∈ builder.emitted := by
  have hnone := List.findSome?_eq_none_iff.mp h slot (by simpa using hslot)
  simp only [Option.map_eq_none_iff, List.find?_eq_none] at hnone
  have := hnone target htarget
  by_cases hcont : target = builder.continuation
  · exact Or.inl hcont
  · right
    simpa [hcont] using this

/-- A fragment is handed out only when it passes every check. -/
theorem finishes_of_finish {fragment : Fragment} (h : builder.finish = .ok fragment) :
    builder.Finishes fragment := by
  unfold finish at h
  cases hpending : builder.pending with
  | some label =>
    rw [hpending] at h
    cases h
  | none =>
    cases hplaced : builder.reserved.find? fun slot => !builder.emitted.contains slot with
    | some label =>
      rw [hpending, hplaced] at h
      cases h
    | none =>
      cases houtside : builder.outsideJump? with
      | some jump =>
        rw [hpending, hplaced, houtside] at h
        by_cases hempty : (!builder.unreachable && builder.depth != 0) = true
        · simp only [hempty, if_true] at h
          cases h
        · simp only [hempty] at h
          cases h
      | none =>
        rw [hpending, hplaced, houtside] at h
        by_cases hempty : (!builder.unreachable && builder.depth != 0) = true
        · simp only [hempty, if_true] at h
          cases h
        · simp only [hempty] at h
          obtain rfl := Except.ok.inj h
          refine ⟨rfl, rfl, rfl, rfl, rfl, hpending, ?_, ?_, fun _ hslot _ htarget =>
            closed_of_outsideJump? houtside hslot htarget⟩
          · intro slot hslot
            simpa using List.find?_eq_none.mp hplaced slot hslot
          · intro hreach
            simpa [hreach] using hempty

end Builder

end CilPatch
