import CilPatch.Proofs.Patch.ControlFlow
import CilPatch.Proofs.Patch.Session

/-!
# What the builder follows

The builder follows the depth of the stack in the order of emission. It knows the depth at a label
once a jump there has been noted or control has fallen through to it. For a label that is bound
where control does not fall through, and that no jump has been noted for, it takes the stack to be
empty and does not note that.
-/

namespace CilPatch

/-- An emitted instruction with what the builder took for granted in front of it. -/
structure Followed where
  /-- The instruction. -/
  emitted : Emitted
  /-- The slot of the instruction. -/
  slot : Slot
  /-- The depth in front of it. -/
  depth : Nat
  /-- Whether control comes there. -/
  live : Bool
  /-- Whether the depth is a guess, made at a label for which none was known. -/
  guessed : Bool

namespace Followed

/-- The depth behind the instruction. -/
def after (followed : Followed) : Nat := followed.emitted.after followed.depth

/-- The depths in front of the instructions, by position. -/
def depths (list : List Followed) (position : Nat) : Nat :=
  (list[position]?.map depth).getD 0

theorem depths_of_getElem? {list : List Followed} {position : Nat} {followed : Followed}
    (h : list[position]? = some followed) : depths list position = followed.depth := by
  rw [depths, h]
  rfl

end Followed

namespace Builder

variable (builder : Builder)

/-- Whether the depth is a guess: a label waits for which no depth is known. -/
def guesses : Bool :=
  match builder.pending with
  | some label => (builder.labelDepth? label).isNone
  | none => false

/-- The next instruction with what the builder takes for granted in front of it. -/
def meets (emitted : Emitted) : Followed where
  emitted := emitted
  slot := builder.nextSlot
  depth := builder.depth
  live := !builder.unreachable
  guessed := builder.guesses

/-- What the builder takes for granted in front of the instructions that some calls emit. -/
def follow (builder : Builder) : List Call → List Followed
  | [] => []
  | call :: rest =>
      (call.emits?.map builder.meets).toList ++ (call.step.run builder).2.follow rest

/-- What is followed are the instructions that the calls emit. -/
theorem map_emitted_follow (calls : List Call) :
    (builder.follow calls).map Followed.emitted = Call.code calls := by
  induction calls generalizing builder with
  | nil => rfl
  | cons call rest ih =>
    rw [follow, List.map_append, ih, Call.code, Call.code, List.filterMap_cons]
    cases call.emits? <;> rfl

end Builder

/-! ## Depths at labels -/

section Recorded

variable {labels : List (Slot × Nat)} {label other : Slot} {depth found : Nat} {skips : Prop}
  [Decidable skips]

/-- A depth that is known stays when another one is noted. -/
private theorem lookup_recorded (hskips : (labels.lookup label).isSome → skips)
    (h : labels.lookup other = some found) :
    (if skips then labels else (label, depth) :: labels).lookup other = some found := by
  split
  · exact h
  · next hnew =>
    have hne : (other == label) = false := by
      rw [beq_eq_false_iff_ne]
      rintro rfl
      exact hnew (hskips (by rw [h]; rfl))
    rw [List.lookup_cons, hne]
    exact h

/-- A depth that is known was known before or has just been noted. -/
private theorem lookup_of_recorded
    (h : (if skips then labels else (label, depth) :: labels).lookup other = some found) :
    labels.lookup other = some found ∨ found = depth := by
  split at h
  · exact Or.inl h
  · rw [List.lookup_cons] at h
    split at h
    · exact Or.inr (Option.some.inj h).symm
    · exact Or.inl h

end Recorded

namespace Builder

variable {builder : Builder} {label other : Slot} {depth : Nat}

/-- Binding a label forgets no depth. -/
theorem labelDepth?_bound (h : builder.labelDepth? other = some depth) :
    (builder.bound label).labelDepth? other = some depth :=
  lookup_recorded (fun hknown => Or.inr hknown) h

/-- A depth that is known once a label is bound was known, or it is the present one. -/
theorem labelDepth?_of_bound (h : (builder.bound label).labelDepth? other = some depth) :
    builder.labelDepth? other = some depth ∨ depth = builder.depth :=
  lookup_of_recorded h

/-- Noting a jump forgets no depth. -/
theorem labelDepth?_noted (h : builder.labelDepth? other = some depth) :
    (builder.noted label).labelDepth? other = some depth :=
  lookup_recorded (fun hknown => Or.inr hknown) h

/-- A depth that is known once a jump is noted was known, or it is the present one. -/
theorem labelDepth?_of_noted (h : (builder.noted label).labelDepth? other = some depth) :
    builder.labelDepth? other = some depth ∨ depth = builder.depth :=
  lookup_of_recorded h

/-- Once a jump into the fragment is noted, the depth that it carries is known. -/
theorem Agrees.labelDepth?_noted_self (h : builder.Agrees label)
    (hinside : label ≠ builder.continuation) :
    (builder.noted label).labelDepth? label = some builder.depth := by
  cases hknown : builder.labelDepth? label with
  | some depth =>
    rw [← h.inside hinside depth hknown]
    exact labelDepth?_noted hknown
  | none =>
    have hnew : ¬(label = builder.continuation ∨ (builder.labelDepth? label).isSome) := by
      simp [hinside, hknown]
    have hnoted : (builder.noted label).labelDepths =
        (label, builder.depth) :: builder.labelDepths := if_neg hnew
    rw [labelDepth?, hnoted, List.lookup_cons_self]

/-! ## What the builder follows -/

/-- What holds of a builder and of what it has followed so far. -/
structure Follows (start : Body) (builder : Builder) (past : List Followed) : Prop where
  owns : builder.Owns start
  slots : past.map Followed.slot = builder.emitted.toList
  spelled : ∀ followed ∈ past,
    builder.body.instructions.get followed.slot = followed.emitted.instruction
  affords : ∀ followed ∈ past, followed.live = true → followed.emitted.pops ≤ followed.depth
  /-- No depth is beyond the greatest one. -/
  peak : builder.depth ≤ builder.maxDepth
  peakBefore : ∀ followed ∈ past, followed.depth ≤ builder.maxDepth
  peakAtLabel : ∀ label depth, builder.labelDepth? label = some depth →
    depth ≤ builder.maxDepth
  /-- The stack is empty in front of the first instruction, and control comes there. -/
  first : ∀ followed, past.head? = some followed → followed.live = true ∧ followed.depth = 0
  none : past = [] → builder.unreachable = false ∧ builder.depth = 0
  /-- The depth is kept where control falls through. -/
  falls : ∀ position (followed next : Followed), past[position]? = some followed →
    past[position + 1]? = some next → followed.live = true →
    followed.emitted.fallsThrough = true → next.live = true ∧ next.depth = followed.after
  last : ∀ followed, past.getLast? = some followed → followed.live = true →
    followed.emitted.fallsThrough = true →
    builder.unreachable = false ∧ builder.depth = followed.after
  /-- A label that waits is reached with the depth that is known for it, or with a guess. -/
  waits : ∀ label, builder.pending = some label → builder.unreachable = false ∧
    (∀ depth, builder.labelDepth? label = some depth → depth = builder.depth) ∧
    (builder.labelDepth? label = .none → builder.depth = 0)
  /-- Control comes to every label, with the depth that is known for it or with a guess. -/
  labels : ∀ followed ∈ past, followed.slot ∈ builder.reserved → followed.live = true ∧
    (followed.guessed = false → builder.labelDepth? followed.slot = some followed.depth)
  guesses : ∀ followed ∈ past, followed.guessed = true → followed.depth = 0

variable {start : Body} {past : List Followed}

/-- At its start a builder has followed nothing. -/
theorem follows_start (body : Body) (continuation : Slot) :
    (Builder.start body continuation).Follows body [] where
  owns := owns_start body continuation
  slots := rfl
  spelled := by simp
  affords := by simp
  peak := Nat.le_refl _
  peakBefore := by simp
  peakAtLabel := by simp [labelDepth?, Builder.start]
  first := by simp
  none _ := ⟨rfl, rfl⟩
  falls := by simp
  last := by simp
  waits := by simp [Builder.start]
  labels := by simp
  guesses := by simp

/-- Declaring a local variable leaves what is followed alone. -/
theorem Follows.declared (h : builder.Follows start past) (slot : LocalSlot) :
    (builder.declared slot).Follows start past where
  owns := h.owns.congr rfl rfl rfl rfl
  slots := h.slots
  spelled := h.spelled
  affords := h.affords
  peak := h.peak
  peakBefore := h.peakBefore
  peakAtLabel := h.peakAtLabel
  first := h.first
  none := h.none
  falls := h.falls
  last := h.last
  waits := h.waits
  labels := h.labels
  guesses := h.guesses

/-- What was followed was emitted. -/
theorem Follows.slot_mem (h : builder.Follows start past) {followed : Followed}
    (hfollowed : followed ∈ past) : followed.slot ∈ builder.emitted := by
  have hmem := List.mem_map_of_mem (f := Followed.slot) hfollowed
  rw [h.slots] at hmem
  simpa using hmem

/-- Giving out a label leaves what is followed alone. -/
theorem Follows.reservedNext (h : builder.Follows start past) :
    builder.reservedNext.Follows start past where
  owns := h.owns.reservedNext
  slots := h.slots
  spelled followed hfollowed := by
    have hlt := (h.owns.emitted _ (h.slot_mem hfollowed)).2
    have hne : followed.slot ≠ builder.body.instructions.next := by
      intro heq
      rw [heq] at hlt
      exact Nat.lt_irrefl _ hlt
    rw [← h.spelled followed hfollowed, InstrList.get, InstrList.get]
    congr 1
    exact InstrList.get?_alloc_of_ne _ hne
  affords := h.affords
  peak := h.peak
  peakBefore := h.peakBefore
  peakAtLabel := h.peakAtLabel
  first := h.first
  none := h.none
  falls := h.falls
  last := h.last
  waits := h.waits
  labels followed hfollowed hslot := by
    rcases List.mem_append.mp hslot with hold | hnew
    · exact h.labels followed hfollowed hold
    · have hlt := (h.owns.emitted _ (h.slot_mem hfollowed)).2
      rw [List.mem_singleton.mp hnew] at hlt
      exact absurd hlt (Nat.lt_irrefl _)
  guesses := h.guesses

/-- Binding a label sets the depth that is known for it, or the stack is taken to be empty. -/
theorem Follows.bound (h : builder.Follows start past) (hbind : builder.CanBind label) :
    (builder.bound label).Follows start past where
  owns := h.owns.bound hbind
  slots := h.slots
  spelled := h.spelled
  affords := h.affords
  peak := by
    cases hreach : builder.unreachable with
    | false => simpa [Builder.bound, hreach] using h.peak
    | true =>
      cases hknown : builder.labelDepth? label with
      | none => simp [Builder.bound, hreach, hknown]
      | some depth => simpa [Builder.bound, hreach, hknown] using h.peakAtLabel label depth hknown
  peakBefore := h.peakBefore
  peakAtLabel other depth hother := by
    rcases labelDepth?_of_bound hother with hold | rfl
    · exact h.peakAtLabel other depth hold
    · exact h.peak
  first := h.first
  none hnone := by
    obtain ⟨hreach, hdepth⟩ := h.none hnone
    simp [Builder.bound, hreach, hdepth]
  falls := h.falls
  last followed hlast hlive hfalls := by
    obtain ⟨hreach, hdepth⟩ := h.last followed hlast hlive hfalls
    simp [Builder.bound, hreach, hdepth]
  waits other hother := by
    obtain rfl : label = other := Option.some.inj hother
    refine ⟨rfl, ?_⟩
    -- only where control falls through is the depth noted; elsewhere it stays known or unknown
    cases hreach : builder.unreachable with
    | false =>
      have hknown : (builder.bound label).labelDepth? label = some builder.depth := by
        cases hknown : builder.labelDepth? label with
        | some depth =>
          rw [← hbind.agrees hreach depth hknown]
          exact labelDepth?_bound hknown
        | none => simp [Builder.bound, labelDepth?, hreach, show builder.labelDepths.lookup label =
            .none from hknown]
      rw [hknown]
      simp [Builder.bound, hreach]
    | true =>
      have hsame : (builder.bound label).labelDepth? label = builder.labelDepth? label := by
        simp [Builder.bound, labelDepth?, hreach]
      rw [hsame]
      cases hknown : builder.labelDepth? label <;> simp [Builder.bound, hreach, hknown]
  labels followed hfollowed hslot := by
    obtain ⟨hlive, hdepth⟩ := h.labels followed hfollowed hslot
    exact ⟨hlive, fun hguessed => labelDepth?_bound (hdepth hguessed)⟩
  guesses := h.guesses

/-- Behind an instruction from which control goes on, it still comes to the next one. -/
theorem unreachable_pushed {emitted : Emitted} (hreach : builder.unreachable = false)
    (hfalls : emitted.fallsThrough = true) : (builder.pushed emitted).unreachable = false := by
  obtain ⟨hret, hraise, -⟩ := Flow.ne_of_fallsThrough hfalls
  simp [Builder.pushed, hreach, hret, hraise]

end Builder

/-- An entry of a list with one more at the end is that one or was there before. -/
private theorem getElem?_concat {list : List Followed} {last followed : Followed}
    {position : Nat} (h : (list ++ [last])[position]? = some followed) :
    list[position]? = some followed ∨ position = list.length ∧ followed = last := by
  rw [List.getElem?_append] at h
  split at h
  · exact Or.inl h
  · next hlast =>
    right
    rw [List.getElem?_singleton] at h
    split at h
    · exact ⟨by omega, (Option.some.inj h).symm⟩
    · cases h

namespace Builder

variable {builder : Builder} {start : Body} {past : List Followed}

/-- What the builder takes for granted in front of an instruction that is emitted. -/
theorem Follows.pushed (h : builder.Follows start past) {emitted : Emitted}
    (haffords : builder.Affords emitted.pops) :
    (builder.pushed emitted).Follows start (past ++ [builder.meets emitted]) where
  owns := h.owns.pushed emitted
  slots := by
    rw [List.map_append, h.slots]
    simp [Builder.pushed, meets]
  spelled followed hfollowed := by
    rcases List.mem_append.mp hfollowed with hold | hnew
    · rw [← h.spelled followed hold]
      exact h.owns.get_written_of_mem _ (h.slot_mem hold)
    · rw [List.mem_singleton.mp hnew]
      exact h.owns.get_written _
  affords followed hfollowed hlive := by
    rcases List.mem_append.mp hfollowed with hold | hnew
    · exact h.affords followed hold hlive
    · rw [List.mem_singleton.mp hnew] at hlive ⊢
      exact haffords (by simpa [meets] using hlive)
  peak := Nat.le_max_right _ _
  peakBefore followed hfollowed := by
    rcases List.mem_append.mp hfollowed with hold | hnew
    · exact Nat.le_trans (h.peakBefore followed hold) (Nat.le_max_left _ _)
    · rw [List.mem_singleton.mp hnew]
      exact Nat.le_trans h.peak (Nat.le_max_left _ _)
  peakAtLabel label depth hlabel :=
    Nat.le_trans (h.peakAtLabel label depth hlabel) (Nat.le_max_left _ _)
  first followed hfirst := by
    cases past with
    | nil =>
      obtain ⟨hreach, hdepth⟩ := h.none rfl
      obtain rfl := Option.some.inj hfirst
      simp [meets, hreach, hdepth]
    | cons head rest => exact h.first followed hfirst
  none hnone := by simp at hnone
  falls position followed next hfollowed hnext hlive hfalls := by
    rcases getElem?_concat hnext with hnext | ⟨hlast, rfl⟩
    · rcases getElem?_concat hfollowed with hfollowed | ⟨hlast, -⟩
      · exact h.falls position followed next hfollowed hnext hlive hfalls
      · obtain ⟨hlt, -⟩ := List.getElem?_eq_some_iff.mp hnext
        omega
    · rcases getElem?_concat hfollowed with hfollowed | ⟨hlast', -⟩
      · have hgetLast : past.getLast? = some followed := by
          rw [List.getLast?_eq_getElem?, ← hfollowed]
          congr 1
          omega
        obtain ⟨hreach, hdepth⟩ := h.last followed hgetLast hlive hfalls
        exact ⟨by simp [meets, hreach], hdepth⟩
      · omega
  last followed hlast hlive hfalls := by
    rw [List.getLast?_concat] at hlast
    obtain rfl := Option.some.inj hlast
    exact ⟨unreachable_pushed (by simpa [meets] using hlive) hfalls, rfl⟩
  waits label hlabel := by simp [Builder.pushed] at hlabel
  labels followed hfollowed hslot := by
    rcases List.mem_append.mp hfollowed with hold | hnew
    · exact h.labels followed hold hslot
    · obtain rfl := List.mem_singleton.mp hnew
      have hpending := h.owns.pending_of_nextSlot_mem hslot
      obtain ⟨hreach, hknown, -⟩ := h.waits _ hpending
      refine ⟨by simp [meets, hreach], fun hguessed => ?_⟩
      change builder.labelDepth? builder.nextSlot = some builder.depth
      cases hdepth : builder.labelDepth? builder.nextSlot with
      | none => simp [meets, Builder.guesses, hpending, hdepth] at hguessed
      | some depth => rw [hknown depth hdepth]
  guesses followed hfollowed hguessed := by
    rcases List.mem_append.mp hfollowed with hold | hnew
    · exact h.guesses followed hold hguessed
    · obtain rfl := List.mem_singleton.mp hnew
      cases hpending : builder.pending with
      | none => simp [meets, Builder.guesses, hpending] at hguessed
      | some label =>
        have hunknown : builder.labelDepth? label = .none := by
          simpa [meets, Builder.guesses, hpending] using hguessed
        exact (h.waits label hpending).2.2 hunknown

/-- Noting a jump leaves what is followed alone. -/
theorem Follows.noted (h : builder.Follows start past) (hpending : builder.pending = .none)
    (label : Slot) : (builder.noted label).Follows start past where
  owns := h.owns.congr rfl rfl rfl rfl
  slots := h.slots
  spelled := h.spelled
  affords := h.affords
  peak := h.peak
  peakBefore := h.peakBefore
  peakAtLabel other depth hother := by
    rcases labelDepth?_of_noted hother with hold | rfl
    · exact h.peakAtLabel other depth hold
    · exact h.peak
  first := h.first
  none := h.none
  falls := h.falls
  last := h.last
  waits other hother := by
    change builder.pending = some other at hother
    rw [hpending] at hother
    cases hother
  labels followed hfollowed hslot := by
    obtain ⟨hlive, hdepth⟩ := h.labels followed hfollowed hslot
    exact ⟨hlive, fun hguessed => labelDepth?_noted (hdepth hguessed)⟩
  guesses := h.guesses

/-- Behind the last instruction, a jump from which control does not go on may be taken note of. -/
theorem Follows.behind (h : builder.Follows start past) (hpending : builder.pending = .none)
    {last : Followed} (hlast : past.getLast? = some last) :
    (builder.behind last.emitted.instruction.opcode).Follows start past where
  owns := h.owns.congr rfl rfl rfl rfl
  slots := h.slots
  spelled := h.spelled
  affords := h.affords
  peak := h.peak
  peakBefore := h.peakBefore
  peakAtLabel := h.peakAtLabel
  first := h.first
  none hnone := by
    rw [hnone] at hlast
    cases hlast
  falls := h.falls
  last followed hfollowed hlive hfalls := by
    obtain rfl : last = followed := Option.some.inj (hlast.symm.trans hfollowed)
    obtain ⟨hreach, hdepth⟩ := h.last last hlast hlive hfalls
    refine ⟨?_, hdepth⟩
    obtain ⟨-, -, hbranch⟩ := Flow.ne_of_fallsThrough hfalls
    simp [Builder.behind, hreach, hbranch]
  waits other hother := by
    change builder.pending = some other at hother
    rw [hpending] at hother
    cases hother
  labels := h.labels
  guesses := h.guesses

/-- What the builder takes for granted in front of a branch that is emitted. -/
theorem Follows.jumped (h : builder.Follows start past) {opcode : Opcode} {label : Slot}
    (hbranch : builder.CanBranch opcode label) :
    (builder.jumped opcode label).Follows start
      (past ++ [builder.meets (.ofTable ⟨opcode, .target label⟩)]) := by
  have hpushed : (builder.pushed (.ofTable ⟨opcode, .target label⟩)).Follows start
      (past ++ [builder.meets (.ofTable ⟨opcode, .target label⟩)]) := h.pushed hbranch.affords
  have hlast := List.getLast?_concat (l := past)
    (a := builder.meets (.ofTable ⟨opcode, .target label⟩))
  rw [Builder.jumped]
  split
  · exact hpushed.behind rfl hlast
  · exact (hpushed.noted rfl label).behind rfl hlast

end Builder

end CilPatch
