import CilPatch.Proofs.Patch.Workbench

/-!
# Room for local variables

A builder declares a local variable only while an index is left, and a splice is refused when the
method does not have as many variables as the fragment expects. So the table cannot overflow once a
splice has begun to redirect jumps: a splice of a fragment that was built is refused before it
changes anything, or it is done.
-/

namespace CilPatch

/-- Whether a method with the variables that a fragment expects has room for those it adds. -/
def Fragment.HasRoom (fragment : Fragment) : Prop :=
  fragment.locals.length ≤ Body.localLimit - fragment.firstLocal

namespace Builder

/-- Whether there is room for the variables that a builder has declared. -/
def HasRoom (builder : Builder) : Prop :=
  builder.locals.length ≤ Body.localLimit - builder.firstLocal

/-- A builder that declares nothing keeps its room. -/
theorem HasRoom.congr {builder other : Builder} (h : builder.HasRoom)
    (hlocals : other.locals = builder.locals) (hfirst : other.firstLocal = builder.firstLocal) :
    other.HasRoom := by
  rw [HasRoom, hlocals, hfirst]
  exact h

/-- A branch declares nothing. -/
theorem declares_jumped (builder : Builder) (opcode : Opcode) (label : Slot) :
    (builder.jumped opcode label).locals = builder.locals ∧
      (builder.jumped opcode label).firstLocal = builder.firstLocal := by
  rw [jumped, behind]
  split <;> exact ⟨rfl, rfl⟩

/-- Whatever a call does, there is room for the variables that are declared. -/
theorem HasRoom.step {builder : Builder} (h : builder.HasRoom) (call : Call) :
    (call.step.run builder).2.HasRoom := by
  have houtcome := call.outcome builder
  generalize (call.step.run builder).1 = result at houtcome
  generalize (call.step.run builder).2 = after at houtcome ⊢
  cases houtcome with
  | refused => exact h
  | declared hroom =>
    rw [localCount] at hroom
    simp only [HasRoom, declared, List.length_append, List.length_singleton]
    omega
  | reserved => exact h
  | bound => exact h
  | emitted => exact h.congr rfl rfl
  | @jumped opcode label => exact h.congr (declares_jumped _ _ _).1 (declares_jumped _ _ _).2
  | stranded => exact h.congr rfl rfl

/-- Whatever the calls are, there is room for the variables that are declared. -/
theorem HasRoom.after {builder : Builder} (h : builder.HasRoom) (calls : List Call) :
    (builder.after calls).HasRoom := by
  induction calls generalizing builder with
  | nil => exact h
  | cons call rest ih => exact ih (h.step call)

/-- A fragment has the room of its builder. -/
theorem HasRoom.finish {builder : Builder} (h : builder.HasRoom) {fragment : Fragment}
    (hfinish : builder.finish = .ok fragment) : fragment.HasRoom := by
  have hfinishes := finishes_of_finish hfinish
  rw [Fragment.HasRoom, hfinishes.locals, hfinishes.firstLocal]
  exact h

/-- A fragment that comes of a session has room. -/
theorem hasRoom_of_session {body : Body} {continuation : Slot} {calls : List Call}
    {fragment : Fragment}
    (hfinish : ((Builder.start body continuation).after calls).finish = .ok fragment) :
    fragment.HasRoom :=
  (HasRoom.after (Nat.zero_le _) calls).finish hfinish

end Builder

/-- Every fragment of a workbench has room. -/
theorem Workbench.Arises.hasRoom {body : Body} {bench : Workbench} (h : Arises body bench) :
    ∀ fragment ∈ bench.waiting ++ bench.spent, fragment.HasRoom := by
  induction h with
  | start => simp
  | step _ hstep ih =>
    cases hstep with
    | built hfinish =>
      rintro fragment (_ | ⟨_, hfragment⟩)
      · exact Builder.hasRoom_of_session hfinish
      · exact ih fragment hfragment
    | @spliced front back spliced _ _ _ hwaiting =>
      intro fragment hfragment
      apply ih
      rw [hwaiting]
      simp only [List.mem_append, List.mem_cons] at hfragment ⊢
      tauto
    | abandoned | failed | again | widened => exact ih

/-- A splice whose check fails changes nothing. -/
theorem splice_of_refused {index : Nat} {fragment : Fragment} {body : Body} {fault : Fault}
    (h : Splice.check body index fragment = .error fault) :
    (splice index fragment).run body = (.error fault, body) := by
  unfold splice
  simp only [step_bind, step_get, h]
  rfl

section Roomy

variable {fragment : Fragment} {index : Nat} {body : Body}

/-- A fragment that has room is spliced where it fits. -/
theorem Fragment.HasRoom.splice_of_fits (h : fragment.HasRoom) {entry : Slot}
    (hfits : Splice.Fits body index fragment entry) :
    (splice index fragment).run body = (.ok (Splice.reportOf body index fragment entry),
      Splice.spliced body index fragment entry) := by
  rw [HasRoom, ← hfits.numbering, ← Nat.not_lt] at h
  exact (CilPatch.splice_of_fits hfits).trans (if_neg h)

/-- A splice of a fragment that has room changes nothing, or it is done. -/
theorem Fragment.HasRoom.splice_cases (h : fragment.HasRoom) (index : Nat) (body : Body) :
    (∃ fault, (splice index fragment).run body = (.error fault, body)) ∨
    ∃ entry, Splice.Fits body index fragment entry ∧
      (splice index fragment).run body =
        (.ok (Splice.reportOf body index fragment entry),
          Splice.spliced body index fragment entry) := by
  rcases CilPatch.splice_cases index fragment body with hrefused | ⟨entry, hfits, -⟩
  · exact Or.inl hrefused
  · exact Or.inr ⟨entry, hfits, h.splice_of_fits hfits⟩

/-- A splice of a fragment that has room fails exactly when its check does, and then it changes
nothing. -/
theorem Fragment.HasRoom.splice_eq_error_iff (h : fragment.HasRoom) {fault : Fault} {after : Body} :
    (splice index fragment).run body = (.error fault, after) ↔
      Splice.check body index fragment = .error fault ∧ after = body := by
  constructor
  · intro hsplice
    cases hcheck : Splice.check body index fragment with
    | error refused =>
      obtain ⟨hfault, hafter⟩ := Prod.mk.inj (hsplice.symm.trans (splice_of_refused hcheck))
      exact ⟨congrArg _ (Except.error.inj hfault).symm, hafter⟩
    | ok found =>
      obtain ⟨-, hfits⟩ := Splice.check_eq_ok_iff.mp hcheck
      cases hsplice.symm.trans (h.splice_of_fits hfits)
  · rintro ⟨hcheck, rfl⟩
    exact splice_of_refused hcheck

end Roomy

end CilPatch
