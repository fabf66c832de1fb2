import CilPatch.Fishing.Patches
import CilPatch.Proofs.Patch.Placement
import CilPatch.Proofs.Task

/-!
# Patches that fail

A patch may fail while it looks for its place, while it builds and when it is spliced in. Building
only gives out instructions that are not placed, and a splice of what was built changes nothing
when it fails; so every method then runs what it ran before.
-/

namespace CilPatch

/-- What a body is after instructions were given out and nothing else has happened. -/
structure Body.Grows (before after : Body) : Prop where
  frame : after = { before with instructions := after.instructions }
  instructions : before.instructions.Grows after.instructions

theorem Body.Grows.refl (body : Body) : body.Grows body := ⟨rfl, .refl _⟩

/-- What a builder owns was given out to its body. -/
theorem Builder.Owns.body_grows {start : Body} {builder : Builder} (h : builder.Owns start) :
    start.Grows builder.body :=
  ⟨h.frame, h.grows⟩

/-- A step of building that does nothing else than calls of the builder. Which ones may depend on
what the earlier ones yield. -/
def Build.MadeOfCalls {α : Type} (build : Build α) : Prop :=
  ∀ builder : Builder, ∃ calls, (build.run builder).2 = builder.after calls

namespace Build

variable {α β : Type}

/-- A step that is a call is made of it. -/
theorem madeOfCalls_of_step {build : Build α} (call : Call)
    (h : call.step = (fun _ => ()) <$> build) : build.MadeOfCalls := by
  intro builder
  refine ⟨[call], ?_⟩
  change _ = (call.step.run builder).2
  rw [h, step_map]
  rcases build.run builder with ⟨⟨fault⟩ | ⟨value⟩, after⟩ <;> rfl

@[simp] theorem madeOfCalls_pure (value : α) : (pure value : Build α).MadeOfCalls :=
  fun _ => ⟨[], rfl⟩

@[simp] theorem madeOfCalls_throw (fault : Fault) : (throw fault : Build α).MadeOfCalls :=
  fun _ => ⟨[], rfl⟩

/-- Two steps are made of the calls of both. -/
theorem MadeOfCalls.bind {build : Build α} {next : α → Build β} (h : build.MadeOfCalls)
    (hnext : ∀ value, (next value).MadeOfCalls) : (build >>= next).MadeOfCalls := by
  intro builder
  obtain ⟨calls, hcalls⟩ := h builder
  rw [step_bind]
  rcases hrun : build.run builder with ⟨⟨fault⟩ | ⟨value⟩, after⟩
  · exact ⟨calls, by rw [← hcalls, hrun]⟩
  · obtain ⟨more, hmore⟩ := hnext value after
    rw [hrun] at hcalls
    refine ⟨calls ++ more, ?_⟩
    rw [Builder.after_append, ← hcalls]
    exact hmore

/-- Steps in order are made of the calls of each. -/
theorem madeOfCalls_sequence {steps : List (Build Slot)} (h : ∀ step ∈ steps, step.MadeOfCalls) :
    (sequence steps).MadeOfCalls := by
  induction steps with
  | nil => exact madeOfCalls_pure ()
  | cons step rest ih =>
    obtain ⟨hstep, hrest⟩ := List.forall_mem_cons.mp h
    exact hstep.bind fun _ => ih hrest

@[simp] theorem madeOfCalls_continuation : continuation.MadeOfCalls := fun _ => ⟨[], rfl⟩

@[simp] theorem madeOfCalls_declare (type : TypeSig) (name : String) :
    (declare type name).MadeOfCalls := madeOfCalls_of_step (.declare type name) rfl

@[simp] theorem madeOfCalls_reserve : reserve.MadeOfCalls := madeOfCalls_of_step .reserve rfl

@[simp] theorem madeOfCalls_bind (label : Label) : (Build.bind label).MadeOfCalls :=
  fun _ => ⟨[.bind label], rfl⟩

@[simp] theorem madeOfCalls_op (opcode : Opcode) : (op opcode).MadeOfCalls :=
  madeOfCalls_of_step (.op opcode) rfl

@[simp] theorem madeOfCalls_field (opcode : Opcode) (handle : FieldHandle) :
    (field opcode handle).MadeOfCalls := madeOfCalls_of_step (.field opcode handle) rfl

@[simp] theorem madeOfCalls_call (method : MethodHandle) : (call method).MadeOfCalls :=
  madeOfCalls_of_step (.call method) rfl

@[simp] theorem madeOfCalls_constant (value : Int32) : (constant value).MadeOfCalls :=
  madeOfCalls_of_step (.constant value) rfl

@[simp] theorem madeOfCalls_load (slot : Local) : (load slot).MadeOfCalls :=
  madeOfCalls_of_step (.load slot) rfl

@[simp] theorem madeOfCalls_loadIndex (index : UInt16) : (loadIndex index).MadeOfCalls :=
  madeOfCalls_of_step (.loadIndex index) rfl

@[simp] theorem madeOfCalls_store (slot : Local) : (store slot).MadeOfCalls :=
  madeOfCalls_of_step (.store slot) rfl

@[simp] theorem madeOfCalls_loadAddress (slot : Local) : (loadAddress slot).MadeOfCalls :=
  madeOfCalls_of_step (.loadAddress slot) rfl

@[simp] theorem madeOfCalls_branch (opcode : Opcode) (target : Label) :
    (branch opcode target).MadeOfCalls := madeOfCalls_of_step (.branch opcode target) rfl

@[simp] theorem madeOfCalls_ret : ret.MadeOfCalls := madeOfCalls_of_step .ret rfl

end Build

namespace Fishing

/-- Catching is built by calls of the builder. -/
theorem madeOfCalls_catchFish (catalog : Catalog) : (catchFish catalog).MadeOfCalls := by
  refine .bind (by simp) fun bait => .bind (by simp) fun player => .bind (by simp) fun resume => ?_
  iterate 4 refine .bind (Build.madeOfCalls_sequence (by simp)) fun _ => ?_
  exact Build.madeOfCalls_sequence (by simp)

/-- Casting again is built by calls of the builder. -/
theorem madeOfCalls_recast (catalog : Catalog) (slots : Int32) (heldItem : UInt16) :
    (recast catalog slots heldItem).MadeOfCalls := by
  unfold recast
  split
  · simp
  refine .bind (by simp) fun index => .bind (by simp) fun slot => .bind (by simp) fun gate => ?_
  refine .bind (by simp) fun body => .bind (by simp) fun next => .bind (by simp) fun check => ?_
  iterate 13 refine .bind (by simp [Build.madeOfCalls_sequence]) fun _ => ?_
  exact Build.madeOfCalls_sequence (by simp)

end Fishing

namespace Assembly

/-- The first body of a list is found at its token. -/
theorem lookup_cons (token other : Token) (body : Body) (rest : List (Token × Body)) :
    ((token, body) :: rest).lookup other =
      if other = token then some body else rest.lookup other := by
  rw [List.lookup_cons]
  split
  · next h => rw [if_pos (beq_iff_eq.mp h)]
  · next h => rw [if_neg (beq_eq_false_iff_ne.mp h)]

/-- A body that is put into a list is found there, and the others are found as before. -/
theorem lookup_insertBody (token other : Token) (body : Body) (edited : List (Token × Body)) :
    (insertBody token body edited).lookup other =
      if other = token then some body else edited.lookup other := by
  induction edited with
  | nil => exact lookup_cons token other body []
  | cons entry rest ih =>
    obtain ⟨stored, kept⟩ := entry
    rw [insertBody]
    split
    · exact lookup_cons token other body _
    · split
      · next hsame =>
        subst hsame
        rw [lookup_cons, lookup_cons]
        split <;> rfl
      · next hother =>
        rw [lookup_cons, lookup_cons, ih]
        by_cases h : other = stored
        · rw [if_pos h, if_pos h, if_neg (h ▸ Ne.symm hother)]
        · rw [if_neg h, if_neg h]

/-- The bodies of an assembly in which one is edited. -/
theorem body_setBody (assembly : Assembly) (token other : Token) (body : Body) :
    (assembly.setBody token body).body other =
      if other = token then .ok body else assembly.body other := by
  rw [Assembly.body, setBody, lookup_insertBody]
  by_cases h : other = token
  · rw [if_pos h, if_pos h]
  · rw [if_neg h, if_neg h]
    rfl

/-- Whether every method that had a body has it still, where only instructions that are not placed
were given out. -/
structure KeepsBodies (before after : Assembly) : Prop where
  body : ∀ token body, before.body token = .ok body →
    ∃ kept, after.body token = .ok kept ∧ body.Grows kept
  fault : ∀ token fault, before.body token = .error fault → after.body token = .error fault

theorem KeepsBodies.refl (assembly : Assembly) : assembly.KeepsBodies assembly :=
  ⟨fun _ body h => ⟨body, h, .refl body⟩, fun _ _ h => h⟩

/-- Bodies are kept when one of them is replaced by what it has grown to. -/
theorem KeepsBodies.setBody {before after : Assembly} (h : before.KeepsBodies after) {token : Token}
    {body kept : Body} (hbody : before.body token = .ok body) (hkept : body.Grows kept) :
    before.KeepsBodies (after.setBody token kept) where
  body other found hfound := by
    rw [body_setBody]
    split
    · next hsame =>
      subst hsame
      obtain rfl := Except.ok.inj (hbody.symm.trans hfound)
      exact ⟨kept, rfl, hkept⟩
    · exact h.body other found hfound
  fault other fault hfault := by
    rw [body_setBody, if_neg, h.fault other fault hfault]
    rintro rfl
    cases hbody.symm.trans hfault

end Assembly

namespace Patch

variable {patch : Patch} {assembly before after : Assembly} {body : Body} {fault : Fault}

/-- What is injected is a fragment that was built, finished and spliced. -/
theorem inject_eq_ok_iff {index : Nat} {anchor : Slot} {report : SpliceReport} :
    (patch.inject body index anchor).outcome before = (.ok report, after) ↔
      ∃ builder fragment spliced,
        patch.build.run (Builder.start body anchor) = (.ok (), builder) ∧
        builder.finish = .ok fragment ∧
        (splice index fragment).run builder.body = (.ok report, spliced) ∧
        after = (before.setBody patch.method.token builder.body).setBody patch.method.token
          spliced := by
  unfold inject
  constructor
  · intro h
    rcases hbuild : patch.build.run (Builder.start body anchor) with ⟨⟨fault⟩ | ⟨⟨⟩⟩, builder⟩
    · rw [hbuild] at h
      nomatch h
    rw [hbuild] at h
    simp only [keep, Task.outcome_bind, Task.outcome_modify, Task.outcome_ofExcept] at h
    cases hfinish : builder.finish with
    | error fault =>
      rw [hfinish] at h
      nomatch h
    | ok fragment =>
      rw [hfinish] at h
      rcases hsplice : (splice index fragment).run builder.body with ⟨⟨fault⟩ | ⟨done⟩, spliced⟩
      · simp only [hsplice, Task.outcome_bind, Task.outcome_modify, Task.outcome_ofExcept] at h
        nomatch h
      · simp only [hsplice, Task.outcome_bind, Task.outcome_modify, Task.outcome_ofExcept] at h
        obtain ⟨hreport, rfl⟩ := Prod.mk.inj h
        obtain rfl := Except.ok.inj hreport
        exact ⟨builder, fragment, spliced, rfl, hfinish, hsplice, rfl⟩
  · rintro ⟨builder, fragment, spliced, hbuild, hfinish, hsplice, rfl⟩
    simp only [hbuild, hfinish, hsplice, keep, Task.outcome_bind, Task.outcome_modify,
      Task.outcome_ofExcept]

/-- Building and splicing that fails keeps the bodies. -/
theorem keepsBodies_of_inject (hcalls : patch.build.MadeOfCalls)
    (hbefore : assembly.KeepsBodies before)
    (hbody : assembly.body patch.method.token = .ok body) {index : Nat} {anchor : Slot}
    (h : (patch.inject body index anchor).outcome before = (.error fault, after)) :
    assembly.KeepsBodies after := by
  obtain ⟨calls, hrun⟩ := hcalls (Builder.start body anchor)
  unfold inject at h
  rcases hbuild : patch.build.run (Builder.start body anchor) with ⟨built, builder⟩
  rw [hbuild] at h hrun
  obtain rfl : builder = _ := hrun
  have hgrown := ((Builder.owns_start body anchor).after calls).body_grows
  have hkept := hbefore.setBody hbody hgrown
  simp only [keep, Task.outcome_bind, Task.outcome_modify, Task.outcome_ofExcept] at h
  cases built with
  | error refused =>
    obtain ⟨-, rfl⟩ := Prod.mk.inj h
    exact hkept
  | ok _ =>
    cases hfinish : ((Builder.start body anchor).after calls).finish with
    | error refused =>
      rw [hfinish] at h
      obtain ⟨-, rfl⟩ := Prod.mk.inj h
      exact hkept
    | ok fragment =>
      rw [hfinish] at h
      -- a fragment that was built has room, so its splice fails before it changes anything
      have hroom := Builder.hasRoom_of_session hfinish
      rcases hroom.splice_cases index ((Builder.start body anchor).after calls).body with
        ⟨refused, hsplice⟩ | ⟨entry, -, hsplice⟩
      · simp only [hsplice, Task.outcome_bind, Task.outcome_modify, Task.outcome_ofExcept] at h
        obtain ⟨-, rfl⟩ := Prod.mk.inj h
        exact hkept.setBody hbody hgrown
      · simp only [hsplice, Task.outcome_bind, Task.outcome_modify, Task.outcome_ofExcept] at h
        cases h

/-- A patch that fails keeps the bodies. -/
theorem keepsBodies_of_apply (hcalls : patch.build.MadeOfCalls)
    (h : patch.apply.outcome assembly = (.error fault, after)) : assembly.KeepsBodies after := by
  unfold apply at h
  simp only [keep, Task.outcome_bind, Task.outcome_get, Task.outcome_modify, Task.outcome_ofExcept,
    Task.outcome_toTask, Noted.result_note, Task.outcome_pure] at h
  cases hbody : assembly.body patch.method.token with
  | error refused =>
    rw [hbody] at h
    obtain ⟨-, rfl⟩ := Prod.mk.inj h
    exact .refl _
  | ok body =>
    rw [hbody] at h
    have hkept := (Assembly.KeepsBodies.refl assembly).setBody hbody (.refl body)
    dsimp only at h
    cases hfound : (Pattern.findNoted patch.patterns body.instructions
        (assembly.methodName patch.method.token)).result with
    | error refused =>
      rw [hfound] at h
      obtain ⟨-, rfl⟩ := Prod.mk.inj h
      exact hkept
    | ok found =>
      rw [hfound] at h
      dsimp only at h
      cases hanchor : anchor body.instructions found
          (assembly.methodName patch.method.token) with
      | error refused =>
        rw [hanchor] at h
        obtain ⟨-, rfl⟩ := Prod.mk.inj h
        exact hkept
      | ok slot =>
        rw [hanchor] at h
        dsimp only at h
        split at h
        · cases h
        · next hinject =>
          obtain ⟨-, rfl⟩ := Prod.mk.inj h
          exact keepsBodies_of_inject hcalls hkept hbody hinject

end Patch

/-- A patch that fails leaves every method as it was: only instructions that are not placed may have
been given out. In particular a splice of a fragment that was built, at whatever place and into
whatever has come of the body, fails only by its check and then changes nothing. -/
theorem failed_patch_keepsBodies {patch : Patch} (hcalls : patch.build.MadeOfCalls)
    {assembly after : Assembly} {fault : Fault}
    (h : patch.apply.outcome assembly = (.error fault, after)) :
    assembly.KeepsBodies after ∧
      ∀ body continuation calls fragment,
        ((Builder.start body continuation).after calls).finish = .ok fragment →
        ∀ edited index refused left,
          (splice index fragment).run edited = (.error refused, left) →
          Splice.check edited index fragment = .error refused ∧ left = edited := by
  refine ⟨Patch.keepsBodies_of_apply hcalls h, ?_⟩
  intro body continuation calls fragment hfinish edited index refused left hsplice
  exact (Builder.hasRoom_of_session hfinish).splice_eq_error_iff.mp hsplice

/-- A patch that emits a constant in front of a return and then returns with it on the stack. -/
def leakyPatch : Patch where
  name := "leaky"
  method := ⟨⟨0x06000001⟩, true, 0, 0⟩
  patterns := [⟨"return", [⟨.exact .ret, .any⟩], 0⟩]
  build := Build.sequence [Build.constant 0, Build.ret]

/-- An assembly with the edited body of one method. -/
def branchAssembly : Assembly where
  image := ⟨#[], 0, 0, ⟨false, 0, 0, 0, 0, none⟩, [], ⟨0, 0⟩⟩
  cli := ⟨0, 0, 0, ⟨0, 0⟩, 0, 0, ⟨0, 0⟩, ⟨0, 0⟩⟩
  cliOffset := 0
  root := ⟨0, 0, 0, [], 0, []⟩
  metadata := #[]
  tables := ⟨0, 0, 0, 0, 0, 0, 0, none, #[], []⟩
  types := #[]
  edited := [(⟨0x06000001⟩, branchBody)]

/-- The assembly after the constant was emitted. -/
def leakyAssembly : Assembly :=
  branchAssembly.setBody ⟨0x06000001⟩ ((Builder.start branchBody ⟨1⟩).after [.constant 0]).body

set_option maxRecDepth 4000 in
/-- The patch fails behind the constant, whose instruction is not placed, and a splice of a fragment
fails at a place that it was not built for. -/
theorem failed_patch_keepsBodies_leaky :
    leakyPatch.apply.outcome branchAssembly =
        (.error (.instruction (.returnDepth 1)), leakyAssembly) ∧
      branchAssembly.KeepsBodies leakyAssembly ∧
      Splice.check paddedBody 0 padFragment = .error (.branch (.wrongAnchor ⟨1⟩ ⟨0⟩ 0)) := by
  have hcalls : leakyPatch.build.MadeOfCalls := Build.madeOfCalls_sequence (by simp)
  have hfails : leakyPatch.apply.outcome branchAssembly =
      (.error (.instruction (.returnDepth 1)), leakyAssembly) := by
    with_unfolding_all rfl
  have hsplice : (splice 0 padFragment).run paddedBody =
      (.error (.branch (.wrongAnchor ⟨1⟩ ⟨0⟩ 0)), paddedBody) := by
    with_unfolding_all rfl
  obtain ⟨hkept, hunchanged⟩ := failed_patch_keepsBodies hcalls hfails
  have hfinish : ((Builder.start branchBody ⟨1⟩).after [.op (.single 0)]).finish =
      .ok padFragment := rfl
  exact ⟨hfails, hkept, (hunchanged branchBody ⟨1⟩ _ _ hfinish _ _ _ _ hsplice).1⟩

end CilPatch
