import CilPatch.Proofs.Patch.Room
import CilPatch.Proofs.Patch.Placement
import CilPatch.Proofs.Signature.Extension

/-!
# Numbers of local variables

The index of a local variable is handed out when its fragment is built, the variable is added to
the method when the fragment is spliced, and its type is written when the method is stored. The
three agree: the variable stands in the signature where its index says. A fragment that counts from
another number of variables than the method has is refused.
-/

namespace CilPatch

namespace Builder

/-- Whether a builder has declared what another one had, in front of whatever else. -/
structure Declares (before after : Builder) : Prop where
  locals : before.locals <+: after.locals
  firstLocal : after.firstLocal = before.firstLocal

variable {builder : Builder}

/-- A builder keeps what it has declared over several calls. -/
theorem Declares.trans {first second third : Builder} (h : Declares first second)
    (hnext : Declares second third) : Declares first third :=
  ⟨h.locals.trans hnext.locals, hnext.firstLocal.trans h.firstLocal⟩

/-- A builder counts no fewer variables than before. -/
theorem Declares.localCount_le {before after : Builder} (h : Declares before after) :
    before.localCount ≤ after.localCount := by
  rw [localCount, localCount, h.firstLocal]
  exact Nat.add_le_add_left h.locals.length_le _

/-- Whatever a call does, what was declared stays. -/
theorem declares_step (builder : Builder) (call : Call) :
    Declares builder (call.step.run builder).2 := by
  have houtcome := call.outcome builder
  generalize (call.step.run builder).1 = result at houtcome
  generalize (call.step.run builder).2 = after at houtcome ⊢
  cases houtcome with
  | declared => exact ⟨List.prefix_append _ _, rfl⟩
  | @jumped opcode label =>
    obtain ⟨hlocals, hfirst⟩ := declares_jumped builder opcode label.slot
    exact ⟨hlocals ▸ List.prefix_refl _, hfirst⟩
  | refused | reserved | bound | emitted | stranded => exact ⟨List.prefix_refl _, rfl⟩

/-- Whatever the calls are, what was declared stays. -/
theorem declares_after (builder : Builder) (calls : List Call) :
    Declares builder (builder.after calls) := by
  induction calls generalizing builder with
  | nil => exact ⟨List.prefix_refl _, rfl⟩
  | cons call rest ih => exact (builder.declares_step call).trans (ih _)

end Builder

/-- A variable that is declared gets the count of those before it as its index. -/
theorem Build.eq_of_run_declare {builder after : Builder} {type : TypeSig} {name : String}
    {slot : Local} (h : (declare type name).run builder = (.ok slot, after)) :
    slot.index.toNat = builder.localCount ∧ after = builder.declared ⟨type, some name⟩ := by
  unfold declare at h
  simp only [step_bind, step_get] at h
  by_cases hfull : Body.localLimit ≤ builder.localCount
  · simp only [hfull, if_true] at h
    cases h
  · simp only [hfull, if_false] at h
    obtain ⟨hvalue, rfl⟩ := Prod.mk.inj h
    obtain rfl := Except.ok.inj hvalue
    refine ⟨UInt16.toNat_ofNat_of_lt' ?_, rfl⟩
    exact Nat.lt_trans (Nat.not_le.mp hfull) (by decide)

namespace Fragment

/-- Whether an index was handed out for a variable of a type in a session that led to a
fragment. -/
def HandsOut (fragment : Fragment) (slot : Local) (type : TypeSig) : Prop :=
  ∃ (body : Body) (continuation : Slot) (front back : List Call) (name : String) (after : Builder),
    (Build.declare type name).run ((Builder.start body continuation).after front) =
      (.ok slot, after) ∧
    ((Builder.start body continuation).after (front ++ .declare type name :: back)).finish =
      .ok fragment

/-- An index that was handed out is that of a variable of the fragment. -/
theorem HandsOut.exists_local {fragment : Fragment} {slot : Local} {type : TypeSig}
    (h : fragment.HandsOut slot type) : ∃ position name,
      fragment.locals[position]? = some ⟨type, name⟩ ∧
        slot.index.toNat = fragment.firstLocal + position := by
  obtain ⟨body, continuation, front, back, name, after, hdeclare, hfinish⟩ := h
  obtain ⟨hindex, rfl⟩ := Build.eq_of_run_declare hdeclare
  have hfinishes := Builder.finishes_of_finish hfinish
  rw [Builder.after_append] at hfinishes
  have hstep : ((Builder.start body continuation).after front).after
      (.declare type name :: back) =
        (((Builder.start body continuation).after front).declared ⟨type, some name⟩).after back := by
    rw [Builder.after_cons, Call.step, step_map, hdeclare]
  rw [hstep] at hfinishes
  obtain ⟨hlocals, hfirst⟩ := Builder.declares_after
    (((Builder.start body continuation).after front).declared ⟨type, some name⟩) back
  refine ⟨((Builder.start body continuation).after front).locals.length, some name, ?_, ?_⟩
  · rw [hfinishes.locals]
    obtain ⟨rest, hrest⟩ := hlocals
    rw [← hrest]
    simp [Builder.declared]
  · rw [hfinishes.firstLocal, hfirst, hindex]
    rfl

end Fragment

namespace Workbench

/-- What holds of a workbench whatever has happened: no declared variable came or went, and the
variables of every spliced fragment stand among the added ones where the fragment counts them. -/
structure Numbered (declared : Nat) (bench : Workbench) : Prop where
  count : bench.body.declared = declared
  spent : ∀ fragment ∈ bench.spent, ∃ front back,
    bench.body.added = front ++ fragment.locals ++ back ∧
      fragment.firstLocal = declared + front.length

variable {bench : Workbench} {declared : Nat}

/-- A body that has only more variables leaves a workbench numbered. -/
theorem Numbered.of_prefix (h : bench.Numbered declared) {body : Body} {waiting : List Fragment}
    (hdeclared : body.declared = bench.body.declared) (hadded : bench.body.added <+: body.added) :
    (⟨body, waiting, bench.spent⟩ : Workbench).Numbered declared where
  count := hdeclared.trans h.count
  spent fragment hfragment := by
    obtain ⟨front, back, hsplit, hfirst⟩ := h.spent fragment hfragment
    obtain ⟨more, hmore⟩ := hadded
    refine ⟨front, back ++ more, ?_, hfirst⟩
    rw [← hmore, hsplit, List.append_assoc]

/-- A session of building adds no variable. -/
theorem added_session (body : Body) (continuation : Slot) (calls : List Call) :
    ((Builder.start body continuation).after calls).body.declared = body.declared ∧
      ((Builder.start body continuation).after calls).body.added = body.added := by
  have hframe := ((Builder.owns_start body continuation).after calls).frame
  exact ⟨by rw [hframe], by rw [hframe]⟩

/-- Whatever comes of a splice, the variables that there were stay in front. -/
theorem added_splice (index : Nat) (fragment : Fragment) (body : Body) :
    ((splice index fragment).run body).2.declared = body.declared ∧
      body.added <+: ((splice index fragment).run body).2.added := by
  rcases splice_cases index fragment body with ⟨fault, hrun⟩ | ⟨entry, -, ⟨fault, hrun⟩ | hrun⟩
  · rw [hrun]
    exact ⟨rfl, List.prefix_refl _⟩
  · rw [hrun]
    exact ⟨rfl, List.prefix_append _ _⟩
  · rw [hrun]
    exact ⟨rfl, List.prefix_append _ _⟩

/-- One more thing that happens leaves a workbench numbered. -/
theorem Numbered.step {after : Workbench} (h : bench.Numbered declared)
    (hstep : Step bench after) : after.Numbered declared := by
  cases hstep with
  | built =>
    obtain ⟨hdeclared, hadded⟩ := added_session bench.body _ _
    exact h.of_prefix hdeclared (hadded ▸ List.prefix_refl _)
  | abandoned =>
    obtain ⟨hdeclared, hadded⟩ := added_session bench.body _ _
    exact h.of_prefix hdeclared (hadded ▸ List.prefix_refl _)
  | @spliced front back fragment index report body _ hsplice =>
    obtain ⟨entry, hfits, -, rfl⟩ := Splice.eq_spliced_of_ok hsplice
    have hkept : (⟨Splice.spliced bench.body index fragment entry, front ++ back,
        bench.spent⟩ : Workbench).Numbered declared := h.of_prefix rfl (List.prefix_append _ _)
    refine ⟨hkept.count, fun other hother => ?_⟩
    rcases List.mem_cons.mp hother with rfl | hold
    · refine ⟨bench.body.added, [], (List.append_nil _).symm, ?_⟩
      rw [← hfits.numbering, Body.localCount, h.count]
    · exact hkept.spent other hold
  | @failed fragment index fault body _ hsplice =>
    obtain ⟨hdeclared, hadded⟩ := added_splice index fragment bench.body
    rw [hsplice] at hdeclared hadded
    exact h.of_prefix hdeclared hadded
  | @again fragment index =>
    obtain ⟨hdeclared, hadded⟩ := added_splice index fragment bench.body
    exact h.of_prefix hdeclared hadded
  | widened hwiden =>
    rw [Body.eq_of_addLocal hwiden]
    exact h.of_prefix rfl (List.prefix_append _ _)

/-- Whatever comes of a body without added variables is numbered. -/
theorem Arises.numbered {body : Body} (h : Arises body bench) : bench.Numbered body.declared := by
  induction h with
  | start => exact ⟨rfl, by simp⟩
  | step _ hstep ih => exact ih.step hstep

end Workbench

/-- A fragment is refused, and nothing changes, when the method has another number of variables
than when the fragment was built. -/
theorem splice_of_stale {start body : Body} {continuation : Slot} {calls : List Call}
    {fragment : Fragment}
    (hfinish : ((Builder.start start continuation).after calls).finish = .ok fragment)
    (hstale : start.localCount ≠ body.localCount) (index : Nat) :
    ∃ fault, (splice index fragment).run body = (.error fault, body) := by
  have hfirst : fragment.firstLocal = start.localCount :=
    (Builder.finishes_of_finish hfinish).firstLocal.trans
      (Builder.declares_after (Builder.start start continuation) calls).firstLocal
  rcases splice_cases index fragment body with hrefused | ⟨entry, hfits, -⟩
  · exact hrefused
  · exact absurd (hfirst.symm.trans hfits.numbering.symm) hstale

/-- Whatever has been built for a method and spliced into it, every index that was handed out for a
variable of a spliced fragment is its position in the extended signature, with the declared
variables in front as they were. A fragment that was built when the method had another number of
variables is refused. -/
theorem locals_agree_with_signature {old : Option Bytes} {locals : List LocalSig}
    {header : MethodHeader} {code : Bytes} {start : Body} {bench : Workbench}
    (hold : Signature.Lists old locals) (hstart : Body.decode header code locals.length = .ok start)
    (harises : Workbench.Arises start bench) :
    (∀ signature, (∀ slot ∈ bench.body.added, slot.type.RoundTrips) →
      Signature.extendLocals old (bench.body.added.map LocalSlot.type) = .ok signature →
      ∃ all, Signature.Lists (some signature.toArray) all ∧ locals <+: all ∧
        all.length = bench.body.localCount ∧
        ∀ fragment ∈ bench.spent, ∀ slot type, fragment.HandsOut slot type →
          all[slot.index.toNat]? = some type.localSig) ∧
    ∀ body continuation calls fragment,
      ((Builder.start body continuation).after calls).finish = .ok fragment →
      body.localCount ≠ bench.body.localCount →
      ∀ index, ∃ fault, (splice index fragment).run bench.body = (.error fault, bench.body) := by
  refine ⟨fun signature htypes hextend => ?_, fun body continuation calls fragment hfinish hstale =>
    splice_of_stale hfinish hstale⟩
  have hnumbered := harises.numbered
  have hdeclared : start.declared = locals.length := by
    obtain ⟨decoded, -, h⟩ := bind_eq_ok_iff.mp hstart
    obtain ⟨regions, -, h⟩ := bind_eq_ok_iff.mp h
    rw [← Except.ok.inj h]
  rw [hdeclared] at hnumbered
  refine ⟨locals ++ (bench.body.added.map LocalSlot.type).map TypeSig.localSig,
    Signature.lists_extendLocals hold (by simpa using htypes) hextend, List.prefix_append _ _, ?_, ?_⟩
  · simp [Body.localCount, hnumbered.count]
  · intro fragment hfragment slot type hhands
    obtain ⟨position, name, hlocal, hindex⟩ := hhands.exists_local
    obtain ⟨front, back, hadded, hfirst⟩ := hnumbered.spent fragment hfragment
    have hposition : bench.body.added[front.length + position]? = some ⟨type, name⟩ := by
      have hlt := (List.getElem?_eq_some_iff.mp hlocal).1
      rw [hadded, List.append_assoc, List.getElem?_append_right (Nat.le_add_right _ _),
        Nat.add_sub_cancel_left, List.getElem?_append_left hlt, hlocal]
    rw [hindex, hfirst, Nat.add_assoc, List.getElem?_append_right (Nat.le_add_right _ _),
      Nat.add_sub_cancel_left, List.getElem?_map, List.getElem?_map, hposition]
    rfl

/-- A body of two instructions that has declared a local variable. -/
def countingBody : Body := { branchBody with declared := 1 }

/-- The calls that declare a pinned reference and store into it. -/
def pinningCalls : List Call :=
  [.constant 5, .declare (.pinned (.byRef .i4)) "pin", .store ⟨1⟩]

/-- A session with these calls in front of the return. -/
def pinningBuilder : Builder := (Builder.start countingBody ⟨1⟩).after pinningCalls

/-- The fragment that comes of the session. -/
def pinningFragment : Fragment where
  instructions := #[⟨2⟩, ⟨3⟩]
  locals := [⟨.pinned (.byRef .i4), some "pin"⟩]
  firstLocal := 1
  continuation := ⟨1⟩
  maxStack := 1

/-- The fragment is in place. -/
def pinnedBody : Body := Splice.spliced pinningBuilder.body 1 pinningFragment ⟨2⟩

set_option maxRecDepth 4000 in
/-- The fragment is put in place. -/
private theorem arises_pinnedBody :
    Workbench.Arises countingBody ⟨pinnedBody, [], [pinningFragment]⟩ := by
  have hfinish : pinningBuilder.finish = .ok pinningFragment := rfl
  have hfits : Splice.Fits pinningBuilder.body 1 pinningFragment ⟨2⟩ :=
    ⟨by decide +kernel, rfl, by decide +kernel, rfl⟩
  have hstep : Workbench.Step ⟨pinningBuilder.body, [pinningFragment], []⟩
      ⟨pinnedBody, [] ++ [], [pinningFragment]⟩ := .spliced rfl (splice_of_fits hfits)
  exact .step (.step .start (.built hfinish)) hstep

set_option maxRecDepth 4000 in
/-- The session has handed out the second index. -/
private theorem handsOut_pinningFragment :
    pinningFragment.HandsOut ⟨1⟩ (.pinned (.byRef .i4)) :=
  ⟨countingBody, ⟨1⟩, [.constant 5], [.store ⟨1⟩], "pin", _, rfl, rfl⟩

/-- The pinned reference that was declared behind an integer is the second variable of the
signature. -/
theorem locals_agree_with_signature_pinned :
    ∃ all, Signature.Lists (some #[0x07, 0x02, 0x08, 0x45, 0x10, 0x08]) all ∧
      [{ type := .i4 }] <+: all ∧
      all[1]? = some { isByRef := true, isPinned := true, type := .i4 } := by
  have hold : Signature.Lists (some #[0x07, 0x01, 0x08]) [{ type := .i4 }] := ⟨_, rfl, rfl⟩
  have hstart : Body.decode branchHeader #[0x2B, 0x00, 0x2A] 1 = .ok countingBody :=
    bind_eq_ok_iff.mpr ⟨_, Code.decode_eq_ok_iff.mpr ⟨by decide, _, _, Code.resolved_branch.written,
      Code.resolved_branch.resolved, rfl⟩, rfl⟩
  have hnone : pinningBuilder.body.added = countingBody.added := by
    rw [pinningBuilder]
    exact (Workbench.added_session countingBody ⟨1⟩ pinningCalls).2
  have hadded : pinnedBody.added = [⟨.pinned (.byRef .i4), some "pin"⟩] := by
    simp only [pinnedBody, Splice.spliced, hnone]
    rfl
  have htype : (TypeSig.pinned (.byRef .i4)).RoundTrips := ⟨_, rfl, rfl⟩
  have hextend : Signature.extendLocals (some #[0x07, 0x01, 0x08])
      (pinnedBody.added.map LocalSlot.type) = .ok [0x07, 0x02, 0x08, 0x45, 0x10, 0x08] := by
    rw [hadded]
    rfl
  obtain ⟨all, hlists, hprefix, -, hposition⟩ :=
    (locals_agree_with_signature hold hstart arises_pinnedBody).1 _
      (by simpa [hadded] using htype) hextend
  exact ⟨all, hlists, hprefix, hposition pinningFragment (List.mem_singleton_self _) _ _
    handsOut_pinningFragment⟩

end CilPatch
