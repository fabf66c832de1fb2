import CilPatch.Proofs.Code.RoundTrip
import CilPatch.Proofs.Patch.Rewiring
import CilPatch.Proofs.Patch.Room

/-!
# Placement

An instruction is placed at most once as long as no fragment is put in place twice. A fragment
without local variables can be, since only the numbering of local variables tells a splice that a
fragment is stale; so an instruction is placed twice exactly when a copy of a fragment has been put
in place after the fragment. Jumps and boundaries lead to placed instructions in any case.
-/

namespace CilPatch

/-- A body whose jumps and region boundaries lead to placed instructions. -/
structure Body.Linked (body : Body) : Prop where
  targets : ∀ slot ∈ body.instructions.order,
    ∀ target ∈ (body.instructions.get slot).targets, target ∈ body.instructions.order
  boundaries : ∀ region ∈ body.regions, ∀ slot ∈ region.boundaries,
    slot ∈ body.instructions.order

namespace Splice

variable {fragment : Fragment} {source destination : Slot}

/-- The pass gives an instruction no other targets than those it has had and the destination. -/
theorem targets_foldl_redirectEntry {entries : List (Slot × Nat)} {state : InstrList × Array Nat}
    {slot target : Slot} (h : target ∈ ((entries.foldl (redirectEntry fragment source destination)
      state).1.get slot).targets) :
    target ∈ (state.1.get slot).targets ∨ target = destination := by
  induction entries generalizing state with
  | nil => exact Or.inl h
  | cons entry rest ih =>
    rcases ih h with hstep | hdestination
    · by_cases hslot : slot = entry.1
      · subst hslot
        rw [get_redirectEntry_self] at hstep
        split at hstep
        · exact Or.inl hstep
        · rw [Instruction.targets_retarget, List.mem_map] at hstep
          obtain ⟨old, hold, rfl⟩ := hstep
          split
          · exact Or.inr rfl
          · exact Or.inl hold
      · rw [get_redirectEntry_of_ne _ _ _ _ _ hslot] at hstep
        exact Or.inl hstep
    · exact Or.inr hdestination

variable {body : Body} {index : Nat} {entry : Slot}

/-- What was placed stays placed. -/
theorem mem_order_spliced_of_mem {slot : Slot} (h : slot ∈ body.instructions.order) :
    slot ∈ (spliced body index fragment entry).instructions.order :=
  mem_order_spliced.mpr (Or.inl h)

/-- A splice leaves jumps and boundaries linked when those of the fragment that were not placed
before lead into the fragment or to its continuation. -/
theorem Fits.linked_spliced (h : Fits body index fragment entry) (hlinked : body.Linked)
    (hclosed : ∀ slot ∈ fragment.instructions, slot ∉ body.instructions.order →
      ∀ target ∈ (body.instructions.get slot).targets,
        target = fragment.continuation ∨ target ∈ fragment.instructions) :
    (spliced body index fragment entry).Linked where
  targets slot hslot target htarget := by
    by_cases hplaced : slot ∈ body.instructions.order
    · rcases targets_foldl_redirectEntry htarget with hold | rfl
      · exact mem_order_spliced_of_mem (hlinked.targets slot hplaced target hold)
      · exact mem_order_spliced.mpr (Or.inr (mem_of_first h.entry))
    · have hmember := (mem_order_spliced.mp hslot).resolve_left hplaced
      have hsame : (spliced body index fragment entry).instructions.get slot =
          body.instructions.get slot := get_redirect_of_not_mem hplaced
      rw [hsame] at htarget
      rcases hclosed slot hmember hplaced target htarget with rfl | hinside
      · exact mem_order_spliced_of_mem h.continuation_mem
      · exact mem_order_spliced.mpr (Or.inr hinside)
  boundaries region hregion slot hslot := by
    obtain ⟨old, hold, rfl⟩ := List.mem_map.mp hregion
    rw [Region.retarget_eq_mapBoundaries, Region.boundaries_mapBoundaries] at hslot
    obtain ⟨boundary, hboundary, rfl⟩ := List.mem_map.mp hslot
    exact h.moved_mem (hlinked.boundaries old hold boundary hboundary)

/-- The order before a splice is part of the order after it. -/
theorem sublist_order_spliced :
    body.instructions.order.toList.Sublist
      (spliced body index fragment entry).instructions.order.toList := by
  have hsplit := List.take_append_drop index body.instructions.order.toList
  rw [spliced, InstrList.toList_order_insert, order_redirect]
  conv => lhs; rw [← hsplit]
  exact (List.sublist_append_left _ _).append (List.Sublist.refl _)

/-- A splice of what is placed already places it twice. -/
theorem not_nodup_spliced (hentry : fragment.entry? = some entry)
    (hplaced : ∀ slot ∈ fragment.instructions, slot ∈ body.instructions.order) :
    ¬(spliced body index fragment entry).instructions.order.toList.Nodup := by
  intro hdistinct
  have hinside : entry ∈ fragment.instructions.toList := (mem_of_first hentry).val
  rw [spliced, InstrList.toList_order_insert, order_redirect, List.append_assoc,
    List.nodup_append, List.nodup_append] at hdistinct
  obtain ⟨-, ⟨-, -, hback⟩, hfront⟩ := hdistinct
  have hold : entry ∈ body.instructions.order.toList := (hplaced entry (mem_of_first hentry)).val
  rw [← List.take_append_drop index body.instructions.order.toList] at hold
  rcases List.mem_append.mp hold with hbefore | hbehind
  · exact hfront entry hbefore entry (List.mem_append_left _ hinside) rfl
  · exact hback entry hinside entry hbehind rfl

end Splice

namespace Workbench

/-- A copy of a fragment is put in place after the fragment. -/
inductive Reuses : Workbench → Workbench → Prop
  /-- The splice of the copy succeeds. -/
  | spliced {bench : Workbench} {fragment : Fragment} {index : Nat} {report : SpliceReport}
      {body : Body} (hspent : fragment ∈ bench.spent)
      (h : (splice index fragment).run bench.body = (.ok report, body)) :
      Reuses bench ⟨body, bench.waiting, bench.spent⟩

/-- What can come of a body when no copy of a fragment is put in place after the fragment. -/
inductive ArisesOnce (body : Body) : Workbench → Prop
  /-- Nothing has happened. -/
  | start : ArisesOnce body ⟨body, [], []⟩
  /-- One thing more has happened, and it was no reuse. -/
  | step {before after : Workbench} (h : ArisesOnce body before) (hstep : Step before after)
      (honce : ¬Reuses before after) : ArisesOnce body after

/-- What a step does to the body. -/
inductive Change (before after : Workbench) : Prop
  /-- Instructions are given out and not placed. -/
  | grown {builder : Builder} (howns : builder.Owns before.body)
      (hbody : after.body = builder.body) (hspent : after.spent = before.spent)
  /-- A fragment that has waited is put in place. -/
  | spliced {fragment : Fragment} {index : Nat} {entry : Slot}
      (hwaiting : fragment ∈ before.waiting) (hfits : Splice.Fits before.body index fragment entry)
      (hbody : after.body = Splice.spliced before.body index fragment entry)
      (hspent : after.spent = fragment :: before.spent)
  /-- A copy of a fragment is put in place after the fragment. -/
  | reused {fragment : Fragment} {index : Nat} {entry : Slot} (hold : fragment ∈ before.spent)
      (hfits : Splice.Fits before.body index fragment entry)
      (hbody : after.body = Splice.spliced before.body index fragment entry)
      (hspent : after.spent = before.spent) (hreuses : Reuses before after)
  /-- Neither the instructions nor the regions change. -/
  | kept (hinstructions : after.body.instructions = before.body.instructions)
      (hregions : after.body.regions = before.body.regions) (hspent : after.spent = before.spent)

variable {start : Body} {before after : Workbench}

/-- A step does one of these things to the body. -/
theorem Step.change (h : Step before after)
    (hroom : ∀ fragment ∈ before.waiting ++ before.spent, fragment.HasRoom) :
    Change before after := by
  cases h with
  | @built continuation calls fragment _ =>
    exact .grown ((Builder.owns_start before.body continuation).after calls) rfl rfl
  | @abandoned continuation calls =>
    exact .grown ((Builder.owns_start before.body continuation).after calls) rfl rfl
  | @spliced front back fragment index report body hwaiting hsplice =>
    obtain ⟨entry, hfits, -, rfl⟩ := Splice.eq_spliced_of_ok hsplice
    exact .spliced (by simp [hwaiting]) hfits rfl rfl
  | @failed fragment index fault body hwaiting hsplice =>
    have hroomy := hroom fragment (List.mem_append_left _ hwaiting)
    obtain ⟨-, rfl⟩ := hroomy.splice_eq_error_iff.mp hsplice
    exact .kept rfl rfl rfl
  | @again fragment index hspent =>
    rcases (hroom fragment (List.mem_append_right _ hspent)).splice_cases index before.body with
      ⟨fault, hrun⟩ | ⟨entry, hfits, hrun⟩
    · rw [hrun]
      exact .kept rfl rfl rfl
    · rw [hrun]
      exact .reused hspent hfits rfl rfl (.spliced hspent hrun)
  | @widened slot body hwiden =>
    obtain rfl := Body.eq_of_addLocal hwiden
    exact .kept rfl rfl rfl

/-- The order before a step is part of the order after it. -/
theorem Change.sublist_order (h : Change before after) :
    before.body.instructions.order.toList.Sublist after.body.instructions.order.toList := by
  cases h with
  | grown howns hbody =>
    rw [hbody, howns.grows.order]
  | spliced _ _ hbody =>
    rw [hbody]
    exact Splice.sublist_order_spliced
  | reused _ _ hbody =>
    rw [hbody]
    exact Splice.sublist_order_spliced
  | kept hinstructions => rw [hinstructions]

/-- The instructions of the fragments that have been spliced are placed. -/
theorem Arises.placed_of_spent (h : Arises start after) :
    ∀ fragment ∈ after.spent, ∀ slot ∈ fragment.instructions,
      slot ∈ after.body.instructions.order := by
  induction h with
  | start => simp
  | @step before after hbefore hstep ih =>
    have hchange := hstep.change hbefore.hasRoom
    have hkept : ∀ fragment ∈ before.spent, ∀ slot ∈ fragment.instructions,
        slot ∈ after.body.instructions.order := by
      intro fragment hfragment slot hslot
      have hmem := hchange.sublist_order.subset (ih fragment hfragment slot hslot).val
      exact Array.mem_toList_iff.mp hmem
    cases hchange with
    | @spliced fragment index entry _ _ hbody hspent =>
      rw [hspent]
      rintro _ (_ | ⟨_, hfragment⟩) slot hslot
      · rw [hbody]
        exact Splice.mem_order_spliced.mpr (Or.inr hslot)
      · exact hkept _ hfragment slot hslot
    | grown _ _ hspent => rwa [hspent]
    | reused _ _ _ hspent => rwa [hspent]
    | kept _ _ hspent => rwa [hspent]

/-- A step keeps jumps and boundaries linked. -/
theorem Change.linked (h : Change before after) (hsound : before.Sound)
    (hplaced : ∀ fragment ∈ before.spent, ∀ slot ∈ fragment.instructions,
      slot ∈ before.body.instructions.order) (hlinked : before.body.Linked) :
    after.body.Linked := by
  cases h with
  | @grown builder howns hbody =>
    rw [hbody]
    refine ⟨fun slot hslot target htarget => ?_, fun region hregion slot hslot => ?_⟩
    · rw [howns.grows.order] at hslot ⊢
      rw [howns.grows.get (hsound.placed slot hslot)] at htarget
      exact hlinked.targets slot hslot target htarget
    · have hregions : builder.body.regions = before.body.regions := by rw [howns.frame]
      rw [howns.grows.order]
      exact hlinked.boundaries region (hregions ▸ hregion) slot hslot
  | @spliced fragment index entry hwaiting hfits hbody =>
    rw [hbody]
    exact hfits.linked_spliced hlinked fun slot hslot _ =>
      (hsound.ready fragment hwaiting).closed slot hslot
  | @reused fragment index entry hold hfits hbody =>
    rw [hbody]
    exact hfits.linked_spliced hlinked fun slot hslot hunplaced =>
      absurd (hplaced fragment hold slot hslot) hunplaced
  | kept hinstructions hregions =>
    refine ⟨?_, ?_⟩ <;> rw [hinstructions]
    · exact hlinked.targets
    · rw [hregions]
      exact hlinked.boundaries

/-- A step that is no reuse places nothing twice. -/
theorem Change.nodup_order (h : Change before after) (hsound : before.Sound)
    (hdistinct : before.body.instructions.order.toList.Nodup) (honce : ¬Reuses before after) :
    after.body.instructions.order.toList.Nodup := by
  cases h with
  | grown howns hbody => rwa [hbody, howns.grows.order]
  | @spliced fragment index entry hwaiting hfits hbody =>
    rw [hbody]
    exact Splice.distinct_spliced (hsound.ready fragment hwaiting) hdistinct
  | reused _ _ _ _ hreuses => exact absurd hreuses honce
  | kept hinstructions => rwa [hinstructions]

/-- A reuse places something twice. -/
theorem Reuses.not_nodup_order (h : Reuses before after)
    (hplaced : ∀ fragment ∈ before.spent, ∀ slot ∈ fragment.instructions,
      slot ∈ before.body.instructions.order) :
    ¬after.body.instructions.order.toList.Nodup := by
  cases h with
  | @spliced fragment index report body hspent hsplice =>
    obtain ⟨entry, hfits, -, rfl⟩ := Splice.eq_spliced_of_ok hsplice
    exact Splice.not_nodup_spliced hfits.entry (hplaced fragment hspent)

/-- What comes of a body without reuse comes of it. -/
theorem ArisesOnce.arises (h : ArisesOnce start after) : Arises start after := by
  induction h with
  | start => exact .start
  | step _ hstep _ ih => exact .step ih hstep

/-- Without reuse nothing is placed twice. -/
theorem ArisesOnce.nodup_order (h : ArisesOnce start after)
    (hbacked : start.instructions.isBacked = true)
    (hdistinct : start.instructions.order.toList.Nodup) :
    after.body.instructions.order.toList.Nodup := by
  induction h with
  | start => exact hdistinct
  | step hbefore hstep honce ih =>
    have harises := hbefore.arises
    exact (hstep.change harises.hasRoom).nodup_order (harises.sound hbacked) ih honce

/-- Where nothing is placed twice, there was no reuse. -/
theorem Arises.arisesOnce (h : Arises start after)
    (hdistinct : after.body.instructions.order.toList.Nodup) : ArisesOnce start after := by
  induction h with
  | start => exact .start
  | step hbefore hstep ih =>
    have hsublist := (hstep.change hbefore.hasRoom).sublist_order
    refine .step (ih (hdistinct.sublist hsublist)) hstep fun hreuses => ?_
    exact hreuses.not_nodup_order hbefore.placed_of_spent hdistinct

end Workbench

namespace Body

/-- A decoded body places each of its instructions once. -/
theorem instructions_of_decode {header : MethodHeader} {code : Bytes} {declared : Nat}
    {body : Body} (h : decode header code declared = .ok body) :
    body.instructions.isBacked = true ∧ body.instructions.order.toList.Nodup := by
  obtain ⟨decoded, hdecoded, h⟩ := bind_eq_ok_iff.mp h
  obtain ⟨regions, -, h⟩ := bind_eq_ok_iff.mp h
  obtain rfl := Except.ok.inj h
  obtain ⟨-, raws, instructions, -, -, rfl⟩ := Code.decode_eq_ok_iff.mp hdecoded
  refine ⟨?_, InstrList.nodup_order_ofInstructions _⟩
  refine Array.all_eq_true_iff_forall_mem.mpr fun slot hslot => ?_
  obtain ⟨position, hposition⟩ := InstrList.exists_slotAt? hslot
  obtain ⟨hlt, rfl⟩ := (InstrList.slotAt?_ofInstructions_iff _).mp hposition
  exact decide_eq_true hlt

end Body

/-- Whatever is built and spliced after a body was decoded, also copies of fragments: the order
places each instruction at most once exactly when no copy of a fragment has been put in place after
the fragment, and a step, whether it succeeds or fails, keeps jumps and region boundaries leading to
placed instructions. -/
theorem nodup_order_iff_arisesOnce {header : MethodHeader} {code : Bytes} {declared : Nat}
    {start : Body} (hdecode : Body.decode header code declared = .ok start) {bench : Workbench}
    (harises : Workbench.Arises start bench) :
    (bench.body.instructions.order.toList.Nodup ↔ Workbench.ArisesOnce start bench) ∧
      ∀ after, Workbench.Step bench after → bench.body.Linked → after.body.Linked := by
  obtain ⟨hbacked, hdistinct⟩ := Body.instructions_of_decode hdecode
  refine ⟨⟨harises.arisesOnce, fun honce => honce.nodup_order hbacked hdistinct⟩, ?_⟩
  intro after hstep
  exact (hstep.change harises.hasRoom).linked (harises.sound hbacked) harises.placed_of_spent

/-- The header of a method with a short branch to the return behind it. -/
def branchHeader : MethodHeader := ⟨3, 1, 0, 8, false, false, []⟩

/-- A short branch to the return behind it. -/
def branchBody : Body where
  instructions := .ofInstructions #[⟨.single 0x2B, .target ⟨1⟩⟩, ⟨.ret, .none⟩]
  regions := []
  maxStack := 8
  initLocals := false
  localSig := 0
  declared := 0
  added := []

/-- The short branch is decoded. -/
theorem decode_branchBody : Body.decode branchHeader #[0x2B, 0x00, 0x2A] 0 = .ok branchBody :=
  bind_eq_ok_iff.mpr ⟨_, Code.decode_eq_ok_iff.mpr ⟨by decide, _, _, Code.resolved_branch.written,
    Code.resolved_branch.resolved, rfl⟩, rfl⟩

/-- A session that emits an instruction without effect in front of the return. -/
def padBuilder : Builder := (Builder.start branchBody ⟨1⟩).after [.op (.single 0)]

/-- The fragment that comes of the session. -/
def padFragment : Fragment where
  instructions := #[⟨2⟩]
  locals := []
  firstLocal := 0
  continuation := ⟨1⟩
  maxStack := 0

/-- The fragment is in place. -/
def paddedBody : Body := Splice.spliced padBuilder.body 1 padFragment ⟨2⟩

set_option maxRecDepth 4000 in
/-- The fragment is put in place. -/
theorem arises_paddedBody : Workbench.Arises branchBody ⟨paddedBody, [], [padFragment]⟩ := by
  have hfinish : padBuilder.finish = .ok padFragment := rfl
  have hfits : Splice.Fits padBuilder.body 1 padFragment ⟨2⟩ :=
    ⟨by decide +kernel, rfl, by decide +kernel, rfl⟩
  have hstep : Workbench.Step ⟨padBuilder.body, [padFragment], []⟩
      ⟨paddedBody, [] ++ [], [padFragment]⟩ := .spliced rfl (splice_of_fits hfits)
  exact .step (.step .start (.built hfinish)) hstep

/-- A fragment is put in place and nothing is placed twice. -/
theorem nodup_order_iff_arisesOnce_padded :
    Body.decode branchHeader #[0x2B, 0x00, 0x2A] 0 = .ok branchBody ∧
      Workbench.ArisesOnce branchBody ⟨paddedBody, [], [padFragment]⟩ ∧
      ∀ after, Workbench.Step ⟨paddedBody, [], [padFragment]⟩ after → after.body.Linked := by
  obtain ⟨hiff, hlinked⟩ := nodup_order_iff_arisesOnce decode_branchBody arises_paddedBody
  refine ⟨decode_branchBody, hiff.mp (by decide +kernel), fun after hstep => hlinked after hstep ?_⟩
  exact ⟨by decide +kernel, by decide +kernel⟩

set_option maxRecDepth 4000 in
/-- A copy of the fragment is put in place behind it, and its instruction is placed twice. -/
theorem exists_placed_twice :
    ∃ start bench, Body.decode branchHeader #[0x2B, 0x00, 0x2A] 0 = .ok start ∧
      Workbench.Arises start bench ∧ ¬bench.body.instructions.order.toList.Nodup := by
  have hfits : Splice.Fits paddedBody 2 padFragment ⟨2⟩ :=
    ⟨by decide +kernel, rfl, by decide +kernel, rfl⟩
  have hstep : Workbench.Step ⟨paddedBody, [], [padFragment]⟩
      ⟨((splice 2 padFragment).run paddedBody).2, [], [padFragment]⟩ :=
    .again (List.mem_singleton_self _)
  refine ⟨_, _, decode_branchBody, .step arises_paddedBody hstep, ?_⟩
  simp only [splice_of_fits hfits]
  exact Splice.not_nodup_spliced rfl (by decide +kernel)

end CilPatch
