import CilPatch.Proofs.Patch.Followed

/-!
# Where jumps land

Whatever is called, a jump that is emitted where control comes carries the depth that is known at
its target, and none to the continuation. With that, what the builder has followed fits the control
flow of the finished fragment, except for the depths that it has guessed.
-/

namespace CilPatch

namespace Builder

variable {builder : Builder} {start : Body} {past : List Followed}

/-- The jumps that control comes to carry the depths that are known at their targets, and none to
the continuation. -/
def Lands (builder : Builder) (past : List Followed) : Prop :=
  ∀ followed ∈ past, followed.live = true → followed.emitted.isJump = true →
    ∀ label ∈ followed.emitted.instruction.targets,
      (label = builder.continuation → followed.after = 0) ∧
      (label ≠ builder.continuation → label ∈ builder.reserved ∧
        builder.labelDepth? label = some followed.after)

/-- Jumps land where they did as long as no label and no depth is forgotten. -/
theorem Lands.mono {other : Builder} (h : builder.Lands past)
    (hcontinuation : other.continuation = builder.continuation)
    (hreserved : ∀ label ∈ builder.reserved, label ∈ other.reserved)
    (hknown : ∀ label depth, builder.labelDepth? label = some depth →
      other.labelDepth? label = some depth) : other.Lands past := by
  intro followed hfollowed hlive hjump label hlabel
  obtain ⟨hleaves, hinside⟩ := h followed hfollowed hlive hjump label hlabel
  rw [hcontinuation]
  refine ⟨hleaves, fun hne => ?_⟩
  obtain ⟨hmem, hdepth⟩ := hinside hne
  exact ⟨hreserved label hmem, hknown label _ hdepth⟩

/-- An instruction that does not jump lands nowhere. -/
theorem Lands.pushed (h : builder.Lands past) {emitted : Emitted}
    (hjump : emitted.isJump = false) :
    (builder.pushed emitted).Lands (past ++ [builder.meets emitted]) := by
  intro followed hfollowed hlive hjumps
  rcases List.mem_append.mp hfollowed with hold | hnew
  · exact h.mono rfl (fun _ hmem => hmem)
      (fun _ _ hknown => hknown) followed hold hlive hjumps
  · rw [List.mem_singleton.mp hnew] at hjumps
    change emitted.isJump = true at hjumps
    rw [hjump] at hjumps
    cases hjumps

/-- A branch that is emitted lands where it should. -/
theorem Lands.jumped (h : builder.Lands past) {opcode : Opcode} {label : Slot}
    (hbranch : builder.CanBranch opcode label)
    (hagrees : builder.unreachable = false →
      (builder.pushed (.ofTable ⟨opcode, .target label⟩)).Agrees label) :
    (builder.jumped opcode label).Lands
      (past ++ [builder.meets (.ofTable ⟨opcode, .target label⟩)]) := by
  intro followed hfollowed hlive hjumps other hother
  rcases List.mem_append.mp hfollowed with hold | hnew
  · have hkept : (builder.jumped opcode label).Lands past := by
      cases hreach : builder.unreachable with
      | true =>
        simp only [Builder.jumped, hreach, if_true]
        exact h.mono rfl (fun _ hmem => hmem) (fun _ _ hknown => hknown)
      | false =>
        simp only [Builder.jumped, hreach, Bool.false_eq_true, if_false]
        exact h.mono rfl (fun _ hmem => hmem) (fun _ _ hknown => labelDepth?_noted hknown)
    exact hkept followed hold hlive hjumps other hother
  · obtain rfl := List.mem_singleton.mp hnew
    have hreach : builder.unreachable = false := by simpa [meets] using hlive
    obtain rfl : other = label := List.mem_singleton.mp hother
    have hagrees := hagrees hreach
    simp only [Builder.jumped, hreach, Bool.false_eq_true, if_false]
    refine ⟨fun hleaves => hagrees.continuation hleaves, fun hinside => ⟨?_, ?_⟩⟩
    · exact hbranch.inside.resolve_left hinside
    · exact hagrees.labelDepth?_noted_self hinside

/-- A call that is not refused keeps what holds of the builder and what it has followed. -/
theorem follows_step {after : Builder} {call : Call}
    (hstep : call.step.run builder = (.ok (), after)) (h : builder.Follows start past)
    (hlands : builder.Lands past) :
    after.Follows start (past ++ (call.emits?.map builder.meets).toList) ∧
      after.Lands (past ++ (call.emits?.map builder.meets).toList) := by
  have houtcome := call.outcome builder
  rw [hstep] at houtcome
  cases houtcome with
  | declared hroom =>
    rw [Call.emits?, Option.map_none, Option.toList_none, List.append_nil]
    exact ⟨h.declared _, hlands⟩
  | reserved =>
    rw [Call.emits?, Option.map_none, Option.toList_none, List.append_nil]
    exact ⟨h.reservedNext, hlands.mono rfl
      (fun _ hmem => List.mem_append_left _ hmem) (fun _ _ hknown => hknown)⟩
  | bound hbind =>
    rw [Call.emits?, Option.map_none, Option.toList_none, List.append_nil]
    exact ⟨h.bound hbind, hlands.mono rfl (fun _ hmem => hmem)
      (fun _ _ hknown => labelDepth?_bound hknown)⟩
  | emitted hemits hflow haffords =>
    rw [hemits]
    exact ⟨h.pushed haffords, hlands.pushed hflow⟩
  | jumped hbranch hagrees => exact ⟨h.jumped hbranch, hlands.jumped hbranch hagrees⟩

/-- Calls none of which is refused keep what holds of the builder and what it has followed. -/
theorem follows_run {after : Builder} {calls : List Call}
    (hrun : (forM calls Call.step : Build Unit).run builder = (.ok (), after))
    (h : builder.Follows start past) (hlands : builder.Lands past) :
    after.Follows start (past ++ builder.follow calls) ∧
      after.Lands (past ++ builder.follow calls) := by
  induction calls generalizing builder past with
  | nil =>
    obtain rfl : builder = after := congrArg Prod.snd hrun
    simpa only [follow, List.append_nil] using And.intro h hlands
  | cons call rest ih =>
    rw [List.forM_cons, step_bind] at hrun
    rcases hstep : call.step.run builder with ⟨⟨⟩ | ⟨⟩, next⟩
    · rw [hstep] at hrun
      cases hrun
    · rw [hstep] at hrun
      obtain ⟨hnext, hnextLands⟩ := follows_step hstep h hlands
      have hrest := ih hrun hnext hnextLands
      rw [follow, hstep, ← List.append_assoc]
      exact hrest

end Builder

/-! ## Finished fragments -/

namespace Followed

/-- Followed instructions are those of the code. -/
theorem exists_of_code {list : List Followed} {position : Nat} {emitted : Emitted}
    (h : (list.map Followed.emitted)[position]? = some emitted) :
    ∃ followed, list[position]? = some followed ∧ followed.emitted = emitted := by
  rw [List.getElem?_map, Option.map_eq_some_iff] at h
  exact h

/-- A followed instruction is the one in the code at its position. -/
theorem emitted_eq_of_code {list : List Followed} {position : Nat} {followed : Followed}
    {emitted : Emitted} (hfollowed : list[position]? = some followed)
    (h : (list.map Followed.emitted)[position]? = some emitted) : followed.emitted = emitted := by
  obtain ⟨same, hsame, rfl⟩ := exists_of_code h
  rw [Option.some.inj (hfollowed.symm.trans hsame)]

/-- How what was followed fits the control flow of a finished fragment. -/
structure Fits (fragment : Fragment) (list : List Followed) : Prop where
  first : ∀ followed, list[0]? = some followed → followed.live = true ∧ followed.depth = 0
  /-- Control goes on to where it was taken to go, with the depth that was followed. -/
  edge : ∀ {position next : Nat} {followed : Followed},
    fragment.Edge (list.map Followed.emitted) position next →
    list[position]? = some followed → followed.live = true →
    ∃ target, list[next]? = some target ∧ target.live = true ∧
      (target.guessed = false → target.depth = followed.after) ∧
      (target.guessed = true → target.depth = 0)
  affords : ∀ {position : Nat} {followed : Followed}, list[position]? = some followed →
    followed.live = true → followed.emitted.pops ≤ followed.depth
  bounded : fragment.maxStack < Builder.stackLimit → ∀ {position : Nat} {followed : Followed},
    list[position]? = some followed → followed.depth ≤ fragment.maxStack
  leaves : ∀ {position : Nat} {followed : Followed},
    fragment.Leaves (list.map Followed.emitted) position →
    list[position]? = some followed → followed.live = true → followed.after = 0

end Followed

namespace Builder

variable {builder : Builder} {start : Body} {past : List Followed} {fragment : Fragment}

/-- A followed instruction stands in the finished fragment. -/
theorem Follows.slot_getElem? (h : builder.Follows start past)
    (hfinish : builder.Finishes fragment) (position : Nat) :
    fragment.instructions[position]? = past[position]?.map Followed.slot := by
  rw [hfinish.instructions, ← Array.getElem?_toList, ← h.slots, List.getElem?_map]

/-- What was followed fits the control flow of the finished fragment. -/
theorem Follows.fits (h : builder.Follows start past) (hlands : builder.Lands past)
    (hfinish : builder.Finishes fragment) : Followed.Fits fragment past where
  first followed hfirst := h.first followed (by rw [List.head?_eq_getElem?]; exact hfirst)
  edge := by
    intro position next followed hedge hfollowed hlive
    have hmem := List.mem_of_getElem? hfollowed
    cases hedge with
    | next hcode hfalls hnext =>
      obtain rfl := Followed.emitted_eq_of_code hfollowed hcode
      rw [List.length_map] at hnext
      have htarget := List.getElem?_eq_getElem hnext
      obtain ⟨htlive, htdepth⟩ := h.falls position followed _ hfollowed htarget hlive hfalls
      refine ⟨_, htarget, htlive, fun _ => htdepth, fun hguessed => ?_⟩
      exact h.guesses _ (List.mem_of_getElem? htarget) hguessed
    | jump hcode hjump hslot hinside htarget =>
      obtain rfl := Followed.emitted_eq_of_code hfollowed hcode
      rw [hfinish.continuation] at hinside
      obtain ⟨hreserved, hdepth⟩ := (hlands followed hmem hlive hjump _ hslot).2 hinside
      rw [h.slot_getElem? hfinish, Option.map_eq_some_iff] at htarget
      obtain ⟨target, htarget, rfl⟩ := htarget
      have htmem := List.mem_of_getElem? htarget
      obtain ⟨htlive, htdepth⟩ := h.labels target htmem hreserved
      refine ⟨target, htarget, htlive, fun hguessed => ?_, h.guesses target htmem⟩
      exact Option.some.inj ((htdepth hguessed).symm.trans hdepth)
  affords hfollowed hlive := h.affords _ (List.mem_of_getElem? hfollowed) hlive
  bounded := by
    intro hlimit position followed hfollowed
    have hpeak := h.peakBefore followed (List.mem_of_getElem? hfollowed)
    rw [hfinish.maxStack] at hlimit ⊢
    omega
  leaves := by
    intro position followed hleaves hfollowed hlive
    have hmem := List.mem_of_getElem? hfollowed
    cases hleaves with
    | next hcode hfalls hlast =>
      obtain rfl := Followed.emitted_eq_of_code hfollowed hcode
      rw [List.length_map] at hlast
      have hgetLast : past.getLast? = some followed := by
        rw [List.getLast?_eq_getElem?, ← hfollowed]
        congr 1
        omega
      obtain ⟨hreach, hdepth⟩ := h.last followed hgetLast hlive hfalls
      rw [← hdepth]
      exact hfinish.empty hreach
    | jump hcode hjump hslot =>
      obtain rfl := Followed.emitted_eq_of_code hfollowed hcode
      exact (hlands followed hmem hlive hjump _ hslot).1 hfinish.continuation

end Builder

end CilPatch
