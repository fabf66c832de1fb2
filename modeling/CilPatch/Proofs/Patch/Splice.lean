import CilPatch.Proofs.Patch.Redirection

/-!
# What a splice does

A splice is refused before it changes anything, unless the table of local variables overflows,
or it redirects jumps and boundaries, adds the local variables and puts the fragment in place.
-/

namespace CilPatch

namespace Splice

/-- A fragment fits at a position: its continuation is there, it has a first instruction, it does
not return from within a region, and the local variables are numbered as it expects. -/
structure Fits (body : Body) (index : Nat) (fragment : Fragment) (entry : Slot) : Prop where
  anchor : body.instructions.slotAt? index = some fragment.continuation
  entry : fragment.entry? = some entry
  returns : body.isProtected index = true → returns body fragment = false
  numbering : body.localCount = fragment.firstLocal

/-- A fragment passes the check exactly when it fits. -/
theorem check_eq_ok_iff {body : Body} {index : Nat} {fragment : Fragment} {anchor entry : Slot} :
    check body index fragment = .ok (anchor, entry) ↔
      anchor = fragment.continuation ∧ Fits body index fragment entry := by
  constructor
  · intro h
    unfold check at h
    cases hanchor : body.instructions.slotAt? index with
    | none =>
      rw [hanchor] at h
      cases h
    | some found =>
      rw [hanchor] at h
      by_cases hsame : found = fragment.continuation
      · subst hsame
        cases hentry : fragment.entry? with
        | none =>
          simp only [hentry, bne_self_eq_false, Bool.false_eq_true, if_false] at h
          cases h
        | some first =>
          simp only [hentry, bne_self_eq_false, Bool.false_eq_true, if_false] at h
          by_cases hreturns : (body.isProtected index && returns body fragment) = true
          · simp only [hreturns, if_true] at h
            cases h
          · by_cases hlocals : body.localCount = fragment.firstLocal
            · simp only [hreturns, hlocals, bne_self_eq_false, Bool.false_eq_true,
                if_false] at h
              cases h
              refine ⟨rfl, hanchor, hentry, fun hprotected => ?_, hlocals⟩
              simpa [hprotected] using hreturns
            · have hne : (body.localCount != fragment.firstLocal) = true := by simpa using hlocals
              simp only [hreturns, hne, if_true, Bool.false_eq_true, if_false] at h
              cases h
      · have hne : (found != fragment.continuation) = true := by simpa using hsame
        simp only [hne, if_true] at h
        cases h
  · rintro ⟨rfl, hfits⟩
    have hreturns : ¬(body.isProtected index && returns body fragment) = true := by
      intro hboth
      simp only [Bool.and_eq_true] at hboth
      rw [hfits.returns hboth.1] at hboth
      exact Bool.false_ne_true hboth.2
    unfold check
    rw [hfits.anchor, hfits.entry, hfits.numbering]
    simp only [hreturns, bne_self_eq_false, Bool.false_eq_true, if_false]
    rfl

/-- A body whose jumps and boundaries have been redirected to a fragment and that has room for
some local variables. -/
def redirected (body : Body) (fragment : Fragment) (entry : Slot) : Body :=
  { body with
    instructions := (redirect body.instructions fragment fragment.continuation entry).1
    regions := body.regions.map (Region.retarget · fragment.continuation entry)
    added := body.added ++ fragment.locals.take (Body.localLimit - body.localCount) }

/-- A body into which a fragment has been spliced. -/
def spliced (body : Body) (index : Nat) (fragment : Fragment) (entry : Slot) : Body :=
  { body with
    instructions :=
      (redirect body.instructions fragment fragment.continuation entry).1.insert index
        fragment.instructions
    regions := body.regions.map (Region.retarget · fragment.continuation entry)
    added := body.added ++ fragment.locals
    maxStack := min (body.maxStack + fragment.maxStack) (wordRange - 1) }

/-- What a splice reports. -/
def reportOf (body : Body) (index : Nat) (fragment : Fragment) (entry : Slot) : SpliceReport where
  index := index
  inserted := fragment.instructions.size
  retargeted :=
    (redirect body.instructions fragment fragment.continuation entry).2.toList.map fun position =>
      if position < index then position else position + fragment.instructions.size
  regions := (body.regions.flatMap Region.boundaries).count fragment.continuation
  locals := fragment.locals.length

/-- Local variables are added as long as there is room. -/
theorem run_addLocals (slots : List LocalSlot) (body : Body) :
    (addLocals slots).run body =
      (if Body.localLimit - body.localCount < slots.length then
          .error (.output .localTableFull) else .ok (),
        { body with added := body.added ++ slots.take (Body.localLimit - body.localCount) }) := by
  unfold addLocals
  simp only [step_bind, step_get, step_set]
  split <;> rfl

end Splice

/-- A fragment that fits is spliced if there is room for its local variables. -/
theorem splice_of_fits {index : Nat} {fragment : Fragment} {body : Body} {entry : Slot}
    (hfits : Splice.Fits body index fragment entry) :
    (splice index fragment).run body =
      if Body.localLimit - body.localCount < fragment.locals.length then
        (.error (.output .localTableFull), Splice.redirected body fragment entry)
      else (.ok (Splice.reportOf body index fragment entry),
        Splice.spliced body index fragment entry) := by
  have hcheck := Splice.check_eq_ok_iff.mpr ⟨rfl, hfits⟩
  have hcount (list : InstrList) (regions : List Region) :
      ({ body with instructions := list, regions := regions } : Body).localCount =
        body.localCount := rfl
  unfold splice
  simp only [step_bind, step_get, hcheck, step_set, Splice.run_addLocals, hcount]
  by_cases hfull : Body.localLimit - body.localCount < fragment.locals.length
  · simp only [hfull, if_true]
    rfl
  · have htake : fragment.locals.take (Body.localLimit - body.localCount) = fragment.locals :=
      List.take_of_length_le (by omega)
    simp only [hfull, htake, if_false]
    rfl

/-- A splice is refused and changes nothing, or it stops because there is no room for the local
variables, or it is done. -/
theorem splice_cases (index : Nat) (fragment : Fragment) (body : Body) :
    (∃ fault, (splice index fragment).run body = (.error fault, body)) ∨
    ∃ entry, Splice.Fits body index fragment entry ∧
      ((∃ fault, (splice index fragment).run body =
          (.error fault, Splice.redirected body fragment entry)) ∨
        (splice index fragment).run body =
          (.ok (Splice.reportOf body index fragment entry),
            Splice.spliced body index fragment entry)) := by
  cases hcheck : Splice.check body index fragment with
  | error fault =>
    refine Or.inl ⟨fault, ?_⟩
    unfold splice
    simp only [step_bind, step_get, hcheck]
    rfl
  | ok found =>
    obtain ⟨anchor, entry⟩ := found
    obtain ⟨rfl, hfits⟩ := Splice.check_eq_ok_iff.mp hcheck
    refine Or.inr ⟨entry, hfits, ?_⟩
    rw [splice_of_fits hfits]
    split
    · exact Or.inl ⟨_, rfl⟩
    · exact Or.inr rfl

namespace Splice

variable {body after : Body} {index : Nat} {fragment : Fragment} {entry : Slot}

/-- A splice that is done leaves the spliced body and reports it. -/
theorem eq_spliced_of_ok {report : SpliceReport}
    (h : (splice index fragment).run body = (.ok report, after)) :
    ∃ entry, Fits body index fragment entry ∧ report = reportOf body index fragment entry ∧
      after = spliced body index fragment entry := by
  rcases splice_cases index fragment body with
    ⟨fault, hrun⟩ | ⟨entry, hfits, ⟨fault, hrun⟩ | hrun⟩
  · rw [hrun] at h
    cases h
  · rw [hrun] at h
    cases h
  · rw [hrun] at h
    cases h
    exact ⟨entry, hfits, rfl, rfl⟩

/-- A body into which a fragment has been spliced has its own variables and those of the
fragment. -/
theorem Fits.localCount_spliced (h : Fits body index fragment entry) :
    (spliced body index fragment entry).localCount =
      fragment.firstLocal + fragment.locals.length := by
  rw [← h.numbering, Body.localCount, Body.localCount, spliced, List.length_append, Nat.add_assoc]

/-- What stays of a body when some slots are placed: no slot is given out, an instruction that was
not placed stays, and nothing else than those slots is placed. -/
structure Touches (slots : Array Slot) (before after : Body) : Prop where
  size : after.instructions.arena.size = before.instructions.arena.size
  get : ∀ slot, slot ∉ before.instructions.order →
    after.instructions.get slot = before.instructions.get slot
  placed : ∀ slot ∈ after.instructions.order, slot ∈ before.instructions.order ∨ slot ∈ slots

/-- A splice that fails places nothing. -/
theorem touches_of_error {fault : Fault}
    (h : (splice index fragment).run body = (.error fault, after)) : Touches #[] body after := by
  rcases splice_cases index fragment body with
    ⟨fault, hrun⟩ | ⟨entry, hfits, ⟨fault, hrun⟩ | hrun⟩
  · rw [hrun] at h
    cases h
    exact ⟨rfl, fun _ _ => rfl, fun _ hslot => Or.inl hslot⟩
  · rw [hrun] at h
    cases h
    refine ⟨size_redirect, fun _ hslot => get_redirect_of_not_mem hslot, fun slot hslot => ?_⟩
    rw [redirected, order_redirect] at hslot
    exact Or.inl hslot
  · rw [hrun] at h
    cases h

/-- A splice that is done places the fragment. -/
theorem touches_of_ok {report : SpliceReport}
    (h : (splice index fragment).run body = (.ok report, after)) :
    Touches fragment.instructions body after := by
  obtain ⟨entry, hfits, rfl, rfl⟩ := eq_spliced_of_ok h
  refine ⟨size_redirect, fun _ hslot => get_redirect_of_not_mem hslot, fun slot hslot => ?_⟩
  rw [spliced, ← Array.mem_toList_iff, InstrList.toList_order_insert, order_redirect] at hslot
  rcases List.mem_append.mp hslot with hfront | hback
  · rcases List.mem_append.mp hfront with hbefore | hinside
    · exact Or.inl (Array.mem_toList_iff.mp (List.mem_of_mem_take hbefore))
    · exact Or.inr (Array.mem_toList_iff.mp hinside)
  · exact Or.inl (Array.mem_toList_iff.mp (List.mem_of_mem_drop hback))

/-- Whatever comes of a splice, nothing else than the fragment is placed. -/
theorem touches_splice (index : Nat) (fragment : Fragment) (body : Body) :
    Touches fragment.instructions body ((splice index fragment).run body).2 := by
  cases hrun : (splice index fragment).run body with
  | mk result after =>
    cases result with
    | ok report => exact touches_of_ok hrun
    | error fault =>
      have htouches := touches_of_error hrun
      refine ⟨htouches.size, htouches.get, fun slot hslot => Or.inl ?_⟩
      rcases htouches.placed slot hslot with hold | hnone
      · exact hold
      · simp at hnone

end Splice

end CilPatch
