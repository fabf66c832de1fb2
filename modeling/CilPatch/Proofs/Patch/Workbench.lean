import CilPatch.Proofs.Patch.Session
import CilPatch.Proofs.Patch.Splice

/-!
# Workbenches

A body is edited by sessions of building and by splices, in any order: several fragments may be
built before one is spliced, a splice may fail, and a copy of a fragment may be spliced once more.
Whatever happens, a fragment that waits to be spliced stays as it was built and is not placed.
-/

namespace CilPatch

/-- Adding a local variable changes nothing else. -/
theorem Body.eq_of_addLocal {body after : Body} {slot : LocalSlot}
    (h : body.addLocal slot = .ok after) : after = { body with added := body.added ++ [slot] } := by
  unfold addLocal at h
  split at h
  · exact (Except.ok.inj h).symm
  · cases h

/-- A body with the fragments that were built for it. -/
structure Workbench where
  /-- The body. -/
  body : Body
  /-- The fragments that have not been spliced. -/
  waiting : List Fragment
  /-- The fragments that have been spliced. -/
  spent : List Fragment

namespace Workbench

/-- One thing that can happen to a body and its fragments. -/
inductive Step : Workbench → Workbench → Prop
  /-- A fragment is built and handed out. -/
  | built {bench : Workbench} {continuation : Slot} {calls : List Call} {fragment : Fragment}
      (h : ((Builder.start bench.body continuation).after calls).finish = .ok fragment) :
      Step bench
        ⟨((Builder.start bench.body continuation).after calls).body, fragment :: bench.waiting,
          bench.spent⟩
  /-- A session of building leads to no fragment. -/
  | abandoned {bench : Workbench} {continuation : Slot} {calls : List Call} :
      Step bench
        ⟨((Builder.start bench.body continuation).after calls).body, bench.waiting, bench.spent⟩
  /-- A fragment is spliced. -/
  | spliced {bench : Workbench} {front back : List Fragment} {fragment : Fragment} {index : Nat}
      {report : SpliceReport} {body : Body} (hwaiting : bench.waiting = front ++ fragment :: back)
      (h : (splice index fragment).run bench.body = (.ok report, body)) :
      Step bench ⟨body, front ++ back, fragment :: bench.spent⟩
  /-- A splice fails. -/
  | failed {bench : Workbench} {fragment : Fragment} {index : Nat} {fault : Fault} {body : Body}
      (hwaiting : fragment ∈ bench.waiting)
      (h : (splice index fragment).run bench.body = (.error fault, body)) :
      Step bench ⟨body, bench.waiting, bench.spent⟩
  /-- A copy of a fragment is spliced after the fragment, which may fail or not. -/
  | again {bench : Workbench} {fragment : Fragment} {index : Nat}
      (hspent : fragment ∈ bench.spent) :
      Step bench ⟨((splice index fragment).run bench.body).2, bench.waiting, bench.spent⟩
  /-- A local variable is added to the method. -/
  | widened {bench : Workbench} {slot : LocalSlot} {body : Body}
      (h : bench.body.addLocal slot = .ok body) :
      Step bench ⟨body, bench.waiting, bench.spent⟩

/-- What can come of a body. -/
inductive Arises (body : Body) : Workbench → Prop
  /-- Nothing has happened. -/
  | start : Arises body ⟨body, [], []⟩
  /-- One thing more has happened. -/
  | step {before after : Workbench} (h : Arises body before) (hstep : Step before after) :
      Arises body after

end Workbench

/-- A fragment can be spliced into a body: its instructions were given out, are different from each
other and not placed, and jump to each other or to the continuation. -/
structure Fragment.Ready (body : Body) (fragment : Fragment) : Prop where
  backed : ∀ slot ∈ fragment.instructions, slot.index < body.instructions.arena.size
  distinct : fragment.instructions.toList.Nodup
  unplaced : ∀ slot ∈ fragment.instructions, slot ∉ body.instructions.order
  closed : ∀ slot ∈ fragment.instructions, ∀ target ∈ (body.instructions.get slot).targets,
    target = fragment.continuation ∨ target ∈ fragment.instructions

/-- A fragment stays ready as long as its instructions stay and are not placed. -/
theorem Fragment.Ready.mono {body after : Body} {fragment : Fragment} (h : fragment.Ready body)
    (hsize : body.instructions.arena.size ≤ after.instructions.arena.size)
    (hget : ∀ slot ∈ fragment.instructions,
      after.instructions.get slot = body.instructions.get slot)
    (hplaced : ∀ slot ∈ fragment.instructions, slot ∉ after.instructions.order) :
    fragment.Ready after where
  backed slot hslot := Nat.lt_of_lt_of_le (h.backed slot hslot) hsize
  distinct := h.distinct
  unplaced := hplaced
  closed slot hslot target htarget := by
    rw [hget slot hslot] at htarget
    exact h.closed slot hslot target htarget

/-- A fragment stays ready when nothing else than some other slots is placed. -/
theorem Fragment.Ready.of_touches {body after : Body} {fragment : Fragment} {slots : Array Slot}
    (h : fragment.Ready body) (htouches : Splice.Touches slots body after)
    (hapart : ∀ slot ∈ fragment.instructions, slot ∉ slots) : fragment.Ready after := by
  refine h.mono (Nat.le_of_eq htouches.size.symm)
    (fun slot hslot => htouches.get slot (h.unplaced slot hslot)) fun slot hslot hplaced => ?_
  rcases htouches.placed slot hplaced with hold | hnew
  · exact h.unplaced slot hslot hold
  · exact hapart slot hslot hnew

/-- Two fragments have no instruction in common. -/
def Fragment.Apart (left right : Fragment) : Prop :=
  ∀ slot ∈ left.instructions, slot ∉ right.instructions

theorem Fragment.Apart.symm {left right : Fragment} (h : left.Apart right) : right.Apart left :=
  fun slot hright hleft => h slot hleft hright

namespace Workbench

/-- What holds of a workbench whatever has happened: placed instructions were given out, and each
fragment that waits is ready and has no instruction in common with any other fragment. -/
structure Sound (bench : Workbench) : Prop where
  placed : ∀ slot ∈ bench.body.instructions.order,
    slot.index < bench.body.instructions.arena.size
  spent : ∀ fragment ∈ bench.spent, ∀ slot ∈ fragment.instructions,
    slot.index < bench.body.instructions.arena.size
  ready : ∀ fragment ∈ bench.waiting, fragment.Ready bench.body
  apart : (bench.waiting ++ bench.spent).Pairwise Fragment.Apart

variable {bench : Workbench}

/-- The instructions of every fragment were given out. -/
theorem Sound.backed (h : bench.Sound) {fragment : Fragment}
    (hmem : fragment ∈ bench.waiting ++ bench.spent) {slot : Slot}
    (hslot : slot ∈ fragment.instructions) :
    slot.index < bench.body.instructions.arena.size := by
  rcases List.mem_append.mp hmem with hwaiting | hspent
  · exact (h.ready fragment hwaiting).backed slot hslot
  · exact h.spent fragment hspent slot hslot

/-- A session of building leaves the fragments that wait ready. -/
theorem Sound.session (h : bench.Sound) {builder : Builder} (howns : builder.Owns bench.body) :
    (⟨builder.body, bench.waiting, bench.spent⟩ : Workbench).Sound where
  placed slot hslot := by
    rw [howns.grows.order] at hslot
    exact Nat.lt_of_lt_of_le (h.placed slot hslot) howns.grows.size
  spent fragment hfragment slot hslot :=
    Nat.lt_of_lt_of_le (h.spent fragment hfragment slot hslot) howns.grows.size
  ready fragment hfragment := by
    have hready := h.ready fragment hfragment
    refine hready.mono howns.grows.size
      (fun slot hslot => howns.grows.get (hready.backed slot hslot)) fun slot hslot => ?_
    rw [howns.grows.order]
    exact hready.unplaced slot hslot
  apart := h.apart

/-- A fragment that was built for a body is ready to be spliced into it. -/
theorem Sound.ready_of_finish (h : bench.Sound) {builder : Builder} {fragment : Fragment}
    (howns : builder.Owns bench.body) (hfinish : builder.finish = .ok fragment) :
    fragment.Ready builder.body := by
  have hfinishes := Builder.finishes_of_finish hfinish
  refine ⟨?_, ?_, ?_, ?_⟩ <;> rw [hfinishes.instructions]
  · exact fun slot hslot => (howns.emitted slot hslot).2
  · exact howns.distinct
  · intro slot hslot hplaced
    rw [howns.grows.order] at hplaced
    have hnew := (howns.emitted slot hslot).1
    have hold := h.placed slot hplaced
    omega
  · rw [hfinishes.continuation]
    exact hfinishes.closed

/-- A fragment that is built has no instruction in common with those that were there before. -/
theorem Sound.apart_of_finish (h : bench.Sound) {builder : Builder} {fragment other : Fragment}
    (howns : builder.Owns bench.body) (hfinish : builder.finish = .ok fragment)
    (hother : other ∈ bench.waiting ++ bench.spent) : fragment.Apart other := by
  intro slot hslot hmem
  rw [(Builder.finishes_of_finish hfinish).instructions] at hslot
  have hnew := (howns.emitted slot hslot).1
  have hold := h.backed hother hmem
  omega

/-- Placing slots of fragments that do not wait any more leaves a workbench sound. -/
theorem Sound.of_touches (h : bench.Sound) {slots : Array Slot} {body : Body}
    {waiting spent : List Fragment} (htouches : Splice.Touches slots bench.body body)
    (hbacked : ∀ slot ∈ slots, slot.index < bench.body.instructions.arena.size)
    (hwaiting : ∀ fragment ∈ waiting, fragment ∈ bench.waiting ∧
      ∀ slot ∈ fragment.instructions, slot ∉ slots)
    (hspent : ∀ fragment ∈ spent, fragment ∈ bench.waiting ++ bench.spent)
    (hapart : (waiting ++ spent).Pairwise Fragment.Apart) :
    (⟨body, waiting, spent⟩ : Workbench).Sound where
  placed slot hslot := by
    rw [htouches.size]
    rcases htouches.placed slot hslot with hold | hnew
    · exact h.placed slot hold
    · exact hbacked slot hnew
  spent fragment hfragment slot hslot := by
    rw [htouches.size]
    exact h.backed (hspent fragment hfragment) hslot
  ready fragment hfragment :=
    (h.ready fragment (hwaiting fragment hfragment).1).of_touches htouches
      (hwaiting fragment hfragment).2
  apart := hapart

/-- Placing a fragment that waits leaves a workbench sound: the fragment goes to those that are
spent. -/
theorem Sound.spliced (h : bench.Sound) {front back : List Fragment} {fragment : Fragment}
    {body : Body} (hwaiting : bench.waiting = front ++ fragment :: back)
    (htouches : Splice.Touches fragment.instructions bench.body body) :
    (⟨body, front ++ back, fragment :: bench.spent⟩ : Workbench).Sound := by
  have hmem : fragment ∈ bench.waiting := by simp [hwaiting]
  -- from the middle of those that wait to the head of those that are spent
  have hperm : (bench.waiting ++ bench.spent).Perm
      (front ++ back ++ fragment :: bench.spent) := by
    rw [hwaiting, List.append_assoc front, List.cons_append]
    refine List.perm_middle.trans ?_
    rw [← List.append_assoc]
    exact List.perm_middle.symm
  have hapart : (front ++ back ++ fragment :: bench.spent).Pairwise Fragment.Apart :=
    (hperm.pairwise_iff Fragment.Apart.symm).mp h.apart
  refine h.of_touches htouches (h.ready fragment hmem).backed ?_ ?_ hapart
  · intro other hother
    have hold : other ∈ bench.waiting := by
      rw [hwaiting]
      rcases List.mem_append.mp hother with hfront | hback
      · exact List.mem_append_left _ hfront
      · exact List.mem_append_right _ (List.mem_cons_of_mem _ hback)
    exact ⟨hold, (List.pairwise_append.mp hapart).2.2 other hother fragment (by simp)⟩
  · intro other hother
    rcases List.mem_cons.mp hother with rfl | hold
    · exact List.mem_append_left _ hmem
    · exact List.mem_append_right _ hold

/-- One more thing that happens leaves a workbench sound. -/
theorem Sound.step {after : Workbench} (h : bench.Sound) (hstep : Step bench after) :
    after.Sound := by
  cases hstep with
  | @built continuation calls fragment hfinish =>
    have howns := (Builder.owns_start bench.body continuation).after calls
    have hsession := h.session howns
    refine ⟨hsession.placed, hsession.spent, ?_, ?_⟩
    · intro other hother
      rcases List.mem_cons.mp hother with rfl | hold
      · exact h.ready_of_finish howns hfinish
      · exact hsession.ready other hold
    · exact List.pairwise_cons.mpr ⟨fun other hother => h.apart_of_finish howns hfinish hother,
        h.apart⟩
  | @abandoned continuation calls =>
    exact h.session ((Builder.owns_start bench.body continuation).after calls)
  | spliced hwaiting hsplice => exact h.spliced hwaiting (Splice.touches_of_ok hsplice)
  | @failed fragment index fault body hwaiting hsplice =>
    exact h.of_touches (Splice.touches_of_error hsplice) (by simp)
      (fun other hother => ⟨hother, by simp⟩) (fun other hother => List.mem_append_right _ hother)
      h.apart
  | @again fragment index hspent =>
    refine h.of_touches (Splice.touches_splice index fragment bench.body)
      (h.spent fragment hspent) (fun other hother => ⟨hother, ?_⟩)
      (fun other hother => List.mem_append_right _ hother) h.apart
    exact (List.pairwise_append.mp h.apart).2.2 other hother fragment hspent
  | @widened slot body hwiden =>
    obtain rfl := Body.eq_of_addLocal hwiden
    have htouches : Splice.Touches #[] bench.body { bench.body with
        added := bench.body.added ++ [slot] } := ⟨rfl, fun _ _ => rfl, fun _ => Or.inl⟩
    exact h.of_touches htouches (by simp) (fun other hother => ⟨hother, by simp⟩)
      (fun other hother => List.mem_append_right _ hother) h.apart

/-- Whatever comes of a body whose placed instructions were given out is sound. -/
theorem Arises.sound {body : Body} (h : Arises body bench)
    (hbacked : body.instructions.isBacked = true) : bench.Sound := by
  induction h with
  | start =>
    refine ⟨fun slot hslot => ?_, by simp, by simp, by simp⟩
    simpa using Array.all_eq_true_iff_forall_mem.mp hbacked slot hslot
  | step _ hstep ih => exact ih.step hstep

end Workbench

end CilPatch
