import CilPatch.Proofs.Patch.Landing

/-!
# Depths of the stack in fragments

There are consistent depths for a finished fragment exactly when the values that the builder
overlooks do no harm: those that a jump carries to a label whose depth was guessed.
-/

namespace CilPatch

namespace Followed

/-- Whether every jump that control comes to carries no values to a place with a guessed depth. -/
def Settled (fragment : Fragment) (list : List Followed) : Prop :=
  ∀ position next (followed target : Followed),
    fragment.Reached (list.map Followed.emitted) position →
    fragment.Edge (list.map Followed.emitted) position next →
    list[position]? = some followed → list[next]? = some target →
    target.guessed = true → followed.after = 0

/-- How many values lie on the stack at each position of a fragment without the builder knowing:
none at first, more where a jump carries values to a place with a guessed depth, and as many as
before along every other edge. They may never come to the continuation. -/
structure Overlooks (fragment : Fragment) (list : List Followed) (extra : Nat → Nat) : Prop where
  first : extra 0 = 0
  edge : ∀ {position next : Nat} {followed target : Followed},
    fragment.Reached (list.map Followed.emitted) position →
    fragment.Edge (list.map Followed.emitted) position next →
    list[position]? = some followed → list[next]? = some target →
    extra next = extra position + if target.guessed then followed.after else 0
  bounded : fragment.maxStack < Builder.stackLimit → ∀ {position : Nat} {followed : Followed},
    list[position]? = some followed → followed.depth + extra position ≤ fragment.maxStack
  leaves : ∀ {position : Nat}, fragment.Reached (list.map Followed.emitted) position →
    fragment.Leaves (list.map Followed.emitted) position → extra position = 0

variable {fragment : Fragment} {list : List Followed}

/-- Control comes to no place but those to which it was taken to come. -/
theorem Fits.live_of_reached (h : Fits fragment list) {position : Nat} {followed : Followed}
    (hreached : fragment.Reached (list.map Followed.emitted) position)
    (hfollowed : list[position]? = some followed) : followed.live = true := by
  induction hreached generalizing followed with
  | first => exact (h.first followed hfollowed).1
  | step _ hedge ih =>
    obtain ⟨_, hcode⟩ := hedge.source
    obtain ⟨source, hsource, -⟩ := exists_of_code hcode
    obtain ⟨target, htarget, htlive, -⟩ := h.edge hedge hsource (ih hsource)
    obtain rfl : followed = target := Option.some.inj (hfollowed.symm.trans htarget)
    exact htlive

/-- The depth behind an instruction that control comes to is the one that was followed where
control goes, and what it finds there beyond that. -/
theorem Fits.after_add (h : Fits fragment list) {position : Nat} {followed : Followed}
    (hreached : fragment.Reached (list.map Followed.emitted) position)
    (hfollowed : list[position]? = some followed) (extra : Nat) :
    followed.emitted.after (followed.depth + extra) = followed.after + extra := by
  have haffords := h.affords hfollowed (h.live_of_reached hreached hfollowed)
  simp only [Followed.after, Emitted.after]
  omega

/-- The first depth that was followed is none. -/
theorem Fits.depths_zero (h : Fits fragment list) : depths list 0 = 0 := by
  cases hfirst : list[0]? with
  | none => simp [depths, hfirst]
  | some followed => rw [depths_of_getElem? hfirst, (h.first followed hfirst).2]

/-- Depths that know of what is overlooked are consistent. -/
theorem Fits.consistent_of_overlooks (h : Fits fragment list) {extra : Nat → Nat}
    (hextra : Overlooks fragment list extra) :
    fragment.Consistent (list.map Followed.emitted)
      (fun position => depths list position + extra position) where
  first := by
    have hfirst := h.depths_zero
    have hnone := hextra.first
    omega
  edge := by
    intro position next emitted hreached hedge hcode
    obtain ⟨followed, hfollowed, rfl⟩ := exists_of_code hcode
    have hlive := h.live_of_reached hreached hfollowed
    obtain ⟨target, htarget, -, hkept, hguess⟩ := h.edge hedge hfollowed hlive
    have hstep := hextra.edge hreached hedge hfollowed htarget
    rw [depths_of_getElem? hfollowed, depths_of_getElem? htarget,
      h.after_add hreached hfollowed, hstep]
    cases hguessed : target.guessed with
    | false =>
      rw [hkept hguessed]
      simp
    | true =>
      rw [hguess hguessed]
      simp only [if_true]
      omega
  affords := by
    intro position emitted hreached hcode
    obtain ⟨followed, hfollowed, rfl⟩ := exists_of_code hcode
    have haffords := h.affords hfollowed (h.live_of_reached hreached hfollowed)
    rw [depths_of_getElem? hfollowed]
    omega
  bounded hlimit position hposition := by
    rw [List.length_map] at hposition
    have hfollowed := List.getElem?_eq_getElem hposition
    rw [depths_of_getElem? hfollowed]
    exact hextra.bounded hlimit hfollowed
  leaves := by
    intro position emitted hreached hleaves hcode
    obtain ⟨followed, hfollowed, rfl⟩ := exists_of_code hcode
    rw [depths_of_getElem? hfollowed, h.after_add hreached hfollowed,
      h.leaves hleaves hfollowed (h.live_of_reached hreached hfollowed),
      hextra.leaves hreached hleaves]

/-- Where control comes, no depth that is consistent is less than the one that was followed. -/
theorem Fits.depth_le (h : Fits fragment list) {depthAt : Nat → Nat}
    (hconsistent : fragment.Consistent (list.map Followed.emitted) depthAt) {position : Nat}
    {followed : Followed} (hreached : fragment.Reached (list.map Followed.emitted) position)
    (hfollowed : list[position]? = some followed) : followed.depth ≤ depthAt position := by
  induction hreached generalizing followed with
  | first =>
    rw [(h.first followed hfollowed).2]
    exact Nat.zero_le _
  | step hreached hedge ih =>
    obtain ⟨_, hcode⟩ := hedge.source
    obtain ⟨source, hsource, rfl⟩ := exists_of_code hcode
    have hlive := h.live_of_reached hreached hsource
    obtain ⟨target, htarget, -, hkept, hguess⟩ := h.edge hedge hsource hlive
    obtain rfl : followed = target := Option.some.inj (hfollowed.symm.trans htarget)
    -- at a guess the induction starts anew: nothing was followed there
    cases hguessed : followed.guessed with
    | true =>
      rw [hguess hguessed]
      exact Nat.zero_le _
    | false =>
      have hle := ih hsource
      rw [hkept hguessed, hconsistent.edge hreached hedge hcode]
      simp only [Followed.after, Emitted.after]
      omega

/-- What consistent depths have beyond those that were followed has been overlooked. -/
theorem Fits.overlooks_of_consistent (h : Fits fragment list) {depthAt : Nat → Nat}
    (hconsistent : fragment.Consistent (list.map Followed.emitted) depthAt) :
    Overlooks fragment list (fun position => depthAt position - depths list position) where
  first := by
    have hfirst := hconsistent.first
    omega
  edge := by
    intro position next followed target hreached hedge hfollowed htarget
    have hlive := h.live_of_reached hreached hfollowed
    have hcode : (list.map Followed.emitted)[position]? = some followed.emitted := by
      rw [List.getElem?_map, hfollowed]
      rfl
    obtain ⟨same, hsame, -, hkept, hguess⟩ := h.edge hedge hfollowed hlive
    obtain rfl : target = same := Option.some.inj (htarget.symm.trans hsame)
    have hle := h.depth_le hconsistent hreached hfollowed
    have hafter := h.after_add hreached hfollowed (depthAt position - followed.depth)
    have hdepth := hconsistent.edge hreached hedge hcode
    rw [Nat.add_sub_cancel' hle] at hafter
    rw [depths_of_getElem? hfollowed, depths_of_getElem? htarget, hdepth, hafter]
    cases hguessed : target.guessed with
    | false =>
      rw [hkept hguessed]
      simp
    | true =>
      rw [hguess hguessed]
      simp only [if_true]
      omega
  bounded := by
    intro hlimit position followed hfollowed
    obtain ⟨hposition, -⟩ := List.getElem?_eq_some_iff.mp hfollowed
    have hdepth := hconsistent.bounded hlimit position (by rw [List.length_map]; exact hposition)
    have hfollowedDepth := h.bounded hlimit hfollowed
    rw [depths_of_getElem? hfollowed]
    omega
  leaves := by
    intro position hreached hleaves
    obtain ⟨_, hcode⟩ := hleaves.source
    obtain ⟨followed, hfollowed, rfl⟩ := exists_of_code hcode
    have hle := h.depth_le hconsistent hreached hfollowed
    have hafter := h.after_add hreached hfollowed (depthAt position - followed.depth)
    have hempty := hconsistent.leaves hreached hleaves hcode
    rw [Nat.add_sub_cancel' hle] at hafter
    rw [depths_of_getElem? hfollowed]
    omega

/-- There are consistent depths exactly when what is overlooked never matters. -/
theorem Fits.exists_consistent_iff (h : Fits fragment list) :
    (∃ depthAt, fragment.Consistent (list.map Followed.emitted) depthAt) ↔
      ∃ extra, Overlooks fragment list extra := by
  constructor
  · rintro ⟨depthAt, hconsistent⟩
    exact ⟨_, h.overlooks_of_consistent hconsistent⟩
  · rintro ⟨extra, hextra⟩
    exact ⟨_, h.consistent_of_overlooks hextra⟩

/-- The depths that were followed are consistent exactly when nothing is overlooked. -/
theorem Fits.consistent_depths_iff (h : Fits fragment list) :
    fragment.Consistent (list.map Followed.emitted) (depths list) ↔ Settled fragment list := by
  constructor
  · intro hconsistent position next followed target hreached hedge hfollowed htarget hguessed
    have hstep := (h.overlooks_of_consistent hconsistent).edge hreached hedge hfollowed htarget
    simp only [Nat.sub_self, hguessed, if_true, Nat.zero_add] at hstep
    exact hstep.symm
  · intro hsettled
    have hnothing : Overlooks fragment list (fun _ => 0) := by
      refine ⟨rfl, ?_, fun hlimit => h.bounded hlimit, fun _ _ => rfl⟩
      intro position next followed target hreached hedge hfollowed htarget
      cases hguessed : target.guessed with
      | false => rfl
      | true =>
        rw [hsettled position next followed target hreached hedge hfollowed htarget hguessed]
        rfl
    exact h.consistent_of_overlooks hnothing

end Followed

/-- There is one stack depth for each instruction of a fragment that the builder accepts, which
fits the control flow, exactly when the values that the builder overlooks at guessed labels never
come to the continuation, never meet in different numbers and are within the greatest depth. The
depths that the builder has followed are such depths exactly when there are no such values. -/
theorem finished_consistent_iff {body : Body} {continuation : Slot} {calls : List Call}
    {builder : Builder} {fragment : Fragment}
    (hbuild : (forM calls Call.step : Build Unit).run (Builder.start body continuation) =
      (.ok (), builder))
    (hfinish : builder.finish = .ok fragment) :
    fragment.instructions.toList.map builder.body.instructions.get =
        (Call.code calls).map Emitted.instruction ∧
      ((∃ depthAt, fragment.Consistent (Call.code calls) depthAt) ↔
        ∃ extra, Followed.Overlooks fragment
          ((Builder.start body continuation).follow calls) extra) ∧
      (fragment.Consistent (Call.code calls)
          (Followed.depths ((Builder.start body continuation).follow calls)) ↔
        Followed.Settled fragment ((Builder.start body continuation).follow calls)) := by
  have hlands : (Builder.start body continuation).Lands [] := by simp [Builder.Lands]
  obtain ⟨hfollows, hlanded⟩ :=
    Builder.follows_run hbuild (Builder.follows_start body continuation) hlands
  have hfinishes := Builder.finishes_of_finish hfinish
  have hfits := hfollows.fits hlanded hfinishes
  rw [← Builder.map_emitted_follow (Builder.start body continuation) calls]
  refine ⟨?_, hfits.exists_consistent_iff, hfits.consistent_depths_iff⟩
  rw [hfinishes.instructions, ← hfollows.slots, List.nil_append, List.map_map, List.map_map]
  exact List.map_congr_left hfollows.spelled

/-- A body of four instructions without effect. -/
def idleBody : Body where
  instructions :=
    ⟨#[⟨.single 0, .none⟩, ⟨.single 0, .none⟩, ⟨.single 0, .none⟩, ⟨.single 0, .none⟩],
      #[⟨0⟩, ⟨1⟩, ⟨2⟩, ⟨3⟩]⟩
  regions := []
  maxStack := 8
  initLocals := false
  localSig := 0
  declared := 0
  added := []

/-- A session that is accepted has a builder and a fragment. -/
private theorem exists_of_isOk {body : Body} {continuation : Slot} {calls : List Call}
    (hbuilt : ((forM calls Call.step : Build Unit).run
      (Builder.start body continuation)).1.isOk = true)
    (hfinished : ((forM calls Call.step : Build Unit).run
      (Builder.start body continuation)).2.finish.isOk = true) :
    ∃ builder fragment,
      (forM calls Call.step : Build Unit).run (Builder.start body continuation) =
        (.ok (), builder) ∧ builder.finish = .ok fragment := by
  rcases hrun : (forM calls Call.step : Build Unit).run (Builder.start body continuation) with
    ⟨⟨⟩ | ⟨⟩, builder⟩
  · rw [hrun] at hbuilt
    cases hbuilt
  · rw [hrun] at hfinished
    cases hfinish : builder.finish with
    | error fault =>
      rw [hfinish] at hfinished
      cases hfinished
    | ok fragment => exact ⟨builder, fragment, rfl, hfinish⟩

/-- A constant that is pushed and branched on, again and again. -/
def againCalls : List Call :=
  [.reserve, .bind ⟨⟨4⟩⟩, .constant 5, .branch (.single 0x3A) ⟨⟨4⟩⟩]

/-- A loop to a label that control falls through to has consistent depths. -/
theorem again_consistent : ∃ builder fragment,
    (forM againCalls Call.step : Build Unit).run (Builder.start idleBody ⟨2⟩) =
      (.ok (), builder) ∧
    builder.finish = .ok fragment ∧
    fragment.Consistent (Call.code againCalls)
      (Followed.depths ((Builder.start idleBody ⟨2⟩).follow againCalls)) := by
  have hbuilt : ((forM againCalls Call.step : Build Unit).run
      (Builder.start idleBody ⟨2⟩)).1.isOk = true := by decide +kernel
  obtain ⟨builder, fragment, hbuild, hfinish⟩ := exists_of_isOk hbuilt (by decide +kernel)
  refine ⟨builder, fragment, hbuild, hfinish, (finished_consistent_iff hbuild hfinish).2.2.mpr ?_⟩
  intro position next followed target _ _ _ htarget hguessed
  have hknown : ∀ followed ∈ (Builder.start idleBody ⟨2⟩).follow againCalls,
      followed.guessed = false := by decide +kernel
  rw [hknown target (List.mem_of_getElem? htarget)] at hguessed
  cases hguessed

/-- A branch over a way out, to where a constant is pushed and a branch leads back to it. -/
def detourCalls : List Call :=
  [.reserve, .reserve, .branch .br ⟨⟨4⟩⟩, .bind ⟨⟨5⟩⟩, .branch .br ⟨⟨2⟩⟩, .bind ⟨⟨4⟩⟩,
    .constant 5, .branch .br ⟨⟨5⟩⟩]

/-- A branch that takes nothing leaves the depth of the stack alone. -/
private theorem after_br (target : Slot) (depth : Nat) :
    (Emitted.ofTable ⟨.br, .target target⟩).after depth = depth := by
  have hpops : Opcode.br.entry.pops = 0 := by decide +kernel
  have hpushes : Opcode.br.entry.pushes = 0 := by decide +kernel
  simp only [Emitted.after, Emitted.ofTable, hpops, hpushes]
  omega

/-- A detour is accepted although one value is left where it goes to the continuation. -/
theorem detour_inconsistent : ∃ builder fragment,
    (forM detourCalls Call.step : Build Unit).run (Builder.start idleBody ⟨2⟩) =
      (.ok (), builder) ∧
    builder.finish = .ok fragment ∧
    ¬∃ depthAt, fragment.Consistent (Call.code detourCalls) depthAt := by
  have hbuilt : ((forM detourCalls Call.step : Build Unit).run
      (Builder.start idleBody ⟨2⟩)).1.isOk = true := by decide +kernel
  obtain ⟨builder, fragment, hbuild, hfinish⟩ := exists_of_isOk hbuilt (by decide +kernel)
  refine ⟨builder, fragment, hbuild, hfinish, ?_⟩
  rintro ⟨depthAt, hconsistent⟩
  have hfinishes := Builder.finishes_of_finish hfinish
  have hbuilder : ((forM detourCalls Call.step : Build Unit).run
      (Builder.start idleBody ⟨2⟩)).2 = builder := by rw [hbuild]
  have hcontinuation : fragment.continuation = ⟨2⟩ := by
    rw [hfinishes.continuation, ← hbuilder]
    decide +kernel
  have hinstructions : fragment.instructions = #[⟨6⟩, ⟨5⟩, ⟨4⟩, ⟨7⟩] := by
    rw [hfinishes.instructions, ← hbuilder]
    decide +kernel
  have hover : fragment.Edge (Call.code detourCalls) 0 2 := by
    refine .jump rfl (by decide +kernel) (List.mem_singleton_self (Slot.mk 4)) ?_ ?_
    · rw [hcontinuation]
      decide
    · rw [hinstructions]
      rfl
  have hon : fragment.Edge (Call.code detourCalls) 2 3 := .next rfl (by decide +kernel) (by decide)
  have hback : fragment.Edge (Call.code detourCalls) 3 1 := by
    refine .jump rfl (by decide +kernel) (List.mem_singleton_self (Slot.mk 5)) ?_ ?_
    · rw [hcontinuation]
      decide
    · rw [hinstructions]
      rfl
  have hout : fragment.Leaves (Call.code detourCalls) 1 := by
    refine .jump rfl (by decide +kernel) ?_
    rw [hcontinuation]
    exact List.mem_singleton_self _
  have hpush : (Emitted.ofTable (Build.constantOf 5)).after 0 = 1 := by decide +kernel
  have hfirst := hconsistent.first
  have hsecond := hconsistent.edge .first hover rfl
  have hthird := hconsistent.edge (.step .first hover) hon rfl
  have hfourth := hconsistent.edge (.step (.step .first hover) hon) hback rfl
  have hreached := ((Fragment.Reached.first.step hover).step hon).step hback
  have hempty := hconsistent.leaves hreached hout rfl
  rw [hfirst, after_br] at hsecond
  rw [hsecond, hpush] at hthird
  rw [hthird, after_br] at hfourth
  rw [hfourth, after_br] at hempty
  cases hempty

end CilPatch
