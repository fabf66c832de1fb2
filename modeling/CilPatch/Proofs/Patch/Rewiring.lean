import CilPatch.Proofs.Patch.Workbench

/-!
# Rewiring

A splice that succeeds puts the fragment in front of its continuation and makes whatever led to the
continuation lead to the fragment, once and without losing anything. The proof needs of the
fragment only that it is ready (its instructions are new, distinct, and jump to each other or to
the continuation), which every fragment that waits on a workbench is.
-/

namespace CilPatch

/-- A body whose instructions are placed at most once and whose jumps and region boundaries lead to
placed instructions. -/
structure Body.WellPlaced (body : Body) : Prop where
  distinct : body.instructions.order.toList.Nodup
  targets : ∀ slot ∈ body.instructions.order,
    ∀ target ∈ (body.instructions.get slot).targets, target ∈ body.instructions.order
  boundaries : ∀ region ∈ body.regions, ∀ slot ∈ region.boundaries,
    slot ∈ body.instructions.order

namespace Region

/-- A region with another slot in place of each boundary. -/
def mapBoundaries (change : Slot → Slot) (region : Region) : Region :=
  { region with
    tryStart := change region.tryStart
    tryEnd := region.tryEnd.map change
    handlerStart := change region.handlerStart
    handlerEnd := region.handlerEnd.map change
    filterStart := region.filterStart.map change }

/-- Retargeting moves the boundaries and nothing else. -/
theorem retarget_eq_mapBoundaries (region : Region) (source destination : Slot) :
    region.retarget source destination = region.mapBoundaries (Slot.moved source destination) :=
  rfl

/-- The boundaries of a region are moved one by one. -/
theorem boundaries_mapBoundaries (change : Slot → Slot) (region : Region) :
    (region.mapBoundaries change).boundaries = region.boundaries.map change := by
  simp [boundaries, mapBoundaries, Option.toList_map]

end Region

namespace InstrList

/-- Placed slots push back what stands behind them. -/
theorem slotAt?_insert {list : InstrList} {index position : Nat} {slot : Slot}
    (hindex : index ≤ list.length) (slots : Array Slot) (h : list.slotAt? position = some slot) :
    (list.insert index slots).slotAt?
      (if position < index then position else position + slots.size) = some slot := by
  have hfront : (list.order.toList.take index).length = index := by
    rw [List.length_take]
    exact Nat.min_eq_left hindex
  rw [slotAt?, ← Array.getElem?_toList] at h
  rw [slotAt?, ← Array.getElem?_toList, toList_order_insert, List.append_assoc]
  split
  · next hlt =>
    rw [List.getElem?_append_left (by omega), List.getElem?_take_of_lt hlt, h]
  · next hge =>
    rw [List.getElem?_append_right (by omega), List.getElem?_append_right (by simp; omega),
      List.getElem?_drop, ← h]
    congr 1
    simp only [Array.length_toList]
    omega

end InstrList

namespace Splice

/-- What a splice of a fragment at an index must do to a body, when the fragment starts with
`entry`. -/
structure Rewires (body : Body) (index : Nat) (fragment : Fragment) (entry : Slot)
    (report : SpliceReport) (after : Body) : Prop where
  /-- The instruction at the index was the continuation. -/
  anchor : body.instructions.slotAt? index = some fragment.continuation
  /-- The entry is the first instruction of the fragment. -/
  first : fragment.entry? = some entry
  /-- The fragment stands in front of what was at the index. -/
  order : after.instructions.order.toList = body.instructions.order.toList.take index ++
    fragment.instructions.toList ++ body.instructions.order.toList.drop index
  /-- Each jump of a placed instruction to the continuation leads to the entry; its other jumps,
  its opcode and an operand that does not jump stay. -/
  redirected : ∀ slot ∈ body.instructions.order, after.instructions.get slot =
    (body.instructions.get slot).mapTargets (Slot.moved fragment.continuation entry)
  /-- Each region boundary at the continuation stands at the entry, and the others stay. -/
  regions : after.regions =
    body.regions.map (Region.mapBoundaries (Slot.moved fragment.continuation entry))
  /-- The instructions of the fragment stay. -/
  kept : ∀ slot ∈ fragment.instructions,
    after.instructions.get slot = body.instructions.get slot
  /-- Nothing is placed twice, and no jump or boundary leads to what is not placed. -/
  wellPlaced : after.WellPlaced
  /-- The report tells where the fragment is, how long it is, how many boundaries were moved and
  how many local variables it has. -/
  counts : report.index = index ∧ report.inserted = fragment.instructions.size ∧
    report.regions = (body.regions.flatMap Region.boundaries).count fragment.continuation ∧
    report.locals = fragment.locals.length
  /-- The reported positions are in order. -/
  ordered : report.retargeted.Pairwise (· < ·)
  /-- The reported positions are those that instructions with a jump to the continuation have
  now. -/
  retargeted : ∀ position, position ∈ report.retargeted ↔
    ∃ slot ∈ body.instructions.order, after.instructions.slotAt? position = some slot ∧
      fragment.continuation ∈ (body.instructions.get slot).targets

section Ready

variable {body : Body} {index : Nat} {fragment : Fragment} {entry : Slot}

/-- What is placed after a splice was placed before or is of the fragment. -/
theorem mem_order_spliced {slot : Slot} :
    slot ∈ (spliced body index fragment entry).instructions.order ↔
      slot ∈ body.instructions.order ∨ slot ∈ fragment.instructions := by
  have hsplit : slot ∈ body.instructions.order ↔
      slot ∈ body.instructions.order.toList.take index ∨
        slot ∈ body.instructions.order.toList.drop index := by
    rw [← List.mem_append, List.take_append_drop, Array.mem_toList_iff]
  have hinside : slot ∈ fragment.instructions.toList ↔ slot ∈ fragment.instructions :=
    Array.mem_toList_iff
  rw [spliced, ← Array.mem_toList_iff, InstrList.toList_order_insert, order_redirect, hsplit,
    List.mem_append, List.mem_append, hinside]
  exact or_right_comm

/-- The first instruction of a fragment is one of it. -/
theorem mem_of_first (h : fragment.entry? = some entry) : entry ∈ fragment.instructions :=
  Array.mem_of_getElem? h

/-- The continuation is placed where a fragment fits. -/
theorem Fits.continuation_mem (h : Fits body index fragment entry) :
    fragment.continuation ∈ body.instructions.order :=
  Array.mem_of_getElem? h.anchor

/-- A slot that was placed still is when it has moved. -/
theorem Fits.moved_mem (h : Fits body index fragment entry) {slot : Slot}
    (hslot : slot ∈ body.instructions.order) :
    Slot.moved fragment.continuation entry slot ∈
      (spliced body index fragment entry).instructions.order := by
  rw [mem_order_spliced, Slot.moved]
  split
  · exact Or.inr (mem_of_first h.entry)
  · exact Or.inl hslot

/-- The instructions of a ready fragment stay. -/
theorem get_spliced_of_ready (hready : fragment.Ready body) {slot : Slot}
    (hslot : slot ∈ fragment.instructions) :
    (spliced body index fragment entry).instructions.get slot = body.instructions.get slot :=
  get_redirect_of_not_mem (hready.unplaced slot hslot)

/-- The placed instructions lead to the entry instead of the continuation. -/
theorem get_spliced_of_placed (hready : fragment.Ready body)
    (hdistinct : body.instructions.order.toList.Nodup) {slot : Slot}
    (hslot : slot ∈ body.instructions.order) :
    (spliced body index fragment entry).instructions.get slot =
      (body.instructions.get slot).mapTargets (Slot.moved fragment.continuation entry) :=
  get_redirect_of_mem hdistinct hslot fun hmem => hready.unplaced slot hmem hslot

/-- Splicing a ready fragment places nothing twice. -/
theorem distinct_spliced (hready : fragment.Ready body)
    (hdistinct : body.instructions.order.toList.Nodup) :
    (spliced body index fragment entry).instructions.order.toList.Nodup := by
  rw [spliced, InstrList.toList_order_insert, order_redirect]
  have hperm : (body.instructions.order.toList.take index ++ fragment.instructions.toList ++
      body.instructions.order.toList.drop index).Perm
      (fragment.instructions.toList ++ body.instructions.order.toList) := by
    conv => rhs; rw [← List.take_append_drop index body.instructions.order.toList]
    rw [← List.append_assoc]
    exact List.perm_append_comm.append_right _
  rw [hperm.nodup_iff, List.nodup_append]
  refine ⟨hready.distinct, hdistinct, fun slot hslot other hother => ?_⟩
  rintro rfl
  exact hready.unplaced slot (by simpa using hslot) (by simpa using hother)

/-- Splicing a ready fragment into a well-placed body leads to one. -/
theorem wellPlaced_spliced (hready : fragment.Ready body) (hbody : body.WellPlaced)
    (hfits : Fits body index fragment entry) :
    (spliced body index fragment entry).WellPlaced where
  distinct := distinct_spliced hready hbody.distinct
  targets slot hslot target htarget := by
    rcases mem_order_spliced.mp hslot with hplaced | hinside
    · rw [get_spliced_of_placed hready hbody.distinct hplaced, Instruction.targets_mapTargets]
        at htarget
      obtain ⟨old, hold, rfl⟩ := List.mem_map.mp htarget
      exact hfits.moved_mem (hbody.targets slot hplaced old hold)
    · rw [get_spliced_of_ready hready hinside] at htarget
      rw [mem_order_spliced]
      rcases hready.closed slot hinside target htarget with rfl | hmember
      · exact Or.inl hfits.continuation_mem
      · exact Or.inr hmember
  boundaries region hregion slot hslot := by
    obtain ⟨old, hold, rfl⟩ := List.mem_map.mp hregion
    rw [Region.retarget_eq_mapBoundaries, Region.boundaries_mapBoundaries] at hslot
    obtain ⟨boundary, hboundary, rfl⟩ := List.mem_map.mp hslot
    exact hfits.moved_mem (hbody.boundaries old hold boundary hboundary)

/-- A placed instruction is found behind the fragment or where it was. -/
theorem slotAt?_spliced (hanchor : body.instructions.slotAt? index = some fragment.continuation)
    {position : Nat} {slot : Slot} (hslot : body.instructions.slotAt? position = some slot) :
    (spliced body index fragment entry).instructions.slotAt?
      (if position < index then position else position + fragment.instructions.size) =
        some slot := by
  have hindex : index < body.instructions.length := by
    obtain ⟨hlt, -⟩ := Array.getElem?_eq_some_iff.mp hanchor
    exact hlt
  apply InstrList.slotAt?_insert
  · rw [InstrList.length, order_redirect]
    exact Nat.le_of_lt hindex
  · rw [InstrList.slotAt?, order_redirect]
    exact hslot

/-- The positions before a splice at which jumps to the continuation stand. -/
theorem mem_found_redirect_iff (hready : fragment.Ready body)
    (hdistinct : body.instructions.order.toList.Nodup) {position : Nat} :
    position ∈ (redirect body.instructions fragment fragment.continuation entry).2.toList ↔
      ∃ slot, body.instructions.slotAt? position = some slot ∧
        fragment.continuation ∈ (body.instructions.get slot).targets := by
  rw [found_redirect hdistinct, List.mem_map]
  constructor
  · rintro ⟨⟨slot, found⟩, hmem, rfl⟩
    rw [List.mem_filter, List.mk_mem_zipIdx_iff_getElem?, Array.getElem?_toList, isRedirected,
      Bool.and_eq_true, List.contains_iff_mem] at hmem
    exact ⟨slot, hmem.1, hmem.2.2⟩
  · rintro ⟨slot, hslot, htarget⟩
    have hmember : slot ∉ fragment.instructions := fun hmem =>
      hready.unplaced slot hmem (Array.mem_of_getElem? hslot)
    refine ⟨(slot, position), ?_, rfl⟩
    rw [List.mem_filter, List.mk_mem_zipIdx_iff_getElem?, Array.getElem?_toList]
    exact ⟨hslot, by simp [isRedirected, hmember, htarget]⟩

/-- Positions are noted in order. -/
theorem pairwise_found_redirect (hdistinct : body.instructions.order.toList.Nodup) :
    (redirect body.instructions fragment fragment.continuation entry).2.toList.Pairwise
      (· < ·) := by
  rw [found_redirect hdistinct]
  have hall : (body.instructions.order.toList.zipIdx.map (·.2)).Pairwise (· < ·) := by
    rw [List.zipIdx_map_snd]
    exact List.pairwise_lt_range'
  exact hall.sublist (List.filter_sublist.map _)

/-- A ready fragment that fits is spliced as it must be. -/
theorem rewires_spliced (hready : fragment.Ready body) (hbody : body.WellPlaced)
    (hfits : Fits body index fragment entry) :
    Rewires body index fragment entry (reportOf body index fragment entry)
      (spliced body index fragment entry) where
  anchor := hfits.anchor
  first := hfits.entry
  order := by rw [spliced, InstrList.toList_order_insert, order_redirect]
  redirected slot hslot := get_spliced_of_placed hready hbody.distinct hslot
  regions := rfl
  kept slot hslot := get_spliced_of_ready hready hslot
  wellPlaced := wellPlaced_spliced hready hbody hfits
  counts := ⟨rfl, rfl, rfl, rfl⟩
  ordered := by
    refine List.pairwise_map.mpr ((pairwise_found_redirect hbody.distinct).imp ?_)
    intro left right hlt
    split <;> split <;> omega
  retargeted position := by
    have hdistinct := (wellPlaced_spliced hready hbody hfits).distinct
    rw [reportOf, List.mem_map]
    constructor
    · rintro ⟨old, hold, rfl⟩
      obtain ⟨slot, hslot, htarget⟩ := (mem_found_redirect_iff hready hbody.distinct).mp hold
      exact ⟨slot, Array.mem_of_getElem? hslot, slotAt?_spliced hfits.anchor hslot, htarget⟩
    · rintro ⟨slot, hplaced, hposition, htarget⟩
      obtain ⟨old, hold⟩ := Array.getElem?_of_mem hplaced
      refine ⟨old, (mem_found_redirect_iff hready hbody.distinct).mpr ⟨slot, hold, htarget⟩, ?_⟩
      -- the slot is placed once, so the position it has moved to is the only one
      exact InstrList.slotAt?_inj hdistinct (slotAt?_spliced hfits.anchor hold) hposition

end Ready

end Splice

/-- Whatever has been built and spliced before, a splice that succeeds rewires: in a body whose
instructions are placed once and whose jumps and boundaries lead to placed instructions, a fragment
that waits is put in front of its continuation and takes over every jump and boundary there, and
nothing else changes. -/
theorem splice_rewires {start : Body} (hbacked : start.instructions.isBacked = true)
    {bench : Workbench} (harises : Workbench.Arises start bench) {fragment : Fragment}
    (hwaiting : fragment ∈ bench.waiting) (hbody : bench.body.WellPlaced) {index : Nat}
    {report : SpliceReport} {after : Body}
    (hsplice : (splice index fragment).run bench.body = (.ok report, after)) :
    ∃ entry, Splice.Rewires bench.body index fragment entry report after := by
  have hready := (harises.sound hbacked).ready fragment hwaiting
  obtain ⟨entry, hfits, rfl, rfl⟩ := Splice.eq_spliced_of_ok hsplice
  exact ⟨entry, Splice.rewires_spliced hready hbody hfits⟩

/-- A branch to a switch that names itself and that a protected block starts with. -/
def loopBody : Body where
  instructions :=
    ⟨#[⟨.br, .target ⟨1⟩⟩, ⟨.single 0x45, .switch [⟨2⟩, ⟨1⟩]⟩, ⟨.ret, .none⟩], #[⟨0⟩, ⟨1⟩, ⟨2⟩]⟩
  regions := [⟨0, ⟨1⟩, some ⟨2⟩, ⟨2⟩, none, none, none⟩]
  maxStack := 8
  initLocals := false
  localSig := 0
  declared := 0
  added := []

/-- A session that emits an instruction without effect and a branch to the continuation. -/
def loopBuilder : Builder :=
  (Builder.start loopBody ⟨1⟩).after [.op (.single 0), .branch .br ⟨⟨1⟩⟩]

/-- The fragment that comes of the session. -/
def loopFragment : Fragment where
  instructions := #[⟨3⟩, ⟨4⟩]
  locals := []
  firstLocal := 0
  continuation := ⟨1⟩
  maxStack := 0

set_option maxRecDepth 4000 in
/-- A fragment is spliced in front of a switch that jumps to itself. -/
theorem splice_rewires_loop :
    Workbench.Arises loopBody ⟨loopBuilder.body, [loopFragment], []⟩ ∧
      loopBuilder.body.WellPlaced ∧
      ∃ report after, (splice 1 loopFragment).run loopBuilder.body = (.ok report, after) ∧
        ∃ entry, Splice.Rewires loopBuilder.body 1 loopFragment entry report after := by
  have hfinish : loopBuilder.finish = .ok loopFragment := rfl
  have harises : Workbench.Arises loopBody ⟨loopBuilder.body, [loopFragment], []⟩ :=
    .step .start (.built hfinish)
  have hplaced : loopBuilder.body.WellPlaced :=
    ⟨by decide +kernel, by decide +kernel, by decide +kernel⟩
  have hfits : Splice.Fits loopBuilder.body 1 loopFragment ⟨3⟩ :=
    ⟨rfl, rfl, fun _ => by decide +kernel, rfl⟩
  have hsplice := splice_of_fits hfits
  exact ⟨harises, hplaced, _, _, hsplice,
    splice_rewires (by decide +kernel) harises (List.mem_singleton_self _) hplaced hsplice⟩

end CilPatch
