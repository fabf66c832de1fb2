import CilPatch.Proofs.Code.Encoding
import CilPatch.Proofs.Code.SignedWord
import Mathlib

/-!
# Relaxation

A layout is given by the set of the short branches that are long in it. The more branches are
long, the farther apart any two places are, so a branch that is out of reach stays so. From this
it follows that layouts which are made anew until every short branch reaches end with the least
set of long branches that serves.
-/

namespace CilPatch

namespace Layout

/-- The loop that makes layouts until nothing changes: how many it makes, the first one and the
last one. -/
inductive Settles (positions : Positions) : Nat → List Placement → List Placement → Prop
  /-- Nothing changes in the layout. -/
  | done {placements : List Placement} (h : widen positions placements = placements) :
      Settles positions 1 placements placements
  /-- Some branch becomes long, and another layout is made. -/
  | again {rounds : Nat} {placements last : List Placement}
      (h : widen positions placements ≠ placements)
      (hrest : Settles positions rounds (widen positions placements) last) :
      Settles positions (rounds + 1) placements last

/-- The loop ends after one layout for each short branch and one more. -/
theorem exists_settles_relax {positions : Positions} {fuel : Nat} {placements : List Placement}
    (h : shortCount placements < fuel) :
    ∃ rounds, rounds ≤ shortCount placements + 1 ∧
      Settles positions rounds placements (relax positions fuel placements) := by
  induction fuel generalizing placements with
  | zero => omega
  | succ fuel ih =>
    rw [relax]
    split
    · next hsame => exact ⟨1, by omega, .done hsame⟩
    · next hother =>
      have hfewer := (shortCount_widen positions placements).resolve_left hother
      obtain ⟨rounds, hrounds, hsettles⟩ :=
        ih (show shortCount (widen positions placements) < fuel by omega)
      exact ⟨rounds + 1, by omega, .again hother hsettles⟩

/-! ## Distances -/

/-- Where the instruction at a position starts. The position behind the last instruction is that
of the end of the code. -/
def startAt (placements : List Placement) (position : Nat) : Nat :=
  ((placements.take position).map Placement.size).sum

/-- The displacement of a jump: how far the instruction at the target starts from the end of the
instruction at the source. -/
def displacement (placements : List Placement) (source target : Nat) : Int :=
  (startAt placements target : Int) - startAt placements (source + 1)

/-- An instruction ends where the next one starts. -/
theorem startAt_succ {placements : List Placement} {position : Nat} {placement : Placement}
    (h : placements[position]? = some placement) :
    startAt placements (position + 1) = startAt placements position + placement.size := by
  rw [startAt, List.take_add_one, h, List.map_append, List.sum_append]
  simp [startAt]

/-- The offsets of a layout are where its instructions start. -/
theorem getElem?_offsetsFrom {start : Nat} {placements : List Placement} {position : Nat}
    (h : position < placements.length) :
    (offsetsFrom start placements)[position]? = some (start + startAt placements position) := by
  induction placements generalizing start position with
  | nil => cases h
  | cons placement rest ih =>
    cases position with
    | zero => simp [offsetsFrom, startAt]
    | succ position =>
      rw [offsetsFrom, List.getElem?_cons_succ, ih (Nat.lt_of_succ_lt_succ h)]
      simp [startAt, Nat.add_assoc]

/-- Whether no instruction of a layout is larger than that of another at its place. -/
def Narrower (narrow wide : List Placement) : Prop :=
  List.Forall₂ (fun left right => left.size ≤ right.size) narrow wide

variable {narrow wide : List Placement}

/-- Two places are no farther apart when no instruction is larger. -/
theorem Narrower.distance_le (h : Narrower narrow wide) {first last : Nat} (hle : first ≤ last) :
    ∃ less more, startAt narrow last = startAt narrow first + less ∧
      startAt wide last = startAt wide first + more ∧ less ≤ more := by
  have hsplit (placements : List Placement) : startAt placements last =
      startAt placements first +
        (((placements.drop first).take (last - first)).map Placement.size).sum := by
    obtain ⟨count, rfl⟩ := Nat.exists_eq_add_of_le hle
    rw [startAt, startAt, List.take_add, List.map_append, List.sum_append, Nat.add_sub_cancel_left]
  have hbetween := List.forall₂_take (last - first) (List.forall₂_drop first h)
  refine ⟨_, _, hsplit narrow, hsplit wide, List.Forall₂.sum_le_sum ?_⟩
  rw [List.forall₂_map_left_iff, List.forall₂_map_right_iff]
  exact hbetween

/-- A jump that fits a byte still does when no instruction is larger. -/
theorem Narrower.fitsByte_displacement (h : Narrower narrow wide) {source target : Nat}
    (hfits : fitsByte (displacement wide source target) = true) :
    fitsByte (displacement narrow source target) = true := by
  rw [Code.fitsByte_iff, displacement] at hfits ⊢
  rcases Nat.le_total target (source + 1) with hback | hon
  · obtain ⟨less, more, hnarrow, hwide, hle⟩ := h.distance_le hback
    omega
  · obtain ⟨less, more, hnarrow, hwide, hle⟩ := h.distance_le hon
    omega

/-! ## Layouts by their long branches -/

/-- The long form of a short branch is larger. -/
theorem size_le_size_longForm {opcode : Opcode} (h : opcode.isShortBranch = true)
    (operand : Operand) :
    (Placement.mk opcode operand).size ≤ (Placement.mk opcode.longForm operand).size := by
  have hsingle : ∀ code : Fin 256, (Opcode.single (UInt8.ofFin code)).isShortBranch = true →
      (Opcode.single (UInt8.ofFin code)).operandKind.size? = some 1 ∧
        (Opcode.single (UInt8.ofFin code)).longForm.operandKind.size? = some 4 ∧
        (Opcode.single (UInt8.ofFin code)).size ≤
          (Opcode.single (UInt8.ofFin code)).longForm.size := by
    decide +kernel
  cases opcode with
  | single code =>
    obtain ⟨hshort, hlong, hsize⟩ := hsingle code.toFin h
    change (Opcode.single code).operandKind.size? = some 1 at hshort
    change (Opcode.single code).longForm.operandKind.size? = some 4 at hlong
    change (Opcode.single code).size ≤ (Opcode.single code).longForm.size at hsize
    simp only [Placement.size, hshort, hlong]
    omega
  | extended code => exact Nat.le_refl _

variable (list : InstrList) (long : Finset Slot)

/-- The opcode with which an instruction is written when the branches of a set are long. -/
def formIn (slot : Slot) : Opcode :=
  if slot ∈ long then (list.get slot).opcode.longForm else (list.get slot).opcode

/-- The layout in which exactly the branches of a set have their long form. -/
def withLong : List Placement :=
  list.order.toList.map fun slot => ⟨formIn list long slot, (list.get slot).operand⟩

/-- Whether a set has only short branches that are placed. -/
def OnlyShort : Prop :=
  ∀ slot ∈ long, slot ∈ list.order ∧ (list.get slot).opcode.isShortBranch = true

/-- Whether an instruction jumps over a displacement in the layout in which the branches of a set
are long. -/
def Jumps (slot : Slot) (distance : Int) : Prop :=
  ∃ source target position, list.slotAt? source = some slot ∧
    (list.get slot).operand = .target target ∧ list.slotAt? position = some target ∧
    displacement (withLong list long) source position = distance

/-- Whether it serves that exactly the branches of a set are long: every other short branch then
has a displacement that fits a signed byte. -/
structure Sufficient : Prop where
  onlyShort : OnlyShort list long
  reaches : ∀ slot ∈ list.order, (list.get slot).opcode.isShortBranch = true → slot ∉ long →
    ∃ distance, Jumps list long slot distance ∧ -128 ≤ distance ∧ distance ≤ 127

/-- Whether a short branch does not reach its target in the layout in which the branches of a set
are long. -/
def Misses (slot : Slot) : Prop :=
  (list.get slot).opcode.isShortBranch = true ∧
    ∃ distance, Jumps list long slot distance ∧ ¬fitsByte distance = true

variable {list long}

/-- The first layout has no long branches of its own. -/
theorem withLong_empty : withLong list ∅ = initial list := by
  simp [withLong, formIn, initial, InstrList.placed, Placement.of]

/-- At its position an instruction is written in its form. -/
theorem withLong_getElem? (long : Finset Slot) {position : Nat} {slot : Slot}
    (h : list.slotAt? position = some slot) :
    (withLong list long)[position]? =
      some ⟨formIn list long slot, (list.get slot).operand⟩ := by
  rw [InstrList.slotAt?, ← Array.getElem?_toList] at h
  simp [withLong, h]

/-- A branch of the set is not short any more. -/
theorem OnlyShort.isShortBranch_formIn (h : OnlyShort list long) {slot : Slot} :
    (formIn list long slot).isShortBranch = true ↔
      slot ∉ long ∧ (list.get slot).opcode.isShortBranch = true := by
  rw [formIn]
  split
  · next hmem => simp [Opcode.isShortBranch_longForm (h slot hmem).2, hmem]
  · next hnot => simp [hnot]

/-- The more branches are long, the larger the instructions are. -/
theorem OnlyShort.narrower {other : Finset Slot} (h : OnlyShort list other)
    (hsubset : long ⊆ other) : Narrower (withLong list long) (withLong list other) := by
  rw [Narrower, withLong, withLong, List.forall₂_map_left_iff, List.forall₂_map_right_iff,
    List.forall₂_same]
  intro slot _
  by_cases hlong : slot ∈ long
  · simp [formIn, hlong, hsubset hlong]
  · by_cases hother : slot ∈ other
    · simpa [formIn, hlong, hother] using size_le_size_longForm (h slot hother).2 _
    · simp [formIn, hlong, hother]

section Placed

variable (hdistinct : list.order.toList.Nodup)
include hdistinct

/-- An instruction that is placed once jumps over one displacement. -/
theorem Jumps.unique {slot : Slot} {first second : Int} (h : Jumps list long slot first)
    (hother : Jumps list long slot second) : first = second := by
  obtain ⟨source, target, position, hsource, htarget, hposition, rfl⟩ := h
  obtain ⟨source', target', position', hsource', htarget', hposition', rfl⟩ := hother
  obtain rfl := Operand.target.inj (htarget.symm.trans htarget')
  rw [InstrList.slotAt?_inj hdistinct hsource hsource',
    InstrList.slotAt?_inj hdistinct hposition hposition']

/-- A branch that misses its target does so as long as not all branches of a set that serves are
long, unless it is itself in that set. -/
theorem Misses.mem_of_sufficient {slot : Slot} (h : Misses list long slot)
    (hslot : slot ∈ list.order) {other : Finset Slot} (hother : Sufficient list other)
    (hsubset : long ⊆ other) : slot ∈ other := by
  obtain ⟨hshort, distance, hjumps, hmisses⟩ := h
  by_contra hnot
  obtain ⟨wider, hwider, hlow, hhigh⟩ := hother.reaches slot hslot hshort hnot
  obtain ⟨source, target, position, hsource, htarget, hposition, rfl⟩ := hwider
  have hfits := (hother.onlyShort.narrower hsubset).fitsByte_displacement
    (Code.fitsByte_iff.mpr ⟨hlow, by omega⟩)
  rw [hjumps.unique hdistinct ⟨source, target, position, hsource, htarget, hposition, rfl⟩]
    at hmisses
  exact hmisses hfits

/-- The target of a jump starts where the layout puts its position. -/
theorem targetOffset?_withLong_iff (long : Finset Slot) {target : Slot} {offset : Nat} :
    targetOffset? (positionsOf list) (offsets (withLong list long)).1 target = some offset ↔
      ∃ position, list.slotAt? position = some target ∧
        startAt (withLong list long) position = offset := by
  rw [targetOffset?, Option.bind_eq_some_iff]
  simp only [positionsOf_eq_some_iff hdistinct, ← Array.getElem?_toList, toList_offsets]
  refine exists_congr fun position => and_congr_right fun hposition => ?_
  have hlt := (List.getElem?_eq_some_iff.mp (withLong_getElem? long hposition)).1
  rw [getElem?_offsetsFrom hlt, Nat.zero_add, Option.some.injEq]

/-- An instruction must become long exactly when it is a short branch that misses its target. -/
theorem OnlyShort.needsLong_iff (h : OnlyShort list long) {source : Nat} {slot : Slot}
    (hslot : list.slotAt? source = some slot) :
    needsLong (positionsOf list) (offsets (withLong list long)).1
        ⟨formIn list long slot, (list.get slot).operand⟩ (startAt (withLong list long) source) =
      true ↔ slot ∉ long ∧ Misses list long slot := by
  have hstop := startAt_succ (withLong_getElem? long hslot)
  rw [needsLong, Bool.and_eq_true, h.isShortBranch_formIn, and_assoc, Misses]
  refine and_congr_right fun _ => and_congr_right fun _ => ?_
  constructor
  · intro hneeds
    split at hneeds
    · next target htarget =>
      split at hneeds
      · next offset hoffset =>
        obtain ⟨position, hposition, rfl⟩ := (targetOffset?_withLong_iff hdistinct long).mp hoffset
        refine ⟨_, ⟨source, target, position, hslot, htarget, hposition, rfl⟩, ?_⟩
        rw [displacement, hstop]
        simpa using hneeds
      · cases hneeds
    · cases hneeds
  · rintro ⟨distance, ⟨same, target, position, hsame, htarget, hposition, rfl⟩, hmisses⟩
    obtain rfl := InstrList.slotAt?_inj hdistinct hsame hslot
    have hoffset := (targetOffset?_withLong_iff hdistinct long).mpr
      ⟨position, hposition, rfl⟩
    rw [displacement, hstop, htarget] at hmisses
    simp only [htarget, hoffset]
    simpa using hmisses

/-- Making a layout anew adds the branches that miss their targets to the long ones. -/
theorem OnlyShort.exists_widen (h : OnlyShort list long) : ∃ wider : Finset Slot,
    (∀ slot, slot ∈ wider ↔ slot ∈ long ∨ slot ∈ list.order ∧ Misses list long slot) ∧
      widen (positionsOf list) (withLong list long) = withLong list wider := by
  classical
  refine ⟨long ∪ list.order.toList.toFinset.filter (Misses list long), by simp, ?_⟩
  refine List.ext_getElem? fun position => ?_
  cases hslot : list.slotAt? position with
  | none =>
    have hlength : list.order.toList.length ≤ position := by
      rw [InstrList.slotAt?, ← Array.getElem?_toList] at hslot
      exact List.getElem?_eq_none_iff.mp hslot
    rw [List.getElem?_eq_none (by simpa [length_widen, withLong] using hlength),
      List.getElem?_eq_none (by simpa [withLong] using hlength)]
  | some slot =>
    have hmem : slot ∈ list.order := Array.mem_of_getElem? hslot
    have hplacement := withLong_getElem? long hslot
    have hlt := (List.getElem?_eq_some_iff.mp hplacement).1
    have hstart : (offsets (withLong list long)).1.toList[position]? =
        some (startAt (withLong list long) position) := by
      rw [toList_offsets, getElem?_offsetsFrom hlt, Nat.zero_add]
    have hzip : ((withLong list long).zip (offsets (withLong list long)).1.toList)[position]? =
        some (⟨formIn list long slot, (list.get slot).operand⟩,
          startAt (withLong list long) position) :=
      List.getElem?_zip_eq_some.mpr ⟨hplacement, hstart⟩
    rw [widen, List.getElem?_map, hzip, withLong_getElem? _ hslot, Option.map_some, widenEntry]
    have hneeds := h.needsLong_iff hdistinct hslot
    simp only [hneeds]
    by_cases hlong : slot ∈ long
    · simp [formIn, hlong]
    · by_cases hmisses : Misses list long slot
      · simp [formIn, hlong, hmisses, hmem]
      · simp [formIn, hlong, hmisses]

/-- However often a layout is made anew, only branches become long that are so in every set that
serves. -/
theorem OnlyShort.exists_relax (h : OnlyShort list long) (fuel : Nat) : ∃ wider : Finset Slot,
    relax (positionsOf list) fuel (withLong list long) = withLong list wider ∧
      OnlyShort list wider ∧
      ∀ other, Sufficient list other → long ⊆ other → wider ⊆ other := by
  induction fuel generalizing long with
  | zero => exact ⟨long, rfl, h, fun _ _ hsubset => hsubset⟩
  | succ fuel ih =>
    rw [relax]
    split
    · exact ⟨long, rfl, h, fun _ _ hsubset => hsubset⟩
    · obtain ⟨next, hnext, hwiden⟩ := h.exists_widen hdistinct
      have hshort : OnlyShort list next := by
        intro slot hslot
        rcases (hnext slot).mp hslot with hold | ⟨hmem, hmisses⟩
        · exact h slot hold
        · exact ⟨hmem, hmisses.1⟩
      obtain ⟨wider, hrelax, hwider, hleast⟩ := ih hshort
      rw [hwiden]
      refine ⟨wider, hrelax, hwider, fun other hother hsubset => hleast other hother ?_⟩
      intro slot hslot
      rcases (hnext slot).mp hslot with hold | ⟨hmem, hmisses⟩
      · exact hsubset hold
      · exact hmisses.mem_of_sufficient hdistinct hmem hother hsubset

/-- A layout that widening leaves alone has no branch that misses its target. -/
theorem OnlyShort.not_misses_of_widen (h : OnlyShort list long)
    (hwiden : widen (positionsOf list) (withLong list long) = withLong list long) {slot : Slot}
    (hslot : slot ∈ list.order) (hnot : slot ∉ long) : ¬Misses list long slot := by
  intro hmisses
  obtain ⟨wider, hwider, hsame⟩ := h.exists_widen hdistinct
  rw [hwiden] at hsame
  obtain ⟨position, hposition⟩ := InstrList.exists_slotAt? hslot
  have hform : formIn list long slot = formIn list wider slot := by
    have hplacement := withLong_getElem? long hposition
    rw [hsame, withLong_getElem? wider hposition] at hplacement
    exact (congrArg Placement.form (Option.some.inj hplacement)).symm
  have hlong := Opcode.isShortBranch_longForm hmisses.1
  rw [formIn, formIn, if_neg hnot, if_pos ((hwider slot).mpr (Or.inr ⟨hslot, hmisses⟩))] at hform
  rw [← hform, hmisses.1] at hlong
  cases hlong

/-- As many branches are counted as relaxed as are long. -/
theorem OnlyShort.relaxed_encodedOf (h : OnlyShort list long)
    (hfinal : final list = withLong list long) (parts : List (List UInt8)) :
    (Code.encodedOf list parts).relaxed = long.card := by
  have hchanged : ∀ slot ∈ list.order.toList,
      (formIn list ∅ slot != formIn list long slot) = true ↔ decide (slot ∈ long) = true := by
    intro slot _
    rw [formIn, formIn, if_neg (Finset.notMem_empty slot), bne_iff_ne, decide_eq_true_iff]
    split
    · next hmem =>
      refine iff_of_true (fun hsame => ?_) hmem
      have hlong := Opcode.isShortBranch_longForm (h slot hmem).2
      rw [← hsame, (h slot hmem).2] at hlong
      cases hlong
    · next hnot => exact iff_of_false (fun hne => hne rfl) hnot
  have hlong : (list.order.toList.filter fun slot => decide (slot ∈ long)).toFinset = long := by
    ext slot
    simpa using fun hslot => (h slot hslot).1
  rw [Code.relaxed_encodedOf, hfinal, ← withLong_empty, withLong, withLong, List.zip_map',
    List.countP_map, List.countP_eq_length_filter]
  refine (congrArg List.length (List.filter_congr ?_)).trans
    ((List.toFinset_card_of_nodup (hdistinct.filter _)).symm.trans (congrArg Finset.card hlong))
  exact fun slot hslot => Bool.eq_iff_iff.mpr (hchanged slot hslot)

end Placed

/-- When every jump leads to a placed instruction and each instruction is placed once, the loop
that lays out code ends after at most one layout for each short branch and one more. The set of
the branches that are long then is the least one that serves, and as many branches are counted as
relaxed as it has. -/
theorem relaxation_least {list : InstrList} (hdistinct : list.order.toList.Nodup)
    (hplaced : ∀ slot ∈ list.order, ∀ target ∈ (list.get slot).targets, target ∈ list.order)
    (htargets : ∀ slot ∈ list.order, (list.get slot).opcode.isShortBranch = true →
      ∃ target, (list.get slot).operand = .target target) :
    ∃ (rounds : Nat) (long : Finset Slot),
      rounds ≤ shortCount (initial list) + 1 ∧
      Settles (positionsOf list) rounds (initial list) (withLong list long) ∧
      final list = withLong list long ∧
      IsLeast {other | Sufficient list other} long ∧
      ∀ encoded, Code.encode list = .ok encoded → encoded.relaxed = long.card := by
  have hempty : OnlyShort list ∅ := by simp [OnlyShort]
  obtain ⟨long, hrelax, hlong, hleast⟩ :=
    hempty.exists_relax hdistinct (shortCount (initial list) + 1)
  rw [withLong_empty] at hrelax
  have hfinal : final list = withLong list long := hrelax
  obtain ⟨rounds, hrounds, hsettles⟩ :=
    exists_settles_relax (Nat.lt_succ_self (shortCount (initial list)))
  rw [hrelax] at hsettles
  have hwiden : widen (positionsOf list) (withLong list long) = withLong list long := by
    rw [← hfinal]
    exact widen_relaxed (positionsOf list) list
  refine ⟨rounds, long, hrounds, hsettles, hfinal, ⟨⟨hlong, ?_⟩, ?_⟩, ?_⟩
  · intro slot hslot hshort hnot
    obtain ⟨source, hsource⟩ := InstrList.exists_slotAt? hslot
    obtain ⟨target, htarget⟩ := htargets slot hslot hshort
    have hmem : target ∈ list.order :=
      hplaced slot hslot target (by simp [Instruction.targets, htarget])
    obtain ⟨position, hposition⟩ := InstrList.exists_slotAt? hmem
    have hjumps : Jumps list long slot (displacement (withLong list long) source position) :=
      ⟨source, target, position, hsource, htarget, hposition, rfl⟩
    have hfits : fitsByte (displacement (withLong list long) source position) = true := by
      by_contra hmisses
      exact hlong.not_misses_of_widen hdistinct hwiden hslot hnot ⟨hshort, _, hjumps, hmisses⟩
    obtain ⟨hlow, hhigh⟩ := Code.fitsByte_iff.mp hfits
    exact ⟨_, hjumps, hlow, by omega⟩
  · exact fun other hother => hleast other hother (Finset.empty_subset other)
  · intro encoded hencoded
    obtain ⟨-, parts, -, rfl⟩ := Code.encode_eq_ok_iff.mp hencoded
    exact hlong.relaxed_encodedOf hdistinct hfinal parts

/-- Two branches to a return, of which the first one leads over a switch of 133 bytes. -/
def skippingList : InstrList where
  arena := #[⟨.single 0x2B, .target ⟨3⟩⟩, ⟨.single 0x45, .switch (List.replicate 32 ⟨3⟩)⟩,
    ⟨.single 0x2B, .target ⟨3⟩⟩, ⟨.ret, .none⟩]
  order := #[⟨0⟩, ⟨1⟩, ⟨2⟩, ⟨3⟩]

/-- It serves that the first branch is long. -/
private theorem sufficient_skippingList : Sufficient skippingList {⟨0⟩} where
  onlyShort slot hslot := by
    obtain rfl := Finset.mem_singleton.mp hslot
    decide +kernel
  reaches := by
    have hslots : ∀ slot ∈ skippingList.order, (skippingList.get slot).opcode.isShortBranch = true →
        slot ∉ ({⟨0⟩} : Finset Slot) → slot = ⟨2⟩ := by decide +kernel
    intro slot hslot hshort hnot
    obtain rfl := hslots slot hslot hshort hnot
    exact ⟨0, ⟨2, ⟨3⟩, 3, rfl, rfl, rfl, by decide +kernel⟩, by decide, by decide⟩

/-- Of two branches, of which the second one reaches its target, only the first one becomes long. -/
theorem relaxation_least_skipping :
    (∃ rounds, rounds ≤ 3 ∧ Settles (positionsOf skippingList) rounds (initial skippingList)
      (withLong skippingList {⟨0⟩})) ∧
    IsLeast {other | Sufficient skippingList other} {⟨0⟩} := by
  have hdistinct : skippingList.order.toList.Nodup := by decide +kernel
  have hjump : ∀ slot ∈ skippingList.order,
      (skippingList.get slot).opcode.isShortBranch = true →
        (skippingList.get slot).operand = .target ⟨3⟩ := by decide +kernel
  obtain ⟨rounds, long, hrounds, hsettles, -, hleast, -⟩ :=
    relaxation_least hdistinct (by decide +kernel) fun slot hslot hshort =>
      ⟨⟨3⟩, hjump slot hslot hshort⟩
  have hsubset : long ⊆ {⟨0⟩} := hleast.2 sufficient_skippingList
  have hlong : long = {⟨0⟩} := by
    rcases Finset.subset_singleton_iff.mp hsubset with rfl | rfl
    · obtain ⟨distance, hjumps, -, hhigh⟩ :=
        hleast.1.reaches ⟨0⟩ (by decide +kernel) (by decide +kernel) (Finset.notMem_empty _)
      have hfar : Jumps skippingList ∅ ⟨0⟩ 135 :=
        ⟨0, ⟨3⟩, 3, rfl, rfl, rfl, by decide +kernel⟩
      rw [hjumps.unique hdistinct hfar] at hhigh
      omega
    · rfl
  have hcount : shortCount (initial skippingList) + 1 = 3 := by decide +kernel
  rw [hlong] at hsettles hleast
  exact ⟨⟨rounds, hcount ▸ hrounds, hsettles⟩, hleast⟩

end Layout

end CilPatch
