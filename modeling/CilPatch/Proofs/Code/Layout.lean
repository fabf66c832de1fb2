import CilPatch.Proofs.Code.Reading

/-!
# Laid out code

In a layout each instruction starts where the one before it ends. What is written in a layout
stores the instructions with their jumps replaced by where the targets start, and it is the only
code that does.
-/

namespace CilPatch

/-- A value is found for a key exactly when the pair is listed, if no key is listed twice. -/
theorem getElem?_ofList_eq_some_iff {α β : Type} [BEq α] [LawfulBEq α] [Hashable α]
    {pairs : List (α × β)} (hdistinct : (pairs.map Prod.fst).Nodup) {key : α} {value : β} :
    (Std.HashMap.ofList pairs)[key]? = some value ↔ (key, value) ∈ pairs := by
  have hpairs : pairs.Pairwise fun left right => (left.1 == right.1) = false := by
    refine (List.pairwise_map.mp hdistinct).imp ?_
    intro left right hne
    rwa [beq_eq_false_iff_ne]
  constructor
  · intro h
    by_cases hmem : key ∈ pairs.map Prod.fst
    · obtain ⟨⟨same, found⟩, hfound, rfl⟩ := List.mem_map.mp hmem
      rw [Std.HashMap.getElem?_ofList_of_mem (beq_self_eq_true same) hpairs hfound] at h
      rwa [← Option.some.inj h]
    · rw [Std.HashMap.getElem?_ofList_of_contains_eq_false (by simpa using hmem)] at h
      cases h
  · intro h
    exact Std.HashMap.getElem?_ofList_of_mem (beq_self_eq_true key) hpairs h

/-- The long form of an opcode that has a meaning has one too. -/
theorem Opcode.isValid_longForm {opcode : Opcode} (h : opcode.isValid = true) :
    opcode.longForm.isValid = true := by
  have hsingle : ∀ code : Fin 256,
      (Opcode.single (UInt8.ofFin code)).longForm = .single (UInt8.ofFin code) ∨
        (Opcode.single (UInt8.ofFin code)).longForm.isValid = true := by decide +kernel
  cases opcode with
  | single code =>
    rcases hsingle code.toFin with hsame | hvalid
    · exact (congrArg Opcode.isValid hsame).trans h
    · exact hvalid
  | extended code => exact h

/-- An instruction that is written with its own opcode. -/
def Placement.of (instruction : Instruction) : Placement :=
  ⟨instruction.opcode, instruction.operand⟩

namespace Layout

/-- Where instructions start when the first one starts at an offset. -/
def offsetsFrom : Nat → List Placement → List Nat
  | _, [] => []
  | start, placement :: rest => start :: offsetsFrom (start + placement.size) rest

/-- The starts of a layout are those from its beginning on. -/
theorem toList_offsets (placements : List Placement) :
    (offsets placements).1.toList = offsetsFrom 0 placements := by
  have hfold : ∀ (rest : List Placement) (starts : Array Nat) (stop : Nat),
      (rest.foldl (fun state placement => (state.1.push state.2, state.2 + placement.size))
        (starts, stop)).1.toList = starts.toList ++ offsetsFrom stop rest := by
    intro rest
    induction rest with
    | nil =>
      intro starts stop
      rw [offsetsFrom, List.append_nil]
      rfl
    | cons placement rest ih =>
      intro starts stop
      rw [List.foldl_cons, ih, offsetsFrom, Array.toList_push, List.append_assoc]
      rfl
  exact hfold placements #[] 0

/-- A start for each instruction. -/
theorem length_offsetsFrom (start : Nat) (placements : List Placement) :
    (offsetsFrom start placements).length = placements.length := by
  induction placements generalizing start with
  | nil => rfl
  | cons placement rest ih => rw [offsetsFrom, List.length_cons, List.length_cons, ih]

/-- Whether an instruction has been widened, if at all, from a short branch to its long form. -/
def Widened (before after : Placement) : Prop :=
  after.operand = before.operand ∧ (after.form = before.form ∨
    before.form.isShortBranch = true ∧ after.form = before.form.longForm)

/-- Widening an instruction again changes nothing more. -/
theorem Widened.trans {first second third : Placement} (h : Widened first second)
    (hnext : Widened second third) : Widened first third := by
  obtain ⟨hoperand, hform⟩ := h
  obtain ⟨hoperand', hform'⟩ := hnext
  refine ⟨hoperand'.trans hoperand, ?_⟩
  rcases hform with hsame | ⟨hshort, hlong⟩
  · rw [hsame] at hform'
    exact hform'
  · rcases hform' with hsame' | ⟨hshort', -⟩
    · exact Or.inr ⟨hshort, hsame'.trans hlong⟩
    · rw [hlong, Opcode.isShortBranch_longForm hshort] at hshort'
      cases hshort'

/-- An instruction of a layout that is made anew has been widened if at all. -/
theorem widened_widenEntry (positions : Positions) (starts : Array Nat)
    (entry : Placement × Nat) : Widened entry.1 (widenEntry positions starts entry) := by
  rw [widenEntry]
  split
  · next hlong =>
    rw [needsLong, Bool.and_eq_true] at hlong
    exact ⟨rfl, Or.inr ⟨hlong.1, rfl⟩⟩
  · exact ⟨rfl, Or.inl rfl⟩

/-- Whether each instruction of a layout has been widened if at all. -/
def WidenedAll (before after : List Placement) : Prop :=
  after.length = before.length ∧ ∀ (position : Nat) (placement : Placement),
    before[position]? = some placement →
      ∃ wider, after[position]? = some wider ∧ Widened placement wider

/-- A layout that is left alone has been widened nowhere. -/
theorem WidenedAll.refl (placements : List Placement) : WidenedAll placements placements :=
  ⟨rfl, fun _ placement h => ⟨placement, h, rfl, Or.inl rfl⟩⟩

/-- Widening a layout again widens each instruction if at all. -/
theorem WidenedAll.trans {first second third : List Placement} (h : WidenedAll first second)
    (hnext : WidenedAll second third) : WidenedAll first third := by
  refine ⟨hnext.1.trans h.1, ?_⟩
  intro position placement hplacement
  obtain ⟨wider, hwider, hfirst⟩ := h.2 position placement hplacement
  obtain ⟨last, hlast, hsecond⟩ := hnext.2 position wider hwider
  exact ⟨last, hlast, hfirst.trans hsecond⟩

/-- One round of widening widens. -/
theorem widenedAll_widen (positions : Positions) (placements : List Placement) :
    WidenedAll placements (widen positions placements) := by
  refine ⟨length_widen positions placements, ?_⟩
  intro position placement hplacement
  have hlt := (List.getElem?_eq_some_iff.mp hplacement).1
  have hstarts : position < (offsets placements).1.toList.length := by
    rw [Array.length_toList, size_offsets]
    exact hlt
  have hzip : (placements.zip (offsets placements).1.toList)[position]? =
      some (placement, (offsets placements).1.toList[position]) := by
    rw [List.getElem?_zip_eq_some]
    exact ⟨hplacement, List.getElem?_eq_getElem hstarts⟩
  refine ⟨widenEntry positions (offsets placements).1
    (placement, (offsets placements).1.toList[position]), ?_, ?_⟩
  · rw [widen, List.getElem?_map, hzip]
    rfl
  · exact widened_widenEntry positions _ (placement, _)

/-- Any number of rounds of widening widens. -/
theorem widenedAll_relax (positions : Positions) (fuel : Nat) (placements : List Placement) :
    WidenedAll placements (relax positions fuel placements) := by
  induction fuel generalizing placements with
  | zero => exact .refl placements
  | succ fuel ih =>
    rw [relax]
    split
    · exact .refl placements
    · exact (widenedAll_widen positions placements).trans (ih _)

/-- An opcode that has a meaning keeps one when it is widened. -/
theorem Widened.isValid {before after : Placement} (h : Widened before after)
    (hvalid : before.form.isValid = true) : after.form.isValid = true := by
  rcases h.2 with hsame | ⟨-, hlong⟩
  · rw [hsame]
    exact hvalid
  · rw [hlong]
    exact Opcode.isValid_longForm hvalid

end Layout

/-- Whether instructions that are laid out from an offset on are stored ones with their jumps
replaced by where the targets start. -/
inductive Lays (offsetOf : Slot → Option Nat) :
    Nat → List Placement → List RawInstruction → Prop
  | nil {start : Nat} : Lays offsetOf start [] []
  | cons {start : Nat} {placement : Placement} {rest : List Placement} {raw : RawOperand}
      {raws : List RawInstruction} (hlocated : Located offsetOf placement.operand raw)
      (hrest : Lays offsetOf (start + placement.size) rest raws) :
      Lays offsetOf start (placement :: rest) (⟨start, placement.form, raw⟩ :: raws)

namespace Lays

variable {offsetOf : Slot → Option Nat} {start : Nat} {placements : List Placement}
  {raws : List RawInstruction}

/-- The stored instructions start where the layout puts them. -/
theorem offsets_eq (h : Lays offsetOf start placements raws) :
    raws.map RawInstruction.offset = Layout.offsetsFrom start placements := by
  induction h with
  | nil => rfl
  | cons _ _ ih => rw [List.map_cons, Layout.offsetsFrom, ih]

/-- Every instruction that is laid out is located. -/
theorem exists_located (h : Lays offsetOf start placements raws) {placement : Placement}
    (hplacement : placement ∈ placements) : ∃ raw, Located offsetOf placement.operand raw := by
  induction h with
  | nil => cases hplacement
  | cons hlocated _ ih =>
    rcases List.mem_cons.mp hplacement with rfl | hmem
    · exact ⟨_, hlocated⟩
    · exact ih hmem

end Lays

namespace Code

variable {offsetOf : Slot → Option Nat}

/-- The bytes of each instruction of a layout that begins at an offset. -/
def encodeParts (offsetOf : Slot → Option Nat) (start : Nat) (placements : List Placement) :
    Except Fault (List (List UInt8)) :=
  (placements.zip (Layout.offsetsFrom start placements)).mapM fun (placement, start) =>
    encodeInstruction offsetOf placement start

/-- What is written of a layout is what is written of its first instruction and then the rest. -/
theorem encodeParts_cons_eq_ok_iff {start : Nat} {placement : Placement} {rest : List Placement}
    {parts : List (List UInt8)} :
    encodeParts offsetOf start (placement :: rest) = .ok parts ↔
      ∃ operand others, encodeOperand offsetOf placement (start + placement.size) = .ok operand ∧
        encodeParts offsetOf (start + placement.size) rest = .ok others ∧
        parts = (placement.form.bytes ++ operand) :: others := by
  rw [encodeParts, Layout.offsetsFrom, List.zip_cons_cons, mapM_cons_eq_ok_iff]
  constructor
  · rintro ⟨first, others, hfirst, hothers, rfl⟩
    obtain ⟨operand, hoperand, hbytes⟩ := bind_eq_ok_iff.mp hfirst
    obtain rfl := Except.ok.inj hbytes
    exact ⟨operand, others, hoperand, hothers, rfl⟩
  · rintro ⟨operand, others, hoperand, hothers, rfl⟩
    exact ⟨_, others, bind_eq_ok_iff.mpr ⟨operand, hoperand, rfl⟩, hothers, rfl⟩

/-- What is written of a layout stores its instructions. -/
theorem written_of_encodeParts {start : Nat} {placements : List Placement}
    {parts : List (List UInt8)}
    (hvalid : ∀ placement ∈ placements, placement.form.isValid = true)
    (h : encodeParts offsetOf start placements = .ok parts) :
    ∃ raws, Lays offsetOf start placements raws ∧ WrittenCode start raws parts.flatten := by
  induction placements generalizing start parts with
  | nil =>
    obtain rfl := Except.ok.inj h
    exact ⟨[], .nil, .nil⟩
  | cons placement rest ih =>
    obtain ⟨bytes, others, hbytes, hothers, rfl⟩ := encodeParts_cons_eq_ok_iff.mp h
    obtain ⟨raw, hlocated, hwritten⟩ := written_of_encodeOperand hbytes
    obtain ⟨raws, hlays, hcode⟩ :=
      ih (fun placement hmem => hvalid placement (List.mem_cons_of_mem _ hmem)) hothers
    have hsize := size_of_written hlocated hwritten
    refine ⟨_, .cons hlocated hlays, ?_⟩
    rw [hsize, ← Nat.add_assoc] at hwritten hcode
    rw [List.flatten_cons]
    exact .cons (hvalid placement List.mem_cons_self) hwritten hcode

/-- Code that stores the instructions of a layout is what is written of it. -/
theorem encodeParts_of_written {start : Nat} {placements : List Placement}
    {raws : List RawInstruction} {code : List UInt8}
    (hlays : Lays offsetOf start placements raws) (hwritten : WrittenCode start raws code) :
    ∃ parts, encodeParts offsetOf start placements = .ok parts ∧ parts.flatten = code := by
  induction hlays generalizing code with
  | nil =>
    cases hwritten
    exact ⟨[], rfl, rfl⟩
  | @cons start placement rest raw raws hlocated hlays ih =>
    cases hwritten with
    | @cons _ _ _ _ bytes code hvalid hoperand hrest =>
      have hsize := size_of_written hlocated hoperand
      have hbytes := encodeOperand_of_written hlocated hoperand
      rw [Nat.add_assoc, ← hsize] at hbytes hrest
      obtain ⟨others, hothers, rfl⟩ := ih hrest
      refine ⟨(placement.form.bytes ++ bytes) :: others, ?_, ?_⟩
      · exact encodeParts_cons_eq_ok_iff.mpr ⟨bytes, others, hbytes, hothers, rfl⟩
      · rw [List.flatten_cons]

end Code

/-- An instruction whose operand names no instructions has no targets. -/
theorem Instruction.targets_eq_nil {instruction : Instruction}
    (h : instruction.operand.isJump = false) : instruction.targets = [] := by
  obtain ⟨opcode, operand⟩ := instruction
  cases operand <;> first | rfl | cases h

/-- Every target of a located operand starts somewhere. -/
theorem Located.exists_of_target {offsetOf : Slot → Option Nat} {instruction : Instruction}
    {raw : RawOperand} (h : Located offsetOf instruction.operand raw) {target : Slot}
    (htarget : target ∈ instruction.targets) : ∃ offset, offsetOf target = some offset := by
  obtain ⟨opcode, operand⟩ := instruction
  cases h with
  | ready hready =>
    rw [Instruction.targets_eq_nil hready] at htarget
    cases htarget
  | @jump slot offset hoffset =>
    obtain rfl : target = slot := List.mem_singleton.mp htarget
    exact ⟨offset, hoffset⟩
  | @jumps slots offsets hoffsets =>
    have hmem : offsetOf target ∈ offsets.map some := by
      rw [← hoffsets]
      exact List.mem_map_of_mem htarget
    obtain ⟨offset, -, hoffset⟩ := List.mem_map.mp hmem
    exact ⟨offset, hoffset.symm⟩

namespace Layout

variable {positions : Positions} {starts : Array Nat}

/-- A short branch that is stored reaches its target. -/
theorem needsLong_of_written {placement : Placement} {start : Nat} {raw : RawOperand}
    {bytes : List UInt8} (hlocated : Located (targetOffset? positions starts) placement.operand raw)
    (hwritten : Written placement.form.operandKind (start + placement.size) raw bytes) :
    needsLong positions starts placement start = false := by
  rw [needsLong]
  cases hshort : placement.form.isShortBranch with
  | false => rfl
  | true =>
    have hkind : placement.form.operandKind = .branch8 := by
      simpa [Opcode.isShortBranch] using hshort
    rw [hkind] at hwritten
    cases hwritten with
    | @word _ _ _ value hwidth hvalue =>
      obtain ⟨slot, target, hoperand, htarget, hfound⟩ := hlocated.of_jump
      have hdistance : (target : Int) - (start + placement.size : Nat) =
          (value : Int).bmod (LittleEndian.range 1) := by
        rw [Code.toInt_ofNat_byte] at hfound
        omega
      simp only [hoperand, htarget, hdistance, Code.fitsByte_bmod]
      rfl

/-- A layout whose instructions are stored needs no widening. -/
theorem map_widenEntry_of_lays {start : Nat} {placements : List Placement}
    {raws : List RawInstruction} {code : List UInt8}
    (hlays : Lays (targetOffset? positions starts) start placements raws)
    (hwritten : WrittenCode start raws code) :
    (placements.zip (offsetsFrom start placements)).map (widenEntry positions starts) =
      placements := by
  induction hlays generalizing code with
  | nil => rfl
  | @cons start placement rest raw raws hlocated hlays ih =>
    cases hwritten with
    | @cons _ _ _ _ bytes code hvalid hoperand hrest =>
      have hsize := Code.size_of_written hlocated hoperand
      rw [Nat.add_assoc, ← hsize] at hoperand hrest
      rw [offsetsFrom, List.zip_cons_cons, List.map_cons, ih hrest, widenEntry,
        needsLong_of_written hlocated hoperand]
      rfl

/-- A layout that widening leaves alone is the final one. -/
theorem relax_of_widen {placements : List Placement}
    (h : widen positions placements = placements) (fuel : Nat) :
    relax positions fuel placements = placements := by
  cases fuel with
  | zero => rfl
  | succ fuel =>
    rw [relax]
    simp only [h, if_true]

end Layout

end CilPatch
