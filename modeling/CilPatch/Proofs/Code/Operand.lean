import CilPatch.Code.Decode
import CilPatch.Proofs.Code.SignedWord
import CilPatch.Proofs.Step

/-!
# Stored operands

Every operand but that of a switch is stored as one word, and what the word stands for depends on
the kind of the operand and, for a branch, on where the instruction ends. A switch is stored as a
count and one word for each target. Reading and writing are both compared with this form.
-/

namespace CilPatch

open LittleEndian

/-- The operand of a kind that a word stands for in an instruction that ends at an offset. -/
def RawOperand.ofWord (kind : OperandKind) (stop word : Nat) : RawOperand :=
  match kind with
  | .none | .switch => .ready .none
  | .int8 => .ready (.i32 (UInt8.ofNat word).toInt8.toInt32)
  | .uint8 => .ready (.i32 (Int32.ofNat (UInt8.ofNat word).toNat))
  | .int32 => .ready (.i32 (UInt32.ofNat word).toInt32)
  | .int64 => .ready (.i64 (UInt64.ofNat word).toInt64)
  | .float32 => .ready (.f32 (UInt32.ofNat word))
  | .float64 => .ready (.f64 (UInt64.ofNat word))
  | .token => .ready (.token ⟨UInt32.ofNat word⟩)
  | .local8 => .ready (.localIndex (UInt8.ofNat word).toUInt16)
  | .local16 => .ready (.localIndex (UInt16.ofNat word))
  | .arg8 => .ready (.argIndex (UInt8.ofNat word).toUInt16)
  | .arg16 => .ready (.argIndex (UInt16.ofNat word))
  | .branch8 => .jump (stop + (UInt8.ofNat word).toInt8.toInt)
  | .branch32 => .jump (stop + (UInt32.ofNat word).toInt32.toInt)

/-- How an operand of a kind is stored in an instruction that ends at an offset. -/
inductive Written : OperandKind → Nat → RawOperand → List UInt8 → Prop
  /-- One word of the size that the kind gives. -/
  | word {kind : OperandKind} {stop width value : Nat} (hwidth : kind.size? = some width)
      (hvalue : value < range width) :
      Written kind stop (.ofWord kind stop value) (encode width value)
  /-- A count and the distances of the targets from the end. -/
  | switch {stop : Nat} {distances : List UInt32} (hcount : distances.length < UInt32.size) :
      Written .switch stop (.jumps (distances.map fun distance => stop + distance.toInt32.toInt))
        (encode 4 distances.length ++ (distances.map u32).flatten)

/-- Whether an operand names instructions. -/
def Operand.isJump : Operand → Bool
  | .target _ | .switch _ => true
  | _ => false

/-- Whether an operand is another one with its instructions replaced by where they start. -/
inductive Located (offsetOf : Slot → Option Nat) : Operand → RawOperand → Prop
  | ready {operand : Operand} (hready : operand.isJump = false) :
      Located offsetOf operand (.ready operand)
  | jump {slot : Slot} {target : Nat} (htarget : offsetOf slot = some target) :
      Located offsetOf (.target slot) (.jump target)
  | jumps {slots : List Slot} {targets : List Nat}
      (htargets : slots.map offsetOf = targets.map some) :
      Located offsetOf (.switch slots) (.jumps (targets.map Int.ofNat))

namespace Located

variable {offsetOf : Slot → Option Nat} {operand : Operand}

/-- An operand that names no instructions stays as it is. -/
theorem of_ready {stored : Operand} (h : Located offsetOf operand (.ready stored)) :
    operand = stored ∧ operand.isJump = false := by
  cases h with
  | ready hready => exact ⟨rfl, hready⟩

/-- A jump leads to where its target starts. -/
theorem of_jump {found : Int} (h : Located offsetOf operand (.jump found)) :
    ∃ slot target, operand = .target slot ∧ offsetOf slot = some target ∧
      (target : Int) = found := by
  generalize hraw : RawOperand.jump found = raw at h
  cases h with
  | ready => cases hraw
  | jump htarget => exact ⟨_, _, rfl, htarget, (RawOperand.jump.inj hraw).symm⟩
  | jumps => cases hraw

/-- A switch leads to where its targets start. -/
theorem of_jumps {found : List Int} (h : Located offsetOf operand (.jumps found)) :
    ∃ (slots : List Slot) (targets : List Nat), operand = .switch slots ∧
      slots.map offsetOf = targets.map some ∧ targets.map Int.ofNat = found := by
  generalize hraw : RawOperand.jumps found = raw at h
  cases h with
  | ready => cases hraw
  | jump => cases hraw
  | jumps htargets => exact ⟨_, _, rfl, htargets, (RawOperand.jumps.inj hraw).symm⟩

/-- A switch has as many targets as it has offsets. -/
theorem length_eq {slots : List Slot} {found : List Int}
    (h : Located offsetOf (.switch slots) (.jumps found)) : slots.length = found.length := by
  obtain ⟨same, targets, hsame, htargets, rfl⟩ := h.of_jumps
  obtain rfl := Operand.switch.inj hsame
  simpa using congrArg List.length htargets

end Located

namespace Code

variable {offsetOf : Slot → Option Nat}

/-- A jump is written when its target starts somewhere that is near enough. -/
theorem jump_eq_ok_iff {fits : Int → Bool} {width stop : Nat} {fault : Int → Fault} {slot : Slot}
    {bytes : List UInt8} :
    (do
      let found ← distance offsetOf stop slot
      if fits found then return signed width found
      else throw (fault found) : Except Fault (List UInt8)) = .ok bytes ↔
      ∃ target : Nat, offsetOf slot = some target ∧ fits ((target : Int) - stop) = true ∧
        bytes = signed width ((target : Int) - stop) := by
  constructor
  · intro h
    obtain ⟨found, hfound, hbytes⟩ := bind_eq_ok_iff.mp h
    rw [distance] at hfound
    split at hfound
    · next target htarget =>
      obtain rfl := Except.ok.inj hfound
      split at hbytes
      · next hfits => exact ⟨target, htarget, hfits, (Except.ok.inj hbytes).symm⟩
      · cases hbytes
    · cases hfound
  · rintro ⟨target, htarget, hfits, rfl⟩
    refine bind_eq_ok_iff.mpr ⟨(target : Int) - stop, ?_, ?_⟩
    · rw [distance, htarget]
    · rw [if_pos hfits]
      rfl

/-- An operand that names no instructions is stored as a word that stands for it. -/
private theorem exists_ready {kind : OperandKind} {stop width word : Nat} {operand : Operand}
    (hwidth : kind.size? = some width) (hword : word < range width)
    (hstands : RawOperand.ofWord kind stop word = .ready operand)
    (hready : operand.isJump = false) :
    ∃ raw, Located offsetOf operand raw ∧ Written kind stop raw (LittleEndian.encode width word) :=
  ⟨.ready operand, .ready hready, hstands ▸ .word hwidth hword⟩

/-- A branch is stored as a word that stands for where its target starts. -/
private theorem exists_jump {kind : OperandKind} {stop width word target : Nat} {slot : Slot}
    (hwidth : kind.size? = some width) (hword : word < range width)
    (hstands : RawOperand.ofWord kind stop word = .jump target)
    (htarget : offsetOf slot = some target) :
    ∃ raw, Located offsetOf (.target slot) raw ∧
      Written kind stop raw (LittleEndian.encode width word) :=
  ⟨.jump target, .jump htarget, hstands ▸ .word hwidth hword⟩

/-- The distance to a target that is near enough is a word that stands for it. -/
private theorem exists_distance {stop target : Nat}
    (h : Layout.fitsWord ((target : Int) - stop) = true) :
    ∃ distance : UInt32, signed 4 ((target : Int) - stop) = u32 distance ∧
      (target : Int) = stop + distance.toInt32.toInt := by
  have hword := toNat_emod_lt 4 ((target : Int) - stop)
  refine ⟨UInt32.ofNat (((target : Int) - stop) % range 4).toNat, ?_, ?_⟩
  · rw [signed, u32, UInt32.toNat_ofNat_of_lt' hword]
  · rw [toInt_word_signed h]
    omega

/-- The entries of a switch are the distances to where its targets start. -/
theorem exists_of_mapM_jump {stop : Nat} {slots : List Slot} {entries : List (List UInt8)}
    (h : (slots.mapM fun slot => do
      let found ← distance offsetOf stop slot
      if Layout.fitsWord found then return signed 4 found
      else throw (.branch (.switchOutOfReach slot)) : Except Fault (List (List UInt8))) =
        .ok entries) :
    ∃ (targets : List Nat) (distances : List UInt32), slots.map offsetOf = targets.map some ∧
      entries = distances.map u32 ∧
      targets.map Int.ofNat =
        distances.map fun distance => (stop : Int) + distance.toInt32.toInt := by
  induction slots generalizing entries with
  | nil =>
    obtain rfl := Except.ok.inj h
    exact ⟨[], [], rfl, rfl, rfl⟩
  | cons slot rest ih =>
    obtain ⟨first, others, hfirst, hothers, rfl⟩ := mapM_cons_eq_ok_iff.mp h
    obtain ⟨target, htarget, hfits, rfl⟩ := jump_eq_ok_iff.mp hfirst
    obtain ⟨targets, distances, htargets, rfl, hdistances⟩ := ih hothers
    obtain ⟨distance, hbytes, hdistance⟩ := exists_distance hfits
    refine ⟨target :: targets, distance :: distances, ?_, ?_, ?_⟩
    · rw [List.map_cons, List.map_cons, htarget, htargets]
    · rw [List.map_cons, hbytes]
    · rw [List.map_cons, List.map_cons, hdistances, ← hdistance]
      rfl

/-- What is written for an operand is its stored form, with its instructions replaced by where
they start. -/
theorem written_of_encodeOperand {placement : Placement} {stop : Nat} {bytes : List UInt8}
    (h : encodeOperand offsetOf placement stop = .ok bytes) :
    ∃ raw, Located offsetOf placement.operand raw ∧
      Written placement.form.operandKind stop raw bytes := by
  unfold encodeOperand at h
  split at h
  · next hkind hoperand =>
    obtain rfl := Except.ok.inj h
    rw [hkind, hoperand]
    exact exists_ready rfl (range_pos 0) rfl rfl
  · next value hkind hoperand =>
    split at h
    · next hfits =>
      obtain rfl := Except.ok.inj h
      rw [hkind, hoperand]
      refine exists_ready rfl (toNat_emod_lt 1 _) ?_ rfl
      rw [RawOperand.ofWord, int8_signed hfits]
    · cases h
  · next value hkind hoperand =>
    split at h
    · next hfits =>
      obtain rfl := Except.ok.inj h
      rw [hkind, hoperand]
      refine exists_ready rfl (toNat_emod_lt 1 _) ?_ rfl
      rw [RawOperand.ofWord, uint8_signed hfits]
    · cases h
  · next value hkind hoperand =>
    obtain rfl := Except.ok.inj h
    rw [hkind, hoperand]
    refine exists_ready rfl (toNat_emod_lt 4 _) ?_ rfl
    rw [RawOperand.ofWord, int32_signed]
  · next value hkind hoperand =>
    obtain rfl := Except.ok.inj h
    rw [hkind, hoperand]
    refine exists_ready rfl (toNat_emod_lt 8 _) ?_ rfl
    rw [RawOperand.ofWord, int64_signed]
  · next bits hkind hoperand =>
    obtain rfl := Except.ok.inj h
    rw [hkind, hoperand]
    refine exists_ready rfl bits.toNat_lt ?_ rfl
    rw [RawOperand.ofWord, UInt32.ofNat_toNat]
  · next bits hkind hoperand =>
    obtain rfl := Except.ok.inj h
    rw [hkind, hoperand]
    refine exists_ready rfl bits.toNat_lt ?_ rfl
    rw [RawOperand.ofWord, UInt64.ofNat_toNat]
  · next reference hkind hoperand =>
    obtain rfl := Except.ok.inj h
    rw [hkind, hoperand]
    refine exists_ready rfl reference.value.toNat_lt ?_ rfl
    rw [RawOperand.ofWord, UInt32.ofNat_toNat]
  · next index hkind hoperand =>
    split at h
    · next hfits =>
      obtain rfl := Except.ok.inj h
      rw [hkind, hoperand]
      refine exists_ready rfl hfits ?_ rfl
      rw [RawOperand.ofWord, uint16_of_byte hfits]
    · cases h
  · next index hkind hoperand =>
    split at h
    · next hfits =>
      obtain rfl := Except.ok.inj h
      rw [hkind, hoperand]
      refine exists_ready rfl hfits ?_ rfl
      rw [RawOperand.ofWord, uint16_of_byte hfits]
    · cases h
  · next index hkind hoperand =>
    obtain rfl := Except.ok.inj h
    rw [hkind, hoperand]
    refine exists_ready rfl index.toNat_lt ?_ rfl
    rw [RawOperand.ofWord, UInt16.ofNat_toNat]
  · next index hkind hoperand =>
    obtain rfl := Except.ok.inj h
    rw [hkind, hoperand]
    refine exists_ready rfl index.toNat_lt ?_ rfl
    rw [RawOperand.ofWord, UInt16.ofNat_toNat]
  · next slot hkind hoperand =>
    obtain ⟨target, htarget, hfits, rfl⟩ := jump_eq_ok_iff.mp h
    rw [hkind, hoperand]
    refine exists_jump rfl (toNat_emod_lt 1 _) ?_ htarget
    rw [RawOperand.ofWord, toInt_byte_signed hfits]
    congr 1
    omega
  · next slot hkind hoperand =>
    obtain ⟨target, htarget, hfits, rfl⟩ := jump_eq_ok_iff.mp h
    rw [hkind, hoperand]
    refine exists_jump rfl (toNat_emod_lt 4 _) ?_ htarget
    rw [RawOperand.ofWord, toInt_word_signed hfits]
    congr 1
    omega
  · next slots hkind hoperand =>
    split at h
    · cases h
    · next hcount =>
      obtain ⟨entries, hentries, hbytes⟩ := bind_eq_ok_iff.mp h
      obtain rfl := Except.ok.inj hbytes
      obtain ⟨targets, distances, htargets, rfl, hdistances⟩ := exists_of_mapM_jump hentries
      have hlocated : Located offsetOf (.switch slots) _ := .jumps htargets
      rw [hdistances] at hlocated
      have hlength := hlocated.length_eq
      rw [List.length_map] at hlength
      rw [hkind, hoperand, hlength]
      exact ⟨_, hlocated, .switch (by omega)⟩
  · cases h

/-- The entries of a switch are written for where its targets start. -/
theorem mapM_jump_eq_ok {stop : Nat} {slots : List Slot} {targets : List Nat}
    {distances : List UInt32} (htargets : slots.map offsetOf = targets.map some)
    (hdistances : targets.map Int.ofNat =
      distances.map fun distance => (stop : Int) + distance.toInt32.toInt) :
    (slots.mapM fun slot => do
      let found ← distance offsetOf stop slot
      if Layout.fitsWord found then return signed 4 found
      else throw (.branch (.switchOutOfReach slot)) : Except Fault (List (List UInt8))) =
        .ok (distances.map u32) := by
  induction slots generalizing targets distances with
  | nil =>
    obtain rfl := List.map_eq_nil_iff.mp htargets.symm
    obtain rfl := List.map_eq_nil_iff.mp hdistances.symm
    rfl
  | cons slot rest ih =>
    cases targets with
    | nil => cases htargets
    | cons target targets =>
      cases distances with
      | nil => cases hdistances
      | cons distance distances =>
        rw [List.map_cons, List.map_cons, List.cons.injEq] at htargets hdistances
        obtain ⟨htarget, htargets⟩ := htargets
        obtain ⟨hdistance, hdistances⟩ := hdistances
        refine mapM_cons_eq_ok_iff.mpr ⟨_, _, ?_, ih htargets hdistances, rfl⟩
        have hword : (target : Int) - stop = (distance.toNat : Int).bmod (range 4) := by
          have hvalue := toInt_ofNat_word distance.toNat
          rw [UInt32.ofNat_toNat] at hvalue
          rw [← hvalue]
          change (target : Int) = _ at hdistance
          omega
        refine jump_eq_ok_iff.mpr ⟨target, htarget, ?_, ?_⟩
        · rw [hword]
          exact fitsWord_bmod _
        · rw [hword, signed_bmod distance.toNat_lt, u32]

/-- The stored form of an operand is written for it when its instructions start where that says. -/
theorem encodeOperand_of_written {placement : Placement} {stop : Nat} {raw : RawOperand}
    {bytes : List UInt8} (hlocated : Located offsetOf placement.operand raw)
    (hwritten : Written placement.form.operandKind stop raw bytes) :
    encodeOperand offsetOf placement stop = .ok bytes := by
  unfold encodeOperand
  generalize hkind : placement.form.operandKind = kind at hwritten
  generalize hoperand : placement.operand = operand at hlocated
  cases hwritten with
  | @switch _ distances hcount =>
    obtain ⟨slots, targets, rfl, htargets, hdistances⟩ := hlocated.of_jumps
    have hlength := hlocated.length_eq
    rw [List.length_map] at hlength
    have hfew : ¬UInt32.size ≤ slots.length := by omega
    simp only [hfew, if_false]
    refine bind_eq_ok_iff.mpr ⟨_, mapM_jump_eq_ok htargets hdistances, ?_⟩
    rw [hlength]
    rfl
  | @word _ _ width value hwidth hvalue =>
    cases kind with
    | none =>
      obtain ⟨rfl, -⟩ := hlocated.of_ready
      obtain rfl := Option.some.inj hwidth
      rfl
    | switch => cases hwidth
    | int8 =>
      obtain ⟨rfl, -⟩ := hlocated.of_ready
      obtain rfl := Option.some.inj hwidth
      simp only [Int8.toInt_toInt32, toInt_ofNat_byte, fitsByte_bmod, if_true, signed_bmod hvalue]
    | uint8 =>
      obtain ⟨rfl, -⟩ := hlocated.of_ready
      obtain rfl := Option.some.inj hwidth
      have hfits : value < 256 := hvalue
      have hliteral : (Int32.ofNat (UInt8.ofNat value).toNat).toInt = value := by
        rw [UInt8.toNat_ofNat_of_lt' hvalue, Int32.toInt_ofNat_of_lt (by omega)]
      have hboth : (0 : Int) ≤ value ∧ (value : Int) < 256 := by omega
      simp only [hliteral, hboth, and_self, if_true, signed_natCast hvalue]
    | int32 =>
      obtain ⟨rfl, -⟩ := hlocated.of_ready
      obtain rfl := Option.some.inj hwidth
      simp only [toInt_ofNat_word, signed_bmod hvalue]
    | int64 =>
      obtain ⟨rfl, -⟩ := hlocated.of_ready
      obtain rfl := Option.some.inj hwidth
      simp only [toInt_ofNat_long, signed_bmod hvalue]
    | float32 =>
      obtain ⟨rfl, -⟩ := hlocated.of_ready
      obtain rfl := Option.some.inj hwidth
      simp only [u32, UInt32.toNat_ofNat_of_lt' hvalue]
    | float64 =>
      obtain ⟨rfl, -⟩ := hlocated.of_ready
      obtain rfl := Option.some.inj hwidth
      simp only [u64, UInt64.toNat_ofNat_of_lt' hvalue]
    | token =>
      obtain ⟨rfl, -⟩ := hlocated.of_ready
      obtain rfl := Option.some.inj hwidth
      simp only [u32, UInt32.toNat_ofNat_of_lt' hvalue]
    | local8 =>
      obtain ⟨rfl, -⟩ := hlocated.of_ready
      obtain rfl := Option.some.inj hwidth
      have hfits : value < 256 := hvalue
      simp only [toNat_toUInt16_ofNat hfits, hfits, if_true]
    | local16 =>
      obtain ⟨rfl, -⟩ := hlocated.of_ready
      obtain rfl := Option.some.inj hwidth
      simp only [u16, UInt16.toNat_ofNat_of_lt' hvalue]
    | arg8 =>
      obtain ⟨rfl, -⟩ := hlocated.of_ready
      obtain rfl := Option.some.inj hwidth
      have hfits : value < 256 := hvalue
      simp only [toNat_toUInt16_ofNat hfits, hfits, if_true]
    | arg16 =>
      obtain ⟨rfl, -⟩ := hlocated.of_ready
      obtain rfl := Option.some.inj hwidth
      simp only [u16, UInt16.toNat_ofNat_of_lt' hvalue]
    | branch8 =>
      obtain ⟨slot, target, rfl, htarget, hfound⟩ := hlocated.of_jump
      obtain rfl := Option.some.inj hwidth
      have hdistance : (target : Int) - stop = (value : Int).bmod (range 1) := by
        rw [toInt_ofNat_byte] at hfound
        omega
      refine jump_eq_ok_iff.mpr ⟨target, htarget, ?_, ?_⟩
      · rw [hdistance, fitsByte_bmod]
      · rw [hdistance, signed_bmod hvalue]
    | branch32 =>
      obtain ⟨slot, target, rfl, htarget, hfound⟩ := hlocated.of_jump
      obtain rfl := Option.some.inj hwidth
      have hdistance : (target : Int) - stop = (value : Int).bmod (range 4) := by
        rw [toInt_ofNat_word] at hfound
        omega
      refine jump_eq_ok_iff.mpr ⟨target, htarget, ?_, ?_⟩
      · rw [hdistance, fitsWord_bmod]
      · rw [hdistance, signed_bmod hvalue]

/-- An instruction takes as many bytes as its opcode and its stored operand. -/
theorem size_of_written {placement : Placement} {stop : Nat} {raw : RawOperand}
    {bytes : List UInt8} (hlocated : Located offsetOf placement.operand raw)
    (hwritten : Written placement.form.operandKind stop raw bytes) :
    placement.size = placement.form.size + bytes.length := by
  rw [Placement.size]
  generalize hkind : placement.form.operandKind = kind at hwritten
  cases hwritten with
  | word hwidth => rw [hwidth, length_encode]
  | @switch _ distances hcount =>
    obtain ⟨slots, -, hoperand, -, -⟩ := hlocated.of_jumps
    rw [hoperand] at hlocated
    have hlength := hlocated.length_eq
    rw [List.length_map] at hlength
    rw [hoperand, OperandKind.size?, List.length_append, length_encode, length_flatten_u32]
    simp only [hlength]

end Code

end CilPatch
