import CilPatch.Proofs.Bytes.Cursor
import CilPatch.Proofs.Code.Operand

/-!
# Reading code

Code is a sequence of stored instructions, each an opcode that has a meaning with its stored
operand. What is read off some bytes are exactly the instructions that the bytes store.
-/

namespace CilPatch

open LittleEndian

/-- How instructions are stored from an offset on. -/
inductive WrittenCode : Nat → List RawInstruction → List UInt8 → Prop
  | nil {start : Nat} : WrittenCode start [] []
  | cons {start : Nat} {opcode : Opcode} {operand : RawOperand} {rest : List RawInstruction}
      {bytes code : List UInt8} (hvalid : opcode.isValid = true)
      (hoperand : Written opcode.operandKind (start + opcode.size + bytes.length) operand bytes)
      (hrest : WrittenCode (start + opcode.size + bytes.length) rest code) :
      WrittenCode start (⟨start, opcode, operand⟩ :: rest) (opcode.bytes ++ bytes ++ code)

/-- An opcode takes at least one byte. -/
theorem Opcode.length_bytes_pos (opcode : Opcode) : 0 < opcode.bytes.length := by
  cases opcode <;> exact Nat.zero_lt_succ _

/-- Every stored instruction takes at least one byte. -/
theorem WrittenCode.length_le {start : Nat} {raws : List RawInstruction}
    {bytes : List UInt8} (h : WrittenCode start raws bytes) : raws.length ≤ bytes.length := by
  induction h with
  | nil => exact Nat.le_refl _
  | cons _ _ _ ih =>
    next opcode _ _ _ _ _ _ _ =>
    have hpos := opcode.length_bytes_pos
    simp only [List.length_cons, List.length_append]
    omega

namespace Code

variable {before after : Cursor}

/-- A word operand is read as a word. -/
private theorem run_readOperand_word {kind : OperandKind} {width : Nat}
    (hwidth : kind.size? = some width) (hkind : kind ≠ .none) (cursor : Cursor) :
    (readOperand kind).run cursor =
      match (Read.word width).run cursor with
      | (.ok word, after) => (.ok (.ofWord kind after.pos word), after)
      | (.error fault, after) => (.error fault, after) := by
  cases kind with
  | none => exact absurd rfl hkind
  | switch => cases hwidth
  | _ =>
    obtain rfl := Option.some.inj hwidth
    simp only [readOperand, readJump, Read.u8, Read.u16, Read.u32, Read.u64, step_bind]
    rcases (Read.word _).run cursor with ⟨⟨fault⟩ | ⟨word⟩, middle⟩ <;> rfl

/-- The targets of a switch are read when its stored form is passed. -/
theorem run_readSwitch_eq_ok_iff {raw : RawOperand} :
    readSwitch.run before = (.ok raw, after) ↔
      ∃ bytes, Written .switch after.pos raw bytes ∧ before.Passes bytes after := by
  rw [readSwitch, run_bind_eq_ok_iff]
  simp only [step_bind, step_get]
  constructor
  · rintro ⟨count, middle, hcount, h⟩
    have hcount := Read.run_u32_eq_ok_iff.mp hcount
    split at h
    · rw [step_bind, step_throw] at h
      cases h
    · obtain ⟨distances, last, hdistances, h⟩ := run_bind_eq_ok_iff.mp h
      obtain ⟨hlength, hpasses⟩ := (Read.run_many_u32_eq_ok_iff hcount.bounded).mp hdistances
      rw [step_bind, step_get] at h
      obtain ⟨hraw, rfl⟩ := Prod.mk.inj h
      obtain rfl := Except.ok.inj hraw
      have hfew : distances.length < UInt32.size := by
        rw [hlength]
        exact count.toNat_lt
      refine ⟨_, .switch hfew, Cursor.passes_append_iff.mpr ⟨middle, ?_, hpasses⟩⟩
      rw [hlength]
      exact hcount
  · rintro ⟨bytes, hwritten, hpasses⟩
    cases hwritten with
    | word hwidth => cases hwidth
    | @switch _ distances hfew =>
      obtain ⟨middle, hcount, hentries⟩ := Cursor.passes_append_iff.mp hpasses
      have htoNat : (UInt32.ofNat distances.length).toNat = distances.length :=
        UInt32.toNat_ofNat_of_lt' hfew
      have hroom : ¬middle.data.size < middle.pos + 4 * (UInt32.ofNat distances.length).toNat := by
        have hbounded := hentries.bounded
        rw [hentries.moved] at hbounded
        simp only [length_flatten_u32] at hbounded
        omega
      refine ⟨UInt32.ofNat distances.length, middle, ?_, ?_⟩
      · rw [Read.run_u32_eq_ok_iff, LittleEndian.u32, htoNat]
        exact hcount
      · rw [if_neg hroom]
        refine run_bind_eq_ok_iff.mpr ⟨distances, after, ?_, rfl⟩
        exact (Read.run_many_u32_eq_ok_iff hcount.bounded).mpr ⟨htoNat.symm, hentries⟩

/-- An operand is read when its stored form is passed. -/
theorem run_readOperand_eq_ok_iff {kind : OperandKind} {raw : RawOperand}
    (hbounded : before.pos ≤ before.data.size) :
    (readOperand kind).run before = (.ok raw, after) ↔
      ∃ bytes, Written kind after.pos raw bytes ∧ before.Passes bytes after := by
  cases hwidth : kind.size? with
  | none =>
    obtain rfl : kind = .switch := by cases kind <;> first | rfl | cases hwidth
    exact run_readSwitch_eq_ok_iff
  | some width =>
    by_cases hkind : kind = .none
    · subst hkind
      obtain rfl : 0 = width := Option.some.inj hwidth
      constructor
      · intro h
        obtain ⟨hraw, rfl⟩ := Prod.mk.inj h
        obtain rfl := Except.ok.inj hraw
        exact ⟨_, .word hwidth (range_pos 0), (Cursor.passes_nil_iff hbounded).mpr rfl⟩
      · rintro ⟨bytes, hwritten, hpasses⟩
        cases hwritten with
        | word hsame =>
          obtain rfl := Option.some.inj hsame
          rw [(Cursor.passes_nil_iff hbounded).mp hpasses]
          rfl
    · rw [run_readOperand_word hwidth hkind]
      constructor
      · intro h
        rcases hword : (Read.word width).run before with ⟨⟨fault⟩ | ⟨word⟩, middle⟩
        · rw [hword] at h
          cases h
        · rw [hword] at h
          obtain ⟨hraw, rfl⟩ := Prod.mk.inj h
          obtain rfl := Except.ok.inj hraw
          obtain ⟨hlt, hpasses⟩ := Read.run_word_eq_ok_iff.mp hword
          exact ⟨_, .word hwidth hlt, hpasses⟩
      · rintro ⟨bytes, hwritten, hpasses⟩
        cases hwritten with
        | switch => cases hwidth
        | word hsame hlt =>
          obtain rfl := Option.some.inj (hwidth.symm.trans hsame)
          rw [Read.run_word_eq_ok_iff.mpr ⟨hlt, hpasses⟩]

/-- The byte in front of opcodes of two bytes is no opcode by itself. -/
theorem isValid_escape : (Opcode.single Opcode.escape).isValid = false := by decide +kernel

/-- An opcode is kept when it has a meaning. -/
private theorem run_ite_isValid_eq_ok_iff {opcode found : Opcode} {fault : Fault} :
    (if found.isValid = true then pure found else throw fault : Read Opcode).run before =
        (.ok opcode, after) ↔ opcode.isValid = true ∧ found = opcode ∧ before = after := by
  split
  · next hvalid =>
    rw [step_pure, Prod.mk.injEq, Except.ok.injEq]
    constructor
    · rintro ⟨rfl, rfl⟩
      exact ⟨hvalid, rfl, rfl⟩
    · exact fun h => h.2
  · next hvalid =>
    rw [step_throw]
    constructor
    · intro h
      cases h
    · rintro ⟨hopcode, rfl, -⟩
      exact absurd hopcode hvalid

/-- An opcode is read when its bytes are passed and it has a meaning. -/
theorem run_readOpcode_eq_ok_iff {opcode : Opcode} :
    readOpcode.run before = (.ok opcode, after) ↔
      opcode.isValid = true ∧ before.Passes opcode.bytes after := by
  rw [readOpcode]
  constructor
  · intro h
    obtain ⟨cursor, start, hget, h⟩ := run_bind_eq_ok_iff.mp h
    obtain ⟨-, rfl⟩ := Prod.mk.inj hget
    obtain ⟨first, middle, hfirst, h⟩ := run_bind_eq_ok_iff.mp h
    have hfirst := Read.run_u8_eq_ok_iff.mp hfirst
    simp only at h
    split at h
    · next hescape =>
      obtain ⟨found, last, hfound, h⟩ := run_bind_eq_ok_iff.mp h
      obtain ⟨hvalid, rfl, rfl⟩ := run_ite_isValid_eq_ok_iff.mp h
      obtain ⟨code, hcode, rfl⟩ := run_map_eq_ok_iff.mp hfound
      have hcode := Read.run_u8_eq_ok_iff.mp hcode
      rw [hescape] at hfirst
      exact ⟨hvalid, Cursor.passes_append_iff.mpr ⟨middle, hfirst, hcode⟩⟩
    · obtain ⟨found, last, hfound, h⟩ := run_bind_eq_ok_iff.mp h
      obtain ⟨hsingle, rfl⟩ := Prod.mk.inj hfound
      obtain rfl := Except.ok.inj hsingle
      obtain ⟨hvalid, rfl, rfl⟩ := run_ite_isValid_eq_ok_iff.mp h
      exact ⟨hvalid, hfirst⟩
  · rintro ⟨hvalid, hpasses⟩
    refine run_bind_eq_ok_iff.mpr ⟨before, before, rfl, ?_⟩
    cases opcode with
    | single code =>
      have hne : code ≠ Opcode.escape := by
        rintro rfl
        rw [isValid_escape] at hvalid
        cases hvalid
      refine run_bind_eq_ok_iff.mpr ⟨code, after, Read.run_u8_eq_ok_iff.mpr hpasses, ?_⟩
      rw [if_neg hne]
      exact run_bind_eq_ok_iff.mpr
        ⟨.single code, after, rfl, run_ite_isValid_eq_ok_iff.mpr ⟨hvalid, rfl, rfl⟩⟩
    | extended code =>
      have hpasses : before.Passes ([Opcode.escape] ++ [code]) after := hpasses
      obtain ⟨middle, hfirst, hcode⟩ := Cursor.passes_append_iff.mp hpasses
      refine run_bind_eq_ok_iff.mpr
        ⟨Opcode.escape, middle, Read.run_u8_eq_ok_iff.mpr hfirst, ?_⟩
      rw [if_pos rfl]
      refine run_bind_eq_ok_iff.mpr
        ⟨.extended code, after, ?_, run_ite_isValid_eq_ok_iff.mpr ⟨hvalid, rfl, rfl⟩⟩
      exact run_map_eq_ok_iff.mpr ⟨code, Read.run_u8_eq_ok_iff.mpr hcode, rfl⟩

/-- An instruction is read when its opcode and its stored operand are passed. -/
theorem run_readInstruction_eq_ok_iff {raw : RawInstruction} :
    readInstruction.run before = (.ok raw, after) ↔
      raw.offset = before.pos ∧ raw.opcode.isValid = true ∧
        ∃ bytes, Written raw.opcode.operandKind after.pos raw.operand bytes ∧
          before.Passes (raw.opcode.bytes ++ bytes) after := by
  rw [readInstruction]
  constructor
  · intro h
    obtain ⟨cursor, start, hget, h⟩ := run_bind_eq_ok_iff.mp h
    obtain ⟨hcursor, rfl⟩ := Prod.mk.inj hget
    obtain rfl := Except.ok.inj hcursor
    obtain ⟨opcode, middle, hopcode, h⟩ := run_bind_eq_ok_iff.mp h
    obtain ⟨operand, last, hoperand, h⟩ := run_bind_eq_ok_iff.mp h
    obtain ⟨hraw, rfl⟩ := Prod.mk.inj h
    obtain rfl := Except.ok.inj hraw
    obtain ⟨hvalid, hopcode⟩ := run_readOpcode_eq_ok_iff.mp hopcode
    obtain ⟨bytes, hwritten, hoperand⟩ :=
      (run_readOperand_eq_ok_iff hopcode.bounded).mp hoperand
    exact ⟨rfl, hvalid, bytes, hwritten,
      Cursor.passes_append_iff.mpr ⟨middle, hopcode, hoperand⟩⟩
  · rintro ⟨hoffset, hvalid, bytes, hwritten, hpasses⟩
    obtain ⟨offset, opcode, operand⟩ := raw
    obtain ⟨middle, hopcode, hoperand⟩ := Cursor.passes_append_iff.mp hpasses
    refine run_bind_eq_ok_iff.mpr ⟨before, before, rfl, ?_⟩
    refine run_bind_eq_ok_iff.mpr
      ⟨opcode, middle, run_readOpcode_eq_ok_iff.mpr ⟨hvalid, hopcode⟩, ?_⟩
    refine run_bind_eq_ok_iff.mpr ⟨operand, after, ?_, ?_⟩
    · exact (run_readOperand_eq_ok_iff hopcode.bounded).mpr ⟨bytes, hwritten, hoperand⟩
    · rw [step_pure, ← hoffset]

/-- At the end of a block nothing is stored, and nothing is read. -/
private theorem exists_run_end_iff {found all : Array RawInstruction}
    (hend : before.rest = []) :
    (∃ after, (pure found : Read (Array RawInstruction)).run before = (.ok all, after)) ↔
      ∃ raws, all = found ++ raws.toArray ∧ WrittenCode before.pos raws before.rest := by
  constructor
  · rintro ⟨after, h⟩
    obtain ⟨hall, -⟩ := Prod.mk.inj h
    obtain rfl := Except.ok.inj hall
    rw [hend]
    exact ⟨[], by simp, .nil⟩
  · rintro ⟨raws, rfl, hwritten⟩
    have hlength := hwritten.length_le
    rw [hend] at hlength
    obtain rfl := List.length_eq_zero_iff.mp (Nat.le_zero.mp hlength)
    exact ⟨before, by simp⟩

/-- What stands behind an instruction comes behind its opcode and its operand. -/
private theorem pos_of_passes {opcode : Opcode} {bytes : List UInt8}
    (h : before.Passes (opcode.bytes ++ bytes) after) :
    after.pos = before.pos + opcode.size + bytes.length := by
  rw [h.moved, List.length_append, Opcode.size, Nat.add_assoc]

/-- Every opcode has a byte, so less is left behind an instruction. -/
private theorem length_rest_lt_of_passes {opcode : Opcode} {bytes : List UInt8}
    (h : before.Passes (opcode.bytes ++ bytes) after) : after.rest.length < before.rest.length := by
  have hpos := opcode.length_bytes_pos
  rw [h.length_rest, List.length_append]
  omega

/-- Instructions are read up to the end when what is left stores them. The induction is on the fuel,
which never runs out before what is left does. -/
theorem run_readInstructions_iff {fuel : Nat} {found all : Array RawInstruction}
    (hbounded : before.pos ≤ before.data.size) (hfuel : before.rest.length ≤ fuel) :
    (∃ after, (readInstructions fuel found).run before = (.ok all, after)) ↔
      ∃ raws, all = found ++ raws.toArray ∧ WrittenCode before.pos raws before.rest := by
  induction fuel generalizing before found with
  | zero => exact exists_run_end_iff (List.length_eq_zero_iff.mp (Nat.le_zero.mp hfuel))
  | succ fuel ih =>
    rw [readInstructions]
    simp only [step_bind, step_get]
    cases hmore : before.hasMore with
    | false =>
      exact exists_run_end_iff (List.head?_eq_none_iff.mp (Cursor.hasMore_eq_false_iff.mp hmore))
    | true =>
      simp only [if_true]
      constructor
      · rintro ⟨after, h⟩
        obtain ⟨raw, middle, hraw, h⟩ := run_bind_eq_ok_iff.mp h
        obtain ⟨hoffset, hvalid, bytes, hwritten, hpasses⟩ :=
          run_readInstruction_eq_ok_iff.mp hraw
        obtain ⟨offset, opcode, operand⟩ := raw
        obtain rfl : offset = before.pos := hoffset
        have hless := length_rest_lt_of_passes hpasses
        obtain ⟨raws, rfl, hraws⟩ := (ih hpasses.bounded (by omega)).mp ⟨after, h⟩
        rw [pos_of_passes hpasses] at hwritten hraws
        refine ⟨⟨before.pos, opcode, operand⟩ :: raws, by simp, ?_⟩
        rw [hpasses.rest]
        exact .cons hvalid hwritten hraws
      · rintro ⟨raws, rfl, hwritten⟩
        generalize hbytes : before.rest = stored at hwritten
        cases hwritten with
        | nil =>
          rw [Cursor.hasMore_eq_false_iff.mpr (by rw [hbytes]; rfl)] at hmore
          cases hmore
        | @cons _ opcode operand rest bytes code hvalid hoperand hrest =>
          obtain ⟨middle, hpasses⟩ : ∃ middle, before.Passes (opcode.bytes ++ bytes) middle :=
            ⟨_, Cursor.passes_of_rest hbytes hbounded⟩
          have hless := length_rest_lt_of_passes hpasses
          rw [← pos_of_passes hpasses] at hoperand hrest
          rw [← hpasses.rest_eq hbytes] at hrest
          have hall : found ++ (⟨before.pos, opcode, operand⟩ :: rest).toArray =
              found.push ⟨before.pos, opcode, operand⟩ ++ rest.toArray := by simp
          obtain ⟨after, hread⟩ := (ih hpasses.bounded (by omega)).mpr ⟨rest, hall, hrest⟩
          refine ⟨after, run_bind_eq_ok_iff.mpr ⟨_, _, ?_, hread⟩⟩
          exact run_readInstruction_eq_ok_iff.mpr ⟨rfl, hvalid, bytes, hoperand, hpasses⟩

/-- Code is read as the instructions that it stores. -/
theorem parse_eq_ok_iff {code : Bytes} {raws : Array RawInstruction} :
    Cursor.parse (readInstructions code.size #[]) code = .ok raws ↔
      WrittenCode 0 raws.toList code.toList := by
  have hrun : (∃ after, (readInstructions code.size #[]).run ⟨code, 0⟩ = (.ok raws, after)) ↔
      ∃ list, raws = #[] ++ list.toArray ∧ WrittenCode 0 list (Cursor.rest ⟨code, 0⟩) :=
    run_readInstructions_iff (Nat.zero_le _) (by simp [Cursor.rest])
  constructor
  · intro h
    obtain ⟨list, rfl, hwritten⟩ := hrun.mp ⟨_, Prod.ext h rfl⟩
    simpa [Cursor.rest] using hwritten
  · intro h
    obtain ⟨after, hread⟩ := hrun.mpr ⟨raws.toList, by simp, by simpa [Cursor.rest] using h⟩
    rw [Cursor.parse, hread]

end Code

end CilPatch
