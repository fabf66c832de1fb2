import CilPatch.Method.Clause
import CilPatch.Proofs.Bytes.Block
import CilPatch.Proofs.Bytes.Cursor

/-!
# Reading what was written as clauses

A section of exception clauses is read back whatever stands in front of it and behind it. The flags
of a clause that have no meaning are stored and not read; all else is kept, in either layout.
-/

namespace CilPatch

open LittleEndian

namespace LittleEndian

/-- The bytes of a word that is made narrow and fits. -/
theorem u16_toUInt16 {value : UInt32} (h : value ≤ 0xFFFF) :
    LittleEndian.u16 value.toUInt16 = encode 2 value.toNat := by
  have hlt : value.toNat < 65536 := Nat.lt_succ_of_le (UInt32.le_iff_toNat_le.mp h)
  rw [LittleEndian.u16, UInt32.toNat_toUInt16, Nat.mod_eq_of_lt hlt]

end LittleEndian

/-- A word that fits is the same when it is made narrow and wide again. -/
theorem toUInt32_toUInt16 {value : UInt32} (h : value ≤ 0xFFFF) :
    value.toUInt16.toUInt32 = value := by
  have hlt : value.toNat < 65536 := Nat.lt_succ_of_le (UInt32.le_iff_toNat_le.mp h)
  apply UInt32.toNat_inj.mp
  rw [UInt16.toNat_toUInt32, UInt32.toNat_toUInt16, Nat.mod_eq_of_lt hlt]

/-- A word that fits is the same when it is made a byte and wide again. -/
theorem toUInt32_toUInt8 {value : UInt32} (h : value ≤ 0xFF) : value.toUInt8.toUInt32 = value := by
  have hlt : value.toNat < 256 := Nat.lt_succ_of_le (UInt32.le_iff_toNat_le.mp h)
  apply UInt32.toNat_inj.mp
  rw [UInt8.toNat_toUInt32, UInt32.toNat_toUInt8, Nat.mod_eq_of_lt hlt]

namespace Clause

/-- A clause as it is read back: without the flags that have no meaning. -/
def known (clause : Clause) : Clause := { clause with flags := clause.flags &&& knownFlags }

variable {clause : Clause} {before after : Cursor}

/-- A small clause is read back. -/
theorem run_readSmall (hfits : clause.fitsSmall = true)
    (h : before.Passes clause.encodeSmall after) :
    readSmall.run before = (.ok clause.known, after) := by
  simp only [fitsSmall, Bool.and_eq_true, decide_eq_true_eq] at hfits
  obtain ⟨⟨⟨htry, htryLength⟩, hhandler⟩, hhandlerLength⟩ := hfits
  rw [encodeSmall, ← u16_toUInt16 htry, ← u16_toUInt16 hhandler] at h
  obtain ⟨_, hflags, h⟩ := Cursor.passes_append_iff.mp h
  obtain ⟨_, htryOffset, h⟩ := Cursor.passes_append_iff.mp h
  obtain ⟨_, htrySize, h⟩ := Cursor.passes_append_iff.mp h
  obtain ⟨_, hhandlerOffset, h⟩ := Cursor.passes_append_iff.mp h
  obtain ⟨_, hhandlerSize, hdetail⟩ := Cursor.passes_append_iff.mp h
  refine run_bind_eq_ok_iff.mpr ⟨_, _, Read.run_u16_eq_ok_iff.mpr hflags, ?_⟩
  refine run_bind_eq_ok_iff.mpr ⟨_, _, Read.run_u16_eq_ok_iff.mpr htryOffset, ?_⟩
  refine run_bind_eq_ok_iff.mpr
    ⟨clause.tryLength.toUInt8, _, Read.run_u8_eq_ok_iff.mpr htrySize, ?_⟩
  refine run_bind_eq_ok_iff.mpr ⟨_, _, Read.run_u16_eq_ok_iff.mpr hhandlerOffset, ?_⟩
  refine run_bind_eq_ok_iff.mpr
    ⟨clause.handlerLength.toUInt8, _, Read.run_u8_eq_ok_iff.mpr hhandlerSize, ?_⟩
  refine run_bind_eq_ok_iff.mpr ⟨_, _, Read.run_u32_eq_ok_iff.mpr hdetail, ?_⟩
  rw [toUInt32_toUInt16 htry, toUInt32_toUInt16 hhandler, toUInt32_toUInt8 htryLength,
    toUInt32_toUInt8 hhandlerLength]
  rfl

/-- A fat clause is read back. -/
theorem run_readFat (h : before.Passes clause.encodeFat after) :
    readFat.run before = (.ok clause.known, after) := by
  have hwide : encode 4 clause.flags.toNat = LittleEndian.u32 clause.flags.toUInt32 := by
    rw [LittleEndian.u32, UInt16.toNat_toUInt32]
  rw [encodeFat, hwide] at h
  obtain ⟨_, hflags, h⟩ := Cursor.passes_append_iff.mp h
  obtain ⟨_, htryOffset, h⟩ := Cursor.passes_append_iff.mp h
  obtain ⟨_, htryLength, h⟩ := Cursor.passes_append_iff.mp h
  obtain ⟨_, hhandlerOffset, h⟩ := Cursor.passes_append_iff.mp h
  obtain ⟨_, hhandlerLength, hdetail⟩ := Cursor.passes_append_iff.mp h
  refine run_bind_eq_ok_iff.mpr ⟨_, _, Read.run_u32_eq_ok_iff.mpr hflags, ?_⟩
  refine run_bind_eq_ok_iff.mpr ⟨_, _, Read.run_u32_eq_ok_iff.mpr htryOffset, ?_⟩
  refine run_bind_eq_ok_iff.mpr ⟨_, _, Read.run_u32_eq_ok_iff.mpr htryLength, ?_⟩
  refine run_bind_eq_ok_iff.mpr ⟨_, _, Read.run_u32_eq_ok_iff.mpr hhandlerOffset, ?_⟩
  refine run_bind_eq_ok_iff.mpr ⟨_, _, Read.run_u32_eq_ok_iff.mpr hhandlerLength, ?_⟩
  refine run_bind_eq_ok_iff.mpr ⟨_, _, Read.run_u32_eq_ok_iff.mpr hdetail, ?_⟩
  rw [UInt16.toUInt16_toUInt32]
  rfl

end Clause

namespace Section

/-- Clauses are read from a section that holds nothing else. -/
theorem parse_many {step : Read Clause} {encode : Clause → List UInt8} {clauses : List Clause}
    (hstep : ∀ clause ∈ clauses, ∀ before after : Cursor, before.Passes (encode clause) after →
      step.run before = (.ok clause.known, after)) :
    Cursor.parse (Read.many step clauses.length) (clauses.flatMap encode).toArray =
      .ok (clauses.map Clause.known) := by
  have hpasses := @Cursor.passes_of_rest ⟨(clauses.flatMap encode).toArray, 0⟩
    (clauses.flatMap encode) [] (by simp [Cursor.rest]) (Nat.zero_le _)
  exact congrArg Prod.fst (Read.run_many_of_passes hstep hpasses)

/-- Clauses of one size take that size each. -/
theorem length_flatMap {encode : Clause → List UInt8} {size : Nat}
    (hencode : ∀ clause, (encode clause).length = size) (clauses : List Clause) :
    (clauses.flatMap encode).length = clauses.length * size := by
  induction clauses with
  | nil => simp
  | cons clause rest ih =>
    rw [List.flatMap_cons, List.length_append, hencode, ih, List.length_cons, Nat.succ_mul,
      Nat.add_comm]

theorem length_encodeSmall (clause : Clause) : clause.encodeSmall.length = Clause.smallSize := by
  simp [Clause.encodeSmall, Clause.smallSize]

theorem length_encodeFat (clause : Clause) : clause.encodeFat.length = Clause.fatSize := by
  simp [Clause.encodeFat, Clause.fatSize]

/-- The last section of a body is read: its first byte says what it is, the bytes behind that how
long it is. -/
theorem readFrom_last (front content suffix : List UInt8) (fuel : Nat) {kind size : Nat}
    {fat : Bool} {found : List Clause} (hkind : kind < 256) (htable : kind.testBit tableBit = true)
    (hmore : kind.testBit moreBit = false) (hfat : kind.testBit fatBit = fat)
    (hsize : size = headerSize + content.length) (hroom : size < if fat then 1 <<< 24 else 256)
    (hfound : (if fat then
        Cursor.parse (Read.many Clause.readFat (content.length / Clause.fatSize)) content.toArray
      else
        Cursor.parse (Read.many Clause.readSmall (content.length / Clause.smallSize))
          content.toArray) = .ok found) :
    readFrom (front ++ (LittleEndian.encode 4 (kind + 256 * size) ++ content ++ suffix)).toArray
      (fuel + 1) front.length = .ok found := by
  generalize hheader : LittleEndian.encode 4 (kind + 256 * size) = header
  have hlength : header.length = headerSize := by rw [← hheader, length_encode, headerSize]
  have hword := extract_between front header (content ++ suffix)
  have hcontent := extract_between (front ++ header) content suffix
  rw [List.length_append, hlength, List.append_assoc, ← List.append_assoc header, Nat.add_assoc,
    ← hsize] at hcontent
  rw [hlength, ← List.append_assoc header] at hword
  have hdata : (front ++ (header ++ content ++ suffix)).toArray.size =
      front.length + size + suffix.length := by
    simp only [List.size_toArray, List.length_append]
    omega
  generalize (front ++ (header ++ content ++ suffix)).toArray = data at *
  have hsmall : size < 1 <<< 24 := by
    revert hroom
    cases fat
    · exact fun h => Nat.lt_trans h (by decide)
    · exact id
  have hhead : wordAt data front.length headerSize = kind + 256 * size := by
    rw [← hheader] at hword
    refine wordAt_of_extract hword ?_
    change _ < 4294967296
    omega
  have hbits (bit : Nat) (hbit : bit < 8) :
      (kind + 256 * size).testBit bit = kind.testBit bit := by
    rw [Nat.add_comm, Nat.testBit_two_pow_mul_add size (i := 8) hkind, if_pos hbit]
  have hstated : (if fat then (kind + 256 * size) / 256 else (kind + 256 * size) / 256 % 256) =
      size := by
    have hdiv : (kind + 256 * size) / 256 = size := by omega
    cases fat
    · rw [if_neg Bool.false_ne_true, hdiv]
      exact Nat.mod_eq_of_lt hroom
    · exact hdiv
  have hhere : ¬data.size < front.length + headerSize := by omega
  have hinside : ¬(size < headerSize ∨ data.size < front.length + size) := by omega
  rw [readFrom]
  simp only [hhead, hbits fatBit (by decide), hbits tableBit (by decide), hbits moreBit (by decide),
    htable, hmore, hfat, hstated, hhere, hinside, if_false, if_true, Bool.false_eq_true]
  have hclauses : clauses data front.length size fat = .ok found := by
    have hcount : size - headerSize = content.length := by omega
    rw [clauses, hcontent, hcount]
    exact hfound
  rw [hclauses]
  rfl

/-- The head of a small section. -/
theorem smallHead_eq {size : Nat} (h : size ≤ 0xFF) :
    [0x01, UInt8.ofNat size, 0, 0] = LittleEndian.encode 4 (0x01 + 256 * size) := by
  have hfirst : UInt8.ofNat (0x01 + 256 * size) = 0x01 := by
    apply UInt8.toNat_inj.mp
    rw [UInt8.toNat_ofNat']
    change _ = 1
    omega
  have hrest : (0x01 + 256 * size) / 256 = size := by omega
  have hnone : size / 256 = 0 := by omega
  simp only [LittleEndian.encode, hfirst, hrest, hnone]
  rfl

/-- Clauses that were written as a section are read back from it. -/
theorem readFrom_encode {list : List Clause} {bytes : List UInt8} (h : encode list = .ok bytes)
    (front suffix : List UInt8) (fuel : Nat) :
    readFrom (front ++ (bytes ++ suffix)).toArray (fuel + 1) front.length =
      .ok (list.map Clause.known) := by
  simp only [encode] at h
  split at h
  · next hsmall =>
    obtain ⟨hroom, hfits⟩ := hsmall
    have hfat : Nat.testBit 0x01 fatBit = false := by decide
    rw [← Except.ok.inj h, smallHead_eq hroom]
    have hlength := length_flatMap length_encodeSmall list
    refine readFrom_last front _ suffix fuel (by decide) (by decide) (by decide) hfat
      (by rw [hlength]) (Nat.lt_succ_of_le hroom) ?_
    rw [if_neg Bool.false_ne_true, hlength, Nat.mul_div_cancel _ (by decide)]
    exact parse_many fun clause hclause _ _ =>
      Clause.run_readSmall (List.all_eq_true.mp hfits clause hclause)
  · split at h
    · cases h
    · next hroom =>
      have hfat : Nat.testBit 0x41 fatBit = true := by decide
      have hlength := length_flatMap length_encodeFat list
      rw [← Except.ok.inj h, Nat.mul_comm _ 256]
      refine readFrom_last front _ suffix fuel (by decide) (by decide) (by decide) hfat
        (by rw [hlength]) (by rw [if_pos rfl]; omega) ?_
      rw [if_pos rfl, hlength, Nat.mul_div_cancel _ (by decide)]
      exact parse_many fun _ _ _ _ => Clause.run_readFat

end Section

end CilPatch
