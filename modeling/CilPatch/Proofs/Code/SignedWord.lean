import CilPatch.Code.Encode

/-!
# Signed words

A signed number is stored in the word that has the same remainder, and a word stands for the signed
number around zero that it stores.
-/

namespace CilPatch.Code

open LittleEndian

/-- Several 32-bit words take four bytes each. -/
theorem length_flatten_u32 (values : List UInt32) :
    (values.map LittleEndian.u32).flatten.length = 4 * values.length := by
  induction values with
  | nil => rfl
  | cons value rest ih =>
    simp only [List.map_cons, List.flatten_cons, List.length_append, ih, u32, length_encode,
      List.length_cons]
    omega

/-- A signed byte is a word of one byte around zero. -/
theorem toInt_ofNat_byte (word : Nat) :
    (UInt8.ofNat word).toInt8.toInt = (word : Int).bmod (range 1) :=
  BitVec.toInt_ofNat' word

/-- A signed 32-bit word is a word of four bytes around zero. -/
theorem toInt_ofNat_word (word : Nat) :
    (UInt32.ofNat word).toInt32.toInt = (word : Int).bmod (range 4) :=
  BitVec.toInt_ofNat' word

/-- A signed 64-bit word is a word of eight bytes around zero. -/
theorem toInt_ofNat_long (word : Nat) :
    (UInt64.ofNat word).toInt64.toInt = (word : Int).bmod (range 8) :=
  BitVec.toInt_ofNat' word

/-- The signed number that a word stands for is written as that word. -/
theorem signed_bmod {width word : Nat} (h : word < range width) :
    signed width ((word : Int).bmod (range width)) = LittleEndian.encode width word := by
  have hmod : ((word : Int).bmod (range width)) % (range width : Int) = (word : Int) := by
    rw [Int.bmod_emod]
    exact Int.emod_eq_of_lt (Int.natCast_nonneg _) (by exact_mod_cast h)
  rw [signed, hmod, Int.toNat_natCast]

/-- A signed number that fits is what its word stands for. -/
theorem bmod_signed {width : Nat} {value : Int} (hlow : -(range width : Int) ≤ value * 2)
    (hhigh : value * 2 < range width) :
    (((value % range width).toNat : Nat) : Int).bmod (range width) = value := by
  have hpos := range_pos width
  rw [Int.toNat_of_nonneg (Int.emod_nonneg _ (by omega)), Int.emod_bmod]
  exact Int.bmod_eq_of_le_mul_two hlow hhigh

/-- A distance fits a byte exactly when it is a signed byte. -/
theorem fitsByte_iff {value : Int} : Layout.fitsByte value = true ↔ -128 ≤ value ∧ value < 128 := by
  simp [Layout.fitsByte]

/-- A distance fits a word exactly when it is a signed 32-bit word. -/
theorem fitsWord_iff {value : Int} :
    Layout.fitsWord value = true ↔ -0x80000000 ≤ value ∧ value < 0x80000000 := by
  simp [Layout.fitsWord]

/-- The word of a signed number is one of the width. -/
theorem toNat_emod_lt (width : Nat) (value : Int) :
    (value % range width).toNat < range width := by
  have hpos := range_pos width
  have hlt := Int.emod_lt_of_pos value (show (0 : Int) < range width by omega)
  have hnonneg := Int.emod_nonneg value (show (range width : Int) ≠ 0 by omega)
  omega

/-- A signed number that fits a byte is what its byte stands for. -/
theorem toInt_byte_signed {value : Int} (h : Layout.fitsByte value = true) :
    (UInt8.ofNat (value % range 1).toNat).toInt8.toInt = value := by
  have hrange : range 1 = 256 := rfl
  have hfits := fitsByte_iff.mp h
  rw [toInt_ofNat_byte, bmod_signed] <;> omega

/-- A signed number that fits a word is what its word stands for. -/
theorem toInt_word_signed {value : Int} (h : Layout.fitsWord value = true) :
    (UInt32.ofNat (value % range 4).toNat).toInt32.toInt = value := by
  have hrange : range 4 = 4294967296 := rfl
  have hfits := fitsWord_iff.mp h
  rw [toInt_ofNat_word, bmod_signed] <;> omega

/-- A literal that fits a signed byte is what its byte stands for. -/
theorem int8_signed {value : Int32} (h : Layout.fitsByte value.toInt = true) :
    (UInt8.ofNat (value.toInt % range 1).toNat).toInt8.toInt32 = value := by
  rw [← Int32.toInt_inj, Int8.toInt_toInt32, toInt_byte_signed h]

/-- A literal that fits an unsigned byte is what its byte stands for. -/
theorem uint8_signed {value : Int32} (h : 0 ≤ value.toInt ∧ value.toInt < 256) :
    Int32.ofNat (UInt8.ofNat (value.toInt % range 1).toNat).toNat = value := by
  have hrange : range 1 = 256 := rfl
  have hword : (value.toInt % range 1).toNat = value.toInt.toNat := by
    rw [hrange]
    omega
  rw [← Int32.toInt_inj, hword, UInt8.toNat_ofNat', Int32.toInt_ofNat_of_lt] <;> omega

/-- Every 32-bit literal is what its word stands for. -/
theorem int32_signed (value : Int32) :
    (UInt32.ofNat (value.toInt % range 4).toNat).toInt32 = value := by
  have hrange : range 4 = 4294967296 := rfl
  have hlow := value.le_toInt
  have hhigh := value.toInt_lt
  rw [← Int32.toInt_inj, toInt_ofNat_word, bmod_signed] <;> omega

/-- Every 64-bit literal is what its word stands for. -/
theorem int64_signed (value : Int64) :
    (UInt64.ofNat (value.toInt % range 8).toNat).toInt64 = value := by
  have hrange : range 8 = 18446744073709551616 := rfl
  have hlow := value.le_toInt
  have hhigh := value.toInt_lt
  rw [← Int64.toInt_inj, toInt_ofNat_long, bmod_signed] <;> omega

/-- An index that fits a byte is what its byte stands for. -/
theorem uint16_of_byte {index : UInt16} (h : index.toNat < 256) :
    (UInt8.ofNat index.toNat).toUInt16 = index := by
  rw [← UInt16.toNat_inj, UInt8.toNat_toUInt16, UInt8.toNat_ofNat']
  omega

/-- A byte that becomes an index keeps its value. -/
theorem toNat_toUInt16_ofNat {value : Nat} (h : value < 256) :
    (UInt8.ofNat value).toUInt16.toNat = value := by
  rw [UInt8.toNat_toUInt16, UInt8.toNat_ofNat_of_lt' h]

/-- A number that fits is written as its word. -/
theorem signed_natCast {width word : Nat} (h : word < range width) :
    signed width word = LittleEndian.encode width word := by
  rw [signed, Int.emod_eq_of_lt (Int.natCast_nonneg _) (by omega), Int.toNat_natCast]

/-- What a byte stands for fits a byte. -/
theorem fitsByte_bmod (word : Nat) : Layout.fitsByte ((word : Int).bmod (range 1)) = true := by
  have hrange : range 1 = 256 := rfl
  have hlow := Int.le_bmod (x := word) (range_pos 1)
  have hhigh := Int.bmod_lt (x := word) (range_pos 1)
  rw [fitsByte_iff]
  omega

/-- What a word stands for fits a word. -/
theorem fitsWord_bmod (word : Nat) : Layout.fitsWord ((word : Int).bmod (range 4)) = true := by
  have hrange : range 4 = 4294967296 := rfl
  have hlow := Int.le_bmod (x := word) (range_pos 4)
  have hhigh := Int.bmod_lt (x := word) (range_pos 4)
  rw [fitsWord_iff]
  omega

end CilPatch.Code
