import CilPatch.Bytes.Align

/-!
# Whole words

Bodies, streams and headers are padded to a multiple of four. Padding behind whole words only
depends on what follows them.
-/

namespace CilPatch

variable {bytes : List UInt8} {value front : Nat}

/-- Rounding up to whole words. -/
theorem alignUp_four (h : value + 4 ≤ wordRange) : alignUp value 4 = (value + 3) / 4 * 4 := by
  have hround : alignUp value (1 <<< 2) = (value + (1 <<< 2 - 1)) / 1 <<< 2 * 1 <<< 2 :=
    alignUp_shiftLeft h
  exact hround

/-- Padded bytes take whole words. -/
theorem length_padTo_four (h : bytes.length + 4 ≤ wordRange) :
    (padTo bytes 4).length = (bytes.length + 3) / 4 * 4 := by
  rw [← alignUp_four h]
  have hpadded : (padTo bytes (1 <<< 2)).length = alignUp bytes.length (1 <<< 2) := length_padTo h
  exact hpadded

/-- Padded bytes that fit in memory take whole words. -/
theorem dvd_length_padTo_four (h : (padTo bytes 4).length < UInt32.size) :
    4 ∣ (padTo bytes 4).length := by
  have hlength : bytes.length ≤ (padTo bytes 4).length := by
    rw [padTo, List.length_append]
    exact Nat.le_add_right _ _
  rw [length_padTo_four (by simp only [wordRange, UInt64.size, UInt32.size] at *; omega)]
  exact Nat.dvd_mul_left _ _

/-- Padding behind whole words does not depend on how many there are. -/
theorem padding_add {length : Nat} (hfront : front % 4 = 0)
    (hroom : front + length + 4 ≤ wordRange) : padding (front + length) 4 = padding length 4 := by
  rw [padding, padding, alignUp_four hroom, alignUp_four (by omega)]
  congr 1
  omega

/-- Whole words need no padding. -/
theorem padding_eq_nil (hvalue : value % 4 = 0) (hroom : value + 4 ≤ wordRange) :
    padding value 4 = [] := by
  rw [padding, alignUp_four hroom, List.replicate_eq_nil_iff]
  omega

end CilPatch
