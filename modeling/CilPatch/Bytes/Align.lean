import CilPatch.Bytes.LittleEndian

/-!
# Alignment

Bodies, tables and sections start at multiples of a power of two. Rounding clears the low
bits of the alignment mask within a 64-bit word.
-/

namespace CilPatch

/-- The number of different machine words, the size of an address space. -/
def wordRange : Nat := UInt64.size

/-- A value with the bits of `alignment - 1` cleared after adding them; for a power of two it
is the least multiple of the alignment that is not below the value. -/
def alignUp (value alignment : Nat) : Nat :=
  if alignment ≤ 1 then value
  else
    let mask := alignment - 1
    let raised := (value + mask) % wordRange
    raised - (raised &&& mask)

/-- A power of two as alignment rounds up to a multiple, unless that leaves the words. -/
theorem alignUp_shiftLeft {value bits : Nat} (h : value + 1 <<< bits ≤ wordRange) :
    alignUp value (1 <<< bits) = (value + (1 <<< bits - 1)) / 1 <<< bits * 1 <<< bits := by
  have hpos : 0 < 1 <<< bits := by rw [Nat.one_shiftLeft]; exact Nat.two_pow_pos bits
  unfold alignUp
  split
  · next hle =>
    have hone : 1 <<< bits = 1 := by omega
    simp [hone]
  · have hmod : (value + (1 <<< bits - 1)) % wordRange = value + (1 <<< bits - 1) :=
      Nat.mod_eq_of_lt (by omega)
    simp only [hmod]
    rw [Nat.one_shiftLeft, Nat.and_two_pow_sub_one_eq_mod]
    have hdiv := Nat.div_add_mod (value + (2 ^ bits - 1)) (2 ^ bits)
    rw [Nat.mul_comm] at hdiv
    omega

/-- Rounding up does not lead below the value, whatever the alignment is. -/
theorem le_alignUp {value alignment : Nat} (h : value + alignment ≤ wordRange) :
    value ≤ alignUp value alignment := by
  unfold alignUp
  split
  · exact Nat.le_refl value
  · have hmod : (value + (alignment - 1)) % wordRange = value + (alignment - 1) :=
      Nat.mod_eq_of_lt (by omega)
    have hcleared : (value + (alignment - 1)) &&& (alignment - 1) ≤ alignment - 1 :=
      Nat.and_le_right
    simp only [hmod]
    omega

/-- Rounding up to a power of two leads to a multiple of it. -/
theorem dvd_alignUp {value alignment : Nat} (hpower : alignment.isPowerOfTwo)
    (h : value + alignment ≤ wordRange) : alignment ∣ alignUp value alignment := by
  obtain ⟨bits, rfl⟩ := hpower
  rw [← Nat.one_shiftLeft] at h ⊢
  rw [alignUp_shiftLeft h]
  exact Nat.dvd_mul_left _ _

/-- Rounding up adds less than the alignment. -/
theorem alignUp_le (value alignment : Nat) :
    alignUp value alignment ≤ value + (alignment - 1) := by
  unfold alignUp
  split
  · exact Nat.le_add_right _ _
  · exact Nat.le_trans (Nat.sub_le _ _) (Nat.mod_le _ _)

/-- The zero bytes that bring a length to a multiple of the alignment. -/
def padding (length alignment : Nat) : List UInt8 :=
  List.replicate (alignUp length alignment - length) 0

/-- A list of bytes, followed by zeros up to a multiple of the alignment. -/
def padTo (bytes : List UInt8) (alignment : Nat) : List UInt8 :=
  bytes ++ padding bytes.length alignment

/-- Padded bytes have the rounded length. -/
theorem length_padTo {bytes : List UInt8} {bits : Nat}
    (h : bytes.length + 1 <<< bits ≤ wordRange) :
    (padTo bytes (1 <<< bits)).length = alignUp bytes.length (1 <<< bits) := by
  have hle := le_alignUp h
  simp only [padTo, padding, List.length_append, List.length_replicate]
  omega

end CilPatch
