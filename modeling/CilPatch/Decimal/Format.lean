/-!
# Binary floating point formats

The bits of a floating point number hold a sign, a biased exponent and a fraction. The largest
exponent is kept for infinities and for what is not a number, the least one for numbers
without a hidden leading one.
-/

namespace CilPatch.Decimal

/-- The widths of the stored fields of a binary floating point format. -/
structure Format where
  /-- Bits of the fraction, without the hidden leading one. -/
  fractionBits : Nat
  /-- Bits of the biased exponent. -/
  exponentBits : Nat

/-- The 32-bit format. -/
def Format.single : Format := ⟨23, 8⟩

/-- The 64-bit format. -/
def Format.double : Format := ⟨52, 11⟩

/-- What the bits of a floating point number stand for. -/
inductive Value where
  /-- Not a number. -/
  | nan
  /-- An infinity. -/
  | infinite (negative : Bool)
  /-- The number `mantissa * 2 ^ exponent`; `tight` when the numbers below it lie twice as
  dense as those above it. -/
  | finite (negative : Bool) (mantissa : Nat) (exponent : Int) (tight : Bool)

/-- Splits the bits of a number into sign, exponent and fraction. -/
def Format.decode (format : Format) (bits : Nat) : Value :=
  let fraction := bits % 1 <<< format.fractionBits
  let biased := (bits >>> format.fractionBits) % 1 <<< format.exponentBits
  let negative := bits.testBit (format.fractionBits + format.exponentBits)
  let bias := 1 <<< (format.exponentBits - 1) - 1 + format.fractionBits
  if biased = 1 <<< format.exponentBits - 1 then
    if fraction = 0 then .infinite negative else .nan
  else if biased = 0 then .finite negative fraction (1 - (bias : Int)) false
  else
    .finite negative (1 <<< format.fractionBits + fraction) ((biased : Int) - bias)
      (fraction == 0)

/-- Whether two numbers given by their bits are equal: what is not a number equals nothing, and
the two zeros are equal. -/
def Format.sameValue (format : Format) (left right : Nat) : Bool :=
  match format.decode left, format.decode right with
  | .nan, _ => false
  | _, .nan => false
  | .finite _ 0 _ _, .finite _ 0 _ _ => true
  | _, _ => left == right

end CilPatch.Decimal
