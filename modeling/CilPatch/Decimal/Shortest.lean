import CilPatch.Decimal.Format

/-!
# Shortest decimals of binary floating point numbers

A finite binary number is `mantissa * 2 ^ exponent`, and every real number closer to it than to
its neighbours reads back as the same bits. The shortest decimal is the first grid
`1, 2, 3, …` significant digits on which a neighbour of the value reads back; of two
candidates the nearer one is taken, and the upper one on a tie. All arithmetic is exact.
-/

namespace CilPatch.Decimal

/-- Significant digits `d₁ d₂ … dₙ` standing for `0.d₁d₂…dₙ * 10 ^ point`. -/
structure Digits where
  /-- The digits, the first one not zero. -/
  digits : List Char
  /-- How many digits stand before the decimal point. -/
  point : Int

/-- The number `digits * 10 ^ power` with its trailing zeros
removed. -/
def Digits.ofScaled (digits : Nat) (power : Int) : Digits :=
  let text := Nat.toDigits 10 digits
  ⟨(text.reverse.dropWhile (· == '0')).reverse, text.length + power⟩

/-- A power of ten, which is one for a negative exponent. -/
def tenTo (exponent : Int) : Nat := Nat.pow 10 exponent.toNat

/-- How many digits the positive quotient `num / den` has before the decimal point, counted
down from zero for a quotient below one tenth. -/
def pointOf (num den : Nat) : Int :=
  if den ≤ num then (Nat.toDigits 10 (num / den)).length
  else 1 - ((Nat.toDigits 10 (den / num)).length : Int)

/-- Tries the grids of `count`, `count + 1`, … significant digits, at most `fuel` of them: the
neighbours of `value / den` on each grid are tested against the interval from `low / den` to
`high / den`, whose ends count when `closed` holds. -/
def searchGrid (low value high den : Nat) (closed : Bool) (point : Int) :
    Nat → Nat → Digits
  | 0, count =>
      let power := point - count
      .ofScaled (value * tenTo (-power) / (den * tenTo power)) power
  | fuel + 1, count =>
      let power := point - count
      let up := tenTo (-power)
      let unit := den * tenTo power
      let below := value * up / unit
      let inside (num : Nat) : Bool :=
        if closed then low * up ≤ num * unit && num * unit ≤ high * up
        else low * up < num * unit && num * unit < high * up
      let twice := 2 * (value * up - below * unit)
      match inside below, inside (below + 1) with
      | true, true => .ofScaled (if twice < unit then below else below + 1) power
      | true, false => .ofScaled below power
      | false, true => .ofScaled (below + 1) power
      | false, false => searchGrid low value high den closed point fuel (count + 1)

/-- The shortest digits that read back as `mantissa * 2 ^ exponent`, for a mantissa that is not
zero. -/
def shortest (mantissa : Nat) (exponent : Int) (tight : Bool) : Digits :=
  let scale := 1 <<< (exponent - 2).toNat
  let den := 1 <<< (2 - exponent).toNat
  let value := 4 * mantissa * scale
  let low := (4 * mantissa - if tight then 1 else 2) * scale
  let high := (4 * mantissa + 2) * scale
  searchGrid low value high den (mantissa % 2 == 0) (pointOf value den) 20 1

/-- How a number is laid out in text. -/
structure Layout where
  /-- The exponents of the leading digit that are written without an exponent. -/
  positional : Int → Bool
  /-- What ends a number that has no digits after the point. -/
  wholeEnd : String

/-- Digits and a decimal point, with zeros where the digits do not reach. -/
def Digits.positional (number : Digits) (wholeEnd : String) : String :=
  let length : Int := number.digits.length
  if number.point ≤ 0 then
    "0." ++ String.ofList (List.replicate (-number.point).toNat '0' ++ number.digits)
  else if length ≤ number.point then
    String.ofList (number.digits ++ List.replicate (number.point - length).toNat '0') ++ wholeEnd
  else
    String.ofList (number.digits.take number.point.toNat) ++ "." ++
      String.ofList (number.digits.drop number.point.toNat)

/-- One digit before the point, the others after it, and an exponent of ten. -/
def Digits.scientific (number : Digits) : String :=
  let mark := "e" ++ toString (number.point - 1)
  match number.digits with
  | [] => "0" ++ mark
  | [digit] => digit.toString ++ mark
  | digit :: rest => digit.toString ++ "." ++ String.ofList rest ++ mark

/-- The text of a floating point number given by its bits. -/
def Layout.write (layout : Layout) (format : Format) (bits : Nat) : String :=
  match format.decode bits with
  | .nan => "NaN"
  | .infinite negative => if negative then "-inf" else "inf"
  | .finite negative mantissa exponent tight =>
      let sign := if negative then "-" else ""
      if mantissa = 0 then sign ++ "0" ++ layout.wholeEnd
      else
        let number := shortest mantissa exponent tight
        sign ++ if layout.positional (number.point - 1) then number.positional layout.wholeEnd
          else number.scientific

/-- Never an exponent, and nothing after a whole number. -/
def Layout.plain : Layout := ⟨fun _ => true, ""⟩

/-- A whole number ends in `.0`; numbers below `1e-4` and from `1e16` on have an exponent. -/
def Layout.exact : Layout := ⟨fun exponent => -4 ≤ exponent && exponent < 16, ".0"⟩

end CilPatch.Decimal
