/-!
# Hexadecimal text

Addresses, tokens and digests are written in base sixteen, in either case, with leading zeros
up to a least width.
-/

namespace CilPatch.Hex

/-- A number in base sixteen with lowercase digits and at least `width` of them. -/
def lower (value : Nat) (width : Nat) : String :=
  let digits := Nat.toDigits 16 value
  String.ofList (List.replicate (width - digits.length) '0' ++ digits)

/-- A number in base sixteen with uppercase digits and at least `width` of them. -/
def upper (value : Nat) (width : Nat) : String :=
  let digits := (Nat.toDigits 16 value).map Char.toUpper
  String.ofList (List.replicate (width - digits.length) '0' ++ digits)

/-- Bytes as pairs of lowercase digits, in order. -/
def bytes (data : List UInt8) : String :=
  String.join (data.map fun byte => lower byte.toNat 2)

/-- Bytes as pairs of uppercase digits, in order. -/
def bytesUpper (data : List UInt8) : String :=
  String.join (data.map fun byte => upper byte.toNat 2)

/-- The value of a lowercase digit. -/
def digit? (c : Char) : Option Nat :=
  if '0' ≤ c ∧ c ≤ '9' then some (c.toNat - '0'.toNat)
  else if 'a' ≤ c ∧ c ≤ 'f' then some (c.toNat - 'a'.toNat + 10)
  else none

/-- The number that lowercase digits stand for. -/
def number? (digits : List Char) : Option Nat :=
  digits.foldlM (fun value c => (digit? c).map (16 * value + ·)) 0

/-- The bytes that pairs of lowercase digits stand for. -/
def bytes? : List Char → Option (List UInt8)
  | [] => some []
  | high :: low :: rest => do
      let high ← digit? high
      let low ← digit? low
      return UInt8.ofNat (16 * high + low) :: (← bytes? rest)
  | [_] => none

end CilPatch.Hex
