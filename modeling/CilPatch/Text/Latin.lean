/-!
# Text of single bytes

Names in headers are stored one character a byte, each byte being the number of its character.
-/

namespace CilPatch

/-- The text whose characters have the given numbers. -/
def latinText (bytes : List UInt8) : String :=
  String.ofList (bytes.map fun byte => Char.ofNat byte.toNat)

end CilPatch
