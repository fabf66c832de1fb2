/-!
# Blank characters

The characters with the Unicode property `White_Space`, and texts without them at either end.
-/

namespace CilPatch

/-- Whether a character is white space. -/
def isBlank (c : Char) : Bool :=
  let code := c.toNat
  (0x09 ≤ code && code ≤ 0x0D) || code == 0x20 || code == 0x85 || code == 0xA0 ||
    code == 0x1680 || (0x2000 ≤ code && code ≤ 0x200A) || code == 0x2028 || code == 0x2029 ||
    code == 0x202F || code == 0x205F || code == 0x3000

/-- A list without the elements at its end that satisfy a condition. -/
def dropWhileEnd {α : Type} (condition : α → Bool) (list : List α) : List α :=
  (list.reverse.dropWhile condition).reverse

/-- A text without white space at its end. -/
def trimEnd (text : String) : String := String.ofList (dropWhileEnd isBlank text.toList)

/-- A text without white space at either end. -/
def trimBlank (text : String) : String :=
  String.ofList (dropWhileEnd isBlank (text.toList.dropWhile isBlank))

end CilPatch
