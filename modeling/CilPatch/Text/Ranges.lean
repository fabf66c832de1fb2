/-!
# Ranges of characters

A set of characters as a list of ranges of their numbers.
-/

namespace CilPatch

/-- Ranges of numbers, each with its first and its last one. -/
abbrev Ranges := List (Nat × Nat)

/-- Whether one of the ranges has the number of a character. -/
def Ranges.has (ranges : Ranges) (c : Char) : Bool :=
  ranges.any fun (first, last) => first ≤ c.toNat && c.toNat ≤ last

theorem Ranges.has_append (left right : Ranges) (c : Char) :
    (left ++ right).has c = (left.has c || right.has c) := List.any_append

end CilPatch
