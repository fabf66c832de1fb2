import CilPatch.Text.Ranges

/-!
# Sets of characters

Sets of characters as patterns describe them: ranges, put together by the operations on sets.
-/

namespace CilPatch

/-- A set of characters. -/
inductive CharSet where
  /-- No character. -/
  | empty
  /-- The characters from one to another. -/
  | range (first last : Char)
  /-- The characters of a set, its ASCII letters in upper and lower case. -/
  | anyCase (set : CharSet)
  /-- The characters that are not in a set. -/
  | complement (set : CharSet)
  /-- The characters of both sets. -/
  | union (left right : CharSet)
  /-- The characters that are in two sets at once. -/
  | meet (left right : CharSet)

namespace CharSet

/-- An ASCII letter in the other case. -/
def otherCase (c : Char) : Char := if c.isUpper then c.toLower else c.toUpper

/-- Whether a set has a character. -/
def has (set : CharSet) (c : Char) : Bool :=
  match set with
  | empty => false
  | range first last => first ≤ c && c ≤ last
  | anyCase set => set.has c || set.has (otherCase c)
  | complement set => !set.has c
  | union left right => left.has c || right.has c
  | meet left right => left.has c && right.has c

/-- Whether a set is described by any range. One that is not has either no character or all. -/
def hasRange : CharSet → Bool
  | empty => false
  | range _ _ => true
  | anyCase set | complement set => set.hasRange
  | union left right | meet left right => left.hasRange || right.hasRange

/-- The set of one character. -/
def single (c : Char) : CharSet := range c c

/-- The characters of a set that are not in another. -/
def minus (left right : CharSet) : CharSet := meet left (complement right)

/-- The characters that are in one of two sets only. -/
def differ (left right : CharSet) : CharSet := union (minus left right) (minus right left)

/-- All characters of some sets. -/
def unions (sets : List CharSet) : CharSet := sets.foldr union empty

theorem has_unions (sets : List CharSet) (c : Char) :
    (unions sets).has c = sets.any (·.has c) := by
  induction sets with
  | nil => rfl
  | cons set sets ih => simp only [unions, List.foldr_cons, has, List.any_cons] at ih ⊢; rw [ih]

theorem has_minus (left right : CharSet) (c : Char) :
    (minus left right).has c = (left.has c && !right.has c) := rfl

/-- A set without ranges makes no difference between characters. -/
theorem has_eq_of_not_hasRange {set : CharSet} (h : set.hasRange = false) (c d : Char) :
    set.has c = set.has d := by
  induction set generalizing c d with
  | empty => rfl
  | range first last => simp [hasRange] at h
  | anyCase set ih => simp only [has, ih h c d, ih h (otherCase c) (otherCase d)]
  | complement set ih => simp only [has, ih h c d]
  | union left right hleft hright | meet left right hleft hright =>
      simp only [hasRange, Bool.or_eq_false_iff] at h
      simp only [has, hleft h.1 c d, hright h.2 c d]

end CharSet

end CilPatch
