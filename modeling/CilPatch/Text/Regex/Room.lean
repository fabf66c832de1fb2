import CilPatch.Text.Regex

/-!
# Room for expressions

An expression is searched with a graph whose edges are bytes, once from the front and once from
the back. Repetitions are written out in it, so short expressions can need much room. The room is
counted in bytes: every node has a size, and so has every edge of a node with several of them.
-/

namespace CilPatch.CharSet

/-- The numbers from 0x80 on at which a range of a set starts, or what is behind one. -/
def edges : CharSet → List Nat
  | empty => []
  | range first last =>
      [first.toNat, if last.toNat = 0xD7FF then 0xE000 else last.toNat + 1].filter (0x80 < ·)
  | anyCase set | complement set => set.edges
  | union left right | meet left right => left.edges ++ right.edges

/-- The ranges of a set, no two of which can be joined. -/
def ranges (set : CharSet) : Ranges :=
  let starts := List.range 0x81 ++ (set.edges.mergeSort (· ≤ ·)).eraseDups.filter (· < 0x110000)
  let pieces := (starts.zip (starts.drop 1 ++ [0x110000])).filter fun (start, _) =>
    set.has (Char.ofNat start)
  pieces.foldr (fun (start, next) ranges =>
    match ranges with
    | (first, last) :: others => if first = next then (start, last) :: others
        else (start, next - 1) :: ranges
    | [] => [(start, next - 1)]) []

end CilPatch.CharSet

namespace CilPatch.Regex

/-- What the bytes of some characters can be, one after another. -/
abbrev ByteRanges := List (Nat × Nat)

/-- The texts of a number of digits to the base of 64, behind a first digit that can be larger,
whose values lie between two others. -/
def digitRanges : Nat → Nat → Nat → List ByteRanges
  | 0, low, high => [[(low, high)]]
  | count + 1, low, high =>
      let unit := 1 <<< (6 * (count + 1))
      let first := low / unit
      let last := high / unit
      if first = last then
        (digitRanges count (low % unit) (high % unit)).map ((first, first) :: ·)
      else
        let cutLow := low % unit != 0
        let cutHigh := high % unit != unit - 1
        let lower := if cutLow then first + 1 else first
        let upper := if cutHigh then last - 1 else last
        let head :=
          if cutLow then
            (digitRanges count (low % unit) (unit - 1)).map ((first, first) :: ·)
          else []
        let whole :=
          if lower ≤ upper then [(lower, upper) :: List.replicate (count + 1) (0, 63)] else []
        let tail :=
          if cutHigh then (digitRanges count 0 (high % unit)).map ((last, last) :: ·) else []
        head ++ whole ++ tail

/-- The numbers of characters whose text has the same number of bytes, the number of bytes behind
the first, and what is added to the first. -/
def byteBlocks : List (Nat × Nat × Nat × Nat) :=
  [(0, 0x7F, 0, 0), (0x80, 0x7FF, 1, 0xC0), (0x800, 0xD7FF, 2, 0xE0), (0xE000, 0xFFFF, 2, 0xE0),
    (0x10000, 0x10FFFF, 3, 0xF0)]

/-- The texts of the characters of a range. -/
def byteRanges (low high : Nat) : List ByteRanges :=
  byteBlocks.flatMap fun (first, last, count, lead) =>
    let low := max low first
    let high := min high last
    if high < low then []
    else (digitRanges count low high).map fun ranges =>
      match ranges with
      | (start, stop) :: rest => (start + lead, stop + lead) :: rest
      | [] => []

/-- The size of a node. -/
def nodeSize : Nat := 32

/-- The size of an edge to the next byte. -/
def edgeSize : Nat := 8

/-- The size of an edge that takes no byte. -/
def branchSize : Nat := 4

/-- The room for a set of characters. Their texts share what they have in common: their ends if
they are read from the front, their starts if they are read from the back. -/
def setRoom (isReverse : Bool) (set : CharSet) : Nat :=
  let ranges := set.ranges
  let texts := ranges.flatMap fun (low, high) => byteRanges low high
  let lone := match ranges, texts with
    | [(low, high)], [text] => if low = high then some text.length else none
    | _, _ => none
  match lone with
  | some length => length * nodeSize
  | none =>
      if ranges.all (·.2 < 0x80) then 2 * nodeSize + ranges.length * edgeSize
      else if isReverse then
        let starts := (texts.flatMap fun text =>
          (List.range text.length).map fun count => text.take (count + 1)).eraseDups.length
        (2 + starts) * nodeSize + texts.length * branchSize
      else
        let ends := (texts.flatMap fun text =>
          (List.range (text.length - 1)).map fun count => text.drop (count + 1)).eraseDups.length
        (2 + ends) * nodeSize + (texts.length + ends) * edgeSize

/-- Whether every match of an expression takes a character. -/
def takesSome : Regex → Bool
  | .empty | .anchor _ => false
  | .one _ => true
  | .seq first second => first.takesSome || second.takesSome
  | .either left right => left.takesSome && right.takesSome
  | .times body least _ => 0 < least && body.takesSome
  | .capture body => body.takesSome

/-- The room for an expression. Alternatives have a node in front of them all and one behind. -/
def room (isReverse : Bool) : Regex → Nat
  | .empty | .anchor _ => nodeSize
  | .one set => setRoom isReverse set
  | .seq first second => first.room isReverse + second.room isReverse
  | .either left right =>
      let shared := match left with
        | .either _ _ => branchSize
        | _ => 2 * (nodeSize + branchSize)
      left.room isReverse + right.room isReverse + shared
  | .times body least none =>
      let once := body.room isReverse
      let branch := nodeSize + 2 * branchSize
      if 0 < least then least * once + branch
      else if body.takesSome then once + branch
      else once + 2 * branch + nodeSize
  | .times body least (some most) =>
      let once := body.room isReverse
      let branch := nodeSize + 2 * branchSize
      if least = most then least * once
      else
        let required := if 0 < least then least * once else nodeSize
        if least = 0 ∧ most = 1 then once + branch + nodeSize
        else required + nodeSize + (most - least) * (once + branch)
  | .capture body => body.room isReverse + if isReverse then 0 else 2 * nodeSize

/-- The room for a search. A search starts anywhere and ends at a match; one from the front also
remembers where the match starts and ends. -/
def searchRoom (isReverse : Bool) (regex : Regex) : Nat :=
  let anywhere := 3 * nodeSize + 2 * branchSize + edgeSize
  anywhere + nodeSize + (Regex.capture regex).room isReverse

/-- Whether an expression asks for a place at a word of any script. -/
def asksForScripts : Regex → Bool
  | .anchor (.scriptWord _) => true
  | .empty | .one _ | .anchor _ => false
  | .seq left right | .either left right => left.asksForScripts || right.asksForScripts
  | .times body _ _ | .capture body => body.asksForScripts

end CilPatch.Regex
