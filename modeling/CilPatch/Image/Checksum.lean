import CilPatch.Bytes.LittleEndian

/-!
# Image checksums

The words of an image are added with an end-around carry of sixteen bits, leaving out the words
that start within the checksum field. The length of the image is added to the sum and the
carries are folded in once more.
-/

namespace CilPatch.Checksum

/-- Adds the carry of a sum to its low sixteen bits. -/
def fold (sum : Nat) : Nat := if sum ≤ 0xFFFF then sum else sum % 0x10000 + sum / 0x10000

/-- Adds the carries of a sum to its low sixteen bits until there are none. -/
def foldAll (sum : Nat) : Nat :=
  if sum ≤ 0xFFFF then sum else foldAll (sum % 0x10000 + sum / 0x10000)
  termination_by sum
  decreasing_by omega

/-- The sum of the words of some bytes that start at an offset, added to a sum; words that start
within the four bytes of the field are left out, and a last byte is a word by itself. -/
def sumWords (field : Nat) : Nat → Nat → List UInt8 → Nat
  | sum, _, [] => sum
  | sum, offset, [last] =>
      if field ≤ offset ∧ offset < field + 4 then sum else fold (sum + last.toNat)
  | sum, offset, low :: high :: rest =>
      let sum := if field ≤ offset ∧ offset < field + 4 then sum
        else fold (sum + low.toNat + 256 * high.toNat)
      sumWords field sum (offset + 2) rest

/-- The checksum of an image whose checksum field lies at an offset. -/
def ofBytes (data : Bytes) (field : Nat) : UInt32 :=
  UInt32.ofNat (foldAll (sumWords field 0 0 data.toList + data.size))

end CilPatch.Checksum
