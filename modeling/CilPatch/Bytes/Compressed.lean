import CilPatch.Bytes.Cursor

/-!
# Compressed integers

An unsigned integer below `0x20000000` takes one, two or four bytes in a signature
(ECMA-335 II.23.2). The high bits of the first byte tell the width, and the most significant
byte comes first.
-/

namespace CilPatch

namespace Compressed

/-- The least number that has no compressed form. -/
def limit : Nat := 0x20000000

/-- The compressed form of a number, if it has one. -/
def encode? (value : Nat) : Option (List UInt8) :=
  if value < 0x80 then some [UInt8.ofNat value]
  else if value < 0x4000 then some [UInt8.ofNat (0x80 + value / 0x100), UInt8.ofNat value]
  else if value < limit then
    some [UInt8.ofNat (0xC0 + value / 0x1000000), UInt8.ofNat (value / 0x10000),
      UInt8.ofNat (value / 0x100), UInt8.ofNat value]
  else none

/-- The numbers from the limit on, and only those, have no compressed form. -/
theorem encode?_eq_none_iff {value : Nat} : encode? value = none ↔ limit ≤ value := by
  unfold encode? limit
  split
  · simp only [reduceCtorEq, false_iff]
    omega
  · split
    · simp only [reduceCtorEq, false_iff]
      omega
    · split <;> simp only [reduceCtorEq, false_iff, true_iff] <;> omega

/-- The compressed form of a number, or the fault that it has none. -/
def encode (value : Nat) : Except Fault (List UInt8) :=
  match encode? value with
  | some bytes => .ok bytes
  | none => .error (.malformed (.incompressible value))

end Compressed

namespace Read

/-- The next compressed integer. -/
def compressed : Read UInt32 := do
  let lead ← u8
  if lead < 0x80 then return lead.toUInt32
  else if lead < 0xC0 then
    let low ← u8
    return UInt32.ofNat ((lead.toNat - 0x80) * 256 + low.toNat)
  else if lead < 0xE0 then
    let second ← u8
    let third ← u8
    let last ← u8
    return UInt32.ofNat
      ((((lead.toNat - 0xC0) * 256 + second.toNat) * 256 + third.toNat) * 256 + last.toNat)
  else throw (.malformed (.compressedLead lead))

/-- The next reference to a type: the two low bits of a compressed integer choose the table and
the others are added to the first token of that table. -/
def compressedToken : Read Token := do
  let value ← compressed
  let row := value >>> 2
  match value.toNat % 4 with
  | 0 => return ⟨0x02000000 + row⟩
  | 1 => return ⟨0x01000000 + row⟩
  | 2 => return ⟨0x1B000000 + row⟩
  | _ => throw (.malformed (.compressedTag value))

end Read

end CilPatch
