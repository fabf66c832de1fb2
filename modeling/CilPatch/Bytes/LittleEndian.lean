/-!
# Little-endian words

Every number in an executable image is stored with its least significant byte first. One
recursion over the width serves all word sizes, and the two directions are inverse to each
other on numbers that fit the width.
-/

namespace CilPatch

/-- A block of bytes at rest: a file, a heap, a method body. -/
abbrev Bytes := Array UInt8

namespace LittleEndian

/-- The `width` low bytes of a number, least significant first. -/
def encode : Nat → Nat → List UInt8
  | 0, _ => []
  | width + 1, value => UInt8.ofNat value :: encode width (value / 256)

/-- The number that a list of bytes stands for, least significant first. -/
def decode : List UInt8 → Nat
  | [] => 0
  | byte :: rest => byte.toNat + 256 * decode rest

/-- How many different numbers a number of bytes can hold. -/
def range (width : Nat) : Nat := 1 <<< (8 * width)

/-- One more byte holds 256 times as many numbers. -/
theorem range_succ (width : Nat) : range (width + 1) = 256 * range width := by
  have hbits : 8 * (width + 1) = 8 + 8 * width := by omega
  rw [range, range, hbits, Nat.shiftLeft_add]
  simp [Nat.shiftLeft_eq]

/-- Some number is held whatever the width. -/
theorem range_pos (width : Nat) : 0 < range width := by
  rw [range, Nat.one_shiftLeft]
  exact Nat.two_pow_pos _

/-- An encoding has exactly the bytes of its width. -/
@[simp] theorem length_encode (width value : Nat) : (encode width value).length = width := by
  induction width generalizing value with
  | zero => rfl
  | succ width ih => simp [encode, ih]

/-- The number of some bytes is one that so many bytes can hold. -/
theorem decode_lt (bytes : List UInt8) : decode bytes < range bytes.length := by
  induction bytes with
  | nil => exact range_pos 0
  | cons byte rest ih =>
      have hbyte := byte.toNat_lt
      simp only [decode, List.length_cons, range_succ]
      omega

/-- Decoding an encoding keeps the low bytes of the number. -/
theorem decode_encode (width value : Nat) :
    decode (encode width value) = value % range width := by
  induction width generalizing value with
  | zero => simp [decode, encode, range, Nat.mod_one]
  | succ width ih =>
      rw [range_succ, Nat.mod_mul, ← ih]
      simp [decode, encode]

/-- Encoding the number of a list of bytes gives the list back. -/
theorem encode_decode (bytes : List UInt8) : encode bytes.length (decode bytes) = bytes := by
  induction bytes with
  | nil => rfl
  | cons byte rest ih =>
      have hbyte := byte.toNat_lt
      have hhead : UInt8.ofNat (byte.toNat + 256 * decode rest) = byte := by
        apply UInt8.toNat_inj.mp
        rw [UInt8.toNat_ofNat']
        omega
      have htail : (byte.toNat + 256 * decode rest) / 256 = decode rest := by omega
      simp only [List.length_cons, decode, encode, hhead, htail, ih]

/-- What follows some bytes counts for as much as those bytes can hold. -/
theorem decode_append (front back : List UInt8) :
    decode (front ++ back) = decode front + range front.length * decode back := by
  induction front with
  | nil => simp [decode, range]
  | cons byte rest ih =>
      simp only [List.cons_append, decode, ih, List.length_cons, range_succ]
      rw [Nat.mul_add, Nat.mul_assoc]
      omega

/-- The two bytes of a 16-bit word. -/
def u16 (value : UInt16) : List UInt8 := encode 2 value.toNat

/-- The four bytes of a 32-bit word. -/
def u32 (value : UInt32) : List UInt8 := encode 4 value.toNat

/-- The eight bytes of a 64-bit word. -/
def u64 (value : UInt64) : List UInt8 := encode 8 value.toNat

/-- The number in the bytes of a block from an offset on; bytes past the end do not count. -/
def wordAt (data : Bytes) (offset width : Nat) : Nat :=
  decode (data.extract offset (offset + width)).toList

/-- A block with some bytes written over those from an offset on; what would lie past the end is
not written. -/
def overwrite (data : Bytes) (offset : Nat) : List UInt8 → Bytes
  | [] => data
  | byte :: rest => overwrite (data.setIfInBounds offset byte) (offset + 1) rest

/-- Writing over a block keeps its size. -/
@[simp] theorem size_overwrite (data : Bytes) (offset : Nat) (bytes : List UInt8) :
    (overwrite data offset bytes).size = data.size := by
  induction bytes generalizing data offset with
  | nil => rfl
  | cons byte rest ih => simp [overwrite, ih]

/-- What stands before the offset stays. -/
theorem getElem?_overwrite_of_lt (data : Bytes) {offset index : Nat} (bytes : List UInt8)
    (h : index < offset) : (overwrite data offset bytes)[index]? = data[index]? := by
  induction bytes generalizing data offset with
  | nil => rfl
  | cons byte rest ih =>
      rw [overwrite, ih _ (by omega), Array.getElem?_setIfInBounds_ne (by omega)]

/-- What stands behind the written bytes stays. -/
theorem getElem?_overwrite_of_le (data : Bytes) {offset index : Nat} (bytes : List UInt8)
    (h : offset + bytes.length ≤ index) :
    (overwrite data offset bytes)[index]? = data[index]? := by
  induction bytes generalizing data offset with
  | nil => rfl
  | cons byte rest ih =>
      simp only [List.length_cons] at h
      rw [overwrite, ih _ (by omega), Array.getElem?_setIfInBounds_ne (by omega)]

/-- The written bytes stand from the offset on, as far as the block goes. -/
theorem getElem?_overwrite_add (data : Bytes) (offset : Nat) {bytes : List UInt8} {index : Nat}
    (h : index < bytes.length) (hdata : offset + index < data.size) :
    (overwrite data offset bytes)[offset + index]? = bytes[index]? := by
  induction bytes generalizing data offset index with
  | nil => simp at h
  | cons byte rest ih =>
      cases index with
      | zero =>
          rw [overwrite, getElem?_overwrite_of_lt _ _ (by omega)]
          exact Array.getElem?_setIfInBounds_self_of_lt hdata
      | succ index =>
          simp only [List.length_cons] at h
          have hnext := ih (data.setIfInBounds offset byte) (offset + 1)
            (show index < rest.length by omega) (by rw [Array.size_setIfInBounds]; omega)
          rw [overwrite, List.getElem?_cons_succ, ← hnext]
          congr 1
          omega

end LittleEndian

end CilPatch
