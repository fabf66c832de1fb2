import CilPatch.Fault

/-!
# Element types

The bytes that begin a type in a signature (ECMA-335 II.23.1.16) and the bytes that begin a
whole signature. Types without parts are told by their byte alone, and the byte and the type
determine each other.
-/

namespace CilPatch.Element

/-- Begins a pointer. -/
def ptr : UInt8 := 0x0F

/-- Begins a reference. -/
def byRef : UInt8 := 0x10

/-- Begins a value type. -/
def valueType : UInt8 := 0x11

/-- Begins a class. -/
def classType : UInt8 := 0x12

/-- Begins a generic parameter of the type. -/
def typeParam : UInt8 := 0x13

/-- Begins an array with a number of dimensions. -/
def array : UInt8 := 0x14

/-- Begins a generic type with arguments. -/
def genericInst : UInt8 := 0x15

/-- Begins a reference together with its type. -/
def typedByRef : UInt8 := 0x16

/-- Begins a pointer to a method. -/
def fnPtr : UInt8 := 0x1B

/-- Begins an array of one dimension. -/
def szArray : UInt8 := 0x1D

/-- Begins a generic parameter of the method. -/
def methodParam : UInt8 := 0x1E

/-- Begins a modifier that must be understood. -/
def requiredModifier : UInt8 := 0x1F

/-- Begins a modifier that may be ignored. -/
def optionalModifier : UInt8 := 0x20

/-- Stands before the arguments of a variable argument list. -/
def sentinel : UInt8 := 0x41

/-- Begins a value that must not be moved. -/
def pinned : UInt8 := 0x45

/-- Begins a field signature. -/
def fieldHead : UInt8 := 0x06

/-- Begins a local variable signature. -/
def localsHead : UInt8 := 0x07

/-- Whether a byte begins a custom modifier. -/
def isModifier (byte : UInt8) : Bool := byte == requiredModifier || byte == optionalModifier

/-- The type without parts that a byte stands for. -/
def simple? (byte : UInt8) : Option TypeSig :=
  match byte.toNat with
  | 0x01 => some .void
  | 0x02 => some .boolean
  | 0x03 => some .char
  | 0x04 => some .i1
  | 0x05 => some .u1
  | 0x06 => some .i2
  | 0x07 => some .u2
  | 0x08 => some .i4
  | 0x09 => some .u4
  | 0x0A => some .i8
  | 0x0B => some .u8
  | 0x0C => some .r4
  | 0x0D => some .r8
  | 0x0E => some .string
  | 0x16 => some .typedByRef
  | 0x18 => some .nativeInt
  | 0x19 => some .nativeUInt
  | 0x1C => some .object
  | _ => none

/-- The byte of a type without parts. -/
def code? : TypeSig → Option UInt8
  | .void => some 0x01
  | .boolean => some 0x02
  | .char => some 0x03
  | .i1 => some 0x04
  | .u1 => some 0x05
  | .i2 => some 0x06
  | .u2 => some 0x07
  | .i4 => some 0x08
  | .u4 => some 0x09
  | .i8 => some 0x0A
  | .u8 => some 0x0B
  | .r4 => some 0x0C
  | .r8 => some 0x0D
  | .string => some 0x0E
  | .typedByRef => some 0x16
  | .nativeInt => some 0x18
  | .nativeUInt => some 0x19
  | .object => some 0x1C
  | _ => none

/-- The byte of a type without parts stands for that type. -/
theorem simple?_of_code? {type : TypeSig} {byte : UInt8} (h : code? type = some byte) :
    simple? byte = some type := by
  cases type <;> simp [code?] at h <;> subst h <;> rfl

end CilPatch.Element
