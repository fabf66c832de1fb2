import CilPatch.Token

/-!
# Types in signatures

The types that ECMA-335 II.23.2 writes into field, method and local variable signatures. A
function pointer holds a whole method signature, so the shape of a method signature is a
structure over the type of types.
-/

namespace CilPatch

/-- A parameter or return value. -/
structure Parameter (α : Type) where
  /-- Whether a reference is passed. -/
  byRef : Bool := false
  /-- The type of the value. -/
  type : α

/-- The shape of a method signature (ECMA-335 II.23.2.1). -/
structure MethodShape (α : Type) where
  /-- Whether there is an object the method works on. -/
  hasThis : Bool := false
  /-- Whether that object is the first declared parameter. -/
  explicitThis : Bool := false
  /-- How many generic parameters the method has. -/
  generics : UInt32 := 0
  /-- The return value. -/
  ret : Parameter α
  /-- The declared parameters. -/
  params : List (Parameter α) := []

/-- A type in a signature. -/
inductive TypeSig where
  /-- A type that is not known. -/
  | unknown
  /-- No value. -/
  | void
  /-- A truth value. -/
  | boolean
  /-- A UTF-16 code unit. -/
  | char
  /-- A signed byte. -/
  | i1
  /-- An unsigned byte. -/
  | u1
  /-- A signed 16-bit integer. -/
  | i2
  /-- An unsigned 16-bit integer. -/
  | u2
  /-- A signed 32-bit integer. -/
  | i4
  /-- An unsigned 32-bit integer. -/
  | u4
  /-- A signed 64-bit integer. -/
  | i8
  /-- An unsigned 64-bit integer. -/
  | u8
  /-- A 32-bit floating point number. -/
  | r4
  /-- A 64-bit floating point number. -/
  | r8
  /-- A string object. -/
  | string
  /-- A reference together with its type. -/
  | typedByRef
  /-- A signed integer of address size. -/
  | nativeInt
  /-- An unsigned integer of address size. -/
  | nativeUInt
  /-- Any object. -/
  | object
  /-- An unmanaged pointer. -/
  | ptr (base : TypeSig)
  /-- A managed reference. -/
  | byRef (base : TypeSig)
  /-- A value that must not be moved. -/
  | pinned (base : TypeSig)
  /-- An array of one dimension that starts at zero. -/
  | szArray (base : TypeSig)
  /-- An array with a number of dimensions. -/
  | array (base : TypeSig) (rank : UInt32)
  /-- A reference type of the metadata tables. -/
  | classType (reference : Token)
  /-- A value type of the metadata tables. -/
  | valueType (reference : Token)
  /-- A generic parameter of the type. -/
  | typeParam (index : UInt32)
  /-- A generic parameter of the method. -/
  | methodParam (index : UInt32)
  /-- A generic type with its arguments. -/
  | genericInst (base : TypeSig) (args : List TypeSig)
  /-- A pointer to a method. -/
  | fnPtr (method : MethodShape TypeSig)

instance : Inhabited TypeSig := ⟨.unknown⟩

/-- A method signature. -/
abbrev MethodSig := MethodShape TypeSig

instance : Inhabited MethodSig := ⟨{ ret := { type := .unknown } }⟩

/-- Whether a type is the absence of a value. -/
def TypeSig.isVoid : TypeSig → Bool
  | void => true
  | _ => false

/-- Whether a call leaves a value on the evaluation stack. -/
def MethodShape.returnsValue (method : MethodSig) : Bool :=
  method.ret.byRef || !method.ret.type.isVoid

/-- A field signature (ECMA-335 II.23.2.4). -/
structure FieldSig where
  /-- The custom modifiers of the type. -/
  modifiers : List Token := []
  /-- The type of the field. -/
  type : TypeSig := .unknown

/-- One local variable of a local variable signature (ECMA-335 II.23.2.6). -/
structure LocalSig where
  /-- Whether the variable is a managed reference. -/
  isByRef : Bool := false
  /-- Whether what it refers to must not be moved. -/
  isPinned : Bool := false
  /-- The type of the variable. -/
  type : TypeSig

namespace TypeSig

mutual

/-- The name of a type in a listing of members; the names of classes and value types come from
a dictionary, and a token that it lacks stands for itself. -/
def displayName (nameOf : Token → Option String) : TypeSig → String
  | unknown => "?"
  | void => "Void"
  | boolean => "Boolean"
  | char => "Char"
  | i1 => "SByte"
  | u1 => "Byte"
  | i2 => "Int16"
  | u2 => "UInt16"
  | i4 => "Int32"
  | u4 => "UInt32"
  | i8 => "Int64"
  | u8 => "UInt64"
  | r4 => "Single"
  | r8 => "Double"
  | string => "String"
  | nativeInt => "IntPtr"
  | nativeUInt => "UIntPtr"
  | object => "Object"
  | typedByRef => "TypedReference"
  | ptr base => displayName nameOf base ++ "*"
  | byRef base => displayName nameOf base ++ "&"
  | pinned base => displayName nameOf base
  | szArray base => displayName nameOf base ++ "[]"
  | array base rank =>
      displayName nameOf base ++ "[" ++ "".pushn ',' (rank.toNat - 1) ++ "]"
  | classType reference | valueType reference => (nameOf reference).getD reference.text
  | typeParam index => "!" ++ toString index.toNat
  | methodParam index => "!!" ++ toString index.toNat
  | genericInst base args =>
      displayName nameOf base ++ "<" ++ ",".intercalate (displayNames nameOf args) ++ ">"
  | fnPtr _ => "method"

/-- The names of several types. -/
def displayNames (nameOf : Token → Option String) : List TypeSig → List String
  | [] => []
  | type :: rest => displayName nameOf type :: displayNames nameOf rest

end

/-- A truth value in a structure listing. -/
def flagText (flag : Bool) : String := if flag then "true" else "false"

mutual

/-- A type with its structure spelled out. -/
def detail : TypeSig → String
  | unknown => "Unknown"
  | void => "Void"
  | boolean => "Boolean"
  | char => "Char"
  | i1 => "I1"
  | u1 => "U1"
  | i2 => "I2"
  | u2 => "U2"
  | i4 => "I4"
  | u4 => "U4"
  | i8 => "I8"
  | u8 => "U8"
  | r4 => "R4"
  | r8 => "R8"
  | string => "String"
  | nativeInt => "I"
  | nativeUInt => "U"
  | object => "Object"
  | typedByRef => "TypedByRef"
  | ptr base => "Ptr(" ++ detail base ++ ")"
  | byRef base => "ByRef(" ++ detail base ++ ")"
  | pinned base => "Pinned(" ++ detail base ++ ")"
  | szArray base => "SzArray(" ++ detail base ++ ")"
  | array base rank => "Array(" ++ detail base ++ ", " ++ toString rank.toNat ++ ")"
  | classType reference => "Class(" ++ reference.detail ++ ")"
  | valueType reference => "ValueType(" ++ reference.detail ++ ")"
  | typeParam index => "GenericParamType(" ++ toString index.toNat ++ ")"
  | methodParam index => "GenericParamMethod(" ++ toString index.toNat ++ ")"
  | genericInst base args =>
      "GenericInst(" ++ detail base ++ ", [" ++ ", ".intercalate (detailList args) ++ "])"
  | fnPtr method => "FnPtr(" ++ methodDetail method ++ ")"

/-- Several types with their structure spelled out. -/
def detailList : List TypeSig → List String
  | [] => []
  | type :: rest => detail type :: detailList rest

/-- A method signature with its structure spelled out. -/
def methodDetail : MethodShape TypeSig → String
  | ⟨hasThis, explicitThis, generics, ret, params⟩ =>
      "SignatureMethod \x7b has_this: " ++ flagText hasThis ++ ", explicit_this: " ++
        flagText explicitThis ++ ", param_count_generic: " ++ toString generics.toNat ++
        ", return_type: " ++ parameterDetail ret ++ ", params: [" ++
        ", ".intercalate (parameterDetails params) ++ "] \x7d"

/-- A parameter with its structure spelled out. -/
def parameterDetail : Parameter TypeSig → String
  | ⟨passedByRef, type⟩ =>
      "SignatureParameter \x7b by_ref: " ++ flagText passedByRef ++ ", base: " ++ detail type ++
        " \x7d"

/-- Several parameters with their structure spelled out. -/
def parameterDetails : List (Parameter TypeSig) → List String
  | [] => []
  | parameter :: rest => parameterDetail parameter :: parameterDetails rest

end

end TypeSig

end CilPatch
