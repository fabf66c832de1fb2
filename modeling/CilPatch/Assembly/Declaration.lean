import CilPatch.Signature.Type

/-!
# Declarations

The types, fields and methods that an image declares. A handle names a declaration by its token
and carries what an instruction that uses it must know.
-/

namespace CilPatch

/-- A field that an instruction can access. -/
structure FieldHandle where
  /-- The token of the field. -/
  token : Token
  /-- Whether the field belongs to the type and not to its objects. -/
  isStatic : Bool
  deriving DecidableEq, Inhabited

/-- A method that an instruction can call. -/
structure MethodHandle where
  /-- The token of the method. -/
  token : Token
  /-- Whether the method works without an object. -/
  isStatic : Bool
  /-- How many stack values a call takes. -/
  pops : Nat
  /-- How many stack values a call leaves. -/
  pushes : Nat
  deriving DecidableEq, Inhabited

/-- The most parameters that a call counts. -/
def MethodHandle.paramLimit : Nat := 0xFFFE

/-- The handle of a method with a signature. -/
def MethodHandle.ofSig (token : Token) (sig : MethodSig) : MethodHandle where
  token := token
  isStatic := !sig.hasThis
  pops := min sig.params.length paramLimit + if sig.hasThis then 1 else 0
  pushes := if sig.returnsValue then 1 else 0

/-- A declared field. -/
structure FieldDecl where
  /-- How instructions name the field. -/
  handle : FieldHandle
  /-- The name of the field. -/
  name : String
  /-- Attributes of the field. -/
  flags : UInt32
  /-- The signature of the field. -/
  sig : FieldSig
  /-- The type of the field in a listing. -/
  typeName : String

namespace FieldDecl

/-- Set in the attributes of a field that belongs to the type. -/
def staticFlag : UInt32 := 0x10

end FieldDecl

/-- A declared method. -/
structure MethodDecl where
  /-- How instructions name the method. -/
  handle : MethodHandle
  /-- The name of the method. -/
  name : String
  /-- Attributes of the method. -/
  flags : UInt32
  /-- How the method is implemented. -/
  implFlags : UInt32
  /-- The address of the body, zero when there is none. -/
  rva : UInt32
  /-- The signature of the method. -/
  sig : MethodSig

namespace MethodDecl

/-- The bits of how a method is implemented that tell the kind of its code. -/
def codeKindMask : UInt32 := 0x3

/-- Set for a method that the runtime itself provides. -/
def internalCallFlag : UInt32 := 0x1000

/-- Whether the way a method is implemented is intermediate code. -/
def isIntermediate (implFlags : UInt32) : Bool :=
  implFlags &&& codeKindMask == 0 && implFlags &&& internalCallFlag == 0

/-- How many parameters are declared. -/
def paramCount (method : MethodDecl) : Nat := method.sig.params.length

/-- Whether there is a body of intermediate code. -/
def hasBody (method : MethodDecl) : Bool :=
  method.rva != 0 && isIntermediate method.implFlags

end MethodDecl

/-- A declared type. -/
structure TypeDecl where
  /-- The token of the type. -/
  token : Token
  /-- The name of the type. -/
  name : String
  /-- The namespace of the type. -/
  space : String
  /-- The token of the type around it. -/
  enclosing : Option Token
  /-- The fields of the type, in order. -/
  fields : List FieldDecl
  /-- The methods of the type, in order. -/
  methods : List MethodDecl

/-- The name of a type with its namespace. -/
def TypeDecl.fullName (type : TypeDecl) : String :=
  if type.space.isEmpty then type.name else type.space ++ "." ++ type.name

end CilPatch
