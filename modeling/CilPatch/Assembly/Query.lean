import CilPatch.Assembly.Basic

/-!
# Queries

A declaration is looked up by its name, and by what else is asked of it. Without any condition
the name must be the name of one declaration only; with one, the first declaration that meets
all conditions is taken. Types that lie in no other come before those that do.
-/

namespace CilPatch

/-- What is asked of a type. -/
structure TypeQuery where
  /-- The name of the type. -/
  name : String
  /-- The namespace of the type, or of the outermost type around it. -/
  space : Option String := none

/-- What is asked of a field. -/
structure FieldQuery where
  /-- The name of the field. -/
  name : String
  /-- Whether the field belongs to the type. -/
  isStatic : Option Bool := none
  /-- The type of the field in a listing. -/
  typeName : Option String := none

/-- What is asked of a method. -/
structure MethodQuery where
  /-- The name of the method. -/
  name : String
  /-- Whether the method works without an object. -/
  isStatic : Option Bool := none
  /-- How many parameters are declared. -/
  params : Option Nat := none
  /-- How many instructions the method must exceed. -/
  moreThan : Option Nat := none

/-- Whether a condition is asked for. -/
def TypeQuery.isRestricted (query : TypeQuery) : Bool := query.space.isSome

/-- Whether a condition is asked for. -/
def FieldQuery.isRestricted (query : FieldQuery) : Bool :=
  query.isStatic.isSome || query.typeName.isSome

/-- Whether a condition is asked for. -/
def MethodQuery.isRestricted (query : MethodQuery) : Bool :=
  query.isStatic.isSome || query.params.isSome || query.moreThan.isSome

/-- Whether a value is the one that is asked for, if one is. -/
def isWanted {α : Type} [BEq α] (wanted : Option α) (value : α) : Bool := wanted.all (· == value)

/-- The declaration to take, of a number of declarations with a name and the first of them that
meets the conditions. -/
def pick {α : Type} (kind : SymbolKind) (owner name : String) (named : Nat)
    (isRestricted : Bool) (found : Option α) : Except Fault α :=
  if 1 < named ∧ !isRestricted then .error (.ambiguousSymbol kind owner name named)
  else match found with
    | some found => .ok found
    | none => .error (.symbolNotFound kind owner name)

/-- The first declaration that meets all conditions; those behind it are not looked at. -/
def firstMeeting {α : Type} (meets : α → Except Fault Bool) : List α → Except Fault (Option α)
  | [] => .ok none
  | candidate :: rest => do
      if ← meets candidate then return some candidate
      firstMeeting meets rest

namespace Assembly

/-- The type around a type; a type that claims to lie in itself lies in no other. -/
def outer? (assembly : Assembly) (type : TypeDecl) : Option TypeDecl :=
  (type.enclosing.bind assembly.type?).filter (·.token != type.token)

/-- The outermost type around a type, found by steps outwards. There is none where the way
outwards runs in a circle: the steps never end then. -/
def outermost? (assembly : Assembly) (type : TypeDecl) : Option TypeDecl :=
  match assembly.outer? type with
  | none => some type
  | some outer => assembly |>.outermost? outer
partial_fixpoint

/-- The types with a name, those that lie in no other first. -/
def typesNamed (assembly : Assembly) (name : String) : List TypeDecl :=
  let (top, nested) := assembly.types.toList.partition (·.enclosing.isNone)
  (top ++ nested).filter (·.name == name)

/-- Whether a type meets all conditions; the way outwards is only taken for a namespace. -/
def typeMeets (assembly : Assembly) (query : TypeQuery) (type : TypeDecl) : Except Fault Bool :=
  match query.space with
  | none => .ok true
  | some space =>
      match assembly.outermost? type with
      | some outermost => .ok (outermost.space == space)
      | none => .error .endless

/-- The token of the type that is asked for. -/
def findType (assembly : Assembly) (query : TypeQuery) : Except Fault Token := do
  let named := assembly.typesNamed query.name
  let found ← firstMeeting (assembly.typeMeets query) named
  pick .type (query.space.getD "") query.name named.length query.isRestricted
    (found.map (·.token))

/-- The type whose member is asked for. -/
def owner (assembly : Assembly) (token : Token) (kind : SymbolKind) (name : String) :
    Except Fault TypeDecl :=
  match assembly.type? token with
  | some type => .ok type
  | none => .error (.symbolNotFound kind token.text name)

/-- The field of a type that is asked for. -/
def findField (assembly : Assembly) (token : Token) (query : FieldQuery) :
    Except Fault FieldHandle := do
  let type ← assembly.owner token .field query.name
  let named := type.fields.filter (·.name == query.name)
  let found := named.find? fun field =>
    isWanted query.isStatic field.handle.isStatic && isWanted query.typeName field.typeName
  pick .field type.fullName query.name named.length query.isRestricted (found.map (·.handle))

/-- How many instructions a method has, none if it has no body. -/
def countOrNone (assembly : Assembly) (token : Token) : Except Fault Nat :=
  match assembly.instructionCount token with
  | .error (.noBody _) => .ok 0
  | count => count

/-- Whether a method meets all conditions; its body is only decoded when the others are met. -/
def methodMeets (assembly : Assembly) (query : MethodQuery) (method : MethodDecl) :
    Except Fault Bool :=
  if isWanted query.isStatic method.handle.isStatic &&
      isWanted query.params method.paramCount then
    match query.moreThan with
    | none => .ok true
    | some limit => (assembly.countOrNone method.handle.token).map (limit < ·)
  else .ok false

/-- The method of a type that is asked for. -/
def findMethod (assembly : Assembly) (token : Token) (query : MethodQuery) :
    Except Fault MethodHandle := do
  let type ← assembly.owner token .method query.name
  let named := type.methods.filter (·.name == query.name)
  let found ← firstMeeting (assembly.methodMeets query) named
  pick .method type.fullName query.name named.length query.isRestricted (found.map (·.handle))

end Assembly

end CilPatch
