import CilPatch.Bytes.Emission
import CilPatch.Signature.Read

/-!
# Writing signatures

Types are written as they are read. An unknown type and a pointer to a method have no written
form; what stands before them is still emitted.
-/

namespace CilPatch.Signature

/-- The tag that chooses the table of a token in a signature. -/
def tableTag? (token : Token) : Option Nat :=
  if token.isIn .typeDef then some 0
  else if token.isIn .typeRef then some 1
  else if token.isIn .typeSpec then some 2
  else none

/-- A reference to a type. -/
def emitToken (token : Token) : Emission :=
  match tableTag? token with
  | some tag => .ofExcept (Compressed.encode (token.row.toNat * 4 + tag))
  | none => .ofFault (.output (.signatureToken token))

/-- A compressed integer. -/
def emitCompressed (value : Nat) : Emission := .ofExcept (Compressed.encode value)

/-- A single byte. -/
def emitByte (byte : UInt8) : Emission := .ofBytes [byte]

mutual

/-- A type. -/
def emitType : TypeSig → Emission
  | .ptr base => emitByte Element.ptr ++ emitType base
  | .byRef base => emitByte Element.byRef ++ emitType base
  | .pinned base => emitByte Element.pinned ++ emitType base
  | .szArray base => emitByte Element.szArray ++ emitType base
  | .array base rank =>
      emitByte Element.array ++ (emitType base ++ (emitCompressed rank.toNat ++
        (emitCompressed 0 ++ emitCompressed 0)))
  | .classType reference => emitByte Element.classType ++ emitToken reference
  | .valueType reference => emitByte Element.valueType ++ emitToken reference
  | .typeParam index => emitByte Element.typeParam ++ emitCompressed index.toNat
  | .methodParam index => emitByte Element.methodParam ++ emitCompressed index.toNat
  | .genericInst base args =>
      emitByte Element.genericInst ++ (emitType base ++
        ((if args.length < UInt32.size then emitCompressed args.length
          else .ofFault (.output .genericArguments)) ++ emitTypes args))
  | type =>
      match Element.code? type with
      | some byte => emitByte byte
      | none => .ofFault (.output (.localType type))

/-- Several types after one another. -/
def emitTypes : List TypeSig → Emission
  | [] => {}
  | type :: rest => emitType type ++ emitTypes rest

end

/-- A local variable signature with further variables at its end. The entries of the old
signature are kept as they are behind a new count. -/
def extendLocals (old : Option Bytes) (added : List TypeSig) : Except Fault (List UInt8) := do
  let (count, entries) ← match old with
    | none => pure (0, [])
    | some blob =>
        let (head, cursor) := readLocalsHead.run ⟨blob, 0⟩
        pure ((← head).toNat, cursor.rest)
  if UInt32.size ≤ added.length then throw (.output .tooManyLocals)
  (emitByte Element.localsHead ++ (emitCompressed (count + added.length) ++
    (.ofBytes entries ++ emitTypes added))).toExcept

end CilPatch.Signature
