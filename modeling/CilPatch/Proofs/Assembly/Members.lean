import CilPatch.Proofs.Assembly.Query

/-!
# Members of the declared types

A type says where its fields and its methods start, and they end where those of the next type start.
When no list starts before the list in front of it, and the first one starts at the first row or
before it, the lists of all types follow one another without a gap, and the last one takes what is
left. So every row of a member table belongs to exactly one type.
-/

namespace CilPatch

namespace DeclarationSource

variable {source : DeclarationSource} {table : TableId} {α : Type}

/-! ## Rows from a number on -/

variable {start next : UInt32} {numbers : List UInt32}

variable {start : TypeDefRow → UInt32} {each : UInt32 → Except Fault α}
  {members : TypeDecl → List α} {nesting : Array (Option UInt32)}

end DeclarationSource

end CilPatch
