import CilPatch.Proofs.Assembly.Bodies
import CilPatch.Proofs.Signature.Locals
import CilPatch.Proofs.Token

/-!
# Where bodies are put

A body that was put into the section stands there under the address that its method got, with a
local signature that declares all its variables. Bodies that are put there later stand behind it and
belong to other methods, so they leave it as it is.
-/

namespace CilPatch

open PatchSection

namespace PatchSection

variable {assembly : Assembly} {place : SectionPlace} {draft next last : Draft} {token : Token}
  {body : Body} {sig rva : UInt32} {size count : Nat} {tables : TableStream} {blobs : Bytes}
  {moved : UInt32 → Prop}

/-- A local signature in the tables and the blobs that declares a number of variables. -/
structure Declares (tables : TableStream) (blobs : Bytes) (sig : UInt32) (count : Nat) : Prop where
  exists_row : ∃ rid index signature, sig = (Token.ofRow .standAloneSig rid).value ∧
    rid.toNat ≠ 0 ∧ rid.toNat < Token.rowLimit ∧
    tables.row? .standAloneSig rid = some [index] ∧
    (⟨blobs⟩ : BlobHeap).get index.toNat = .ok signature ∧
    Signature.declared (some signature) = .ok count

/-- A body that stands in the section behind some bytes, with the local signature that it was given;
its method has the address of where it stands. -/
structure Stored (place : SectionPlace) (draft : Draft) (token : Token) (body : Body)
    (front encoded : List UInt8) (sig : UInt32) : Prop where
  encode : ∃ relaxed, body.encode sig = .ok (encoded, relaxed)
  content : ∃ back, draft.content = front ++ (encoded ++ back)
  offset_lt : front.length < UInt32.size
  method : ∃ row, draft.tables.row? .methodDef token.row = some row ∧
    row[MethodDefRow.rvaColumn]? = some (place.rva + UInt32.ofNat front.length)
  signature : (body.added = [] ∧ sig = body.localSig) ∨
    Declares draft.tables draft.blobs sig body.localCount

/-! ## What later bodies leave alone -/

/-- Tables and blobs are as they were before anything is put there. -/
theorem Grown.refl (hwell : draft.tables.WellFormed) :
    Grown draft.tables draft.blobs draft (fun _ => False) 0 :=
  ⟨hwell, .refl _, #[], Array.append_empty.symm⟩

/-- A local signature stays in tables and blobs that grow. -/
theorem Declares.grow {added : Nat} (h : Declares tables blobs sig count)
    (hgrown : Grown tables blobs next moved added) : Declares next.tables next.blobs sig count := by
  obtain ⟨rid, index, signature, hsig, hpos, hlt, hrow, hblob, hcount⟩ := h.exists_row
  obtain ⟨more, hmore⟩ := hgrown.blobs
  refine ⟨rid, index, signature, hsig, hpos, hlt, hgrown.tables.signature? hrow, ?_, hcount⟩
  rw [hmore]
  exact BlobHeap.get_append hblob more

/-- A body stays where it is when the section grows and its method is not given another one. -/
theorem Stored.grow {front encoded : List UInt8} {added : Nat}
    (h : Stored place draft token body front encoded sig)
    (hgrown : Grown draft.tables draft.blobs next moved added) (hmoved : ¬moved token.row)
    (hcontent : ∃ more, next.content = draft.content ++ more) :
    Stored place next token body front encoded sig := by
  obtain ⟨back, hback⟩ := h.content
  obtain ⟨more, hmore⟩ := hcontent
  obtain ⟨row, hrow, hrva⟩ := h.method
  refine ⟨h.encode, ⟨back ++ more, ?_⟩, h.offset_lt, ⟨row, ?_, hrva⟩,
    h.signature.imp_right fun hdeclares => hdeclares.grow hgrown⟩
  · rw [hmore, hback]
    simp only [List.append_assoc]
  · rw [hgrown.tables.unmoved token.row hmoved, hrow]

/-- A local signature is added without touching the section. -/
theorem content_localSig {signed : Draft} (h : localSig assembly draft body = .ok (signed, sig)) :
    signed.content = draft.content := by
  rcases localSig_eq_ok h with ⟨-, rfl, -⟩ | hsigned
  · rfl
  · obtain ⟨_, _, _, _, _, _, -, -, -, -, rfl, -⟩ := hsigned.exists_row
    rfl

/-- A body is put behind what is in the section. -/
theorem content_addBody (h : addBody assembly place draft token body = .ok (next, size, rva)) :
    ∃ more, next.content = draft.content ++ more := by
  obtain ⟨signed, sig, encoded, relaxed, hsig, -, -, -, -, -, rfl⟩ := addBody_eq_ok_iff.mp h
  refine ⟨padding draft.content.length 4 ++ encoded, ?_⟩
  simp only [padTo, content_localSig hsig, List.append_assoc]

end PatchSection

end CilPatch
