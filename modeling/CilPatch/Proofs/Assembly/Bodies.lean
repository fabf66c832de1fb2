import CilPatch.Proofs.Assembly.Metadata
import CilPatch.Proofs.Heap.Growth
import CilPatch.Proofs.Table.Edit
import CilPatch.Proofs.Task

/-!
# Putting bodies into a section

Edited bodies are put into the section one after another. Each changes the address of its method and
may add one local signature; nothing that was put there before is touched again.
-/

namespace CilPatch.PatchSection

variable {assembly : Assembly} {place : SectionPlace} {draft next : Draft} {token : Token}
  {body : Body} {sig rva : UInt32} {size : Nat}

/-- A new local signature with the variables that were added to a body, which the tables and the
blob heap hold behind everything else. -/
structure Signed (assembly : Assembly) (draft : Draft) (body : Body) (next : Draft) (sig : UInt32) :
    Prop where
  added : body.added ≠ []
  exists_row : ∃ old signature blobs index tables rid,
    assembly.localSignature ⟨body.localSig⟩ = .ok old ∧
    Signature.extendLocals old (body.added.map (·.type)) = .ok signature ∧
    BlobHeap.append draft.blobs signature.toArray = (blobs, .ok index) ∧
    draft.tables.push .standAloneSig [index] = .ok (tables, rid) ∧
    next = { draft with blobs, tables } ∧ sig = (Token.ofRow .standAloneSig rid).value

/-- A body without added variables keeps its local signature, and one with any gets a new one. -/
theorem localSig_eq_ok (h : localSig assembly draft body = .ok (next, sig)) :
    (body.added = [] ∧ next = draft ∧ sig = body.localSig) ∨
      Signed assembly draft body next sig := by
  unfold localSig at h
  split at h
  · next hempty =>
    obtain ⟨rfl, rfl⟩ := Prod.mk.inj (Except.ok.inj h)
    exact .inl ⟨List.isEmpty_iff.mp hempty, rfl, rfl⟩
  · next hsome =>
    obtain ⟨old, hold, h⟩ := bind_eq_ok_iff.mp h
    obtain ⟨signature, hsignature, h⟩ := bind_eq_ok_iff.mp h
    cases happend : BlobHeap.append draft.blobs signature.toArray with
    | mk blobs result =>
      rw [happend] at h
      obtain ⟨index, hindex, h⟩ := bind_eq_ok_iff.mp h
      rw [hindex] at happend
      obtain ⟨⟨tables, rid⟩, hpush, h⟩ := bind_eq_ok_iff.mp h
      obtain ⟨rfl, rfl⟩ := Prod.mk.inj (Except.ok.inj h)
      exact .inr ⟨fun hnil => hsome (List.isEmpty_iff.mpr hnil),
        old, signature, blobs, index, tables, rid, hold, hsignature, happend, hpush, rfl, rfl⟩

/-- A body is put at the end of the section when it can be encoded with its local signature, and its
method leads to it. -/
theorem addBody_eq_ok_iff : addBody assembly place draft token body = .ok (next, size, rva) ↔
    ∃ signed sig encoded relaxed, localSig assembly draft body = .ok (signed, sig) ∧
      body.encode sig = .ok (encoded, relaxed) ∧
      (padTo signed.content 4).length < UInt32.size ∧
      rva = place.rva + UInt32.ofNat (padTo signed.content 4).length ∧
      (signed.tables.row? .methodDef token.row).isSome ∧ size = encoded.length ∧
      next = { signed with
        content := padTo signed.content 4 ++ encoded
        tables := signed.tables.setColumn .methodDef token.row MethodDefRow.rvaColumn rva
        relaxed := signed.relaxed + relaxed } := by
  constructor
  · intro h
    obtain ⟨⟨signed, sig⟩, hsig, h⟩ := bind_eq_ok_iff.mp h
    obtain ⟨⟨encoded, relaxed⟩, hencode, h⟩ := bind_eq_ok_iff.mp h
    obtain ⟨offset, hword, h⟩ := bind_eq_ok_iff.mp h
    obtain ⟨hrow, h⟩ := check_eq_ok_iff.mp h
    obtain ⟨rfl, hrest⟩ := Prod.mk.inj (Except.ok.inj h)
    obtain ⟨rfl, rfl⟩ := Prod.mk.inj hrest
    obtain ⟨hlt, rfl⟩ := word_eq_ok_iff.mp hword
    refine ⟨signed, sig, encoded, relaxed, hsig, hencode, hlt, rfl, ?_, rfl, rfl⟩
    exact Option.isSome_iff_ne_none.mpr fun hnone => hrow (Option.isNone_iff_eq_none.mpr hnone)
  · rintro ⟨signed, sig, encoded, relaxed, hsig, hencode, hlt, rfl, hrow, rfl, rfl⟩
    refine bind_eq_ok_iff.mpr ⟨_, hsig, bind_eq_ok_iff.mpr ⟨_, hencode, ?_⟩⟩
    refine bind_eq_ok_iff.mpr ⟨_, word_eq_ok_iff.mpr ⟨hlt, rfl⟩, check_eq_ok_iff.mpr ⟨?_, rfl⟩⟩
    exact fun hnone => Option.isSome_iff_ne_none.mp hrow (Option.isNone_iff_eq_none.mp hnone)

/-- Bodies are put into the section one after another. -/
theorem addBodies_cons_eq_ok_iff {rest : List (Token × Body)} {last : Draft} :
    (addBodies assembly place draft ((token, body) :: rest)).result = .ok last ↔
      ∃ next size rva, addBody assembly place draft token body = .ok (next, size, rva) ∧
        (addBodies assembly place next rest).result = .ok last := by
  rw [addBodies, Noted.result_bind, Noted.result_liftM, bind_eq_ok_iff]
  constructor
  · rintro ⟨⟨next, size, rva⟩, hbody, h⟩
    rw [Noted.result_bind, Noted.result_note] at h
    exact ⟨next, size, rva, hbody, h⟩
  · rintro ⟨next, size, rva, hbody, h⟩
    refine ⟨⟨next, size, rva⟩, hbody, ?_⟩
    rw [Noted.result_bind, Noted.result_note]
    exact h

/-! ## What bodies leave alone -/

/-- A draft in which some methods have new bodies: its tables extend those of the assembly, and its
blobs those that were there. -/
structure Grown (tables : TableStream) (blobs : Bytes) (draft : Draft) (moved : UInt32 → Prop)
    (count : Nat) : Prop where
  wellFormed : draft.tables.WellFormed
  tables : TableStream.Extends tables draft.tables moved count
  blobs : ∃ more, draft.blobs = blobs ++ more

variable {tables : TableStream} {blobs : Bytes} {moved : UInt32 → Prop} {count : Nat}

/-- How many bodies of a list have added local variables. -/
def extendedCount (edits : List (Token × Body)) : Nat :=
  edits.countP fun edit => !edit.2.added.isEmpty

/-- Bodies are counted one after another. -/
theorem extendedCount_cons (edit : Token × Body) (rest : List (Token × Body)) :
    extendedCount (edit :: rest) = extendedCount [edit] + extendedCount rest := by
  rw [extendedCount, ← List.singleton_append, List.countP_append]
  rfl

/-- The methods whose bodies are in a list. -/
def Edits (edits : List (Token × Body)) (rid : UInt32) : Prop := ∃ edit ∈ edits, edit.1.row = rid

/-- Blobs that grow are not taken away. -/
theorem Grown.isEmpty_blobs (h : Grown tables blobs draft moved count)
    (hblobs : blobs.isEmpty = false) : draft.blobs.isEmpty = false := by
  obtain ⟨more, hmore⟩ := h.blobs
  rw [hmore, Array.isEmpty_eq_false_iff] at *
  simp [hblobs]

/-- A new local signature is put behind the others. -/
theorem Grown.signed (h : Grown tables blobs draft moved count) (hblobs : blobs.isEmpty = false)
    (hroom : (tables.rows .standAloneSig).size + count + 1 < UInt32.size)
    (hsigned : Signed assembly draft body next sig) :
    Grown tables blobs next moved (count + 1) := by
  obtain ⟨-, old, signature, blobs', index, tables', rid, -, -, happend, hpush, rfl, -⟩ := hsigned
  obtain ⟨more, hmore⟩ := h.blobs
  obtain ⟨head, -, hblobs', -, -⟩ := BlobHeap.append_eq_ok (h.isEmpty_blobs hblobs) happend
  refine ⟨h.wellFormed.push hpush ?_, h.tables.push h.wellFormed hpush,
    more ++ (head.toArray ++ signature.toArray), ?_⟩
  · obtain ⟨added, hcount, hadded⟩ := h.tables.signatures
    rw [hadded, Array.size_append, hcount]
    exact hroom
  · rw [hblobs', hmore, Array.append_assoc]

/-- A body that is put into the section changes the address of its method, and adds a local
signature if variables were added to it. -/
theorem Grown.addBody (h : Grown tables blobs draft moved count) (hblobs : blobs.isEmpty = false)
    (hroom : (tables.rows .standAloneSig).size + (count + extendedCount [(token, body)]) <
      UInt32.size)
    (hbody : addBody assembly place draft token body = .ok (next, size, rva)) :
    Grown tables blobs next (fun rid => moved rid ∨ rid = token.row)
      (count + extendedCount [(token, body)]) := by
  obtain ⟨signed, sig, encoded, relaxed, hsig, -, -, -, -, -, rfl⟩ := addBody_eq_ok_iff.mp hbody
  have hsigned : Grown tables blobs signed moved (count + extendedCount [(token, body)]) := by
    rcases localSig_eq_ok hsig with ⟨hadded, rfl, -⟩ | hsigned
    · have hzero : extendedCount [(token, body)] = 0 := by
        simp [extendedCount, hadded]
      rwa [hzero]
    · have hone : extendedCount [(token, body)] = 1 := by
        simp [extendedCount, hsigned.added]
      rw [hone] at hroom ⊢
      exact h.signed hblobs (by omega) hsigned
  exact ⟨hsigned.wellFormed.setColumn _ _ _ _, hsigned.tables.setColumn _ _, hsigned.blobs⟩

/-- Bodies that are put into the section change the addresses of their methods, and each to which
variables were added adds a local signature. -/
theorem Grown.addBodies {edits : List (Token × Body)} {last : Draft}
    (h : Grown tables blobs draft moved count) (hblobs : blobs.isEmpty = false)
    (hroom : (tables.rows .standAloneSig).size + (count + extendedCount edits) < UInt32.size)
    (hbodies : (addBodies assembly place draft edits).result = .ok last) :
    Grown tables blobs last (fun rid => moved rid ∨ Edits edits rid)
      (count + extendedCount edits) := by
  induction edits generalizing draft moved count with
  | nil =>
    obtain rfl := Except.ok.inj hbodies
    have hnone : (fun rid => moved rid ∨ Edits [] rid) = moved := by
      funext rid
      simp [Edits]
    rw [hnone]
    exact h
  | cons edit rest ih =>
    obtain ⟨token, body⟩ := edit
    obtain ⟨next, size, rva, hbody, hrest⟩ := addBodies_cons_eq_ok_iff.mp hbodies
    have hmoved : (fun rid => moved rid ∨ Edits ((token, body) :: rest) rid) =
        fun rid => (moved rid ∨ rid = token.row) ∨ Edits rest rid := by
      funext rid
      simp only [Edits, List.mem_cons, exists_eq_or_imp, or_assoc, eq_comm]
    rw [extendedCount_cons] at hroom ⊢
    rw [hmoved, ← Nat.add_assoc]
    exact ih (h.addBody hblobs (by omega) hbody) (by omega) hrest

end CilPatch.PatchSection
