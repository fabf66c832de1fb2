import CilPatch.Assembly.Types
import CilPatch.Proofs.Step
import CilPatch.Proofs.Table.Edit

/-!
# Declarations of an edited assembly

Declarations are read from the tables and from what the heaps hold under the indexes in them. When
the tables are extended and every index still leads to the same, the same types are declared: only
the addresses of methods can differ, and how a listing shows a field of a type that had no name.
-/

namespace CilPatch

namespace TableStream.Extends

variable {before after : TableStream} {moved : UInt32 → Prop} {count : Nat} {α : Type}

/-- Rows of other tables are taken apart as before. -/
theorem view_eq (h : Extends before after moved count) {table : TableId}
    (hmethod : table ≠ .methodDef) (hsig : table ≠ .standAloneSig) (rid : UInt32)
    (split : Row → Option α) : after.view table rid split = before.view table rid split := by
  rw [view, view, row?, row?, h.others table hmethod hsig]

/-- Other tables have as many rows as before. -/
theorem rowCount_eq (h : Extends before after moved count) {table : TableId}
    (hsig : table ≠ .standAloneSig) : after.rowCount table = before.rowCount table := by
  rw [rowCount, rowCount]
  by_cases hmethod : table = .methodDef
  · rw [hmethod, h.methodCount]
  · rw [h.others table hmethod hsig]

/-- A declared type is the same. -/
theorem typeDef_eq (h : Extends before after moved count) (rid : UInt32) :
    after.typeDef rid = before.typeDef rid :=
  h.view_eq (by decide) (by decide) rid _

/-- A declared field is the same. -/
theorem field_eq (h : Extends before after moved count) (rid : UInt32) :
    after.field rid = before.field rid :=
  h.view_eq (by decide) (by decide) rid _

/-- A reference to a type is the same. -/
theorem typeRef_eq (h : Extends before after moved count) (rid : UInt32) :
    after.typeRef rid = before.typeRef rid :=
  h.view_eq (by decide) (by decide) rid _

/-- The nesting of a type is the same. -/
theorem nestedClass_eq (h : Extends before after moved count) (rid : UInt32) :
    after.nestedClass rid = before.nestedClass rid :=
  h.view_eq (by decide) (by decide) rid _

/-- A declared method is the same but for its address. -/
theorem methodDef_eq_ok (h : Extends before after moved count) {rid : UInt32} {row : MethodDefRow}
    (hrow : before.methodDef rid = .ok row) :
    ∃ rva, after.methodDef rid = .ok { row with rva } := by
  obtain ⟨rva, hafter⟩ := h.methods rid
  refine ⟨rva, ?_⟩
  unfold methodDef view at hrow ⊢
  rw [hafter]
  cases hfound : before.row? .methodDef rid with
  | none =>
    rw [hfound] at hrow
    cases hrow
  | some columns =>
    rw [hfound] at hrow
    simp only [Option.bind_some, Option.map_some, MethodDefRow.rvaColumn] at hrow ⊢
    match columns, hrow with
    | [_, _, _, _, _, _], hrow =>
      obtain rfl := Except.ok.inj hrow
      rfl

/-- A declared method that is not moved is the same. -/
theorem methodDef_eq (h : Extends before after moved count) {rid : UInt32} (hunmoved : ¬moved rid) :
    after.methodDef rid = before.methodDef rid := by
  rw [methodDef, methodDef, view, view, h.unmoved rid hunmoved]

end TableStream.Extends

/-! ## Names in a listing -/

namespace TypeSig

mutual

/-- The types that are shown by name where a type is listed. -/
def tokens : TypeSig → List Token
  | ptr base | byRef base | pinned base | szArray base | array base _ => tokens base
  | classType reference | valueType reference => [reference]
  | genericInst base args => tokens base ++ tokensOfAll args
  | _ => []

/-- The types that are shown by name where several types are listed. -/
def tokensOfAll : List TypeSig → List Token
  | [] => []
  | type :: rest => tokens type ++ tokensOfAll rest

end

variable {first second : Token → Option String}

mutual

/-- A type is listed the same where the types in it have the same names. -/
theorem displayName_congr : ∀ type : TypeSig,
    (∀ token ∈ type.tokens, first token = second token) →
      displayName first type = displayName second type
  | ptr base, h | byRef base, h | szArray base, h | array base _, h => by
    rw [displayName, displayName, displayName_congr base (by rwa [tokens] at h)]
  | pinned base, h => by
    rw [displayName, displayName, displayName_congr base (by rwa [tokens] at h)]
  | classType reference, h | valueType reference, h => by
    rw [tokens] at h
    rw [displayName, displayName, h reference (List.mem_singleton_self reference)]
  | genericInst base args, h => by
    rw [tokens, List.forall_mem_append] at h
    rw [displayName, displayName, displayName_congr base h.1, displayNames_congr args h.2]
  | unknown, _ | void, _ | boolean, _ | char, _ | i1, _ | u1, _ | i2, _ | u2, _ | i4, _ | u4, _
  | i8, _ | u8, _ | r4, _ | r8, _ | string, _ | typedByRef, _ | nativeInt, _ | nativeUInt, _
  | object, _ | typeParam _, _ | methodParam _, _ | fnPtr _, _ => by
    rw [displayName, displayName]

/-- Several types are listed the same where the types in them have the same names. -/
theorem displayNames_congr : ∀ types : List TypeSig,
    (∀ token ∈ tokensOfAll types, first token = second token) →
      displayNames first types = displayNames second types
  | [], _ => by rw [displayNames, displayNames]
  | type :: rest, h => by
    rw [tokensOfAll, List.forall_mem_append] at h
    rw [displayNames, displayNames, displayName_congr type h.1, displayNames_congr rest h.2]

end

end TypeSig

/-- A reference to a type that is there leads to a name. -/
def StringHeap.Names (strings : StringHeap) (tables : TableStream) (token : Token) : Prop :=
  token.isIn .typeRef = true → ∀ row, tables.typeRef token.row = .ok row →
    ∃ name, strings.get row.name.toNat = .ok name

/-! ## What is declared again -/

/-- A field that is declared again. It is listed the same when the types in its own have names. -/
structure FieldDecl.Kept (named : Token → Prop) (before after : FieldDecl) : Prop where
  declared : after = { before with typeName := after.typeName }
  listed : (∀ token ∈ before.sig.type.tokens, named token) → after.typeName = before.typeName

/-- A method that is declared again. Its body has the same address unless it was moved. -/
structure MethodDecl.Kept (moved : UInt32 → Prop) (before after : MethodDecl) : Prop where
  declared : after = { before with rva := after.rva }
  address : after.rva = before.rva ∨
    ∃ rid, before.handle.token = .ofRow .methodDef rid ∧ moved rid

/-- A type that is declared again with its fields and methods. -/
structure TypeDecl.Kept (named : Token → Prop) (moved : UInt32 → Prop) (before after : TypeDecl) :
    Prop where
  declared : after = { before with fields := after.fields, methods := after.methods }
  fields : List.Forall₂ (FieldDecl.Kept named) before.fields after.fields
  methods : List.Forall₂ (MethodDecl.Kept moved) before.methods after.methods

/-- A type is what it was. -/
theorem TypeDecl.Kept.refl (named : Token → Prop) (moved : UInt32 → Prop) (type : TypeDecl) :
    type.Kept named moved type where
  declared := rfl
  fields := List.forall₂_same.mpr fun _ _ => ⟨rfl, fun _ => rfl⟩
  methods := List.forall₂_same.mpr fun _ _ => ⟨rfl, .inl rfl⟩

/-- A list of results is there again when each of them is there again. -/
theorem exists_mapM_eq_ok {α β : Type} {first second : α → Except Fault β} {kept : β → β → Prop}
    (hagain : ∀ member value, first member = .ok value →
      ∃ again, second member = .ok again ∧ kept value again)
    {list : List α} {values : List β} (h : list.mapM first = .ok values) :
    ∃ again, list.mapM second = .ok again ∧ List.Forall₂ kept values again := by
  induction list generalizing values with
  | nil =>
    obtain rfl := Except.ok.inj h
    exact ⟨[], rfl, .nil⟩
  | cons head tail ih =>
    obtain ⟨value, rest, hhead, htail, rfl⟩ := mapM_cons_eq_ok_iff.mp h
    obtain ⟨again, hsecond, hkept⟩ := hagain head value hhead
    obtain ⟨others, hothers, hall⟩ := ih htail
    exact ⟨again :: others, mapM_cons_eq_ok_iff.mpr ⟨again, others, hsecond, hothers, rfl⟩,
      .cons hkept hall⟩

namespace DeclarationSource

/-- A source whose tables were extended, and whose indexes lead to what they led to. -/
structure Grows (before after : DeclarationSource) (moved : UInt32 → Prop) : Prop where
  tables : ∃ count, TableStream.Extends before.tables after.tables moved count
  strings : ∀ index text, before.strings.get index = .ok text →
    after.strings.get index = .ok text
  blobs : ∀ index blob, before.blobs.get index = .ok blob → after.blobs.get index = .ok blob

variable {source before after : DeclarationSource} {moved : UInt32 → Prop} {rid : UInt32}

/-- A type is read from its row, the row behind it, its members and its names. -/
theorem type_eq_ok_iff {nesting : Array (Option UInt32)} {type : TypeDecl} :
    source.type nesting rid = .ok type ↔ ∃ row, source.tables.typeDef rid = .ok row ∧
      ∃ next, (if rid < source.tables.rowCount .typeDef then
        some <$> source.tables.typeDef (rid + 1) else pure none) = .ok next ∧
      ∃ numbers, memberNumbers row.fields (next.map (·.fields)) (source.tables.rowCount .field) =
        .ok numbers ∧ ∃ fields, numbers.mapM source.field = .ok fields ∧
      ∃ numbers, memberNumbers row.methods (next.map (·.methods))
        (source.tables.rowCount .methodDef) = .ok numbers ∧
      ∃ methods, numbers.mapM source.method = .ok methods ∧
      ∃ name, source.strings.get row.name.toNat = .ok name ∧
      ∃ space, source.strings.get row.space.toNat = .ok space ∧
        Except.ok ⟨.ofRow .typeDef rid, name, space,
          (nesting.getD rid.toNat none).map (.ofRow .typeDef), fields, methods⟩ =
          (.ok type : Except Fault TypeDecl) := by
  unfold DeclarationSource.type
  rw [bind_eq_ok_iff]
  refine exists_congr fun row => and_congr_right fun _ => ?_
  split
  all_goals
    simp only [bind_eq_ok_iff]
    rfl

/-- A listing shows the type of a field with the names that its source has. -/
theorem typeName_of_field {field : FieldDecl} (h : source.field rid = .ok field) :
    field.typeName = field.sig.type.displayName source.typeName? := by
  obtain ⟨row, -, h⟩ := bind_eq_ok_iff.mp h
  obtain ⟨blob, -, h⟩ := bind_eq_ok_iff.mp h
  obtain ⟨sig, -, h⟩ := bind_eq_ok_iff.mp h
  obtain ⟨name, -, h⟩ := bind_eq_ok_iff.mp h
  obtain rfl := Except.ok.inj h
  rfl

namespace Grows

/-- The rows of tables without new rows have the same numbers. -/
theorem rowNumbers_eq (h : before.Grows after moved) {table : TableId} (hsig : table ≠ .standAloneSig) :
    after.rowNumbers table = before.rowNumbers table := by
  obtain ⟨count, hextends⟩ := h.tables
  rw [rowNumbers, rowNumbers, hextends.rowCount_eq hsig]

/-- A field is the same, listed with the names that are there now. -/
theorem field_eq_ok (h : before.Grows after moved) {field : FieldDecl}
    (hfield : before.field rid = .ok field) :
    after.field rid = .ok { field with typeName := field.sig.type.displayName after.typeName? } := by
  obtain ⟨count, hextends⟩ := h.tables
  obtain ⟨row, hrow, hfield⟩ := bind_eq_ok_iff.mp hfield
  obtain ⟨blob, hblob, hfield⟩ := bind_eq_ok_iff.mp hfield
  obtain ⟨sig, hsig, hfield⟩ := bind_eq_ok_iff.mp hfield
  obtain ⟨name, hname, hfield⟩ := bind_eq_ok_iff.mp hfield
  obtain rfl := Except.ok.inj hfield
  refine bind_eq_ok_iff.mpr ⟨row, (hextends.field_eq rid).trans hrow, ?_⟩
  refine bind_eq_ok_iff.mpr ⟨blob, h.blobs _ _ hblob, ?_⟩
  refine bind_eq_ok_iff.mpr ⟨sig, hsig, ?_⟩
  exact bind_eq_ok_iff.mpr ⟨name, h.strings _ _ hname, rfl⟩

/-- A method is declared again. -/
theorem method_kept (h : before.Grows after moved) {method : MethodDecl}
    (hmethod : before.method rid = .ok method) :
    ∃ again, after.method rid = .ok again ∧ method.Kept moved again := by
  obtain ⟨count, hextends⟩ := h.tables
  obtain ⟨row, hrow, hmethod⟩ := bind_eq_ok_iff.mp hmethod
  obtain ⟨blob, hblob, hmethod⟩ := bind_eq_ok_iff.mp hmethod
  obtain ⟨sig, hsig, hmethod⟩ := bind_eq_ok_iff.mp hmethod
  obtain ⟨name, hname, hmethod⟩ := bind_eq_ok_iff.mp hmethod
  obtain rfl := Except.ok.inj hmethod
  obtain ⟨rva, hafter⟩ := hextends.methodDef_eq_ok hrow
  refine ⟨⟨.ofSig (.ofRow .methodDef rid) sig, name, row.flags, row.implFlags, rva, sig⟩, ?_, rfl,
    ?_⟩
  · refine bind_eq_ok_iff.mpr ⟨_, hafter, ?_⟩
    refine bind_eq_ok_iff.mpr ⟨blob, h.blobs _ _ hblob, ?_⟩
    refine bind_eq_ok_iff.mpr ⟨sig, hsig, ?_⟩
    exact bind_eq_ok_iff.mpr ⟨name, h.strings _ _ hname, rfl⟩
  · by_cases hmoved : moved rid
    · exact .inr ⟨rid, rfl, hmoved⟩
    · rw [hextends.methodDef_eq hmoved, hrow] at hafter
      exact .inl (congrArg MethodDefRow.rva (Except.ok.inj hafter)).symm

/-- Types are nested as before. -/
theorem nesting_eq (h : before.Grows after moved) : after.nesting = before.nesting := by
  obtain ⟨count, hextends⟩ := h.tables
  rw [nesting, nesting, h.rowNumbers_eq (by decide), hextends.rowCount_eq (by decide)]
  simp only [hextends.nestedClass_eq]

/-- A type that had a name has the same name. -/
theorem typeName?_eq (h : before.Grows after moved)
    (hdefs : ∀ rid row, before.tables.typeDef rid = .ok row →
      ∃ name, before.strings.get row.name.toNat = .ok name) {token : Token}
    (hnamed : before.strings.Names before.tables token) :
    after.typeName? token = before.typeName? token := by
  obtain ⟨count, hextends⟩ := h.tables
  unfold typeName?
  rw [hextends.typeDef_eq, hextends.typeRef_eq]
  split
  · cases hrow : before.tables.typeDef token.row with
    | error fault => rfl
    | ok row =>
      obtain ⟨name, hname⟩ := hdefs _ row hrow
      simp [Except.toOption, hname, h.strings _ _ hname]
  split
  · next href =>
    cases hrow : before.tables.typeRef token.row with
    | error fault => rfl
    | ok row =>
      obtain ⟨name, hname⟩ := hnamed href row hrow
      simp [Except.toOption, hname, h.strings _ _ hname]
  · rfl

/-- A field is declared again. -/
theorem field_kept (h : before.Grows after moved)
    (hdefs : ∀ rid row, before.tables.typeDef rid = .ok row →
      ∃ name, before.strings.get row.name.toNat = .ok name) {field : FieldDecl}
    (hfield : before.field rid = .ok field) :
    ∃ again, after.field rid = .ok again ∧
      field.Kept (before.strings.Names before.tables) again := by
  refine ⟨_, h.field_eq_ok hfield, rfl, fun hnamed => ?_⟩
  rw [typeName_of_field hfield]
  exact TypeSig.displayName_congr _ fun token htoken => h.typeName?_eq hdefs (hnamed token htoken)

/-- A type is declared again with its members. -/
theorem type_kept (h : before.Grows after moved)
    (hdefs : ∀ rid row, before.tables.typeDef rid = .ok row →
      ∃ name, before.strings.get row.name.toNat = .ok name)
    {nesting : Array (Option UInt32)} {type : TypeDecl}
    (htype : before.type nesting rid = .ok type) :
    ∃ again, after.type nesting rid = .ok again ∧
      type.Kept (before.strings.Names before.tables) moved again := by
  obtain ⟨count, hextends⟩ := h.tables
  obtain ⟨row, hrow, next, hnext, fieldNumbers, hfieldNumbers, fields, hread, methodNumbers,
    hmethodNumbers, methods, hmethods, name, hname, space, hspace, htype⟩ := type_eq_ok_iff.mp htype
  obtain rfl := Except.ok.inj htype
  obtain ⟨fields', hread', hfields⟩ :=
    exists_mapM_eq_ok (fun _ _ hfield => h.field_kept hdefs hfield) hread
  obtain ⟨methods', hmethods', hkept⟩ :=
    exists_mapM_eq_ok (fun _ _ hmethod => h.method_kept hmethod) hmethods
  refine ⟨⟨.ofRow .typeDef rid, name, space, (nesting.getD rid.toNat none).map (.ofRow .typeDef),
    fields', methods'⟩, ?_, rfl, hfields, hkept⟩
  rw [type_eq_ok_iff, hextends.rowCount_eq (by decide), hextends.rowCount_eq (by decide),
    hextends.rowCount_eq (by decide)]
  simp only [hextends.typeDef_eq]
  exact ⟨row, hrow, next, hnext, fieldNumbers, hfieldNumbers, fields', hread', methodNumbers,
    hmethodNumbers, methods', hmethods', name, h.strings _ _ hname, space, h.strings _ _ hspace,
    rfl⟩

end Grows

/-- A row that is there is among the numbered rows. -/
theorem mem_rowNumbers {row : TypeDefRow}
    (hcount : (source.tables.rows .typeDef).size < UInt32.size)
    (h : source.tables.typeDef rid = .ok row) : rid ∈ source.rowNumbers .typeDef := by
  unfold TableStream.typeDef TableStream.view TableStream.row? at h
  split at h
  · next found hfound =>
    obtain ⟨columns, hcolumns, -⟩ := Option.bind_eq_some_iff.mp hfound
    split at hcolumns
    · cases hcolumns
    · next hrid =>
      obtain ⟨hlt, -⟩ := Array.getElem?_eq_some_iff.mp hcolumns
      have hpos : rid.toNat ≠ 0 := fun hzero => hrid (UInt32.toNat_inj.mp hzero)
      refine List.mem_map.mpr ⟨rid.toNat - 1, List.mem_range.mpr ?_, ?_⟩
      · rwa [TableStream.rowCount, UInt32.toNat_ofNat_of_lt' hcount]
      · rw [Nat.sub_add_cancel (Nat.pos_of_ne_zero hpos), UInt32.ofNat_toNat]
  · cases h

/-- Every declared type has a name. -/
theorem names_typeDef {types : List TypeDecl} {row : TypeDefRow}
    (hcount : (source.tables.rows .typeDef).size < UInt32.size) (h : source.types = .ok types)
    (hrow : source.tables.typeDef rid = .ok row) :
    ∃ name, source.strings.get row.name.toNat = .ok name := by
  obtain ⟨nesting, -, h⟩ := bind_eq_ok_iff.mp h
  obtain ⟨index, hindex, rfl⟩ := List.mem_iff_getElem.mp (mem_rowNumbers hcount hrow)
  have htypes := mapM_eq_ok_iff.mp h
  have htype := htypes.get hindex (htypes.length_eq ▸ hindex)
  obtain ⟨found, hfound, -, -, -, -, -, -, -, -, -, -, name, hname, -⟩ := type_eq_ok_iff.mp htype
  obtain rfl := Except.ok.inj (hfound.symm.trans hrow)
  exact ⟨name, hname⟩

/-- All types are declared again. -/
theorem Grows.types (h : before.Grows after moved)
    (hcount : (before.tables.rows .typeDef).size < UInt32.size) {types : List TypeDecl}
    (htypes : before.types = .ok types) :
    ∃ again, after.types = .ok again ∧
      List.Forall₂ (TypeDecl.Kept (before.strings.Names before.tables) moved) types again := by
  have hdefs (rid : UInt32) (row : TypeDefRow) (hrow : before.tables.typeDef rid = .ok row) :
      ∃ name, before.strings.get row.name.toNat = .ok name := names_typeDef hcount htypes hrow
  obtain ⟨nesting, hnesting, htypes⟩ := bind_eq_ok_iff.mp htypes
  obtain ⟨again, hagain, hkept⟩ :=
    exists_mapM_eq_ok (fun _ _ htype => h.type_kept hdefs htype) htypes
  refine ⟨again, bind_eq_ok_iff.mpr ⟨nesting, h.nesting_eq.trans hnesting, ?_⟩, hkept⟩
  rwa [h.rowNumbers_eq (by decide)]

end DeclarationSource

end CilPatch
