import CilPatch.Proofs.Signature.Locals
import CilPatch.Proofs.Token

/-!
# References to types

A signature refers to a type by one compressed integer: its two low bits choose the table and the
others are the number of the row. Such an integer has three bits more for the row than a token has.
Nothing checks that the number fits: what is left over is added to the number of the table, and
the token is then one of another table. A reference that is written always fits.
-/

namespace CilPatch

open Read

variable {before after : Cursor} {token : Token}

/-- Numbers that are compressed to the same bytes are the same. -/
theorem Compressed.encode_inj {first second : Nat} {bytes : List UInt8}
    (hfirst : Compressed.encode first = .ok bytes)
    (hsecond : Compressed.encode second = .ok bytes) : first = second := by
  have hpasses := @Cursor.passes_of_rest ⟨bytes.toArray, 0⟩ bytes [] (by simp [Cursor.rest])
    (Nat.zero_le _)
  have hsame := (run_compressed hfirst hpasses).symm.trans (run_compressed hsecond hpasses)
  have hword := congrArg UInt32.toNat (Except.ok.inj (Prod.mk.inj hsame).1)
  rwa [UInt32.toNat_ofNat_of_lt' (Signature.lt_size_of_encode hfirst),
    UInt32.toNat_ofNat_of_lt' (Signature.lt_size_of_encode hsecond)] at hword

namespace Signature

/-- The table that the two low bits of a reference choose. -/
def taggedTable? : Nat → Option TableId
  | 0 => some .typeDef
  | 1 => some .typeRef
  | 2 => some .typeSpec
  | _ => none

/-- A token that is in one table is in no other. -/
theorem not_isIn_of_ne {table other : TableId} (h : token.isIn table = true) (hne : other ≠ table) :
    ¬token.isIn other = true := fun hother =>
  hne (TableId.number_inj.mp ((Token.isIn_iff.mp hother).symm.trans (Token.isIn_iff.mp h)))

/-- A token is written with a tag when it is in the table that the tag chooses. -/
theorem tableTag?_eq_some_iff {tag : Nat} :
    tableTag? token = some tag ↔
      ∃ table, taggedTable? tag = some table ∧ token.isIn table = true := by
  constructor
  · intro h
    unfold tableTag? at h
    split at h
    · next hdef => exact ⟨.typeDef, by rw [← Option.some.inj h]; rfl, hdef⟩
    split at h
    · next href => exact ⟨.typeRef, by rw [← Option.some.inj h]; rfl, href⟩
    split at h
    · next hspec => exact ⟨.typeSpec, by rw [← Option.some.inj h]; rfl, hspec⟩
    · cases h
  · rintro ⟨table, htag, hin⟩
    unfold tableTag?
    unfold taggedTable? at htag
    split at htag
    · obtain rfl := Option.some.inj htag
      rw [if_pos hin]
    · obtain rfl := Option.some.inj htag
      rw [if_neg (not_isIn_of_ne hin (by decide)), if_pos hin]
    · obtain rfl := Option.some.inj htag
      rw [if_neg (not_isIn_of_ne hin (by decide)), if_neg (not_isIn_of_ne hin (by decide)),
        if_pos hin]
    · cases htag

/-- The number of a row is added to the first token of the table that the tag chooses. -/
theorem compressedToken_eq : compressedToken = (do
      let value ← compressed
      match taggedTable? (value.toNat % 4) with
      | some table => return ⟨UInt32.ofNat (Token.rowLimit * table.number + value.toNat / 4)⟩
      | none => throw (.malformed (.compressedTag value))) := by
  have hadded (value : UInt32) (table : TableId) :
      UInt32.ofNat (Token.rowLimit * table.number) + value >>> 2 =
        UInt32.ofNat (Token.rowLimit * table.number + value.toNat / 4) := by
    rw [UInt32.ofNat_add]
    congr 1
    apply UInt32.toNat_inj.mp
    have hlt := value.toNat_lt
    rw [UInt32.toNat_shiftRight, UInt32.toNat_ofNat_of_lt' (by simp only [UInt32.size]; omega)]
    exact Nat.shiftRight_eq_div_pow value.toNat 2
  unfold compressedToken
  congr 1
  funext value
  have hfirst (table : TableId) := congrArg
    (fun word => (pure (Token.mk word) : Read Token)) (hadded value table)
  dsimp only
  generalize value.toNat % 4 = tag
  match tag with
  | 0 => exact hfirst .typeDef
  | 1 => exact hfirst .typeRef
  | 2 => exact hfirst .typeSpec
  | _ + 3 => rfl

/-- A reference is read when an integer is whose tag chooses a table. -/
theorem run_compressedToken_eq_ok_iff :
    compressedToken.run before = (.ok token, after) ↔
      ∃ value table, compressed.run before = (.ok value, after) ∧
        taggedTable? (value.toNat % 4) = some table ∧
        token = ⟨UInt32.ofNat (Token.rowLimit * table.number + value.toNat / 4)⟩ := by
  rw [compressedToken_eq, run_bind_eq_ok_iff]
  constructor
  · rintro ⟨value, middle, hvalue, h⟩
    cases htable : taggedTable? (value.toNat % 4) with
    | none =>
      rw [htable] at h
      cases h
    | some table =>
      rw [htable] at h
      obtain ⟨htoken, rfl⟩ := Prod.mk.inj h
      exact ⟨value, table, hvalue, htable, (Except.ok.inj htoken).symm⟩
  · rintro ⟨value, table, hvalue, htable, rfl⟩
    refine ⟨value, after, hvalue, ?_⟩
    rw [htable]
    rfl

/-! ## Written references -/

/-- A tag that chooses a table is one of two bits. -/
theorem lt_of_taggedTable? {tag : Nat} {table : TableId} (h : taggedTable? tag = some table) :
    tag < 3 := by
  match tag with
  | 0 | 1 | 2 => decide
  | _ + 3 => cases h

/-- A token is written as its row in front of the tag of its table. -/
theorem emitToken_eq {tag : Nat} {table : TableId} (htable : taggedTable? tag = some table)
    (hin : token.isIn table = true) :
    (emitToken token).toExcept = Compressed.encode (token.row.toNat * 4 + tag) := by
  rw [emitToken, tableTag?_eq_some_iff.mpr ⟨table, htable, hin⟩]
  exact Emission.toExcept_ofExcept _

/-- A token that is written is in one of the three tables. -/
theorem exists_taggedTable?_of_emitToken {bytes : List UInt8}
    (h : (emitToken token).toExcept = .ok bytes) :
    ∃ tag table, taggedTable? tag = some table ∧ token.isIn table = true := by
  cases htag : tableTag? token with
  | none =>
    rw [emitToken, htag] at h
    cases h
  | some tag => exact ⟨tag, tableTag?_eq_some_iff.mp htag⟩

/-- A reference that is written is read. -/
theorem run_compressedToken_of_emitToken {bytes : List UInt8}
    (hemit : (emitToken token).toExcept = .ok bytes) (hpasses : before.Passes bytes after) :
    compressedToken.run before = (.ok token, after) := by
  obtain ⟨tag, table, htable, hin⟩ := exists_taggedTable?_of_emitToken hemit
  rw [emitToken_eq htable hin] at hemit
  have htag := lt_of_taggedTable? htable
  have hvalue : (UInt32.ofNat (token.row.toNat * 4 + tag)).toNat = token.row.toNat * 4 + tag :=
    UInt32.toNat_ofNat_of_lt' (lt_size_of_encode hemit)
  have hmod : (token.row.toNat * 4 + tag) % 4 = tag := by omega
  have hdiv : (token.row.toNat * 4 + tag) / 4 = token.row.toNat := by omega
  refine run_compressedToken_eq_ok_iff.mpr ⟨_, table, run_compressed hemit hpasses, ?_, ?_⟩
  · rw [hvalue, hmod, htable]
  · rw [hvalue, hdiv, Token.toNat_row, ← Token.isIn_iff.mp hin, Nat.div_add_mod,
      UInt32.ofNat_toNat]

/-! ## References whose row does not fit -/

section Referred

variable {value : Nat}

/-- The word of the token that a reference is read as. -/
theorem toNat_referred (hvalue : value < Compressed.limit) (table : TableId) :
    (UInt32.ofNat (Token.rowLimit * table.number + value / 4)).toNat =
      Token.rowLimit * table.number + value / 4 := by
  have hnumber : table.number < 45 := table.number_lt_count
  apply UInt32.toNat_ofNat_of_lt'
  simp only [Compressed.limit, Token.rowLimit, UInt32.size] at *
  omega

/-- The token of a reference is in the chosen table exactly when the row fits. -/
theorem isIn_referred_iff (hvalue : value < Compressed.limit) (table : TableId) :
    (⟨UInt32.ofNat (Token.rowLimit * table.number + value / 4)⟩ : Token).isIn table = true ↔
      value / 4 < Token.rowLimit := by
  rw [Token.isIn_iff, toNat_referred hvalue, Nat.mul_add_div (by decide), Nat.add_eq_left,
    Nat.div_eq_zero_iff_lt (by decide)]

/-- The token of a reference has the encoded row exactly when the row fits. -/
theorem row_referred_iff (hvalue : value < Compressed.limit) (table : TableId) :
    (⟨UInt32.ofNat (Token.rowLimit * table.number + value / 4)⟩ : Token).row.toNat = value / 4 ↔
      value / 4 < Token.rowLimit := by
  rw [Token.toNat_row, toNat_referred hvalue, Nat.mul_add_mod]
  exact Nat.mod_eq_iff_lt (by decide)

/-- The token of a reference is written as the reference was exactly when the row fits: the row of
a token that is written always does. -/
theorem emitToken_referred_iff {table : TableId} (hvalue : value < Compressed.limit)
    (htable : taggedTable? (value % 4) = some table) :
    (emitToken ⟨UInt32.ofNat (Token.rowLimit * table.number + value / 4)⟩).toExcept =
        Compressed.encode value ↔ value / 4 < Token.rowLimit := by
  constructor
  · intro h
    obtain ⟨bytes, hbytes⟩ : ∃ bytes, Compressed.encode value = .ok bytes := by
      cases hencode : Compressed.encode? value with
      | none => exact absurd (Compressed.encode?_eq_none_iff.mp hencode) (Nat.not_le.mpr hvalue)
      | some bytes => exact ⟨bytes, Compressed.encode_eq_ok_iff.mpr hencode⟩
    rw [hbytes] at h
    obtain ⟨tag, other, hother, hin⟩ := exists_taggedTable?_of_emitToken h
    rw [emitToken_eq hother hin] at h
    have hsame := Compressed.encode_inj hbytes h
    have htag := lt_of_taggedTable? hother
    have hrow := Token.toNat_row_lt ⟨UInt32.ofNat (Token.rowLimit * table.number + value / 4)⟩
    omega
  · intro h
    rw [emitToken_eq htable ((isIn_referred_iff hvalue table).mpr h),
      (row_referred_iff hvalue table).mpr h, Nat.mul_comm, Nat.div_add_mod]

end Referred

/-- A reference is read exactly when a compressed integer is whose two low bits choose a table; no
row is refused. The token is in that table, has the encoded row and is written as the same integer,
each exactly when a token has room for the row: what is left over is added to the table. -/
theorem reference_keeps_table_iff (before after : Cursor) (token : Token) :
    compressedToken.run before = (.ok token, after) ↔
      ∃ value table, compressed.run before = (.ok value, after) ∧
        taggedTable? (value.toNat % 4) = some table ∧
        token = ⟨UInt32.ofNat (Token.rowLimit * table.number + value.toNat / 4)⟩ ∧
        (token.isIn table = true ↔ value.toNat / 4 < Token.rowLimit) ∧
        (token.row.toNat = value.toNat / 4 ↔ value.toNat / 4 < Token.rowLimit) ∧
        ((emitToken token).toExcept = Compressed.encode value.toNat ↔
          value.toNat / 4 < Token.rowLimit) := by
  rw [run_compressedToken_eq_ok_iff]
  constructor
  · rintro ⟨value, table, hvalue, htable, rfl⟩
    have hlt := toNat_lt_of_run_compressed hvalue
    exact ⟨value, table, hvalue, htable, rfl, isIn_referred_iff hlt table,
      row_referred_iff hlt table, emitToken_referred_iff hlt htable⟩
  · rintro ⟨value, table, hvalue, htable, htoken, -⟩
    exact ⟨value, table, hvalue, htable, htoken⟩

/-- The reference to row `0x1000000` of the references to types is read as one to the declared
types without a row, and that is written as another reference. -/
theorem oversized_reference_changes_table :
    compressedToken.run ⟨#[0xC4, 0x00, 0x00, 0x01], 0⟩ =
        (.ok ⟨0x02000000⟩, ⟨#[0xC4, 0x00, 0x00, 0x01], 4⟩) ∧
      compressed.run ⟨#[0xC4, 0x00, 0x00, 0x01], 0⟩ =
        (.ok 0x04000001, ⟨#[0xC4, 0x00, 0x00, 0x01], 4⟩) ∧
      taggedTable? (0x04000001 % 4) = some .typeRef ∧
      (⟨0x02000000⟩ : Token).isIn .typeRef = false ∧
      (⟨0x02000000⟩ : Token).row.toNat ≠ 0x04000001 / 4 ∧
      (emitToken ⟨0x02000000⟩).toExcept = .ok [0x00] ∧
      Compressed.encode 0x04000001 = .ok [0xC4, 0x00, 0x00, 0x01] := by
  refine ⟨rfl, rfl, rfl, rfl, by decide, rfl, rfl⟩

end Signature

end CilPatch
