import CilPatch.Proofs.Bytes.Compressed
import CilPatch.Signature.Write

/-!
# How many local variables a signature declares

A local variable signature starts with the count of the variables. One that is extended keeps the
entries of the old signature behind a new count, so it declares the old variables and the added
ones.
-/

namespace CilPatch

namespace Emission

variable {first second : Emission} {bytes : List UInt8}

/-- Two emissions together are faultless when both are. -/
theorem toExcept_append_eq_ok_iff : (first ++ second).toExcept = .ok bytes ↔
    ∃ front back, first.toExcept = .ok front ∧ second.toExcept = .ok back ∧
      bytes = front ++ back := by
  change (append first second).toExcept = _ ↔ _
  rw [toExcept_append, bind_eq_ok_iff]
  constructor
  · rintro ⟨front, hfront, h⟩
    obtain ⟨back, hback, h⟩ := bind_eq_ok_iff.mp h
    exact ⟨front, back, hfront, hback, (Except.ok.inj h).symm⟩
  · rintro ⟨front, back, hfront, hback, rfl⟩
    exact ⟨front, hfront, bind_eq_ok_iff.mpr ⟨back, hback, rfl⟩⟩

/-- What a result emits is the result. -/
theorem toExcept_ofExcept (result : Except Fault (List UInt8)) :
    (ofExcept result).toExcept = result := by
  cases result <;> rfl

end Emission

namespace Signature

/-- What is emitted behind a byte stands behind that byte. -/
theorem emitByte_append_eq_ok_iff {byte : UInt8} {second : Emission} {bytes : List UInt8} :
    (emitByte byte ++ second).toExcept = .ok bytes ↔
      ∃ rest, second.toExcept = .ok rest ∧ bytes = byte :: rest := by
  rw [Emission.toExcept_append_eq_ok_iff]
  constructor
  · rintro ⟨front, rest, hfront, hrest, rfl⟩
    obtain rfl := Except.ok.inj hfront
    exact ⟨rest, hrest, rfl⟩
  · rintro ⟨rest, hrest, rfl⟩
    exact ⟨[byte], rest, rfl, hrest, rfl⟩

/-- How many variables a local signature declares, if there is one. -/
def declared : Option Bytes → Except Fault Nat
  | none => .ok 0
  | some signature => do return (← Cursor.parse readLocalsHead signature).toNat

/-- The head of a local signature that was written is read. -/
theorem run_readLocalsHead {before after : Cursor} {count : Nat} {head : List UInt8}
    (hhead : Compressed.encode count = .ok head)
    (hpasses : before.Passes (Element.localsHead :: head) after) :
    readLocalsHead.run before = (.ok (UInt32.ofNat count), after) := by
  obtain ⟨middle, hfirst, hcount⟩ := Cursor.passes_cons_iff.mp hpasses
  exact run_bind_eq_ok_iff.mpr ⟨_, middle, hfirst,
    run_check_eq_ok_iff.mpr ⟨by decide, Read.run_compressed hhead hcount⟩⟩

/-- A number that can be compressed fits a word. -/
theorem lt_size_of_encode {value : Nat} {bytes : List UInt8}
    (h : Compressed.encode value = .ok bytes) : value < UInt32.size := by
  have hsome := Compressed.encode_eq_ok_iff.mp h
  have hlt : value < Compressed.limit := by
    by_contra hle
    rw [Compressed.encode?_eq_none_iff.mpr (Nat.not_lt.mp hle)] at hsome
    cases hsome
  exact Nat.lt_trans hlt (by decide)

/-- How many variables an old signature declares, if there is one, and its entries. -/
inductive Opened : Option Bytes → Nat → List UInt8 → Prop
  /-- There is no old signature. -/
  | none : Opened none 0 []
  /-- The entries stand behind the head. -/
  | some {blob : Bytes} {head : UInt32} {after : Cursor}
      (h : readLocalsHead.run ⟨blob, 0⟩ = (.ok head, after)) :
      Opened (some blob) head.toNat after.rest

/-- An extended signature has a new count in front of the old entries and the added types. -/
theorem exists_opened_of_extendLocals {old : Option Bytes} {added : List TypeSig}
    {signature : List UInt8} (h : extendLocals old added = .ok signature) :
    ∃ count entries head types, Opened old count entries ∧
      Compressed.encode (count + added.length) = .ok head ∧
      (emitTypes added).toExcept = .ok types ∧
      signature = Element.localsHead :: (head ++ (entries ++ types)) := by
  have hextend : ∃ count entries, Opened old count entries ∧ (emitByte Element.localsHead ++
      (emitCompressed (count + added.length) ++ (.ofBytes entries ++ emitTypes added))).toExcept =
        .ok signature := by
    unfold extendLocals at h
    cases old with
    | none =>
      obtain ⟨_, hnone, h⟩ := bind_eq_ok_iff.mp h
      obtain rfl := Except.ok.inj hnone
      exact ⟨0, [], .none, (check_eq_ok_iff.mp h).2⟩
    | some blob =>
      rcases hrun : readLocalsHead.run ⟨blob, 0⟩ with ⟨⟨fault⟩ | ⟨head⟩, after⟩
      · simp only [hrun] at h
        cases h
      · simp only [hrun] at h
        obtain ⟨_, hsome, h⟩ := bind_eq_ok_iff.mp h
        obtain rfl := Except.ok.inj hsome
        obtain ⟨_, hpair, h⟩ := bind_eq_ok_iff.mp h
        obtain rfl := Except.ok.inj hpair
        exact ⟨head.toNat, after.rest, .some hrun, (check_eq_ok_iff.mp h).2⟩
  obtain ⟨count, entries, hopened, hemit⟩ := hextend
  obtain ⟨lead, rest, hlead, hrest, rfl⟩ := Emission.toExcept_append_eq_ok_iff.mp hemit
  obtain ⟨head, tail, hhead, htail, rfl⟩ := Emission.toExcept_append_eq_ok_iff.mp hrest
  obtain ⟨kept, types, hkept, htypes, rfl⟩ := Emission.toExcept_append_eq_ok_iff.mp htail
  obtain rfl := Except.ok.inj hlead
  obtain rfl := Except.ok.inj hkept
  rw [emitCompressed, Emission.toExcept_ofExcept] at hhead
  exact ⟨count, entries, head, types, hopened, hhead, htypes, rfl⟩

end Signature

end CilPatch
