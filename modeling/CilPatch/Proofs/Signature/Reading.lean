import CilPatch.Proofs.Bytes.Forward
import CilPatch.Signature.Read

/-!
# How signatures are read

What is read of a signature depends on the bytes that are passed and on nothing behind them, and
a type that is read within some levels is read alike within more.
-/

namespace CilPatch

namespace Signature

open Read

variable {before after cursor : Cursor}

/-! ## Modifiers and marks -/

/-- Where no modifier stands, none is read. -/
theorem run_readModifiersWithin_of_none (fuel : Nat)
    (h : ∀ byte, cursor.rest.head? = some byte → Element.isModifier byte = false) :
    (readModifiersWithin fuel).run cursor = (.ok [], cursor) := by
  cases fuel with
  | zero => rfl
  | succ fuel =>
    rw [readModifiersWithin, step_bind, step_get]
    simp only
    cases hhead : cursor.rest.head? with
    | none =>
      rw [Cursor.hasMore_eq_false_iff.mpr hhead]
      rfl
    | some byte =>
      rw [Cursor.hasMore_of_head? hhead]
      simp only [Bool.not_true, Bool.false_eq_true, if_false]
      rw [step_bind, run_peek_eq_ok_iff.mpr ⟨hhead, rfl⟩]
      simp only [h byte hhead, Bool.not_false, if_true]
      rfl

/-- Where a modifier stands, it is read and then the others. -/
theorem run_readModifiersWithin_of_modifier (fuel : Nat) {byte : UInt8} {middle : Cursor}
    (hbyte : Element.isModifier byte = true) (hpasses : cursor.Passes [byte] middle) :
    (readModifiersWithin (fuel + 1)).run cursor =
      (do
        let token ← compressedToken
        let rest ← readModifiersWithin fuel
        return token :: rest : Read (List Token)).run middle := by
  have hhead : cursor.rest.head? = some byte := hpasses.head?
  rw [readModifiersWithin, step_bind, step_get]
  simp only [Cursor.hasMore_of_head? hhead, Bool.not_true, Bool.false_eq_true, if_false]
  rw [step_bind, run_peek_eq_ok_iff.mpr ⟨hhead, rfl⟩]
  simp only [hbyte, Bool.not_true, Bool.false_eq_true, if_false]
  rw [step_bind, run_skip_one hpasses]

/-- The loop over modifiers takes those that stand in front. -/
theorem scans_readModifiersWithin : Scans (fun fuel (_ : Unit) => readModifiersWithin fuel)
    Element.isModifier (fun _ => compressedToken) (fun _ _ => ()) List.cons (fun _ => []) where
  forward _ := takes_compressedToken.forward
  stop fuel _ _ h := run_readModifiersWithin_of_none fuel h
  take fuel _ _ _ _ h hpasses := run_readModifiersWithin_of_modifier fuel h hpasses

/-- Reading modifiers looks at the byte behind them. -/
theorem peeks_readModifiers : Peeks readModifiers := by
  intro before after tokens hbounded hrun
  have hopen (cursor : Cursor) : readModifiers.run cursor =
      (readModifiersWithin cursor.rest.length).run cursor := by
    rw [Cursor.length_rest]
    rfl
  rw [hopen] at hrun
  obtain ⟨bytes, hpasses, hsame⟩ :=
    scans_readModifiersWithin.exists_passes () hbounded (Nat.le_refl _) hrun
  refine ⟨bytes, hpasses, fun other last hother hhead => ?_⟩
  rw [hopen]
  exact hsame _ hother hhead (Nat.le_refl _)

/-- Reading a mark looks at the byte where it would stand. -/
theorem peeks_readMark (mark : UInt8) : Peeks (readMark mark) := by
  refine peeks_peek.bind fun byte => ?_
  split
  · exact (takes_skip_one.forward.bind fun _ => forward_pure _).peeks
  · exact (forward_pure _).peeks

/-! ## Types -/

section Levels

variable {type larger : Read TypeSig}

/-- A parameter takes the bytes of its type. -/
theorem takes_readParameter (h : Takes type) : Takes (readParameter type) :=
  peeks_readModifiers.takes fun _ => (peeks_readMark _).takes fun _ =>
    h.bind fun _ => forward_pure _

/-- A method signature reads forward. -/
theorem forward_readMethodOver (h : Takes type) : Forward (readMethodOver type) := by
  have hparameter : Takes (do
      let _ ← readMark Element.sentinel
      readParameter type) := (peeks_readMark _).takes fun _ => takes_readParameter h
  have hrest (convention : UInt8) (generics : UInt32) : Forward (do
      let count ← Read.compressed
      let ret ← readParameter type
      let params ← Read.many (do
        let _ ← readMark Element.sentinel
        readParameter type) count.toNat
      return ({
        hasThis := convention &&& 0x20 != 0
        explicitThis := convention &&& 0x40 != 0
        generics, ret, params } : MethodSig)) :=
    takes_compressed.forward.bind fun count => (takes_readParameter h).forward.bind fun ret =>
      (hparameter.forward.many count.toNat).bind fun params => forward_pure _
  refine takes_u8.forward.bind fun convention => ?_
  dsimp only
  split
  · exact takes_compressed.forward.bind fun generics => hrest convention generics
  · exact (forward_pure _).bind fun generics => hrest convention generics

/-- A level of a type that has parts reads forward. -/
theorem forward_readParts (h : Takes type) (byte : UInt8) : Forward (readParts type byte) := by
  have hskip (wrap : TypeSig → TypeSig) : Forward (do
      let _ ← readModifiers
      return wrap (← type)) :=
    (peeks_readModifiers.takes fun _ => h.bind fun _ => forward_pure _).forward
  have hwrap (wrap : TypeSig → TypeSig) : Forward (do return wrap (← type)) :=
    h.forward.bind fun _ => forward_pure _
  have hindex (wrap : UInt32 → TypeSig) : Forward (do return wrap (← Read.compressed)) :=
    takes_compressed.forward.bind fun _ => forward_pure _
  have htoken (wrap : Token → TypeSig) : Forward (do return wrap (← Read.compressedToken)) :=
    takes_compressedToken.forward.bind fun _ => forward_pure _
  have harray : Forward (do
      let base ← type
      let rank ← Read.compressed
      let sizes ← Read.compressed
      let _ ← Read.many Read.compressed sizes.toNat
      let bounds ← Read.compressed
      let _ ← Read.many Read.compressed bounds.toNat
      return TypeSig.array base rank) :=
    h.forward.bind fun base => takes_compressed.forward.bind fun rank =>
      takes_compressed.forward.bind fun sizes =>
        (takes_compressed.forward.many sizes.toNat).bind fun _ =>
          takes_compressed.forward.bind fun bounds =>
            (takes_compressed.forward.many bounds.toNat).bind fun _ => forward_pure _
  have hgeneric : Takes (do
      let base ← type
      let count ← Read.compressed
      return TypeSig.genericInst base (← Read.many type count.toNat)) :=
    h.bind fun base => takes_compressed.forward.bind fun count =>
      (h.forward.many count.toNat).bind fun _ => forward_pure _
  have hinst : Forward (do
      let next ← Read.peek
      if next != Element.classType && next != Element.valueType then
        throw (.malformed (.genericBase next))
      let base ← type
      let count ← Read.compressed
      return TypeSig.genericInst base (← Read.many type count.toNat)) := by
    refine (peeks_peek.takes fun next => ?_).forward
    dsimp only
    split
    · exact (takes_throw _).bind fun _ => hgeneric.forward
    · exact hgeneric
  have hmodified : Forward (do
      let _ ← Read.compressedToken
      let _ ← readModifiers
      type) :=
    takes_compressedToken.forward.bind fun _ => (peeks_readModifiers.takes fun _ => h).forward
  exact .ite (hskip .ptr) (.ite (hwrap .byRef) (.ite (htoken .valueType) (.ite (htoken .classType)
    (.ite (hindex .typeParam) (.ite harray (.ite hinst
      (.ite ((forward_readMethodOver h).bind fun _ => forward_pure _) (.ite (hskip .szArray)
        (.ite (hindex .methodParam) (.ite (hwrap .pinned)
          (.ite hmodified (takes_throw _).forward)))))))))))

/-- A level of a type takes its first byte. -/
theorem takes_readLevel (h : Takes type) : Takes (readLevel type) := by
  refine takes_u8.bind fun byte => ?_
  split
  · exact forward_pure _
  · exact forward_readParts h byte

end Levels

/-- A type of some levels takes its bytes. -/
theorem takes_readTypeWithin (levels : Nat) : Takes (readTypeWithin levels) := by
  induction levels with
  | zero => exact takes_throw _
  | succ levels ih => exact takes_readLevel ih

/-- A type takes its bytes. -/
theorem takes_readType : Takes readType := takes_readTypeWithin _

/-! ## Levels -/

section Levels

variable {type larger : Read TypeSig}

/-- A parameter is read when its type is. -/
theorem within_readParameter (h : Within type larger) :
    Within (readParameter type) (readParameter larger) :=
  (Within.refl _).bind fun _ => (Within.refl _).bind fun _ => h.bind fun _ => .refl _

/-- A method signature is read when its types are. -/
theorem within_readMethodOver (h : Within type larger) :
    Within (readMethodOver type) (readMethodOver larger) := by
  have hrest (convention : UInt8) (generics : UInt32) : Within
      (do
        let count ← Read.compressed
        let ret ← readParameter type
        let params ← Read.many (do
          let _ ← readMark Element.sentinel
          readParameter type) count.toNat
        return ({
          hasThis := convention &&& 0x20 != 0
          explicitThis := convention &&& 0x40 != 0
          generics, ret, params } : MethodSig))
      (do
        let count ← Read.compressed
        let ret ← readParameter larger
        let params ← Read.many (do
          let _ ← readMark Element.sentinel
          readParameter larger) count.toNat
        return ({
          hasThis := convention &&& 0x20 != 0
          explicitThis := convention &&& 0x40 != 0
          generics, ret, params } : MethodSig)) :=
    (Within.refl _).bind fun count => (within_readParameter h).bind fun ret =>
      (Within.many ((Within.refl _).bind fun _ => within_readParameter h) count.toNat).bind
        fun params => .refl _
  refine (Within.refl _).bind fun convention => ?_
  exact .ite ((Within.refl _).bind fun generics => hrest convention generics)
    ((Within.refl _).bind fun generics => hrest convention generics)

/-- A level of a type that has parts is read when the parts are. -/
theorem within_readParts (h : Within type larger) (byte : UInt8) :
    Within (readParts type byte) (readParts larger byte) := by
  have hwrap (wrap : TypeSig → TypeSig) :
      Within (do return wrap (← type)) (do return wrap (← larger)) := h.bind fun _ => .refl _
  have hskip (wrap : TypeSig → TypeSig) : Within
      (do
        let _ ← readModifiers
        return wrap (← type))
      (do
        let _ ← readModifiers
        return wrap (← larger)) := (Within.refl _).bind fun _ => hwrap wrap
  have hgeneric : Within
      (do
        let base ← type
        let count ← Read.compressed
        return TypeSig.genericInst base (← Read.many type count.toNat))
      (do
        let base ← larger
        let count ← Read.compressed
        return TypeSig.genericInst base (← Read.many larger count.toNat)) :=
    h.bind fun base => (Within.refl _).bind fun count => (h.many count.toNat).bind fun _ => .refl _
  exact .ite (hskip .ptr) (.ite (hwrap .byRef) (.ite (.refl _) (.ite (.refl _) (.ite (.refl _)
    (.ite (h.bind fun base => .refl _)
      (.ite ((Within.refl _).bind fun next => .ite ((Within.refl _).bind fun _ => hgeneric) hgeneric)
        (.ite ((within_readMethodOver h).bind fun _ => .refl _) (.ite (hskip .szArray)
          (.ite (.refl _) (.ite (hwrap .pinned)
            (.ite ((Within.refl _).bind fun _ => (Within.refl _).bind fun _ => h)
              (.refl _))))))))))))

/-- A level of a type is read when its parts are. -/
theorem within_readLevel (h : Within type larger) : Within (readLevel type) (readLevel larger) := by
  refine (Within.refl _).bind fun byte => ?_
  split
  · exact .refl _
  · exact within_readParts h byte

end Levels

/-- A type that is read within some levels is read within more. -/
theorem within_readTypeWithin {levels more : Nat} (h : levels ≤ more) :
    Within (readTypeWithin levels) (readTypeWithin more) := by
  induction levels generalizing more with
  | zero => exact fun _ _ _ hrun => by cases hrun
  | succ levels ih =>
    obtain ⟨rest, rfl⟩ := Nat.exists_eq_add_of_lt h
    exact within_readLevel (ih (by omega))

end Signature

end CilPatch
