import CilPatch.Proofs.Signature.RoundTrip

/-!
# Extended signatures

A local variable signature that is extended keeps its entries, and they are read as before. The
types behind them are read as they were written, where the outer layers that pin a type or pass it
by reference become marks of the variable.
-/

namespace CilPatch

/-- The type of a local variable as it is read: the outer layers that pin it or pass it by
reference are marks of the variable. -/
def TypeSig.localSig : TypeSig → LocalSig
  | pinned base => { base.localSig with isPinned := true }
  | byRef base => { base.localSig with isByRef := true }
  | type => { type }

/-- Whether a type is read as it is written. -/
def TypeSig.RoundTrips (type : TypeSig) : Prop :=
  ∃ bytes, (Signature.emitType type).toExcept = .ok bytes ∧
    Signature.readType.run ⟨bytes.toArray, 0⟩ = (.ok type, ⟨bytes.toArray, bytes.length⟩)

namespace Signature

open Read

variable {before after cursor middle : Cursor}

/-! ## Marks of a local variable -/

/-- Whether a byte is, or begins, a mark in front of the type of a local variable. -/
def isMark (byte : UInt8) : Bool :=
  Element.isModifier byte || byte == Element.pinned || byte == Element.byRef

/-- What belongs to a mark besides its first byte. -/
def readMarkRest (byte : UInt8) : Read Unit :=
  if Element.isModifier byte then (fun _ => ()) <$> compressedToken else pure ()

/-- The rest of a mark reads forward. -/
theorem forward_readMarkRest (byte : UInt8) : Forward (readMarkRest byte) := by
  refine .ite ?_ (forward_pure _)
  rw [← bind_pure_comp]
  exact takes_compressedToken.forward.bind fun _ => forward_pure _

/-- Where no mark stands, none is read. -/
theorem run_readLocalMarks_of_none (fuel : Nat) (isByRef isPinned : Bool)
    (h : ∀ byte, cursor.rest.head? = some byte → isMark byte = false) :
    (readLocalMarks fuel isByRef isPinned).run cursor = (.ok (isByRef, isPinned), cursor) := by
  cases fuel with
  | zero => rfl
  | succ fuel =>
    rw [readLocalMarks, step_bind, step_get]
    simp only
    cases hhead : cursor.rest.head? with
    | none =>
      rw [Cursor.hasMore_eq_false_iff.mpr hhead]
      rfl
    | some byte =>
      have hmark := h byte hhead
      simp only [isMark, Bool.or_eq_false_iff, beq_eq_false_iff_ne] at hmark
      obtain ⟨⟨hmodifier, hpinned⟩, hbyRef⟩ := hmark
      rw [Cursor.hasMore_of_head? hhead]
      simp only [Bool.not_true, Bool.false_eq_true, if_false]
      rw [step_bind, run_peek_eq_ok_iff.mpr ⟨hhead, rfl⟩]
      simp only [hmodifier, hpinned, hbyRef, Bool.false_eq_true, if_false]
      rfl

/-- Where a mark stands, it is read and then the others. -/
theorem run_readLocalMarks_of_mark (fuel : Nat) (isByRef isPinned : Bool) {byte : UInt8}
    (hmark : isMark byte = true) (hpasses : cursor.Passes [byte] middle) :
    (readLocalMarks (fuel + 1) isByRef isPinned).run cursor =
      (do
        let _ ← readMarkRest byte
        readLocalMarks fuel (isByRef || byte == Element.byRef)
          (isPinned || byte == Element.pinned)).run middle := by
  have hhead : cursor.rest.head? = some byte := hpasses.head?
  rw [readLocalMarks, step_bind, step_get]
  simp only [Cursor.hasMore_of_head? hhead, Bool.not_true, Bool.false_eq_true, if_false]
  rw [step_bind, run_peek_eq_ok_iff.mpr ⟨hhead, rfl⟩]
  simp only
  by_cases hmodifier : Element.isModifier byte = true
  · have hother : (byte == Element.byRef) = false ∧ (byte == Element.pinned) = false := by
      simp only [Element.isModifier, Bool.or_eq_true, beq_iff_eq] at hmodifier
      rcases hmodifier with rfl | rfl <;> exact ⟨rfl, rfl⟩
    simp only [hmodifier, readMarkRest, if_true, hother.1, hother.2, Bool.or_false]
    rw [step_bind, run_skip_one hpasses]
    simp only [step_bind, step_map]
    cases compressedToken.run middle with
    | mk result last => cases result <;> rfl
  · have hone : byte = Element.pinned ∨ byte = Element.byRef := by
      simpa [isMark, hmodifier] using hmark
    simp only [hmodifier, readMarkRest, Bool.false_eq_true, if_false]
    rcases hone with rfl | rfl
    · rw [if_pos rfl, step_bind, run_skip_one hpasses, step_bind, step_pure]
      simp only [beq_self_eq_true, Bool.or_true, show (Element.pinned == Element.byRef) = false
        from rfl, Bool.or_false]
    · rw [if_neg (by decide), if_pos rfl, step_bind, run_skip_one hpasses, step_bind, step_pure]
      simp only [beq_self_eq_true, Bool.or_true, show (Element.byRef == Element.pinned) = false
        from rfl, Bool.or_false]

/-- The loop over marks takes those that stand in front. -/
theorem scans_readLocalMarks :
    Scans (fun fuel (marks : Bool × Bool) => readLocalMarks fuel marks.1 marks.2) isMark
      readMarkRest (fun marks byte => (marks.1 || byte == Element.byRef,
        marks.2 || byte == Element.pinned)) (fun _ rest => rest) id where
  forward := forward_readMarkRest
  stop fuel marks _ h := run_readLocalMarks_of_none fuel marks.1 marks.2 h
  take fuel marks _ _ _ h hpasses := by
    simp only [bind_pure]
    exact run_readLocalMarks_of_mark fuel marks.1 marks.2 h hpasses

/-! ## Local variables -/

/-- A mark that stands at a cursor is read. -/
theorem run_readMark_of_passes {mark : UInt8} (h : before.Passes [mark] after) :
    (readMark mark).run before = (.ok true, after) := by
  have hhead : before.rest.head? = some mark := h.head?
  rw [readMark, step_bind, run_peek_eq_ok_iff.mpr ⟨hhead, rfl⟩]
  simp only [if_true]
  rw [step_bind, run_skip_one h]
  rfl

/-- A mark that does not stand at a cursor is not read. -/
theorem run_readMark_of_head? {mark byte : UInt8} (hhead : before.rest.head? = some byte)
    (hne : byte ≠ mark) : (readMark mark).run before = (.ok false, before) := by
  rw [readMark, step_bind, run_peek_eq_ok_iff.mpr ⟨hhead, rfl⟩]
  simp only [hne, if_false]
  rfl

/-- A local variable that does not begin with the byte of a reference with its type is read as its
marks and its type. -/
theorem run_readLocal_of_head? {byte : UInt8} (hhead : cursor.rest.head? = some byte)
    (hne : byte ≠ Element.typedByRef) : readLocal.run cursor =
      (do
        let marks ← readLocalMarks cursor.rest.length false false
        return { isByRef := marks.1, isPinned := marks.2, type := ← readType } : Read LocalSig).run
        cursor := by
  rw [readLocal, step_bind, run_readMark_of_head? hhead hne, Cursor.length_rest]
  simp only [Bool.false_eq_true, if_false]
  rfl

/-- A local variable takes its bytes. -/
theorem takes_readLocal : Takes readLocal := by
  intro before after value hbounded hrun
  obtain ⟨byte, hhead⟩ : ∃ byte, before.rest.head? = some byte := by
    obtain ⟨_, _, hmark, -⟩ := run_bind_eq_ok_iff.mp hrun
    obtain ⟨byte, _, hpeek, -⟩ := run_bind_eq_ok_iff.mp hmark
    exact ⟨byte, (run_peek_eq_ok_iff.mp hpeek).1⟩
  by_cases hbyte : byte = Element.typedByRef
  · subst hbyte
    obtain ⟨middle, hpasses⟩ := Cursor.exists_passes_of_head? hhead
    have hread {first second : Cursor} (h : first.Passes [Element.typedByRef] second) :
        readLocal.run first = (.ok { type := .typedByRef }, second) := by
      rw [readLocal, step_bind, run_readMark_of_passes h]
      rfl
    obtain ⟨hvalue, rfl⟩ := Prod.mk.inj ((hread hpasses).symm.trans hrun)
    obtain rfl := Except.ok.inj hvalue
    exact ⟨_, by simp, hpasses, fun _ _ hother => hread hother⟩
  · rw [run_readLocal_of_head? hhead hbyte] at hrun
    obtain ⟨marks, middle, hmarks, hrun⟩ := run_bind_eq_ok_iff.mp hrun
    obtain ⟨type, last, htype, hrun⟩ := run_bind_eq_ok_iff.mp hrun
    obtain ⟨hvalue, rfl⟩ := Prod.mk.inj hrun
    obtain rfl := Except.ok.inj hvalue
    obtain ⟨front, hfront, hsame⟩ :=
      scans_readLocalMarks.exists_passes (false, false) hbounded (Nat.le_refl _) hmarks
    obtain ⟨back, hne, hback, hsame'⟩ := takes_readType hfront.bounded htype
    obtain ⟨lead, rest, rfl⟩ := List.exists_cons_of_ne_nil hne
    refine ⟨front ++ lead :: rest, by simp,
      Cursor.passes_append_iff.mpr ⟨middle, hfront, hback⟩, ?_⟩
    intro other final hother
    obtain ⟨between, hleft, hright⟩ := Cursor.passes_append_iff.mp hother
    have hnext : between.rest.head? = middle.rest.head? := by
      rw [hright.head?, hback.head?]
      rfl
    have hlead : other.rest.head? = some byte := by
      rw [hleft.head?, hnext, ← hfront.head?, hhead]
    rw [run_readLocal_of_head? hlead hbyte]
    refine run_bind_eq_ok_iff.mpr ⟨marks, between, hsame _ hleft hnext (Nat.le_refl _), ?_⟩
    exact run_bind_eq_ok_iff.mpr ⟨type, final, hsame' hright, rfl⟩

/-! ## Written types -/

/-- How a written type begins: with a layer that is a mark, or with a byte that is none. -/
inductive Begins : TypeSig → List UInt8 → Prop
  /-- The outer layer pins the type. -/
  | pinned {base : TypeSig} {rest : List UInt8} (hrest : (emitType base).toExcept = .ok rest) :
      Begins (.pinned base) (Element.pinned :: rest)
  /-- The outer layer passes the type by reference. -/
  | byRef {base : TypeSig} {rest : List UInt8} (hrest : (emitType base).toExcept = .ok rest) :
      Begins (.byRef base) (Element.byRef :: rest)
  /-- The outer layer is no mark. -/
  | plain {type : TypeSig} {byte : UInt8} {rest : List UInt8} (hlocal : type.localSig = { type })
      (hbyte : isMark byte = false) (href : byte = Element.typedByRef → type = .typedByRef) :
      Begins type (byte :: rest)

/-- A type that is written begins in one of these ways. -/
theorem begins_of_emitType {type : TypeSig} {bytes : List UInt8}
    (h : (emitType type).toExcept = .ok bytes) : Begins type bytes := by
  cases type with
  | pinned base =>
    obtain ⟨rest, hrest, rfl⟩ := emitByte_append_eq_ok_iff.mp h
    exact .pinned hrest
  | byRef base =>
    obtain ⟨rest, hrest, rfl⟩ := emitByte_append_eq_ok_iff.mp h
    exact .byRef hrest
  | ptr | szArray | array | classType | valueType | typeParam | methodParam | genericInst =>
    obtain ⟨rest, -, rfl⟩ := emitByte_append_eq_ok_iff.mp h
    exact .plain rfl rfl nofun
  | unknown | fnPtr => cases h
  | _ =>
    obtain rfl := Except.ok.inj h
    exact .plain rfl rfl (by first | exact fun _ => rfl | exact nofun)

/-- The outer layers of a written type are read as marks, and what is within them is written
behind them. -/
theorem exists_readLocalMarks_of_emitType {type : TypeSig} {bytes : List UInt8}
    (hemit : (emitType type).toExcept = .ok bytes) (hpasses : before.Passes bytes after)
    {fuel : Nat} (hfuel : bytes.length ≤ fuel) (isByRef isPinned : Bool) :
    ∃ core middle, (emitType type.localSig.type).toExcept = .ok core ∧ middle.Passes core after ∧
      (readLocalMarks fuel isByRef isPinned).run before =
        (.ok (isByRef || type.localSig.isByRef, isPinned || type.localSig.isPinned), middle) := by
  induction fuel generalizing type bytes before isByRef isPinned with
  | zero => cases begins_of_emitType hemit <;> cases hfuel
  | succ fuel ih =>
    -- a mark in front is read, and then those of what it stands in front of
    have hmark {base : TypeSig} {byte : UInt8} {rest : List UInt8}
        (hrest : (emitType base).toExcept = .ok rest) (hbyte : readMarkRest byte = pure ())
        (hismark : isMark byte = true) (hsplit : before.Passes (byte :: rest) after)
        (hroom : (byte :: rest).length ≤ fuel + 1) :
        ∃ core middle, (emitType base.localSig.type).toExcept = .ok core ∧
          middle.Passes core after ∧ (readLocalMarks (fuel + 1) isByRef isPinned).run before =
            (.ok (isByRef || byte == Element.byRef || base.localSig.isByRef,
              isPinned || byte == Element.pinned || base.localSig.isPinned), middle) := by
      obtain ⟨first, hfirst, hsecond⟩ :=
        Cursor.passes_append_iff.mp (show before.Passes ([byte] ++ rest) after from hsplit)
      rw [run_readLocalMarks_of_mark fuel _ _ hismark hfirst, hbyte]
      exact ih hrest hsecond (Nat.le_of_succ_le_succ hroom) _ _
    cases begins_of_emitType hemit with
    | pinned hrest =>
      obtain ⟨core, middle, hcore, hmiddle, hmarks⟩ := hmark hrest rfl rfl hpasses hfuel
      refine ⟨core, middle, hcore, hmiddle, hmarks.trans ?_⟩
      simp [TypeSig.localSig, show (Element.pinned == Element.byRef) = false from rfl]
    | byRef hrest =>
      obtain ⟨core, middle, hcore, hmiddle, hmarks⟩ := hmark hrest rfl rfl hpasses hfuel
      refine ⟨core, middle, hcore, hmiddle, hmarks.trans ?_⟩
      simp [TypeSig.localSig, show (Element.byRef == Element.pinned) = false from rfl]
    | @plain _ byte rest hlocal hbyte _ =>
      rw [hlocal, Bool.or_false, Bool.or_false]
      refine ⟨_, before, hemit, hpasses, run_readLocalMarks_of_none _ _ _ fun found hfound => ?_⟩
      rw [hpasses.head?] at hfound
      rw [← Option.some.inj hfound]
      exact hbyte

/-- A local variable whose type is written is read as its marks and what is within them when that
fits the levels of the reader, and is refused otherwise. -/
theorem decides_readLocal :
    DecidesTypes readLocal (fun type => type.localSig.type.Fits (depthLimit - 1))
      TypeSig.localSig := by
  intro type bytes before after hemit hpasses
  obtain ⟨byte, rest, rfl, href⟩ : ∃ byte rest, bytes = byte :: rest ∧
      (byte = Element.typedByRef → type = .typedByRef) := by
    cases begins_of_emitType hemit with
    | pinned => exact ⟨_, _, rfl, fun hsame => absurd hsame (by decide)⟩
    | byRef => exact ⟨_, _, rfl, fun hsame => absurd hsame (by decide)⟩
    | plain _ _ href => exact ⟨_, _, rfl, href⟩
  by_cases hbyte : byte = Element.typedByRef
  · obtain rfl := href hbyte
    obtain rfl : [] = rest := (List.cons.inj (Except.ok.inj hemit)).2
    subst hbyte
    refine Decides.congr ?_ (TypeSig.fits_succ_iff_of_leaf rfl rfl)
    exact Decides.behind (run_readMark_of_passes hpasses) (decides_of_run rfl)
  · have hroom : (byte :: rest).length ≤ before.rest.length := by
      rw [hpasses.length_rest]
      omega
    obtain ⟨core, middle, hcore, hmiddle, hmarks⟩ :=
      exists_readLocalMarks_of_emitType hemit hpasses hroom false false
    refine Decides.of_run_eq ?_ (run_readLocal_of_head? hpasses.head? hbyte)
    refine Decides.behind hmarks ?_
    rw [Bool.false_or, Bool.false_or]
    exact (decides_readTypeWithin _ hcore hmiddle).wrap
      (LocalSig.mk type.localSig.isByRef type.localSig.isPinned)

/-! ## Whole signatures -/

/-- Whether a local variable signature, if there is one, declares some variables and holds nothing
else. -/
def Lists (signature : Option Bytes) (locals : List LocalSig) : Prop :=
  match signature with
  | none => locals = []
  | some blob => ∃ after, readLocals.run ⟨blob, 0⟩ = (.ok locals, after) ∧ after.rest = []

/-- The head of a local signature takes its bytes. -/
theorem takes_readLocalsHead : Takes readLocalsHead := by
  refine takes_u8.bind fun head => ?_
  dsimp only
  split
  · exact ((takes_throw _).bind fun _ => takes_compressed.forward).forward
  · exact takes_compressed.forward

/-- The entries of an old signature are read wherever they stand. -/
theorem Opened.run_entries {old : Option Bytes} {count : Nat} {entries : List UInt8}
    {locals : List LocalSig} (h : Opened old count entries) (hold : Lists old locals)
    (hpasses : before.Passes entries after) :
    (Read.many readLocal count).run before = (.ok locals, after) := by
  cases h with
  | none =>
    obtain rfl : locals = [] := hold
    rw [(Cursor.passes_nil_iff hpasses.bounded_before).mp hpasses]
    rfl
  | @some blob head first hhead =>
    obtain ⟨last, hread, hend⟩ := hold
    obtain ⟨_, -, hfirst, -⟩ := takes_readLocalsHead (Nat.zero_le _) hhead
    obtain ⟨count, middle, hcount, hmany⟩ := run_bind_eq_ok_iff.mp hread
    obtain ⟨hsame, rfl⟩ := Prod.mk.inj (hhead.symm.trans hcount)
    obtain rfl := Except.ok.inj hsame
    obtain ⟨bytes, hbytes, hagain⟩ :=
      takes_readLocal.forward.many head.toNat hfirst.bounded hmany
    have hall : bytes = first.rest := by
      rw [hbytes.rest, hend, List.append_nil]
    exact hagain (hall ▸ hpasses)

/-- An extended signature declares the old variables and behind them the added ones when what is
within the marks of each added one fits the levels of the reader, and is refused otherwise. -/
theorem exists_decides_readLocals_of_extendLocals {old : Option Bytes} {locals : List LocalSig}
    {added : List TypeSig} {signature : List UInt8} (hold : Lists old locals)
    (h : extendLocals old added = .ok signature) :
    ∃ after, after.rest = [] ∧ Decides readLocals ⟨signature.toArray, 0⟩
      (∀ type ∈ added, type.localSig.type.Fits (depthLimit - 1))
      (locals ++ added.map TypeSig.localSig) after := by
  obtain ⟨count, entries, head, types, hopened, hhead, hemit, rfl⟩ :=
    exists_opened_of_extendLocals h
  have hall := @Cursor.passes_of_rest
    ⟨((Element.localsHead :: head) ++ (entries ++ types)).toArray, 0⟩
    ((Element.localsHead :: head) ++ (entries ++ types)) [] (by simp [Cursor.rest]) (Nat.zero_le _)
  obtain ⟨first, hfirst, hrest⟩ := Cursor.passes_append_iff.mp hall
  obtain ⟨second, hsecond, hthird⟩ := Cursor.passes_append_iff.mp hrest
  have hcount : (UInt32.ofNat (count + added.length)).toNat = count + added.length :=
    UInt32.toNat_ofNat_of_lt' (lt_size_of_encode hhead)
  refine ⟨_, hall.rest_eq (by simp [Cursor.rest]), ?_⟩
  refine Decides.behind (run_readLocalsHead hhead hfirst) ?_
  rw [hcount, many_add]
  exact Decides.behind (hopened.run_entries hold hsecond)
    ((decides_readLocal.many hemit hthird).wrap (locals ++ ·))

/-- What is within the marks of a type fits where the type does. -/
theorem fits_localSig {levels : Nat} {type : TypeSig} (h : type.Fits levels) :
    type.localSig.type.Fits levels := by
  induction levels generalizing type with
  | zero => exact h.elim
  | succ levels ih =>
    cases type with
    | pinned base | byRef base =>
      have hbase : base.Fits levels := (TypeSig.fits_succ_iff_of_part rfl rfl).mp h
      exact (ih hbase).mono (Nat.le_succ _)
    | _ => exact h

/-- A type that is read as it is written fits the levels of the reader. -/
theorem fits_of_roundTrips {type : TypeSig} (h : type.RoundTrips) : type.Fits (depthLimit - 1) := by
  obtain ⟨bytes, hemit, hread⟩ := h
  have hpasses := @Cursor.passes_of_rest ⟨bytes.toArray, 0⟩ bytes [] (by simp [Cursor.rest])
    (Nat.zero_le _)
  by_contra hdeep
  obtain ⟨fault, last, hrefused⟩ := (decides_readTypeWithin _ hemit hpasses).refuses hdeep
  cases hread.symm.trans hrefused

/-- An extended signature declares the old variables and behind them the added ones. -/
theorem lists_extendLocals {old : Option Bytes} {locals : List LocalSig} {added : List TypeSig}
    {signature : List UInt8} (hold : Lists old locals)
    (htypes : ∀ type ∈ added, type.RoundTrips) (h : extendLocals old added = .ok signature) :
    Lists (some signature.toArray) (locals ++ added.map TypeSig.localSig) := by
  obtain ⟨after, hend, hdecides⟩ := exists_decides_readLocals_of_extendLocals hold h
  exact ⟨after, hdecides.yields fun type htype =>
    fits_localSig (fits_of_roundTrips (htypes type htype)), hend⟩

/-- An extended signature declares the old variables as they were, whatever they are, and behind
them one for each added type, when the added types are not nested deeper than the reader goes and
their generic types are over classes and value types. If that fails for what is within the marks of
one of them, the whole signature is refused when it is read. -/
theorem extended_signature_lists {old : Option Bytes} {locals : List LocalSig}
    {added : List TypeSig} {signature : List UInt8} (hold : Lists old locals)
    (h : extendLocals old added = .ok signature) :
    ((∀ type ∈ added, type.Fits (depthLimit - 1)) →
      Lists (some signature.toArray) (locals ++ added.map TypeSig.localSig)) ∧
    ((∃ type ∈ added, ¬type.localSig.type.Fits (depthLimit - 1)) →
      ∃ fault after, readLocals.run ⟨signature.toArray, 0⟩ = (.error fault, after)) := by
  obtain ⟨after, hend, hdecides⟩ := exists_decides_readLocals_of_extendLocals hold h
  refine ⟨fun hfits => ⟨after, hdecides.yields fun type htype => ?_, hend⟩, fun hdeep => ?_⟩
  · exact fits_localSig (hfits type htype)
  · obtain ⟨type, htype, hdeep⟩ := hdeep
    exact hdecides.refuses fun hall => hdeep (hall type htype)

/-- A signature of a number with a modifier is extended by a pinned reference to a character and a
generic class over it; a generic type over a number makes it unreadable. -/
theorem modified_signature_lists :
    Lists (some #[0x07, 0x03, 0x20, 0x05, 0x08, 0x45, 0x10, 0x03, 0x15, 0x12, 0x08, 0x01, 0x03])
      [{ type := .i4 }, { isByRef := true, isPinned := true, type := .char },
        { type := .genericInst (.classType ⟨0x02000002⟩) [.char] }] ∧
    ∃ fault after, readLocals.run ⟨#[0x07, 0x02, 0x20, 0x05, 0x08, 0x15, 0x08, 0x00], 0⟩ =
      (.error fault, after) := by
  have hold : Lists (some #[0x07, 0x01, 0x20, 0x05, 0x08]) [{ type := .i4 }] := ⟨_, rfl, rfl⟩
  have hadded : extendLocals (some #[0x07, 0x01, 0x20, 0x05, 0x08])
      [.pinned (.byRef .char), .genericInst (.classType ⟨0x02000002⟩) [.char]] =
        .ok [0x07, 0x03, 0x20, 0x05, 0x08, 0x45, 0x10, 0x03, 0x15, 0x12, 0x08, 0x01, 0x03] := rfl
  have hrefused : extendLocals (some #[0x07, 0x01, 0x20, 0x05, 0x08]) [.genericInst .i4 []] =
      .ok [0x07, 0x02, 0x20, 0x05, 0x08, 0x15, 0x08, 0x00] := rfl
  exact ⟨(extended_signature_lists hold hadded).1 (by decide),
    (extended_signature_lists hold hrefused).2 ⟨_, List.mem_singleton_self _, by decide⟩⟩

end Signature

end CilPatch
