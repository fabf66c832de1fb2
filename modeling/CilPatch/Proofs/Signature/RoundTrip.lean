import CilPatch.Proofs.Signature.Reading
import CilPatch.Proofs.Signature.Reference

/-!
# Written types

A type that is written is read as it was written, whatever stands behind it, when it is not nested
deeper than the reader goes and its generic types are over classes and value types. Any other type
that is written is refused when it is read; it is never taken for another one.
-/

namespace CilPatch

namespace Read

variable {α β : Type} {before middle after : Cursor}

/-- Whether a step yields a value when a condition holds and gives up otherwise. -/
structure Decides (step : Read α) (before : Cursor) (condition : Prop) (value : α)
    (after : Cursor) : Prop where
  yields : condition → step.run before = (.ok value, after)
  refuses : ¬condition → ∃ fault last, step.run before = (.error fault, last)

/-- A step that yields decides on what holds. -/
theorem decides_of_run {step : Read α} {value : α} (h : step.run before = (.ok value, after)) :
    Decides step before True value after :=
  ⟨fun _ => h, fun hnot => absurd trivial hnot⟩

/-- A step decides what one decides that runs alike. -/
theorem Decides.of_run_eq {step other : Read α} {condition : Prop} {value : α}
    (h : Decides other before condition value after) (hsame : step.run before = other.run before) :
    Decides step before condition value after :=
  ⟨fun hc => hsame.trans (h.yields hc), fun hnot => hsame ▸ h.refuses hnot⟩

/-- A step decides alike on conditions that are the same. -/
theorem Decides.congr {step : Read α} {condition other : Prop} {value : α}
    (h : Decides step before condition value after) (hsame : other ↔ condition) :
    Decides step before other value after :=
  ⟨fun hother => h.yields (hsame.mp hother), fun hnot => h.refuses fun hc => hnot (hsame.mpr hc)⟩

/-- Steps after each other decide on both of their conditions. -/
theorem Decides.bind {step : Read α} {next : α → Read β} {condition other : Prop} {first : α}
    {value : β} (h : Decides step before condition first middle)
    (hnext : Decides (next first) middle other value after) :
    Decides (step >>= next) before (condition ∧ other) value after where
  yields hboth := run_bind_eq_ok_iff.mpr ⟨first, middle, h.yields hboth.1, hnext.yields hboth.2⟩
  refuses hnot := by
    by_cases hfirst : condition
    · obtain ⟨fault, last, hrun⟩ := hnext.refuses fun hother => hnot ⟨hfirst, hother⟩
      exact ⟨fault, last, by rw [step_bind, h.yields hfirst]; exact hrun⟩
    · obtain ⟨fault, last, hrun⟩ := h.refuses hfirst
      exact ⟨fault, last, by rw [step_bind, hrun]⟩

/-- A step after one that yields decides for both. -/
theorem Decides.behind {step : Read α} {next : α → Read β} {condition : Prop} {first : α}
    {value : β} (hrun : step.run before = (.ok first, middle))
    (h : Decides (next first) middle condition value after) :
    Decides (step >>= next) before condition value after :=
  ((decides_of_run hrun).bind h).congr (and_iff_right trivial).symm

/-- What a step yields may be wrapped. -/
theorem Decides.wrap {step : Read α} {condition : Prop} {first : α} (wrap : α → β)
    (h : Decides step before condition first after) :
    Decides (do return wrap (← step)) before condition (wrap first) after :=
  (h.bind (decides_of_run rfl)).congr (and_iff_left trivial).symm

end Read

namespace TypeSig

/-- The types that a type is made of. -/
def parts : TypeSig → List TypeSig
  | ptr base | byRef base | pinned base | szArray base | array base _ => [base]
  | genericInst base args => base :: args
  | fnPtr method => method.ret.type :: method.params.map Parameter.type
  | _ => []

/-- Whether a type is a class or a value type. -/
def isNamed : TypeSig → Bool
  | classType _ | valueType _ => true
  | _ => false

/-- Whether a type, if it is a generic type with arguments, is one over a class or a value type. -/
def instantiatesNamed : TypeSig → Bool
  | genericInst base _ => base.isNamed
  | _ => true

/-- Whether no path through a type has more nodes than given and every generic type in it is over
a class or a value type. -/
def Fits : Nat → TypeSig → Prop
  | 0, _ => False
  | levels + 1, type => type.instantiatesNamed = true ∧ ∀ part ∈ type.parts, Fits levels part

/-- Whether a type fits can be decided. -/
instance decidableFits : (levels : Nat) → (type : TypeSig) → Decidable (Fits levels type)
  | 0, _ => inferInstanceAs (Decidable False)
  | levels + 1, type =>
    have := decidableFits levels
    inferInstanceAs (Decidable (type.instantiatesNamed = true ∧
      ∀ part ∈ type.parts, Fits levels part))

variable {levels : Nat} {type base : TypeSig}

/-- A type around another one fits on one level more. -/
theorem fits_succ_iff_of_part (hnamed : type.instantiatesNamed = true)
    (hparts : type.parts = [base]) : type.Fits (levels + 1) ↔ base.Fits levels := by
  rw [Fits, hnamed, hparts, List.forall_mem_singleton]
  exact and_iff_right rfl

/-- A type that fits some levels fits more. -/
theorem Fits.mono {more : Nat} (h : type.Fits levels) (hmore : levels ≤ more) : type.Fits more := by
  induction levels generalizing type more with
  | zero => exact h.elim
  | succ levels ih =>
    obtain ⟨rest, rfl⟩ := Nat.exists_eq_add_of_lt hmore
    exact ⟨h.1, fun part hpart => ih (h.2 part hpart) (by omega)⟩

/-- A type without parts fits on one level. -/
theorem fits_succ_iff_of_leaf (hnamed : type.instantiatesNamed = true) (hparts : type.parts = []) :
    type.Fits (levels + 1) ↔ True :=
  iff_true_intro ⟨hnamed, by simp [hparts]⟩

end TypeSig

namespace Signature

open Read

variable {before middle after : Cursor}

/-! ## First bytes -/

/-- The byte that a written type begins with. -/
def lead? : TypeSig → Option UInt8
  | .ptr _ => some Element.ptr
  | .byRef _ => some Element.byRef
  | .pinned _ => some Element.pinned
  | .szArray _ => some Element.szArray
  | .array _ _ => some Element.array
  | .classType _ => some Element.classType
  | .valueType _ => some Element.valueType
  | .typeParam _ => some Element.typeParam
  | .methodParam _ => some Element.methodParam
  | .genericInst _ _ => some Element.genericInst
  | type => Element.code? type

/-- A written type begins with its byte. -/
theorem exists_lead_of_emitType {type : TypeSig} {bytes : List UInt8}
    (h : (emitType type).toExcept = .ok bytes) :
    ∃ byte rest, bytes = byte :: rest ∧ lead? type = some byte := by
  cases type with
  | ptr | byRef | pinned | szArray | array | classType | valueType | typeParam | methodParam
  | genericInst =>
    obtain ⟨rest, -, rfl⟩ := emitByte_append_eq_ok_iff.mp h
    exact ⟨_, rest, rfl, rfl⟩
  | unknown | fnPtr => cases h
  | _ =>
    obtain rfl := Except.ok.inj h
    exact ⟨_, [], rfl, rfl⟩

/-- No written type begins with a modifier. -/
theorem isModifier_of_lead? {type : TypeSig} {byte : UInt8} (h : lead? type = some byte) :
    Element.isModifier byte = false := by
  cases type with
  | unknown | fnPtr => cases h
  | _ =>
    obtain rfl := Option.some.inj h
    rfl

/-- Only classes and value types begin with the bytes that a generic type asks for. -/
theorem isNamed_of_lead? {type : TypeSig} {byte : UInt8} (h : lead? type = some byte) :
    (byte != Element.classType && byte != Element.valueType) = !type.isNamed := by
  cases type with
  | unknown | fnPtr => cases h
  | _ =>
    obtain rfl := Option.some.inj h
    rfl

/-- In front of a written type there are no modifiers to read. -/
theorem run_readModifiers_of_emitType {type : TypeSig} {bytes : List UInt8}
    (hemit : (emitType type).toExcept = .ok bytes) (hpasses : before.Passes bytes after) :
    readModifiers.run before = (.ok [], before) := by
  obtain ⟨byte, rest, rfl, hlead⟩ := exists_lead_of_emitType hemit
  rw [readModifiers, step_bind, step_get]
  refine run_readModifiersWithin_of_none _ fun found hfound => ?_
  rw [hpasses.head?] at hfound
  rw [← Option.some.inj hfound]
  exact isModifier_of_lead? hlead

/-! ## Types -/

/-- Whether a step decides every written type: what it yields for one that fits. -/
def DecidesTypes {α : Type} (step : Read α) (fits : TypeSig → Prop) (found : TypeSig → α) : Prop :=
  ∀ ⦃type : TypeSig⦄ ⦃bytes : List UInt8⦄ ⦃before after : Cursor⦄,
    (emitType type).toExcept = .ok bytes → before.Passes bytes after →
      Decides step before (fits type) (found type) after

/-- A step that decides every written type decides several that are written one after another. -/
theorem DecidesTypes.many {α : Type} {step : Read α} {fits : TypeSig → Prop} {found : TypeSig → α}
    (h : DecidesTypes step fits found) {types : List TypeSig} {bytes : List UInt8}
    (hemit : (emitTypes types).toExcept = .ok bytes) (hpasses : before.Passes bytes after) :
    Decides (Read.many step types.length) before (∀ type ∈ types, fits type) (types.map found)
      after := by
  induction types generalizing before bytes with
  | nil =>
    obtain rfl := Except.ok.inj hemit
    rw [(Cursor.passes_nil_iff hpasses.bounded_before).mp hpasses]
    exact (decides_of_run rfl).congr ⟨fun _ => trivial, fun _ => nofun⟩
  | cons type rest ih =>
    obtain ⟨front, back, hfront, hback, rfl⟩ := Emission.toExcept_append_eq_ok_iff.mp hemit
    obtain ⟨middle, hfirst, hsecond⟩ := Cursor.passes_append_iff.mp hpasses
    exact ((h hfront hfirst).bind ((ih hback hsecond).wrap (found type :: ·))).congr
      List.forall_mem_cons

section Levels

variable {levels : Nat} {type : TypeSig} {bytes : List UInt8}

/-- A type that is not its first byte alone is decided by what is written behind that byte. -/
theorem decides_readTypeWithin_succ {byte : UInt8} {rest : Emission} {condition : Prop}
    (hfits : type.Fits (levels + 1) ↔ condition)
    (hemit : (emitByte byte ++ rest).toExcept = .ok bytes) (hpasses : before.Passes bytes after)
    (hsimple : Element.simple? byte = none)
    (h : ∀ {middle : Cursor} {back : List UInt8}, rest.toExcept = .ok back →
      middle.Passes back after →
        Decides (readParts (readTypeWithin levels) byte) middle condition type after) :
    Decides (readTypeWithin (levels + 1)) before (type.Fits (levels + 1)) type after := by
  obtain ⟨back, hback, rfl⟩ := emitByte_append_eq_ok_iff.mp hemit
  obtain ⟨middle, hlead, hrest⟩ := Cursor.passes_cons_iff.mp hpasses
  refine Decides.congr (Decides.behind hlead ?_) hfits
  rw [hsimple]
  exact h hback hrest

/-- A generic type is decided by its base, which has to be a class or a value type, and by its
arguments. -/
theorem decides_readParts_genericInst {base : TypeSig} {args : List TypeSig}
    (hpart : DecidesTypes (readTypeWithin levels) (TypeSig.Fits levels) fun type => type)
    (hemit : (emitType base ++ ((if args.length < UInt32.size then emitCompressed args.length
      else .ofFault (.output .genericArguments)) ++ emitTypes args)).toExcept = .ok bytes)
    (hpasses : before.Passes bytes after) :
    Decides (readParts (readTypeWithin levels) Element.genericInst) before
      ((TypeSig.genericInst base args).Fits (levels + 1)) (.genericInst base args) after := by
  obtain ⟨front, rest, hfront, hrest, rfl⟩ := Emission.toExcept_append_eq_ok_iff.mp hemit
  obtain ⟨head, back, hhead, hback, rfl⟩ := Emission.toExcept_append_eq_ok_iff.mp hrest
  obtain ⟨first, hfirst, hpasses'⟩ := Cursor.passes_append_iff.mp hpasses
  obtain ⟨second, hsecond, hthird⟩ := Cursor.passes_append_iff.mp hpasses'
  obtain ⟨byte, tail, rfl, hlead⟩ := exists_lead_of_emitType hfront
  have hcount : compressed.run first = (.ok (UInt32.ofNat args.length), second) ∧
      (UInt32.ofNat args.length).toNat = args.length := by
    split at hhead
    · next hlength =>
      rw [emitCompressed, Emission.toExcept_ofExcept] at hhead
      exact ⟨run_compressed hhead hsecond, UInt32.toNat_ofNat_of_lt' hlength⟩
    · cases hhead
  have hargs : Decides (many (readTypeWithin levels) (UInt32.ofNat args.length).toNat) second
      (∀ type ∈ args, type.Fits levels) args after := by
    rw [hcount.2]
    simpa only [List.map_id'] using hpart.many hback hthird
  refine Decides.behind (run_peek_eq_ok_iff.mpr ⟨hpasses.head?, rfl⟩) ?_
  have hfits : (TypeSig.genericInst base args).Fits (levels + 1) ↔
      base.isNamed = true ∧ base.Fits levels ∧ ∀ type ∈ args, type.Fits levels :=
    and_congr_right' List.forall_mem_cons
  simp only [isNamed_of_lead? hlead]
  cases hnamed : base.isNamed with
  | false =>
    refine ⟨fun h => ?_, fun _ => ⟨_, _, rfl⟩⟩
    rw [(hfits.mp h).1] at hnamed
    cases hnamed
  | true =>
    refine Decides.congr ?_ (hfits.trans (and_iff_right hnamed))
    exact (hpart hfront hfirst).bind
      (Decides.behind hcount.1 (hargs.wrap (TypeSig.genericInst base)))

/-- A number that is written is read. -/
theorem run_compressed_of_emitCompressed {number : UInt32}
    (hemit : (emitCompressed number.toNat).toExcept = .ok bytes)
    (hpasses : before.Passes bytes after) : compressed.run before = (.ok number, after) := by
  rw [emitCompressed, Emission.toExcept_ofExcept] at hemit
  rw [run_compressed hemit hpasses, UInt32.ofNat_toNat]

/-- An array is decided by the type of its members. -/
theorem decides_readParts_array {base : TypeSig} {rank : UInt32}
    (hpart : DecidesTypes (readTypeWithin levels) (TypeSig.Fits levels) fun type => type)
    (hemit : (emitType base ++ (emitCompressed rank.toNat ++
      (emitCompressed 0 ++ emitCompressed 0))).toExcept = .ok bytes)
    (hpasses : before.Passes bytes after) :
    Decides (readParts (readTypeWithin levels) Element.array) before (base.Fits levels)
      (.array base rank) after := by
  obtain ⟨front, shape, hfront, hshape, rfl⟩ := Emission.toExcept_append_eq_ok_iff.mp hemit
  obtain ⟨size, ends, hsize, hends, rfl⟩ := Emission.toExcept_append_eq_ok_iff.mp hshape
  obtain ⟨sizes, bounds, hsizes, hbounds, rfl⟩ := Emission.toExcept_append_eq_ok_iff.mp hends
  rw [emitCompressed, Emission.toExcept_ofExcept] at hsizes hbounds
  obtain ⟨first, hfirst, hpasses⟩ := Cursor.passes_append_iff.mp hpasses
  obtain ⟨second, hsecond, hpasses⟩ := Cursor.passes_append_iff.mp hpasses
  obtain ⟨third, hthird, hfourth⟩ := Cursor.passes_append_iff.mp hpasses
  refine Decides.congr ((hpart hfront hfirst).bind ?_) (and_iff_left trivial).symm
  refine Decides.behind (run_compressed_of_emitCompressed hsize hsecond) ?_
  -- neither sizes nor lower bounds are written, so none are read
  refine Decides.behind (run_compressed hsizes hthird) (Decides.behind rfl ?_)
  exact Decides.behind (run_compressed hbounds hfourth) (Decides.behind rfl (decides_of_run rfl))

/-- A written type is read as it was written when it fits the levels of the reader, and is refused
otherwise. -/
theorem decides_readTypeWithin (levels : Nat) :
    DecidesTypes (readTypeWithin levels) (TypeSig.Fits levels) fun type => type := by
  induction levels with
  | zero => exact fun _ _ _ _ _ _ => ⟨False.elim, fun _ => ⟨_, _, rfl⟩⟩
  | succ levels ih =>
    intro type bytes before after hemit hpasses
    cases type with
    | ptr base =>
      refine decides_readTypeWithin_succ (TypeSig.fits_succ_iff_of_part rfl rfl) hemit hpasses rfl
        fun hrest hbase => ?_
      exact Decides.behind (run_readModifiers_of_emitType hrest hbase)
        ((ih hrest hbase).wrap TypeSig.ptr)
    | byRef base =>
      refine decides_readTypeWithin_succ (TypeSig.fits_succ_iff_of_part rfl rfl) hemit hpasses rfl
        fun hrest hbase => ?_
      exact (ih hrest hbase).wrap TypeSig.byRef
    | pinned base =>
      refine decides_readTypeWithin_succ (TypeSig.fits_succ_iff_of_part rfl rfl) hemit hpasses rfl
        fun hrest hbase => ?_
      exact (ih hrest hbase).wrap TypeSig.pinned
    | szArray base =>
      refine decides_readTypeWithin_succ (TypeSig.fits_succ_iff_of_part rfl rfl) hemit hpasses rfl
        fun hrest hbase => ?_
      exact Decides.behind (run_readModifiers_of_emitType hrest hbase)
        ((ih hrest hbase).wrap TypeSig.szArray)
    | array base rank =>
      refine decides_readTypeWithin_succ (TypeSig.fits_succ_iff_of_part rfl rfl) hemit hpasses rfl
        fun hrest hbase => ?_
      exact decides_readParts_array ih hrest hbase
    | genericInst base args =>
      refine decides_readTypeWithin_succ Iff.rfl hemit hpasses rfl fun hrest hparts => ?_
      exact decides_readParts_genericInst ih hrest hparts
    | classType reference =>
      refine decides_readTypeWithin_succ (TypeSig.fits_succ_iff_of_leaf rfl rfl) hemit hpasses rfl
        fun hrest htoken => ?_
      exact (decides_of_run (run_compressedToken_of_emitToken hrest htoken)).wrap TypeSig.classType
    | valueType reference =>
      refine decides_readTypeWithin_succ (TypeSig.fits_succ_iff_of_leaf rfl rfl) hemit hpasses rfl
        fun hrest htoken => ?_
      exact (decides_of_run (run_compressedToken_of_emitToken hrest htoken)).wrap TypeSig.valueType
    | typeParam index =>
      refine decides_readTypeWithin_succ (TypeSig.fits_succ_iff_of_leaf rfl rfl) hemit hpasses rfl
        fun hrest hindex => ?_
      exact (decides_of_run (run_compressed_of_emitCompressed hrest hindex)).wrap TypeSig.typeParam
    | methodParam index =>
      refine decides_readTypeWithin_succ (TypeSig.fits_succ_iff_of_leaf rfl rfl) hemit hpasses rfl
        fun hrest hindex => ?_
      exact (decides_of_run (run_compressed_of_emitCompressed hrest hindex)).wrap
        TypeSig.methodParam
    | unknown | fnPtr => cases hemit
    | _ =>
      -- a type without parts is its byte alone
      obtain rfl := Except.ok.inj hemit
      refine Decides.congr ?_ (TypeSig.fits_succ_iff_of_leaf rfl rfl)
      exact Decides.behind (run_u8_eq_ok_iff.mpr hpasses) (decides_of_run rfl)

end Levels

/-! ## Fields -/

/-- A field signature whose type was written has no modifiers, and is decided by its type. -/
theorem decides_readField {type : TypeSig} {bytes : List UInt8}
    (hemit : (emitType type).toExcept = .ok bytes)
    (hpasses : before.Passes (Element.fieldHead :: bytes) after) :
    Decides readField before (type.Fits (depthLimit - 1)) { modifiers := [], type } after := by
  obtain ⟨middle, hhead, hrest⟩ := Cursor.passes_cons_iff.mp hpasses
  refine Decides.behind hhead ?_
  exact Decides.behind (run_readModifiers_of_emitType hemit hrest)
    ((decides_readTypeWithin _ hemit hrest).wrap (FieldSig.mk []))

/-- A written type is read from a field signature as it was written, and all that stands behind it
is left, when it is not nested deeper than the reader goes and its generic types are over classes
and value types. Any other written type is refused. -/
theorem written_type_reads_back (type : TypeSig) {bytes : List UInt8}
    (hemit : (emitType type).toExcept = .ok bytes) (suffix : List UInt8) :
    (type.Fits (depthLimit - 1) → ∃ after,
      readField.run ⟨(Element.fieldHead :: (bytes ++ suffix)).toArray, 0⟩ =
          (.ok { modifiers := [], type }, after) ∧
        after.rest = suffix) ∧
    (¬type.Fits (depthLimit - 1) → ∃ fault after,
      readField.run ⟨(Element.fieldHead :: (bytes ++ suffix)).toArray, 0⟩ =
        (.error fault, after)) := by
  have hrest : (⟨(Element.fieldHead :: (bytes ++ suffix)).toArray, 0⟩ : Cursor).rest =
      (Element.fieldHead :: bytes) ++ suffix := by
    simp [Cursor.rest]
  have hpasses := Cursor.passes_of_rest hrest (Nat.zero_le _)
  have hfield := decides_readField hemit hpasses
  exact ⟨fun hfits => ⟨_, hfield.yields hfits, hpasses.rest_eq hrest⟩, hfield.refuses⟩

/-- A generic class over a pointer array and a matrix of a type parameter is read back in front of
what stands behind it, and a generic type over a number is refused. -/
theorem generic_type_reads_back :
    (∃ after,
      readField.run ⟨#[0x06, 0x15, 0x12, 0x08, 0x02, 0x1D, 0x0F, 0x08, 0x14, 0x13, 0x00, 0x02, 0x00,
          0x00, 0x45], 0⟩ =
        (.ok ⟨[], .genericInst (.classType ⟨0x02000002⟩)
          [.szArray (.ptr .i4), .array (.typeParam 0) 2]⟩, after) ∧
      after.rest = [0x45]) ∧
    ∃ fault after, readField.run ⟨#[0x06, 0x15, 0x08, 0x00], 0⟩ = (.error fault, after) :=
  ⟨(written_type_reads_back (.genericInst (.classType ⟨0x02000002⟩)
      [.szArray (.ptr .i4), .array (.typeParam 0) 2]) rfl [0x45]).1 (by decide),
    (written_type_reads_back (.genericInst .i4 []) rfl []).2 (by decide)⟩

end Signature

end CilPatch
