import CilPatch.Bytes.Compressed

/-!
# Emissions

Writing may fail in the middle, and what was written before stays written. An emission holds
both: the bytes, and the fault that ended it, if one did. What would follow a fault is not
emitted.
-/

namespace CilPatch

/-- Bytes that were written, and the fault that ended the writing. -/
structure Emission where
  /-- What was written. -/
  bytes : List UInt8 := []
  /-- Why nothing more was written. -/
  fault : Option Fault := none

namespace Emission

/-- Bytes that are written without fault. -/
def ofBytes (bytes : List UInt8) : Emission := { bytes }

/-- A fault before anything is written. -/
def ofFault (fault : Fault) : Emission := { fault := some fault }

/-- The bytes of a result, or its fault. -/
def ofExcept : Except Fault (List UInt8) → Emission
  | .ok bytes => ofBytes bytes
  | .error fault => ofFault fault

/-- One emission after another; a fault of the first one ends both. -/
def append (first second : Emission) : Emission :=
  match first.fault with
  | some _ => first
  | none => ⟨first.bytes ++ second.bytes, second.fault⟩

instance : Append Emission := ⟨append⟩

/-- Several emissions after one another. -/
def concat (parts : List Emission) : Emission := parts.foldr append {}

/-- All bytes of a faultless emission. -/
def toExcept (emission : Emission) : Except Fault (List UInt8) :=
  match emission.fault with
  | some fault => .error fault
  | none => .ok emission.bytes

/-- Of three emissions it does not matter which two are joined first. -/
theorem append_assoc (first second third : Emission) :
    append (append first second) third = append first (append second third) := by
  unfold append
  cases h : first.fault <;> cases h' : second.fault <;> simp [h, h']

/-- Two emissions together are faultless when both are, and then hold the bytes of both. -/
theorem toExcept_append (first second : Emission) :
    (append first second).toExcept =
      (do return (← first.toExcept) ++ (← second.toExcept)) := by
  unfold append toExcept
  cases h : first.fault <;> cases second.fault <;>
    simp [h, bind, Except.bind, pure, Except.pure]

end Emission

end CilPatch
