import CilPatch.Code.InstrList
import Std.Data.HashMap

/-!
# Laying out code

The size of an instruction depends on its opcode alone, save for switches. A short branch that
does not reach its target takes its long form, which moves what follows and may put other
targets out of reach; so layouts are made anew until every short branch reaches.
-/

namespace CilPatch

/-- An instruction with the opcode it is written with. -/
structure Placement where
  /-- The opcode that is written. -/
  form : Opcode
  /-- The operand of the instruction. -/
  operand : Operand
  deriving DecidableEq

/-- How many bytes an instruction takes. -/
def Placement.size (placement : Placement) : Nat :=
  placement.form.size +
    match placement.form.operandKind.size?, placement.operand with
    | some size, _ => size
    | none, .switch slots => 4 + 4 * slots.length
    | none, _ => 4

namespace Layout

/-- The positions of slots; the last position counts for a slot that is placed twice. -/
abbrev Positions := Std.HashMap Slot Nat

/-- The positions of the placed slots of a list. -/
def positionsOf (list : InstrList) : Positions := .ofList list.order.toList.zipIdx

/-- Where each instruction starts, and where the last one ends. -/
def offsets (placements : List Placement) : Array Nat × Nat :=
  placements.foldl (fun (starts, stop) placement => (starts.push stop, stop + placement.size))
    (#[], 0)

/-- Where the instruction with a slot starts. -/
def targetOffset? (positions : Positions) (starts : Array Nat) (slot : Slot) : Option Nat :=
  positions[slot]?.bind fun index => starts[index]?

/-- Whether a displacement fits a signed byte. -/
def fitsByte (distance : Int) : Bool := -128 ≤ distance && distance < 128

/-- Whether a displacement fits a signed 32-bit word. -/
def fitsWord (distance : Int) : Bool := -0x80000000 ≤ distance && distance < 0x80000000

/-- Whether an instruction that starts at an offset is a short branch out of reach of its
target. -/
def needsLong (positions : Positions) (starts : Array Nat) (placement : Placement)
    (start : Nat) : Bool :=
  placement.form.isShortBranch &&
    match placement.operand with
    | .target slot =>
        match targetOffset? positions starts slot with
        | some target => !fitsByte ((target : Int) - (start + placement.size : Nat))
        | none => false
    | _ => false

/-- An instruction with its start, in its long form when it must be long. -/
def widenEntry (positions : Positions) (starts : Array Nat) (entry : Placement × Nat) :
    Placement :=
  if needsLong positions starts entry.1 entry.2 then
    { entry.1 with form := entry.1.form.longForm }
  else entry.1

/-- The long form of every short branch that does not reach in the present layout. -/
def widen (positions : Positions) (placements : List Placement) : List Placement :=
  let starts := (offsets placements).1
  (placements.zip starts.toList).map (widenEntry positions starts)

/-- Widens until nothing changes, at most `fuel` times. -/
def relax (positions : Positions) : Nat → List Placement → List Placement
  | 0, placements => placements
  | fuel + 1, placements =>
      let wider := widen positions placements
      if wider = placements then placements else relax positions fuel wider

/-- How many short branches there are, which bounds how often widening changes something. -/
def shortCount (placements : List Placement) : Nat :=
  placements.countP (·.form.isShortBranch)

/-- The placements of a list, with every short branch that must be long in its long form. -/
def relaxed (positions : Positions) (list : InstrList) : List Placement :=
  let placements := list.placed.map fun (_, instruction) =>
    (⟨instruction.opcode, instruction.operand⟩ : Placement)
  relax positions (shortCount placements + 1) placements

/-- Every instruction has a start. -/
theorem size_offsets (placements : List Placement) :
    (offsets placements).1.size = placements.length := by
  have hsize (rest : List Placement) (starts : Array Nat) (stop : Nat) :
      (rest.foldl (fun (starts, stop) placement => (starts.push stop, stop + placement.size))
        (starts, stop)).1.size = starts.size + rest.length := by
    induction rest generalizing starts stop with
    | nil => rfl
    | cons placement rest ih =>
        rw [List.foldl_cons, ih, Array.size_push, List.length_cons]
        omega
  rw [offsets, hsize]
  simp

/-- Widening neither adds nor removes instructions. -/
theorem length_widen (positions : Positions) (placements : List Placement) :
    (widen positions placements).length = placements.length := by
  simp [widen, size_offsets]

/-- When widening changes something, fewer short branches are left. -/
theorem shortCount_widen (positions : Positions) (placements : List Placement) :
    widen positions placements = placements ∨
      shortCount (widen positions placements) < shortCount placements := by
  have hwiden (starts : Array Nat) (rest : List Placement) (offsets : List Nat)
      (hlength : offsets.length = rest.length) :
      (rest.zip offsets).map (widenEntry positions starts) = rest ∨
        shortCount ((rest.zip offsets).map (widenEntry positions starts)) < shortCount rest := by
    induction rest generalizing offsets with
    | nil => simp
    | cons placement rest ih =>
        obtain ⟨offset, others, rfl⟩ : ∃ offset others, offsets = offset :: others := by
          cases offsets with
          | nil => simp at hlength
          | cons offset others => exact ⟨offset, others, rfl⟩
        have hrest := ih others (by simpa using hlength)
        simp only [shortCount] at hrest ⊢
        by_cases hneeds : needsLong positions starts placement offset = true
        · have hshort : placement.form.isShortBranch = true := by
            simp only [needsLong, Bool.and_eq_true] at hneeds
            exact hneeds.1
          have hlong := Opcode.isShortBranch_longForm hshort
          have hle : ((rest.zip others).map (widenEntry positions starts)).countP
              (·.form.isShortBranch) ≤ rest.countP (·.form.isShortBranch) := by
            rcases hrest with heq | hlt
            · exact Nat.le_of_eq (by rw [heq])
            · omega
          right
          simp only [List.zip_cons_cons, List.map_cons, List.countP_cons, widenEntry, hneeds,
            hshort, hlong, if_true, Bool.false_eq_true, if_false]
          exact Nat.lt_succ_of_le hle
        · rcases hrest with heq | hlt
          · left
            simp [widenEntry, hneeds, heq]
          · right
            simp only [List.zip_cons_cons, List.map_cons, List.countP_cons, widenEntry, hneeds,
              Bool.false_eq_true, if_false]
            omega
  exact hwiden _ placements _ (by simp [size_offsets])

/-- More rounds than there are short branches lead to a layout that widening leaves alone. -/
theorem widen_relax (positions : Positions) {fuel : Nat} {placements : List Placement}
    (h : shortCount placements < fuel) :
    widen positions (relax positions fuel placements) = relax positions fuel placements := by
  induction fuel generalizing placements with
  | zero => omega
  | succ fuel ih =>
      rw [relax]
      split
      · next hsame => exact hsame
      · next hother =>
        apply ih
        rcases shortCount_widen positions placements with hsame | hlt
        · exact absurd hsame hother
        · omega

/-- In the final layout every short branch with a placed target reaches it. -/
theorem widen_relaxed (positions : Positions) (list : InstrList) :
    widen positions (relaxed positions list) = relaxed positions list :=
  widen_relax positions (Nat.lt_succ_self _)

end Layout

end CilPatch
