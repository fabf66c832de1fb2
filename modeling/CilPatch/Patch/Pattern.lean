import CilPatch.Code.InstrList
import CilPatch.Fault

/-!
# Patterns

A pattern is a window of predicates that is moved over the instructions of a method. The first
place where every predicate holds is the match, and the target is a fixed number of
instructions behind its start. Several patterns are tried in order, the first match counts.
-/

namespace CilPatch

/-- What a predicate asks of an opcode. -/
inductive OpcodeMatch where
  /-- Nothing. -/
  | any
  /-- To be this opcode. -/
  | exact (opcode : Opcode)
  /-- To be this opcode, whatever the size of its displacement. -/
  | family (opcode : Opcode)
  deriving DecidableEq

/-- What a predicate asks of an operand. -/
inductive OperandMatch where
  /-- Nothing. -/
  | any
  /-- To be this token. -/
  | token (reference : Token)
  /-- To be a 32-bit floating point literal that equals the number with these bits. -/
  | f32 (bits : UInt32)
  /-- To push this 32-bit constant, whatever the opcode. -/
  | constant (value : Int32)
  deriving DecidableEq

/-- What is asked of one instruction. -/
structure Predicate where
  /-- What is asked of the opcode. -/
  opcode : OpcodeMatch
  /-- What is asked of the operand. -/
  operand : OperandMatch := .any
  deriving DecidableEq

namespace OpcodeMatch

/-- Whether an opcode is what is asked for. -/
def holds : OpcodeMatch → Opcode → Bool
  | any, _ => true
  | exact wanted, opcode => opcode == wanted
  | family wanted, opcode => opcode.sameFamily wanted

/-- A wanted opcode in words. -/
def text : OpcodeMatch → String
  | any => "ldc.i4*"
  | exact wanted => wanted.text
  | family wanted => wanted.longForm.text ++ "(.s)"

end OpcodeMatch

namespace OperandMatch

/-- Whether the operand of an instruction is what is asked for. -/
def holds : OperandMatch → Instruction → Bool
  | any, _ => true
  | token wanted, instruction => instruction.token? == some wanted
  | f32 wanted, instruction =>
      match instruction.operand with
      | .f32 bits => Decimal.Format.single.sameValue bits.toNat wanted.toNat
      | _ => false
  | constant wanted, instruction => instruction.constant? == some wanted

/-- A wanted operand in words. -/
def text : OperandMatch → String
  | any => ""
  | token wanted => " " ++ wanted.text
  | f32 wanted => " " ++ Decimal.Layout.plain.write .single wanted.toNat
  | constant wanted => " " ++ toString wanted.toInt

end OperandMatch

namespace Predicate

/-- Whether an instruction is what is asked for. -/
def holds (predicate : Predicate) (instruction : Instruction) : Bool :=
  predicate.opcode.holds instruction.opcode && predicate.operand.holds instruction

/-- A predicate in words. -/
def text (predicate : Predicate) : String := predicate.opcode.text ++ predicate.operand.text

end Predicate

/-- A window of predicates with a target behind its start. -/
structure Pattern where
  /-- What the pattern is called. -/
  name : String
  /-- The predicates, one for each instruction. -/
  window : List Predicate
  /-- How far behind the start of the window the target is. -/
  target : Nat := 0
  deriving DecidableEq

namespace Pattern

/-- Whether predicates hold of the first instructions, one by one. -/
def startsWith : List Predicate → List Instruction → Bool
  | [], _ => true
  | predicate :: predicates, instruction :: rest =>
      predicate.holds instruction && startsWith predicates rest
  | _ :: _, [] => false

/-- How many instructions lie before the first place where predicates hold. -/
def firstPlace (window : List Predicate) : List Instruction → Option Nat
  | [] => none
  | instruction :: rest =>
      if startsWith window (instruction :: rest) then some 0
      else (firstPlace window rest).map (· + 1)

/-- A first place is one where the predicates hold, and they hold at no earlier one. -/
theorem firstPlace_eq_some_iff {window : List Predicate} {list : List Instruction}
    {start : Nat} :
    firstPlace window list = some start ↔
      start < list.length ∧ startsWith window (list.drop start) = true ∧
        ∀ earlier < start, startsWith window (list.drop earlier) = false := by
  induction list generalizing start with
  | nil => simp [firstPlace]
  | cons instruction rest ih =>
      rw [firstPlace]
      split
      · next hhere =>
        constructor
        · intro hsome
          obtain rfl := Option.some.inj hsome
          exact ⟨Nat.succ_pos _, hhere, fun _ hlt => absurd hlt (Nat.not_lt_zero _)⟩
        · rintro ⟨_, _, hbefore⟩
          cases start with
          | zero => rfl
          | succ start =>
              have hnot := hbefore 0 (Nat.succ_pos _)
              rw [List.drop_zero, hhere] at hnot
              exact absurd hnot.symm Bool.false_ne_true
      · next hhere =>
        cases start with
        | zero => simp [hhere]
        | succ start =>
          simp only [Option.map_eq_some_iff, Nat.add_right_cancel_iff, exists_eq_right, ih,
            List.length_cons, List.drop_succ_cons, Nat.add_lt_add_iff_right]
          constructor
          · rintro ⟨hlt, hstart, hbefore⟩
            refine ⟨hlt, hstart, fun earlier hearlier => ?_⟩
            cases earlier with
            | zero => simpa using hhere
            | succ earlier => exact hbefore earlier (by omega)
          · rintro ⟨hlt, hstart, hbefore⟩
            exact ⟨hlt, hstart, fun earlier hearlier => hbefore (earlier + 1) (by omega)⟩

/-- Where the window first matches. -/
def scanWindow (pattern : Pattern) (list : InstrList) : Option Nat :=
  if pattern.window.isEmpty then none
  else firstPlace pattern.window (list.placed.map (·.2))

/-- Where the target of the first match lies, if that is in the method. -/
def scan (pattern : Pattern) (list : InstrList) : Option Nat :=
  ((pattern.scanWindow list).map (· + pattern.target)).filter (· < list.length)

/-- A pattern in words. -/
def text (pattern : Pattern) : String :=
  pattern.name ++ " [" ++ "; ".intercalate (pattern.window.map Predicate.text) ++ "] +" ++
    toString pattern.target

end Pattern

/-- A pattern that was found. -/
structure Match where
  /-- The name of the pattern. -/
  pattern : String
  /-- Which of the patterns it was. -/
  candidate : Nat
  /-- The position of the target. -/
  index : Nat
  deriving DecidableEq

/-- How far a search has come. -/
inductive MatchState where
  /-- Nothing has been tried. -/
  | unattempted
  /-- The pattern with this number is next. -/
  | trying (candidate : Nat)
  /-- A pattern was found. -/
  | matched (found : Match)
  /-- All patterns have failed. -/
  | exhausted
  deriving DecidableEq

/-- Whether a search is over. -/
def MatchState.isFinal : MatchState → Bool
  | matched _ | exhausted => true
  | unattempted | trying _ => false

namespace Pattern

/-- One step of a search for the first pattern that is found. -/
def step (candidates : List Pattern) (list : InstrList) : MatchState → MatchState
  | .unattempted => .trying 0
  | .trying candidate =>
      match candidates[candidate]? with
      | none => .exhausted
      | some pattern =>
          match pattern.scan list with
          | some index => .matched ⟨pattern.name, candidate, index⟩
          | none => .trying (candidate + 1)
  | done => done

/-- The states of a search from a given one to the last, at most `fuel` steps. -/
def search (candidates : List Pattern) (list : InstrList) : Nat → MatchState → List MatchState
  | 0, state => [state]
  | fuel + 1, state =>
      if state.isFinal then [state]
      else state :: search candidates list fuel (step candidates list state)

/-- All states of a search. Each pattern takes one step, and one more begins and ends it. -/
def searchStates (candidates : List Pattern) (list : InstrList) : List MatchState :=
  search candidates list (candidates.length + 2) .unattempted

/-- The first pattern that is found. -/
def find (candidates : List Pattern) (list : InstrList) (method : String) :
    Except Fault Match :=
  match (searchStates candidates list).getLast? with
  | some (.matched found) => .ok found
  | _ => .error (.patternNotFound method (candidates.map text))

end Pattern

end CilPatch
