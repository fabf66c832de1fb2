import CilPatch.Fishing.Recast
import CilPatch.Proofs.Execution.Spliced
import CilPatch.Proofs.Patch.Acceptance

/-!
# The code that casts again

The session that builds the code, as a list of calls, and what their instructions do.
-/

namespace CilPatch

namespace Execution

open Build

/-- Loading a variable is what it says. -/
theorem meaning?_loadOf (index : UInt16) :
    meaning? (loadOf index) = some (.loadLocal index.toNat) := by
  have hloads : (loadOf index).constant? = none ∧ loadsLocal (loadOf index).opcode = true := by
    unfold loadOf
    split
    · next hshort => rcases eq_of_le_three hshort with rfl | rfl | rfl | rfl <;> exact ⟨rfl, rfl⟩
    · split <;> exact ⟨rfl, rfl⟩
  rw [meaning?, hloads.1, hloads.2, localIndex?_loadOf]
  rfl

/-- Storing into a variable is what it says. -/
theorem meaning?_storeOf (index : UInt16) :
    meaning? (storeOf index) = some (.storeLocal index.toNat) := by
  have hstores : (storeOf index).constant? = none ∧ loadsLocal (storeOf index).opcode = false ∧
      storesLocal (storeOf index).opcode = true := by
    unfold storeOf
    split
    · next hshort =>
      rcases eq_of_le_three hshort with rfl | rfl | rfl | rfl <;> exact ⟨rfl, rfl, rfl⟩
    · split <;> exact ⟨rfl, rfl, rfl⟩
  rw [meaning?, hstores.1, hstores.2.1, hstores.2.2, localIndex?_storeOf]
  rfl

/-- Loading a constant is what it says, whichever instruction is the shortest. -/
theorem meaning?_constantOf (value : Int32) :
    meaning? (constantOf value) = some (.constant value) := by
  have hconstant : (constantOf value).constant? = some value := by
    unfold constantOf
    split
    · next hsmall =>
      obtain ⟨hlow, hhigh⟩ := hsmall
      have hsize : UInt8.size = 256 := rfl
      have hcode : (UInt8.ofNat (value.toInt + 0x16).toNat).toNat = (value.toInt + 0x16).toNat :=
        UInt8.toNat_ofNat_of_lt' (by omega)
      generalize UInt8.ofNat (value.toInt + 0x16).toNat = code at hcode
      have hrange : (0x15 ≤ code && code ≤ 0x1E) = true := by
        simp only [Bool.and_eq_true, decide_eq_true_eq, UInt8.le_iff_toNat_le, hcode]
        change 0x15 ≤ _ ∧ _ ≤ 0x1E
        omega
      have hvalue : (code.toNat : Int) - 0x16 = value.toInt := by omega
      simp only [Instruction.constant?, hrange, if_true, hvalue, Int32.ofInt_toInt]
    · split <;> rfl
  rw [meaning?, hconstant]

end Execution

namespace Fishing

open Execution

/-- The names in the code that casts again: its variables and its labels. -/
structure RecastNames where
  /-- The index of the projectile that is looked at. -/
  index : Local
  /-- The projectile that is looked at. -/
  projectile : Local
  /-- The test of the use button. -/
  gate : Label
  /-- Where a projectile is looked at. -/
  body : Label
  /-- Where the next projectile is turned to. -/
  next : Label
  /-- Where it is asked whether there is another projectile. -/
  check : Label

/-- The names that the code has in front of an instruction of a body. -/
def RecastNames.of (body : Body) (gate : Slot) : RecastNames where
  index := ⟨UInt16.ofNat body.localCount⟩
  projectile := ⟨UInt16.ofNat (body.localCount + 1)⟩
  gate := ⟨gate⟩
  body := ⟨⟨body.instructions.arena.size⟩⟩
  next := ⟨⟨body.instructions.arena.size + 1⟩⟩
  check := ⟨⟨body.instructions.arena.size + 2⟩⟩

variable (catalog : Catalog) (slots : Int32) (heldItem : UInt16)

/-- The calls that emit the code. -/
def recastCalls (names : RecastNames) : List Call :=
  [.loadIndex heldItem, .field .ldfld catalog.fishingPole, .constant 0, .branch .ble names.gate,
    .op .ldarg0, .field .ldfld catalog.itemAnimation, .constant 0, .branch .bneUn names.gate,
    .constant 0, .store names.index, .branch .br names.check,
    .bind names.body,
    .field .ldsfld catalog.mainProjectile, .load names.index, .op .ldelemRef,
    .store names.projectile,
    .load names.projectile, .field .ldfld catalog.projectileActive, .branch .brfalse names.next,
    .load names.projectile, .field .ldfld catalog.projectileOwner, .op .ldarg0,
    .field .ldfld catalog.whoAmI, .branch .bneUn names.next,
    .load names.projectile, .field .ldfld catalog.projectileBobber, .branch .brfalse names.next,
    .branch .br names.gate,
    .bind names.next,
    .load names.index, .constant 1, .op .add, .store names.index,
    .bind names.check,
    .load names.index, .constant slots, .branch .blt names.body,
    .op .ldarg0, .constant 1, .field .stfld catalog.controlUseItem, .op .ldarg0, .constant 1,
    .field .stfld catalog.releaseUseItem]

/-- The code is emitted by the calls, whatever the names are. -/
theorem recast_eq : recast catalog slots heldItem = (do
    if slots ≤ 0 then throw (.config (.scanSlots slots.toInt))
    let index ← Build.declare .i4 "afLoopIdx"
    let projectile ← Build.declare (.classType catalog.projectile) "afProj"
    let gate ← Build.continuation
    let body ← Build.reserve
    let next ← Build.reserve
    let check ← Build.reserve
    forM (recastCalls catalog slots heldItem ⟨index, projectile, gate, body, next, check⟩)
      Call.step) := by
  simp only [recast, recastCalls, Build.sequence, List.forM_cons, List.forM_nil, Call.step,
    bind_map_left, bind_assoc, pure_bind]

/-- The calls that declare the variables of the code and give out its labels. -/
def recastFront : List Call :=
  [.declare .i4 "afLoopIdx", .declare (.classType catalog.projectile) "afProj", .reserve, .reserve,
    .reserve]

/-- The calls that build the code in front of an instruction of a body. -/
def recastSession (body : Body) (gate : Slot) : List Call :=
  recastFront catalog ++ recastCalls catalog slots heldItem (.of body gate)

/-- A builder that has declared the variables of the code. -/
def recastDeclared (body : Body) (gate : Slot) : Builder :=
  ((Builder.start body gate).declared ⟨.i4, some "afLoopIdx"⟩).declared
    ⟨.classType catalog.projectile, some "afProj"⟩

/-- The names are those that are given out. -/
theorem RecastNames.of_eq (body : Body) (gate : Slot) : RecastNames.of body gate =
    ⟨⟨UInt16.ofNat body.localCount⟩, ⟨UInt16.ofNat (body.localCount + 1)⟩, ⟨gate⟩,
      ⟨(recastDeclared catalog body gate).body.instructions.next⟩,
      ⟨(recastDeclared catalog body gate).reservedNext.body.instructions.next⟩,
      ⟨(recastDeclared catalog body gate).reservedNext.reservedNext.body.instructions.next⟩⟩ := by
  simp [RecastNames.of, recastDeclared, Builder.start, Builder.declared, Builder.reservedNext,
    Builder.withInstructions, InstrList.next, InstrList.alloc]

/-- The second variable of the code is behind the first one. -/
theorem localCount_declared (body : Body) (gate : Slot) (slot : LocalSlot) :
    ((Builder.start body gate).declared slot).localCount = body.localCount + 1 := rfl

/-- The variables are declared and the labels are given out if the method has room for two more
variables. -/
theorem run_recastFront_eq_ok_iff (body : Body) (gate : Slot) {after : Builder} :
    (forM (recastFront catalog) Call.step : Build Unit).run (Builder.start body gate) =
        (.ok (), after) ↔
      body.localCount + 2 ≤ Body.localLimit ∧
        after = (recastDeclared catalog body gate).reservedNext.reservedNext.reservedNext := by
  have hfirst := localCount_declared body gate ⟨.i4, some "afLoopIdx"⟩
  have hreserve (builder next : Builder) (value : Unit) :
      Call.reserve.step.run builder = (.ok value, next) ↔ builder.reservedNext = next :=
    ⟨fun h => (Prod.mk.inj h).2, fun h => h ▸ rfl⟩
  have hlast (builder next : Builder) :
      (pure PUnit.unit : Build Unit).run builder = (.ok (), next) ↔ builder = next :=
    ⟨fun h => (Prod.mk.inj h).2, fun h => h ▸ rfl⟩
  have hcount : (Builder.start body gate).localCount = body.localCount := rfl
  simp only [recastFront, List.forM_cons, List.forM_nil, run_bind_eq_ok_iff,
    Call.run_declare_eq_ok_iff, hreserve, hlast]
  constructor
  · rintro ⟨-, _, ⟨-, rfl⟩, -, _, ⟨hroom, rfl⟩, -, _, rfl, -, _, rfl, -, _, rfl, rfl⟩
    exact ⟨by omega, rfl⟩
  · rintro ⟨hroom, rfl⟩
    exact ⟨(), _, ⟨by omega, rfl⟩, (), _, ⟨by omega, rfl⟩, (), _, rfl, (), _, rfl, (), _, rfl, rfl⟩

/-- Casting again is built by the session. -/
theorem run_recast (hslots : 0 < slots) (body : Body) (gate : Slot) :
    (recast catalog slots heldItem).run (Builder.start body gate) =
      (forM (recastSession catalog slots heldItem body gate) Call.step : Build Unit).run
        (Builder.start body gate) := by
  have hcheck : ¬slots ≤ 0 := Int32.not_le.mpr hslots
  have hreserve (builder : Builder) :
      Call.reserve.step.run builder = (.ok (), builder.reservedNext) := rfl
  have hcontinuation (builder : Builder) :
      Build.continuation.run builder = (.ok ⟨builder.continuation⟩, builder) := rfl
  have hcount := localCount_declared body gate ⟨.i4, some "afLoopIdx"⟩
  rw [recast_eq, recastSession, recastFront, RecastNames.of_eq catalog]
  simp only [hcheck, if_false, List.cons_append, List.nil_append, List.forM_cons]
  rw [step_bind, step_bind, Call.step, step_map]
  -- a declaration that is refused ends both
  rcases Build.run_declare (Builder.start body gate) .i4 "afLoopIdx" with
    ⟨fault, hrun⟩ | ⟨hroom, -⟩
  · rw [hrun]
  rw [Build.run_declare_of_room hroom]
  dsimp only
  rw [step_bind, step_bind, Call.step, step_map]
  rcases Build.run_declare ((Builder.start body gate).declared ⟨.i4, some "afLoopIdx"⟩)
    (.classType catalog.projectile) "afProj" with ⟨fault, hrun⟩ | ⟨hroom, -⟩
  · rw [hrun]
  rw [Build.run_declare_of_room hroom]
  dsimp only
  rw [step_bind, hcontinuation]
  dsimp only
  rw [step_bind, step_bind, Build.run_reserve, hreserve]
  dsimp only
  rw [step_bind, step_bind, Build.run_reserve, hreserve]
  dsimp only
  rw [step_bind, step_bind, Build.run_reserve, hreserve, hcount]
  rfl

/-- What the code does. -/
def recastCode (names : RecastNames) : List Action :=
  [.loadLocal heldItem.toNat, .loadField catalog.fishingPole.token, .constant 0,
    .jump .lessEqual names.gate.slot,
    .loadArgument 0, .loadField catalog.itemAnimation.token, .constant 0,
    .jump .unequal names.gate.slot,
    .constant 0, .storeLocal names.index.index.toNat, .jump .always names.check.slot,
    -- the body of the loop
    .loadStatic catalog.mainProjectile.token, .loadLocal names.index.index.toNat, .loadElement,
    .storeLocal names.projectile.index.toNat,
    .loadLocal names.projectile.index.toNat, .loadField catalog.projectileActive.token,
    .jump .isFalse names.next.slot,
    .loadLocal names.projectile.index.toNat, .loadField catalog.projectileOwner.token,
    .loadArgument 0, .loadField catalog.whoAmI.token, .jump .unequal names.next.slot,
    .loadLocal names.projectile.index.toNat, .loadField catalog.projectileBobber.token,
    .jump .isFalse names.next.slot,
    .jump .always names.gate.slot,
    -- the next projectile
    .loadLocal names.index.index.toNat, .constant 1, .add, .storeLocal names.index.index.toNat,
    -- whether there is one
    .loadLocal names.index.index.toNat, .constant slots, .jump .less names.body.slot,
    .loadArgument 0, .constant 1, .storeField catalog.controlUseItem.token,
    .loadArgument 0, .constant 1, .storeField catalog.releaseUseItem.token]

/-- The instructions that the session emits do what the code does. -/
theorem meaning?_code (body : Body) (gate : Slot) :
    (Call.code (recastSession catalog slots heldItem body gate)).map
        (fun emitted => meaning? emitted.instruction) =
      (recastCode catalog slots heldItem (.of body gate)).map some := by
  simp only [Call.code, recastSession, recastFront, recastCalls, List.cons_append, List.nil_append,
    List.filterMap_cons, List.filterMap_nil, Call.emits?, Emitted.ofTable, List.map_cons,
    List.map_nil, meaning?_loadOf, meaning?_storeOf, meaning?_constantOf]
  rfl

end Fishing

end CilPatch
