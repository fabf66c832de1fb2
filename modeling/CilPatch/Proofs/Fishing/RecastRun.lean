import CilPatch.Proofs.Fishing.RecastCode

/-!
# Runs of the code that casts again

The code is a chain of blocks, each of which ends with a jump or where one leads. What a block does
is said once for every state in which the stack is empty, as it is in front of every block.
-/

namespace CilPatch.Fishing

open Execution

/-- Where the code stands in a list of instructions, and where the test of the use button does. -/
structure RecastPlaced (catalog : Catalog) (slots : Int32) (heldItem : UInt16)
    (names : RecastNames) (list : InstrList) (start stop : Nat) : Prop where
  placed : Placed list names.gate.slot start (recastCode catalog slots heldItem names)
  gate : list.position? names.gate.slot = some stop
  body : list.position? names.body.slot = some (start + 11)
  next : list.position? names.next.slot = some (start + 27)
  check : list.position? names.check.slot = some (start + 31)

/-- The state in which a player presses the button anew. -/
def pressed (catalog : Catalog) (player : Value) (state : State) : State :=
  (state.setField player catalog.controlUseItem.token (.number 1)).setField player
    catalog.releaseUseItem.token (.number 1)

/-- The fields of the button say so, and the others stay. -/
theorem field?_pressed (catalog : Catalog) {player value : Value} {state : State} {known : Token}
    (hplayer : state.field? player known = some value) (object : Value) (field : Token) :
    (pressed catalog player state).field? object field =
      if object = player ∧
          (field = catalog.controlUseItem.token ∨ field = catalog.releaseUseItem.token) then
        some (.number 1)
      else state.field? object field := by
  obtain ⟨held, hheld⟩ := State.exists_field? hplayer catalog.controlUseItem.token
  obtain ⟨released, hreleased⟩ :=
    State.exists_field?_setField hheld (.number 1) catalog.releaseUseItem.token
  rw [pressed, State.field?_setField hreleased, State.field?_setField hheld]
  by_cases hobject : object = player <;> by_cases hheld : field = catalog.controlUseItem.token <;>
    by_cases hreleased : field = catalog.releaseUseItem.token <;> simp [hobject, hheld, hreleased]

namespace RecastPlaced

variable {catalog : Catalog} {slots : Int32} {heldItem : UInt16} {names : RecastNames}
  {list : InstrList} {start stop : Nat} {state : State}

section Blocks

variable (h : RecastPlaced catalog slots heldItem names list start stop)
include h

/-- Without a fishing pole in hand, the code is left. -/
theorem run_pole {item : Value} {pole : Int32}
    (hitem : state.locals[heldItem.toNat]? = some item)
    (hpole : state.field? item catalog.fishingPole.token = some (.number pole)) :
    Runs list names.gate.slot (state.resume start [])
      (state.resume (if pole ≤ 0 then stop else start + 4) []) := by
  have hblock : [.loadLocal heldItem.toNat, .loadField catalog.fishingPole.token, .constant 0,
      .jump .lessEqual names.gate.slot] <+:
      (recastCode catalog slots heldItem names).drop 0 := ⟨_, rfl⟩
  refine h.placed.runs hblock (by simp [Action.isJump]) rfl ?_
  by_cases hle : pole ≤ 0 <;>
    simp [performAll, Action.perform, State.next, Condition.test, Nat.add_assoc, hitem, hpole, hle,
      h.gate]

/-- While the player is busy, the code is left. -/
theorem run_busy {player : Value} {animation : Int32}
    (hplayer : state.arguments[0]? = some player)
    (hanimation : state.field? player catalog.itemAnimation.token = some (.number animation)) :
    Runs list names.gate.slot (state.resume (start + 4) [])
      (state.resume (if animation = 0 then start + 8 else stop) []) := by
  have hblock : [.loadArgument 0, .loadField catalog.itemAnimation.token, .constant 0,
      .jump .unequal names.gate.slot] <+:
      (recastCode catalog slots heldItem names).drop 4 := ⟨_, rfl⟩
  refine h.placed.runs hblock (by simp [Action.isJump]) rfl ?_
  by_cases hzero : animation = 0 <;>
    simp [performAll, Action.perform, State.next, Condition.test, Value.isNumber, Nat.add_assoc,
      hplayer, hanimation, hzero, h.gate]

/-- The first projectile is turned to. -/
theorem run_start (hindex : names.index.index.toNat < state.locals.length) :
    Runs list names.gate.slot (state.resume (start + 8) [])
      ((state.setLocal names.index.index.toNat (.number 0)).resume (start + 31) []) := by
  have hblock : [.constant 0, .storeLocal names.index.index.toNat,
      .jump .always names.check.slot] <+:
      (recastCode catalog slots heldItem names).drop 8 := ⟨_, rfl⟩
  refine h.placed.runs hblock (by simp [Action.isJump]) rfl ?_
  simp [performAll, Action.perform, State.next, Condition.test, hindex, h.check]

/-- A projectile is taken from the table. -/
theorem run_take {index : Int32} {projectile : Value}
    (hindex : state.locals[names.index.index.toNat]? = some (.number index))
    (helement : state.element? (state.statics catalog.mainProjectile.token) index =
      some projectile)
    (hslot : names.projectile.index.toNat < state.locals.length) :
    Runs list names.gate.slot (state.resume (start + 11) [])
      (((state.load (state.statics catalog.mainProjectile.token) index.toInt.toNat).setLocal
        names.projectile.index.toNat projectile).resume (start + 15) []) := by
  have hblock : [.loadStatic catalog.mainProjectile.token, .loadLocal names.index.index.toNat,
      .loadElement, .storeLocal names.projectile.index.toNat] <+:
      (recastCode catalog slots heldItem names).drop 11 := ⟨_, rfl⟩
  refine h.placed.runs hblock (by simp [Action.isJump]) rfl ?_
  simp [performAll, Action.perform, State.next, Nat.add_assoc, hindex, helement, hslot]

/-- An empty slot is passed over. -/
theorem run_active {projectile : Value} {active : Int32}
    (hprojectile : state.locals[names.projectile.index.toNat]? = some projectile)
    (hactive : state.field? projectile catalog.projectileActive.token = some (.number active)) :
    Runs list names.gate.slot (state.resume (start + 15) [])
      (state.resume (if active = 0 then start + 27 else start + 18) []) := by
  have hblock : [.loadLocal names.projectile.index.toNat,
      .loadField catalog.projectileActive.token, .jump .isFalse names.next.slot] <+:
      (recastCode catalog slots heldItem names).drop 15 := ⟨_, rfl⟩
  refine h.placed.runs hblock (by simp [Action.isJump]) rfl ?_
  by_cases hzero : active = 0 <;>
    simp [performAll, Action.perform, State.next, Condition.test, Value.isFalse, Nat.add_assoc,
      hprojectile, hactive, hzero, h.next]

/-- A projectile of somebody else is passed over. -/
theorem run_owner {projectile player : Value} {owner number : Int32}
    (hprojectile : state.locals[names.projectile.index.toNat]? = some projectile)
    (howner : state.field? projectile catalog.projectileOwner.token = some (.number owner))
    (hplayer : state.arguments[0]? = some player)
    (hnumber : state.field? player catalog.whoAmI.token = some (.number number)) :
    Runs list names.gate.slot (state.resume (start + 18) [])
      (state.resume (if owner = number then start + 23 else start + 27) []) := by
  have hblock : [.loadLocal names.projectile.index.toNat,
      .loadField catalog.projectileOwner.token, .loadArgument 0,
      .loadField catalog.whoAmI.token, .jump .unequal names.next.slot] <+:
      (recastCode catalog slots heldItem names).drop 18 := ⟨_, rfl⟩
  refine h.placed.runs hblock (by simp [Action.isJump]) rfl ?_
  by_cases hsame : owner = number <;>
    simp [performAll, Action.perform, State.next, Condition.test, Value.isNumber, Nat.add_assoc,
      hprojectile, howner, hplayer, hnumber, hsame, h.next]

/-- What is no bobber is passed over. -/
theorem run_bobber {projectile : Value} {bobber : Int32}
    (hprojectile : state.locals[names.projectile.index.toNat]? = some projectile)
    (hbobber : state.field? projectile catalog.projectileBobber.token = some (.number bobber)) :
    Runs list names.gate.slot (state.resume (start + 23) [])
      (state.resume (if bobber = 0 then start + 27 else start + 26) []) := by
  have hblock : [.loadLocal names.projectile.index.toNat,
      .loadField catalog.projectileBobber.token, .jump .isFalse names.next.slot] <+:
      (recastCode catalog slots heldItem names).drop 23 := ⟨_, rfl⟩
  refine h.placed.runs hblock (by simp [Action.isJump]) rfl ?_
  by_cases hzero : bobber = 0 <;>
    simp [performAll, Action.perform, State.next, Condition.test, Value.isFalse, Nat.add_assoc,
      hprojectile, hbobber, hzero, h.next]

/-- With a bobber in the world, the code is left. -/
theorem run_found :
    Runs list names.gate.slot (state.resume (start + 26) []) (state.resume stop []) := by
  have hblock : [.jump .always names.gate.slot] <+:
      (recastCode catalog slots heldItem names).drop 26 := ⟨_, rfl⟩
  refine h.placed.runs hblock (by simp) rfl ?_
  simp [performAll, Action.perform, Condition.test, h.gate]

/-- The next projectile is turned to. -/
theorem run_next {index : Int32}
    (hindex : state.locals[names.index.index.toNat]? = some (.number index)) :
    Runs list names.gate.slot (state.resume (start + 27) [])
      ((state.setLocal names.index.index.toNat (.number (index + 1))).resume (start + 31) []) := by
  have hblock : [.loadLocal names.index.index.toNat, .constant 1, .add,
      .storeLocal names.index.index.toNat] <+:
      (recastCode catalog slots heldItem names).drop 27 := ⟨_, rfl⟩
  obtain ⟨hlt, -⟩ := List.getElem?_eq_some_iff.mp hindex
  refine h.placed.runs hblock (by simp [Action.isJump]) rfl ?_
  simpa [performAll, Action.perform, State.next, Nat.add_assoc, hindex] using hlt

/-- The loop goes on as long as there are slots. -/
theorem run_check {index : Int32}
    (hindex : state.locals[names.index.index.toNat]? = some (.number index)) :
    Runs list names.gate.slot (state.resume (start + 31) [])
      (state.resume (if index < slots then start + 11 else start + 34) []) := by
  have hblock : [.loadLocal names.index.index.toNat, .constant slots,
      .jump .less names.body.slot] <+:
      (recastCode catalog slots heldItem names).drop 31 := ⟨_, rfl⟩
  refine h.placed.runs hblock (by simp [Action.isJump]) rfl ?_
  by_cases hless : index < slots <;>
    simp [performAll, Action.perform, State.next, Condition.test, Nat.add_assoc, hindex, hless,
      h.body]

/-- The button is pressed anew. -/
theorem run_press {player value : Value} {known : Token}
    (hplayer : state.arguments[0]? = some player)
    (hobject : state.field? player known = some value) :
    Runs list names.gate.slot (state.resume (start + 34) [])
      ((pressed catalog player state).resume (start + 40) []) := by
  have hblock : [.loadArgument 0, .constant 1, .storeField catalog.controlUseItem.token,
      .loadArgument 0, .constant 1, .storeField catalog.releaseUseItem.token] <+:
      (recastCode catalog slots heldItem names).drop 34 := ⟨_, rfl⟩
  obtain ⟨held, hheld⟩ := State.exists_field? hobject catalog.controlUseItem.token
  obtain ⟨released, hreleased⟩ :=
    State.exists_field?_setField hheld (.number 1) catalog.releaseUseItem.token
  have hsame : (state.setField player catalog.controlUseItem.token (.number 1)).arguments =
      state.arguments := rfl
  refine h.placed.runs hblock (by simp [Action.isJump]) rfl ?_
  simp [performAll, Action.perform, State.next, Nat.add_assoc, hplayer, hheld, hreleased, hsame,
    pressed]

end Blocks

end RecastPlaced

end CilPatch.Fishing
