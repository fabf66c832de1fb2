import CilPatch.Proofs.Fishing.RecastRun

/-!
# When the game casts again
-/

namespace CilPatch.Fishing

open Execution

/-- What the code finds when it comes to it: an object of the player, the item in hand, and a table
with a projectile in each of the slots. -/
structure Scene (catalog : Catalog) (slots : Int32) (heldItem : UInt16) (state : State) where
  /-- The player. -/
  player : Value
  /-- The item in hand. -/
  item : Value
  /-- The elements of the table of projectiles. -/
  projectiles : List Value
  isPlayer : state.arguments[0]? = some player
  isItem : state.locals[heldItem.toNat]? = some item
  isTable : state.elements? (state.statics catalog.mainProjectile.token) = some projectiles
  animation : state.HasNumber player catalog.itemAnimation.token
  number : state.HasNumber player catalog.whoAmI.token
  pole : state.HasNumber item catalog.fishingPole.token
  /-- There is a projectile in each slot. -/
  filled : ∀ index : Nat, index < slots.toInt → ∃ projectile,
    projectiles[index]? = some projectile ∧
      state.HasNumber projectile catalog.projectileActive.token ∧
      state.HasNumber projectile catalog.projectileOwner.token ∧
      state.HasNumber projectile catalog.projectileBobber.token

namespace Scene

variable {catalog : Catalog} {slots : Int32} {heldItem : UInt16} {state : State}
  (scene : Scene catalog slots heldItem state)

/-- Whether the player holds a fishing pole and is not busy. -/
def MayCast : Prop :=
  0 < state.number scene.item catalog.fishingPole.token ∧
    state.number scene.player catalog.itemAnimation.token = 0

/-- Whether a bobber of the player is in a slot. -/
def IsOut (index : Nat) : Prop :=
  ∃ projectile, scene.projectiles[index]? = some projectile ∧
    state.number projectile catalog.projectileActive.token ≠ 0 ∧
    state.number projectile catalog.projectileOwner.token =
      state.number scene.player catalog.whoAmI.token ∧
    state.number projectile catalog.projectileBobber.token ≠ 0

/-- What it means that a bobber of the player is in a slot with a projectile. -/
theorem isOut_iff {index : Nat} {projectile : Value}
    (h : scene.projectiles[index]? = some projectile) : scene.IsOut index ↔
      state.number projectile catalog.projectileActive.token ≠ 0 ∧
        state.number projectile catalog.projectileOwner.token =
          state.number scene.player catalog.whoAmI.token ∧
        state.number projectile catalog.projectileBobber.token ≠ 0 := by
  simp [IsOut, h]

/-- Whether the game is to cast again. -/
def Casts : Prop :=
  scene.MayCast ∧ ∀ index : Nat, index < slots.toInt → ¬scene.IsOut index

/-- How many slots are looked at: all up to the first one with a bobber of the player, but none when
the player may not cast. -/
structure Looks (looked : Nat) : Prop where
  idle : ¬scene.MayCast → looked = 0
  within : (looked : Int) ≤ slots.toInt
  before : ∀ index, index + 1 < looked → ¬scene.IsOut index
  last : scene.MayCast → (looked : Int) < slots.toInt →
    ∃ index, looked = index + 1 ∧ scene.IsOut index

/-- What the code leaves behind in a method with some variables of its own. -/
structure Leaves (count : Nat) (after : State) : Prop where
  stack : after.stack = []
  /-- The button is pressed anew if the game is to cast. -/
  pressed : scene.Casts →
    after.field? scene.player catalog.controlUseItem.token = some (.number 1) ∧
      after.field? scene.player catalog.releaseUseItem.token = some (.number 1)
  /-- No other field is changed. -/
  kept : ∀ object field, ¬(scene.Casts ∧ object = scene.player ∧
      (field = catalog.controlUseItem.token ∨ field = catalog.releaseUseItem.token)) →
    after.field? object field = state.field? object field
  arrays : after.elements? = state.elements?
  statics : after.statics = state.statics
  arguments : after.arguments = state.arguments
  locals : ∀ index < count, after.locals[index]? = state.locals[index]?
  /-- The slots are looked at in order. -/
  loads : ∃ looked, scene.Looks looked ∧ after.loads = state.loads ++
    (List.range looked).map fun index => (state.statics catalog.mainProjectile.token, index)

end Scene

/-- A state in which some slots have been looked at and nothing else has happened but to the
variables of the code. -/
structure Looked (catalog : Catalog) (before : State) (count looked : Nat) (state : State) :
    Prop where
  heap : state.heap = before.heap
  statics : state.statics = before.statics
  arguments : state.arguments = before.arguments
  size : state.locals.length = before.locals.length
  locals : ∀ index < count, state.locals[index]? = before.locals[index]?
  loads : state.loads = before.loads ++
    (List.range looked).map fun index => (before.statics catalog.mainProjectile.token, index)

namespace Looked

variable {catalog : Catalog} {before state : State} {count looked : Nat}

/-- Nothing is looked at at first. -/
theorem zero (catalog : Catalog) (state : State) (count : Nat) :
    Looked catalog state count 0 state :=
  ⟨rfl, rfl, rfl, rfl, fun _ _ => rfl, by simp⟩

/-- A variable of the code may be set. -/
theorem setLocal (h : Looked catalog before count looked state) {index : Nat}
    (hindex : count ≤ index) (value : Value) :
    Looked catalog before count looked (state.setLocal index value) where
  heap := h.heap
  statics := h.statics
  arguments := h.arguments
  size := by rw [State.setLocal, List.length_set, h.size]
  locals other hother := by
    rw [State.setLocal, List.getElem?_set_ne (by omega), h.locals other hother]
  loads := h.loads

/-- The next slot may be looked at. -/
theorem load (h : Looked catalog before count looked state) :
    Looked catalog before count (looked + 1)
      (state.load (state.statics catalog.mainProjectile.token) looked) where
  heap := h.heap
  statics := h.statics
  arguments := h.arguments
  size := h.size
  locals := h.locals
  loads := by
    rw [State.load, h.loads, h.statics, List.range_succ, List.map_append, List.append_assoc]
    rfl

end Looked

section Counter

variable {slots : Int32} {index : Nat} (h : index ≤ slots.toInt)
include h

/-- The counter of the slots does not overflow. -/
theorem toInt_counter : (Int32.ofNat index).toInt = index := by
  have hlimit := slots.toInt_lt
  exact Int32.toInt_ofNat_of_lt (by omega)

/-- The counter is compared as the number that it counts. -/
theorem counter_lt_iff : Int32.ofNat index < slots ↔ index < slots.toInt := by
  rw [Int32.lt_iff_toInt_lt, toInt_counter h]

end Counter

/-- Whether the variables of the code are two of their own in a method with some variables. -/
structure RecastNames.Apart (names : RecastNames) (count size : Nat) : Prop where
  index : count ≤ names.index.index.toNat
  projectile : count ≤ names.projectile.index.toNat
  ne : names.index.index.toNat ≠ names.projectile.index.toNat
  indexLess : names.index.index.toNat < size
  projectileLess : names.projectile.index.toNat < size

section Loop

variable {catalog : Catalog} {slots : Int32} {heldItem : UInt16} {names : RecastNames}
  {list : InstrList} {start stop count : Nat} {before : State}
  (h : RecastPlaced catalog slots heldItem names list start stop)
  (scene : Scene catalog slots heldItem before)
  (hnames : names.Apart count before.locals.length)

/-- A slot is found in the table at its index. -/
theorem Scene.exists_projectile {index : Nat} (hindex : index < slots.toInt) :
    ∃ projectile, before.element? (before.statics catalog.mainProjectile.token)
        (Int32.ofNat index) = some projectile ∧ scene.projectiles[index]? = some projectile ∧
      before.HasNumber projectile catalog.projectileActive.token ∧
      before.HasNumber projectile catalog.projectileOwner.token ∧
      before.HasNumber projectile catalog.projectileBobber.token := by
  obtain ⟨projectile, hprojectile, hnumbers⟩ := scene.filled index hindex
  refine ⟨projectile, ?_, hprojectile, hnumbers⟩
  have hvalue := toInt_counter (Int.le_of_lt hindex)
  have hpositive : 0 ≤ Int32.ofNat index := by
    rw [Int32.le_iff_toInt_le, hvalue]
    exact Int.natCast_nonneg index
  rw [State.element?, if_pos hpositive, scene.isTable, hvalue]
  exact hprojectile

variable {scene} in
/-- The code is left without a change. -/
theorem Looked.leaves {looked : Nat} {after : State}
    (h : Looked catalog before count looked after) (hlooks : scene.Looks looked)
    (hcasts : ¬scene.Casts) (position : Nat) :
    scene.Leaves count (after.resume position []) where
  stack := rfl
  pressed hcast := absurd hcast hcasts
  kept object field _ := by rw [State.field?_resume, State.field?_eq_of_heap h.heap]
  arrays := by rw [State.elements?_resume, State.elements?_eq_of_heap h.heap]
  statics := h.statics
  arguments := h.arguments
  locals := h.locals
  loads := ⟨looked, hlooks, h.loads⟩

variable {scene} in
/-- The code is left with the button pressed anew. -/
theorem Looked.leaves_pressed {looked : Nat} {after : State}
    (h : Looked catalog before count looked after) (hlooks : scene.Looks looked)
    (hcasts : scene.Casts) (position : Nat) :
    scene.Leaves count ((pressed catalog scene.player after).resume position []) where
  stack := rfl
  pressed _ := by
    have hfields := field?_pressed catalog (scene.animation.of_heap h.heap).field?_eq scene.player
    exact ⟨(hfields _).trans (if_pos ⟨rfl, Or.inl rfl⟩),
      (hfields _).trans (if_pos ⟨rfl, Or.inr rfl⟩)⟩
  kept object field hother := by
    rw [State.field?_resume, field?_pressed catalog (scene.animation.of_heap h.heap).field?_eq,
      if_neg fun hbutton => hother ⟨hcasts, hbutton⟩, State.field?_eq_of_heap h.heap]
  arrays := by
    funext array
    rw [State.elements?_resume, Fishing.pressed, State.elements?_setField,
      State.elements?_setField, State.elements?_eq_of_heap h.heap]
  statics := h.statics
  arguments := h.arguments
  locals := h.locals
  loads := ⟨looked, hlooks, h.loads⟩

include h

/-- A projectile that was taken is tested: for a bobber of the player the code is left, else the next
slot is turned to. -/
theorem RecastPlaced.run_tests {state : State} {looked index : Nat} {projectile : Value}
    (hlooked : Looked catalog before count looked state)
    (hslot : state.locals[names.projectile.index.toNat]? = some projectile)
    (hprojectile : scene.projectiles[index]? = some projectile) (hless : index < slots.toInt) :
    (scene.IsOut index → Runs list names.gate.slot (state.resume (start + 15) [])
        (state.resume stop [])) ∧
      (¬scene.IsOut index → Runs list names.gate.slot (state.resume (start + 15) [])
        (state.resume (start + 27) [])) := by
  obtain ⟨_, -, hthere, hactive, howner, hbobber⟩ := scene.exists_projectile hless
  obtain rfl := Option.some.inj (hprojectile.symm.trans hthere)
  have hplayer : state.arguments[0]? = some scene.player := hlooked.arguments ▸ scene.isPlayer
  have hfields := State.field?_eq_of_heap hlooked.heap
  have htestActive := h.run_active hslot (hfields ▸ hactive.field?_eq)
  have htestOwner := h.run_owner hslot (hfields ▸ howner.field?_eq) hplayer
    (hfields ▸ scene.number.field?_eq)
  have htestBobber := h.run_bobber hslot (hfields ▸ hbobber.field?_eq)
  have hout := scene.isOut_iff hprojectile
  constructor
  · intro hisOut
    obtain ⟨hisActive, hisOwn, hisBobber⟩ := hout.mp hisOut
    rw [if_neg hisActive] at htestActive
    rw [if_pos hisOwn] at htestOwner
    rw [if_neg hisBobber] at htestBobber
    exact htestActive.trans (htestOwner.trans (htestBobber.trans h.run_found))
  · intro hnotOut
    by_cases hisActive : before.number projectile catalog.projectileActive.token = 0
    · rwa [if_pos hisActive] at htestActive
    rw [if_neg hisActive] at htestActive
    by_cases hisOwn : before.number projectile catalog.projectileOwner.token =
        before.number scene.player catalog.whoAmI.token
    · rw [if_pos hisOwn] at htestOwner
      have hisBobber : before.number projectile catalog.projectileBobber.token = 0 := by
        by_contra hisBobber
        exact hnotOut (hout.mpr ⟨hisActive, hisOwn, hisBobber⟩)
      rw [if_pos hisBobber] at htestBobber
      exact htestActive.trans (htestOwner.trans htestBobber)
    · rw [if_neg hisOwn] at htestOwner
      exact htestActive.trans htestOwner

/-- Without a pole in hand, or while the player is busy, the code is left at once. -/
theorem RecastPlaced.run_idle (hmay : ¬scene.MayCast) :
    Runs list names.gate.slot (before.resume start []) (before.resume stop []) := by
  have hpole := h.run_pole scene.isItem scene.pole.field?_eq
  have hbusy := h.run_busy scene.isPlayer scene.animation.field?_eq
  by_cases hisPole : before.number scene.item catalog.fishingPole.token ≤ 0
  · rwa [if_pos hisPole] at hpole
  · rw [if_neg hisPole] at hpole
    have hnotIdle : ¬before.number scene.player catalog.itemAnimation.token = 0 :=
      fun hidle => hmay ⟨Int32.not_le.mp hisPole, hidle⟩
    rw [if_neg hnotIdle] at hbusy
    exact hpole.trans hbusy

include hnames

/-- A slot is looked at: with a bobber of the player in it the code is left, else the next slot is
turned to. -/
theorem RecastPlaced.run_slot {state : State} {index : Nat}
    (hlooked : Looked catalog before count index state)
    (hindex : state.locals[names.index.index.toNat]? = some (.number (Int32.ofNat index)))
    (hless : index < slots.toInt) : ∃ after, Looked catalog before count (index + 1) after ∧
      after.locals[names.index.index.toNat]? = some (.number (Int32.ofNat index)) ∧
      (scene.IsOut index → Runs list names.gate.slot (state.resume (start + 11) [])
        (after.resume stop [])) ∧
      (¬scene.IsOut index → Runs list names.gate.slot (state.resume (start + 11) [])
        (after.resume (start + 27) [])) := by
  obtain ⟨projectile, helement, hprojectile, -⟩ := scene.exists_projectile hless
  have hvalue : (Int32.ofNat index).toInt.toNat = index := by
    rw [toInt_counter (Int.le_of_lt hless), Int.toNat_natCast]
  have hsize : names.projectile.index.toNat < state.locals.length :=
    hlooked.size.symm ▸ hnames.projectileLess
  -- the state once the projectile is taken, which all tests are made in
  obtain ⟨after, hafter⟩ : ∃ after, after =
    (state.load (state.statics catalog.mainProjectile.token) index).setLocal
      names.projectile.index.toNat projectile := ⟨_, rfl⟩
  have htake : Runs list names.gate.slot (state.resume (start + 11) [])
      (after.resume (start + 15) []) := by
    have hthere : state.element? (state.statics catalog.mainProjectile.token)
        (Int32.ofNat index) = some projectile := by
      rw [State.element?, State.elements?_eq_of_heap hlooked.heap, hlooked.statics]
      exact helement
    have hrun := h.run_take hindex hthere hsize
    rwa [hvalue, ← hafter] at hrun
  have hdone : Looked catalog before count (index + 1) after :=
    hafter ▸ hlooked.load.setLocal hnames.projectile projectile
  have hcounter : after.locals[names.index.index.toNat]? =
      some (.number (Int32.ofNat index)) := by
    rw [hafter, State.setLocal, State.locals_load, List.getElem?_set_ne hnames.ne.symm, hindex]
  have hslot : after.locals[names.projectile.index.toNat]? = some projectile := by
    rw [hafter, State.setLocal, State.locals_load, List.getElem?_set_self hsize]
  obtain ⟨hout, hpassed⟩ := h.run_tests scene hdone hslot hprojectile hless
  exact ⟨after, hdone, hcounter, fun hisOut => htake.trans (hout hisOut),
    fun hnotOut => htake.trans (hpassed hnotOut)⟩

/-- From any slot on, the slots are looked at until one has a bobber of the player in it, where the
code is left, or until all have been looked at. -/
theorem RecastPlaced.run_loop {state : State} {index : Nat}
    (hlooked : Looked catalog before count index state)
    (hindex : state.locals[names.index.index.toNat]? = some (.number (Int32.ofNat index)))
    (hwithin : index ≤ slots.toInt) (hclear : ∀ earlier < index, ¬scene.IsOut earlier) :
    (∃ found after, scene.IsOut found ∧ found < slots.toInt ∧
      (∀ earlier < found, ¬scene.IsOut earlier) ∧ Looked catalog before count (found + 1) after ∧
      Runs list names.gate.slot (state.resume (start + 31) []) (after.resume stop [])) ∨
    (∀ earlier : Nat, earlier < slots.toInt → ¬scene.IsOut earlier) ∧
      ∃ after, Looked catalog before count slots.toInt.toNat after ∧
        Runs list names.gate.slot (state.resume (start + 31) [])
          (after.resume (start + 34) []) := by
  -- induction on how many slots are left
  obtain ⟨left, hleft⟩ : ∃ left : Nat, index + left = slots.toInt :=
    ⟨(slots.toInt - index).toNat, by omega⟩
  induction left generalizing state index with
  | zero =>
    right
    have hcheck := h.run_check hindex
    rw [if_neg ((counter_lt_iff hwithin).not.mpr (by omega))] at hcheck
    have hall : slots.toInt.toNat = index := by omega
    exact ⟨fun earlier hearlier => hclear earlier (by omega), state, hall ▸ hlooked, hcheck⟩
  | succ left ih =>
    have hless : (index : Int) < slots.toInt := by omega
    have hcheck := h.run_check hindex
    rw [if_pos ((counter_lt_iff hwithin).mpr hless)] at hcheck
    obtain ⟨between, hbetween, hcounter, hfound, hpassed⟩ :=
      h.run_slot scene hnames hlooked hindex hless
    by_cases hout : scene.IsOut index
    · left
      exact ⟨index, between, hout, hless, hclear, hbetween, hcheck.trans (hfound hout)⟩
    · have hround := hcheck.trans ((hpassed hout).trans (h.run_next hcounter))
      have hsum : Int32.ofNat index + 1 = Int32.ofNat (index + 1) :=
        (Int32.ofNat_add index 1).symm
      rw [hsum] at hround
      have hsize : names.index.index.toNat < between.locals.length :=
        hbetween.size.symm ▸ hnames.indexLess
      have hclear : ∀ earlier < index + 1, ¬scene.IsOut earlier := by
        intro earlier hearlier
        rcases Nat.lt_succ_iff_lt_or_eq.mp hearlier with hlt | rfl
        · exact hclear earlier hlt
        · exact hout
      have hrest := ih (hbetween.setLocal hnames.index _) (List.getElem?_set_self hsize)
        (by omega) hclear (by omega)
      refine hrest.imp ?_ ?_
      · rintro ⟨found, after, hisOut, hfound, hbefore, hafter, hruns⟩
        exact ⟨found, after, hisOut, hfound, hbefore, hafter, hround.trans hruns⟩
      · rintro ⟨hnone, after, hafter, hruns⟩
        exact ⟨hnone, after, hafter, hround.trans hruns⟩

/-- From the first instruction of the code on, the test of the use button is reached, and the button
is pressed anew exactly when the game is to cast. -/
theorem RecastPlaced.run (hslots : 0 < slots)
    (hstop : list.slotAt? stop = some names.gate.slot)
    (hbehind : list.slotAt? (start + 40) = some names.gate.slot) :
    ∃ after, Arrives list names.gate.slot (before.resume start []) after ∧
      scene.Leaves count after := by
  have hpositive : 0 < slots.toInt := Int32.lt_iff_toInt_lt.mp hslots
  by_cases hmay : scene.MayCast
  · have hpole := h.run_pole scene.isItem scene.pole.field?_eq
    have hbusy := h.run_busy scene.isPlayer scene.animation.field?_eq
    rw [if_neg (Int32.not_le.mpr hmay.1)] at hpole
    rw [if_pos hmay.2] at hbusy
    have hentry := hpole.trans (hbusy.trans (h.run_start hnames.indexLess))
    have hloop := h.run_loop scene hnames
      ((Looked.zero catalog before count).setLocal hnames.index (.number 0))
      (List.getElem?_set_self hnames.indexLess) (by omega) (by simp)
    rcases hloop with ⟨found, after, hout, hfound, hbefore, hlooked, hruns⟩ |
      ⟨hnone, after, hlooked, hruns⟩
    · refine ⟨_, ⟨hentry.trans hruns, hstop⟩, hlooked.leaves ?_ ?_ _⟩
      · exact {
          idle := fun hnot => absurd hmay hnot
          within := by omega
          before := fun index hindex => hbefore index (by omega)
          last := fun _ _ => ⟨found, rfl, hout⟩ }
      · exact fun hcasts => hcasts.2 found hfound hout
    · have hall : (slots.toInt.toNat : Int) = slots.toInt := by omega
      have hplayer : after.arguments[0]? = some scene.player := hlooked.arguments ▸ scene.isPlayer
      have hpress := h.run_press hplayer (scene.animation.of_heap hlooked.heap).field?_eq
      refine ⟨_, ⟨hentry.trans (hruns.trans hpress), hbehind⟩, hlooked.leaves_pressed ?_ ?_ _⟩
      · exact {
          idle := fun hnot => absurd hmay hnot
          within := by omega
          before := fun index hindex => hnone index (by omega)
          last := fun _ hless => absurd hless (by omega) }
      · exact ⟨hmay, hnone⟩
  · refine ⟨_, ⟨h.run_idle scene hmay, hstop⟩,
      (Looked.zero catalog before count).leaves ?_ (fun hcasts => hmay hcasts.1) _⟩
    exact {
      idle := fun _ => rfl
      within := by omega
      before := fun index hindex => absurd hindex (by omega)
      last := fun hmay' => absurd hmay' hmay }

end Loop

end CilPatch.Fishing
