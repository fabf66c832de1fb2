import CilPatch.Proofs.Fishing.Casting
import CilPatch.Proofs.Patch.Failure

/-!
# What the patch that casts again does

The code is accepted whatever the method is, if there is room for its two variables and the fields
are those of objects and of types that it takes them for. Once it is spliced, it runs in front of
the test of the use button.
-/

namespace CilPatch.Fishing

open Execution

/-- Whether the table of projectiles belongs to a type, and the other fields that the code uses
belong to objects. -/
structure RecastFields (catalog : Catalog) : Prop where
  mainProjectile : catalog.mainProjectile.isStatic = true
  fishingPole : catalog.fishingPole.isStatic = false
  itemAnimation : catalog.itemAnimation.isStatic = false
  projectileActive : catalog.projectileActive.isStatic = false
  projectileOwner : catalog.projectileOwner.isStatic = false
  projectileBobber : catalog.projectileBobber.isStatic = false
  whoAmI : catalog.whoAmI.isStatic = false
  controlUseItem : catalog.controlUseItem.isStatic = false
  releaseUseItem : catalog.releaseUseItem.isStatic = false

variable {catalog : Catalog} {slots : Int32} {heldItem : UInt16} {body : Body} {gate : Slot}
  {index : Nat}

/-- The jumps of the code leave an empty stack, and each of its labels is bound once. -/
theorem passAll?_recastCalls (catalog : Catalog) (slots : Int32) (heldItem : UInt16)
    (names : RecastNames) : Outline.passAll?
        [names.gate.slot, names.body.slot, names.next.slot, names.check.slot]
        (recastCalls catalog slots heldItem names)
        ⟨0, true, false, [names.body.slot, names.next.slot, names.check.slot]⟩ =
      some ⟨0, true, false, []⟩ := by
  have hldfld : Opcode.ldfld.effect? = some (1, 1) := by decide +kernel
  have hstfld : Opcode.stfld.effect? = some (2, 0) := by decide +kernel
  have hldsfld : Opcode.ldsfld.effect? = some (0, 1) := by decide +kernel
  have hldarg : Opcode.ldarg0.effect? = some (0, 1) := by decide +kernel
  have hldelem : Opcode.ldelemRef.effect? = some (2, 1) := by decide +kernel
  have hadd : Opcode.add.effect? = some (2, 1) := by decide +kernel
  have hble : Opcode.ble.entry.pops = 2 ∧ Opcode.ble.entry.pushes = 0 := by decide +kernel
  have hblt : Opcode.blt.entry.pops = 2 ∧ Opcode.blt.entry.pushes = 0 := by decide +kernel
  have hbneUn : Opcode.bneUn.entry.pops = 2 ∧ Opcode.bneUn.entry.pushes = 0 := by decide +kernel
  have hbrfalse : Opcode.brfalse.entry.pops = 1 ∧ Opcode.brfalse.entry.pushes = 0 := by
    decide +kernel
  have hbr : Opcode.br.entry.pops = 0 ∧ Opcode.br.entry.pushes = 0 := by decide +kernel
  simp [recastCalls, Outline.passAll?, Outline.pass?_op hldarg, Outline.pass?_op hldelem,
    Outline.pass?_op hadd, Outline.pass?_field hldfld, Outline.pass?_field hstfld,
    Outline.pass?_field hldsfld, Outline.pass?_branch hble (by decide +kernel),
    Outline.pass?_branch hblt (by decide +kernel), Outline.pass?_branch hbneUn (by decide +kernel),
    Outline.pass?_branch hbrfalse (by decide +kernel), Outline.pass?_goto hbr (by decide +kernel)]

/-- The variables of the code are behind those of the method. -/
theorem RecastNames.toNat_of (gate : Slot) (hroom : body.localCount + 2 ≤ Body.localLimit) :
    (RecastNames.of body gate).index.index.toNat = body.localCount ∧
      (RecastNames.of body gate).projectile.index.toNat = body.localCount + 1 := by
  have hlimit : Body.localLimit = 0xFFFF := rfl
  have hsize : UInt16.size = 65536 := rfl
  exact ⟨UInt16.toNat_ofNat_of_lt' (by omega), UInt16.toNat_ofNat_of_lt' (by omega)⟩

/-- The calls use fields and variables as they are. -/
theorem fits_recastCalls (slots : Int32) (gate : Slot) (hfields : RecastFields catalog)
    (hheld : heldItem.toNat < body.localCount) (hroom : body.localCount + 2 ≤ Body.localLimit) :
    ∀ call ∈ recastCalls catalog slots heldItem (.of body gate),
      call.Fits (body.localCount + 2) := by
  obtain ⟨hindex, hprojectile⟩ := RecastNames.toNat_of gate hroom
  have hobject : Build.accessesStatic .ldfld = false ∧ Build.accessesStatic .stfld = false ∧
      Build.accessesStatic .ldsfld = true := by decide +kernel
  have hbehind : heldItem.toNat < body.localCount + 2 := by omega
  simp [recastCalls, Call.Fits, hobject, hindex, hprojectile, hbehind, hfields.mainProjectile,
    hfields.fishingPole, hfields.itemAnimation, hfields.projectileActive, hfields.projectileOwner,
    hfields.projectileBobber, hfields.whoAmI, hfields.controlUseItem, hfields.releaseUseItem]

/-- The session is accepted if there is room for its variables and the fields are as it takes
them. -/
theorem exists_run_recastSession (slots : Int32) (gate : Slot) (hfields : RecastFields catalog)
    (hheld : heldItem.toNat < body.localCount) (hroom : body.localCount + 2 ≤ Body.localLimit) :
    ∃ builder, (forM (recastSession catalog slots heldItem body gate) Call.step :
        Build Unit).run (Builder.start body gate) = (.ok (), builder) ∧
      builder.continuation = gate ∧
      builder.Shows body (body.localCount + 2)
        [(RecastNames.of body gate).body.slot, (RecastNames.of body gate).next.slot,
          (RecastNames.of body gate).check.slot] ⟨0, true, false, []⟩ := by
  have hdeclared : (recastDeclared catalog body gate).Shows body (body.localCount + 2) []
      ⟨0, true, false, []⟩ := ((Builder.shows_start body gate).declared _).declared _
  have hopened := hdeclared.reservedNext.reservedNext.reservedNext
  have hwaits : (recastDeclared catalog body
      gate).reservedNext.reservedNext.reservedNext.continuation = gate := rfl
  have hfront := (run_recastFront_eq_ok_iff catalog body gate).mpr ⟨hroom, rfl⟩
  have hfits := fits_recastCalls slots gate hfields hheld hroom
  have hpass := passAll?_recastCalls catalog slots heldItem (.of body gate)
  rw [recastSession, List.forM_append, step_bind, hfront]
  rw [RecastNames.of_eq catalog] at hfits hpass ⊢
  obtain ⟨builder, hrun, hsame, hshows⟩ := hopened.run (by simp [hwaits]) hfits hpass
  exact ⟨builder, hrun, hsame, hshows⟩

/-- A method for which the session is accepted has room for its variables. -/
theorem room_of_run {builder : Builder}
    (h : (forM (recastSession catalog slots heldItem body gate) Call.step : Build Unit).run
      (Builder.start body gate) = (.ok (), builder)) : body.localCount + 2 ≤ Body.localLimit := by
  rw [recastSession, List.forM_append, run_bind_eq_ok_iff] at h
  obtain ⟨⟨⟩, opened, hfront, -⟩ := h
  exact ((run_recastFront_eq_ok_iff catalog body gate).mp hfront).1

/-- The fields are as an accepted session takes them. -/
theorem recastFields_of_run {builder : Builder}
    (h : (forM (recastSession catalog slots heldItem body gate) Call.step : Build Unit).run
      (Builder.start body gate) = (.ok (), builder)) : RecastFields catalog := by
  have hfield (opcode : Opcode) (handle : FieldHandle)
      (hmem : .field opcode handle ∈ recastCalls catalog slots heldItem (.of body gate)) :
      handle.isStatic = Build.accessesStatic opcode := by
    obtain ⟨before, next, hstep⟩ := Builder.exists_run_eq_ok h (List.mem_append_right _ hmem)
    exact (Call.accessesStatic_eq_of_run hstep).symm
  exact {
    mainProjectile := hfield .ldsfld _ (by simp [recastCalls])
    fishingPole := hfield .ldfld _ (by simp [recastCalls])
    itemAnimation := hfield .ldfld _ (by simp [recastCalls])
    projectileActive := hfield .ldfld _ (by simp [recastCalls])
    projectileOwner := hfield .ldfld _ (by simp [recastCalls])
    projectileBobber := hfield .ldfld _ (by simp [recastCalls])
    whoAmI := hfield .ldfld _ (by simp [recastCalls])
    controlUseItem := hfield .stfld _ (by simp [recastCalls])
    releaseUseItem := hfield .stfld _ (by simp [recastCalls]) }

/-- The code is placed, the instruction behind it included. -/
theorem recastPlaced_of_spliced {report : SpliceReport} {after : Body}
    (h : Spliced body gate (recastSession catalog slots heldItem body gate) index report after) :
    ∃ stop, RecastPlaced catalog slots heldItem (.of body gate) after.instructions index stop ∧
      after.instructions.slotAt? stop = some gate := by
  obtain ⟨stop, hstop, hthere⟩ := h.exists_position?_gate
  refine ⟨stop, ?_, hthere⟩
  exact {
    placed := h.placed (meaning?_code catalog slots heldItem body gate)
    gate := hstop
    body := h.position?_label (show _[16]? = _ from rfl) rfl rfl
    next := h.position?_label (show _[33]? = _ from rfl) rfl rfl
    check := h.position?_label (show _[38]? = _ from rfl) rfl rfl }

section Spliced

variable {report : SpliceReport} {after : Body}
  (h : Spliced body gate (recastSession catalog slots heldItem body gate) index report after)
  (hheld : heldItem.toNat < body.localCount)
include h hheld

/-- A method that the code was spliced into has two variables more, and had room for them. -/
theorem localCount_of_spliced :
    body.localCount + 2 ≤ Body.localLimit ∧ after.localCount = body.localCount + 2 := by
  obtain ⟨builder, fragment, hrun, -⟩ := h.exists_fragment
  have hroom := room_of_run hrun
  obtain ⟨other, hother, -, hshows⟩ :=
    exists_run_recastSession slots gate (recastFields_of_run hrun) hheld hroom
  exact ⟨hroom, (h.localCount_eq hother).trans hshows.locals⟩

/-- From the first instruction of the code on, the test of the use button is reached in one state,
and the button is pressed anew there exactly when the game is to cast. -/
theorem arrives_of_spliced (hslots : 0 < slots) {state : State} (hstack : state.stack = [])
    (hposition : state.position = index) (hlocals : state.locals.length = after.localCount)
    (scene : Scene catalog slots heldItem state) :
    (∃ last, Arrives after.instructions gate state last) ∧
      ∀ last, Arrives after.instructions gate state last → scene.Leaves body.localCount last := by
  obtain ⟨stop, hplaced, hstop⟩ := recastPlaced_of_spliced h
  obtain ⟨hroom, hcount⟩ := localCount_of_spliced h hheld
  -- the variables of the code are two of their own
  have hapart : (RecastNames.of body gate).Apart body.localCount state.locals.length := by
    obtain ⟨hindex, hprojectile⟩ := RecastNames.toNat_of gate hroom
    exact ⟨by omega, by omega, by omega, by omega, by omega⟩
  obtain ⟨last, harrives, hleaves⟩ := hplaced.run scene hapart hslots hstop h.slotAt?_behind
  rw [← hposition, ← hstack, State.resume_self] at harrives
  exact ⟨⟨last, harrives⟩, fun other hother => harrives.unique hother ▸ hleaves⟩

end Spliced

section Patch

variable {config : Config} {assembly edited : Assembly} {report : SpliceReport}

/-- Where the patch was injected, its code was spliced. -/
theorem exists_spliced_of_inject (hbacked : body.instructions.isBacked = true)
    (hslots : 0 < config.maxProjectiles)
    (h : ((autoRecast catalog config).inject body index gate).outcome assembly =
      (.ok report, edited)) :
    ∃ after, edited.body catalog.itemCheck.token = .ok after ∧
      Spliced body gate
        (recastSession catalog config.maxProjectiles config.heldItemLocal body gate) index report
        after := by
  obtain ⟨builder, fragment, after, hbuild, hfinish, hsplice, rfl⟩ := Patch.inject_eq_ok_iff.mp h
  refine ⟨after, ?_, hbacked, builder, fragment, ?_, hfinish, hsplice⟩
  · rw [Assembly.body_setBody]
    exact if_pos rfl
  · rw [← run_recast catalog _ _ hslots]
    exact hbuild

/-- The patch is injected exactly when the method has room for the variables of the code and the
fields are as it takes them. -/
theorem exists_inject_iff (hgate : body.instructions.slotAt? index = some gate)
    (hheld : config.heldItemLocal.toNat < body.localCount) (hslots : 0 < config.maxProjectiles) :
    (∃ report edited, ((autoRecast catalog config).inject body index gate).outcome assembly =
        (.ok report, edited)) ↔
      body.localCount + 2 ≤ Body.localLimit ∧ RecastFields catalog := by
  constructor
  · rintro ⟨report, edited, h⟩
    obtain ⟨builder, fragment, after, hbuild, -⟩ := Patch.inject_eq_ok_iff.mp h
    have hrun := (run_recast catalog _ config.heldItemLocal hslots body gate).symm.trans hbuild
    exact ⟨room_of_run hrun, recastFields_of_run hrun⟩
  · rintro ⟨hroom, hfields⟩
    obtain ⟨builder, hrun, rfl, hshows⟩ :=
      exists_run_recastSession config.maxProjectiles gate hfields hheld hroom
    obtain ⟨fragment, hfinish⟩ := hshows.finish
    have hemitted : 0 < builder.emitted.size :=
      Array.size_pos_of_mem ((Builder.finishes_of_finish hfinish).placed _
        (hshows.reserved ▸ List.mem_cons_self))
    obtain ⟨entry, hfits⟩ := hshows.fits hfinish hemitted hgate
    have hspace : fragment.HasRoom :=
      Builder.hasRoom_of_session ((Builder.after_of_forM hrun).symm ▸ hfinish)
    exact ⟨_, _, Patch.inject_eq_ok_iff.mpr ⟨builder, fragment, _,
      (run_recast catalog _ _ hslots body _).trans hrun, hfinish, hspace.splice_of_fits hfits, rfl⟩⟩

/-- **Casting again.** Take a method in which the item in hand has a variable, any instruction of
it, and any number of projectile slots. The patch is injected in front of the instruction exactly
when there is room for two more variables and the fields of the catalog are of objects and of types
as the code takes them. Once it is injected, execution gets from the first instruction of the code
to the one behind it, whatever the state is, as long as the stack is empty and the player, the item
in hand and the projectiles are there. Then the stack is empty, the button counts as pressed anew if
the player holds a fishing pole, is not busy and has no bobber in the world, and nothing else is
changed: no other field, nothing at all if the game is not to cast, and no variable of the method.
The slots are looked at in order, up to the first one with a bobber of the player. -/
theorem casts_exactly_without_bobber (hbacked : body.instructions.isBacked = true)
    (hgate : body.instructions.slotAt? index = some gate)
    (hheld : config.heldItemLocal.toNat < body.localCount) (hslots : 0 < config.maxProjectiles) :
    ((∃ report edited, ((autoRecast catalog config).inject body index gate).outcome assembly =
        (.ok report, edited)) ↔
      body.localCount + 2 ≤ Body.localLimit ∧ RecastFields catalog) ∧
    ∀ report edited, ((autoRecast catalog config).inject body index gate).outcome assembly =
        (.ok report, edited) →
      report.index = index ∧ ∃ after, edited.body catalog.itemCheck.token = .ok after ∧
        after.localCount = body.localCount + 2 ∧
        ∀ state : State, state.stack = [] → state.position = index →
          state.locals.length = after.localCount →
          ∀ scene : Scene catalog config.maxProjectiles config.heldItemLocal state,
            (∃ last, Arrives after.instructions gate state last) ∧
              ∀ last, Arrives after.instructions gate state last →
                scene.Leaves body.localCount last := by
  refine ⟨exists_inject_iff hgate hheld hslots, fun report edited h => ?_⟩
  obtain ⟨after, hafter, hspliced⟩ := exists_spliced_of_inject hbacked hslots h
  refine ⟨hspliced.index_eq, after, hafter, (localCount_of_spliced hspliced hheld).2, ?_⟩
  intro state hstack hposition hlocals scene
  exact arrives_of_spliced hspliced hheld hslots hstack hposition hlocals scene

end Patch

/-- A catalog whose fields are numbered in its own order. -/
def numberedCatalog : Catalog where
  projectile := ⟨0x02000001⟩
  player := ⟨0x02000002⟩
  main := ⟨0x02000003⟩
  item := ⟨0x02000004⟩
  entity := ⟨0x02000005⟩
  projectileAi := ⟨⟨0x04000001⟩, false⟩
  projectileOwner := ⟨⟨0x04000002⟩, false⟩
  projectileActive := ⟨⟨0x04000003⟩, false⟩
  projectileBobber := ⟨⟨0x04000004⟩, false⟩
  mainPlayer := ⟨⟨0x04000005⟩, true⟩
  mainMyPlayer := ⟨⟨0x04000006⟩, true⟩
  mainProjectile := ⟨⟨0x04000007⟩, true⟩
  controlUseItem := ⟨⟨0x04000008⟩, false⟩
  releaseUseItem := ⟨⟨0x04000009⟩, false⟩
  itemAnimation := ⟨⟨0x0400000A⟩, false⟩
  whoAmI := ⟨⟨0x0400000B⟩, false⟩
  fishingPole := ⟨⟨0x0400000C⟩, false⟩
  consumeBait := ⟨⟨0x06000001⟩, false, 1, 0⟩
  pullBobber := ⟨⟨0x06000002⟩, false, 1, 0⟩
  kill := ⟨⟨0x06000003⟩, false, 1, 0⟩
  bobberAi := ⟨⟨0x06000004⟩, false, 1, 0⟩
  itemCheck := ⟨⟨0x06000005⟩, false, 1, 0⟩

/-- A game with two projectile slots. -/
def pondConfig : Config where
  directory := ""
  maxProjectiles := 2

/-- A method with two variables that tests the use button. -/
def gateBody : Body where
  instructions := .ofInstructions #[⟨.ldarg0, .none⟩,
    ⟨.ldfld, .token numberedCatalog.controlUseItem.token⟩, ⟨.brfalse, .target ⟨3⟩⟩, ⟨.ret, .none⟩]
  regions := []
  maxStack := 8
  initLocals := true
  localSig := 0
  declared := 2
  added := []

/-- The player holds a fishing pole, and of two projectiles the second one is a bobber. -/
def pond (owner : Int32) : State where
  arguments := [.reference 0]
  locals := [.null, .reference 1, .null, .null]
  stack := []
  position := 0
  heap address := match address with
    | 0 => some (.object fun _ => .number 0)
    | 1 => some (.object fun _ => .number 15)
    | 2 => some (.array [.reference 3, .reference 4])
    | 3 => some (.object fun _ => .number 0)
    | 4 => some (.object fun field =>
        if field = numberedCatalog.projectileOwner.token then .number owner else .number 1)
    | _ => none
  statics _ := .reference 2
  loads := []

/-- What there is in the pond. -/
def pondScene (owner : Int32) :
    Scene numberedCatalog pondConfig.maxProjectiles pondConfig.heldItemLocal (pond owner) where
  player := .reference 0
  item := .reference 1
  projectiles := [.reference 3, .reference 4]
  isPlayer := rfl
  isItem := rfl
  isTable := rfl
  animation := ⟨0, rfl⟩
  number := ⟨0, rfl⟩
  pole := ⟨15, rfl⟩
  filled index hindex := by
    have hslots : pondConfig.maxProjectiles.toInt = 2 := rfl
    obtain rfl | rfl : index = 0 ∨ index = 1 := by omega
    · exact ⟨_, rfl, ⟨0, rfl⟩, ⟨0, rfl⟩, ⟨0, rfl⟩⟩
    · exact ⟨_, rfl, ⟨1, rfl⟩, ⟨owner, rfl⟩, ⟨1, rfl⟩⟩

/-- The game is to cast unless the bobber is that of the player. -/
theorem casts_pondScene {owner : Int32} : (pondScene owner).Casts ↔ owner ≠ 0 := by
  have hslots : pondConfig.maxProjectiles.toInt = 2 := rfl
  have hfirst : ¬(pondScene owner).IsOut 0 := fun hout =>
    (((pondScene owner).isOut_iff rfl).mp hout).1 rfl
  have hsecond : (pondScene owner).IsOut 1 ↔ owner = 0 := by
    have hone : (1 : Int32) ≠ 0 := by decide
    rw [(pondScene owner).isOut_iff (show _ = some (.reference 4) from rfl)]
    exact ⟨fun hout => hout.2.1, fun howner => ⟨hone, howner, hone⟩⟩
  have hpole : (pond owner).number (pondScene owner).item numberedCatalog.fishingPole.token = 15 :=
    rfl
  have hmay : (pondScene owner).MayCast := ⟨hpole ▸ by decide, rfl⟩
  constructor
  · rintro ⟨-, hnone⟩ howner
    exact hnone 1 (by omega) (hsecond.mpr howner)
  · refine fun howner => ⟨hmay, fun index hindex => ?_⟩
    obtain rfl | rfl : index = 0 ∨ index = 1 := by omega
    · exact hfirst
    · exact fun hout => howner (hsecond.mp hout)

/-- With a bobber of somebody else in the pond the game casts, with one of the player it does
not. -/
theorem casts_exactly_without_bobber_pond :
    gateBody.instructions.isBacked = true ∧ gateBody.instructions.slotAt? 0 = some ⟨0⟩ ∧
      pondConfig.heldItemLocal.toNat < gateBody.localCount ∧ 0 < pondConfig.maxProjectiles ∧
      ∃ report edited after,
        ((autoRecast numberedCatalog pondConfig).inject gateBody 0 ⟨0⟩).outcome branchAssembly =
          (.ok report, edited) ∧
        edited.body numberedCatalog.itemCheck.token = .ok after ∧
        (∃ last, Arrives after.instructions ⟨0⟩ (pond 7) last ∧
          last.field? (.reference 0) numberedCatalog.controlUseItem.token = some (.number 1)) ∧
        ∃ last, Arrives after.instructions ⟨0⟩ (pond 0) last ∧
          last.field? (.reference 0) numberedCatalog.controlUseItem.token = some (.number 0) := by
  have hbacked : gateBody.instructions.isBacked = true := by decide +kernel
  have hgate : gateBody.instructions.slotAt? 0 = some ⟨0⟩ := by decide +kernel
  have hheld : pondConfig.heldItemLocal.toNat < gateBody.localCount := by decide
  have hslots : 0 < pondConfig.maxProjectiles := by decide
  refine ⟨hbacked, hgate, hheld, hslots, ?_⟩
  obtain ⟨hiff, hruns⟩ := @casts_exactly_without_bobber numberedCatalog gateBody ⟨0⟩ 0 pondConfig
    branchAssembly hbacked hgate hheld hslots
  obtain ⟨report, edited, h⟩ := hiff.mpr ⟨by decide, ⟨rfl, rfl, rfl, rfl, rfl, rfl, rfl, rfl, rfl⟩⟩
  obtain ⟨-, after, hafter, hcount, hstates⟩ := hruns report edited h
  refine ⟨report, edited, after, h, hafter, ?_, ?_⟩
  · obtain ⟨⟨last, harrives⟩, hleaves⟩ := hstates (pond 7) rfl rfl hcount.symm (pondScene 7)
    exact ⟨last, harrives, ((hleaves last harrives).pressed (casts_pondScene.mpr (by decide))).1⟩
  · obtain ⟨⟨last, harrives⟩, hleaves⟩ := hstates (pond 0) rfl rfl hcount.symm (pondScene 0)
    refine ⟨last, harrives, ((hleaves last harrives).kept _ _ ?_).trans rfl⟩
    exact fun hcasts => casts_pondScene.mp hcasts.1 rfl

end CilPatch.Fishing
