import CilPatch.Game.Patcher
import CilPatch.Proofs.Disk.Output
import CilPatch.Proofs.Game.Backup

/-!
# What a run leaves

A run prepares the files, loads the executable, makes a new image of it, writes that over the
executable and records its digest. Wherever it stops, the files are those that the steps before
have left.
-/

namespace CilPatch

namespace Patcher

variable {config : Config} {disk ready : Disk} {action : Option BackupAction} {data : Bytes}
  {assembly : Assembly} {fault : Fault}

/-- What is done before the executable is loaded. -/
def prepared (config : Config) : Task Disk (Option BackupAction) :=
  if config.backup then some <$> (Backup.ofConfig config).prepare else pure none

/-- What each patch did to a loaded image, and the new image: everything is looked up, found,
built, put in and encoded. -/
def patched (config : Config) (assembly : Assembly) : Except Fault (List PatchOutcome × Bytes) := do
  let (outcomes, assembly) ← (patchImage config assembly).result
  return (outcomes, ← assembly.toBytes.result)

/-- The executable is loaded but cannot be patched. -/
def Refuses (config : Config) (data : Bytes) (fault : Fault) : Prop := ∃ assembly,
  (load data).result = .ok assembly ∧ patched config assembly = .error fault

/-- The executable is loaded and patched. -/
def Rewrites (config : Config) (data image : Bytes) : Prop := ∃ assembly outcomes,
  (load data).result = .ok assembly ∧ patched config assembly = .ok (outcomes, image)

/-- What is done after the new image is made. -/
def finished (config : Config) (action : Option BackupAction) (outcomes : List PatchOutcome)
    (data image : Bytes) : Task Disk PatchReport := do
  Output.replace config.exePath image
  let hash ← if config.backup then some <$> (Backup.ofConfig config).record else pure none
  (note .game .info ("Original: " ++ toString data.size ++ " bytes")).toTask
  (note .game .info ("Patched:  " ++ toString image.size ++ " bytes")).toTask
  return {
    backup := action
    outcomes
    sizeBefore := data.size
    sizeAfter := image.size
    hash }

/-- What is done once the files are prepared. -/
def carriedOn (config : Config) (action : Option BackupAction) : Task Disk PatchReport := do
  (note .game .info ("Loading " ++ config.exePath)).toTask
  let data ← Task.inspect (·.map config.exePath)
  let assembly ← (load data).toTask
  let (outcomes, assembly) ← (patchImage config assembly).toTask
  (note .game .info ("Saving patched " ++ config.exePath)).toTask
  let image ← assembly.toBytes.toTask
  finished config action outcomes data image

/-- A run checks the configuration, prepares the files and carries on. -/
theorem run_eq (config : Config) : run config =
    Task.ofExcept config.validate >>= fun _ => prepared config >>= carriedOn config := by
  unfold run prepared carriedOn finished
  cases config.backup
  · simp only [Bool.false_eq_true, if_false]
  · simp only [if_true]

/-- A run of a valid configuration carries on where preparing stopped, unless that failed. -/
theorem outcome_run (hvalid : config.validate = .ok ()) (disk : Disk) :
    (run config).outcome disk =
      match (prepared config).outcome disk with
      | (.ok action, ready) => (carriedOn config action).outcome ready
      | (.error fault, after) => (.error fault, after) := by
  rw [run_eq, Task.outcome_bind, Task.outcome_ofExcept, hvalid]
  simp only
  rw [Task.outcome_bind]
  rcases (prepared config).outcome disk with ⟨_ | _, _⟩ <;> rfl

/-- Nothing is written before the new image is made. -/
theorem outcome_carriedOn (config : Config) (action : Option BackupAction) (ready : Disk) :
    (carriedOn config action).outcome ready =
      match ready.map config.exePath with
      | .error fault => (.error fault, ready)
      | .ok data =>
        match (load data).result with
        | .error fault => (.error fault, ready)
        | .ok assembly =>
          match patched config assembly with
          | .error fault => (.error fault, ready)
          | .ok (outcomes, image) => (finished config action outcomes data image).outcome ready := by
  simp only [carriedOn, Task.outcome_bind, Task.outcome_toTask, Task.outcome_inspect,
    Noted.result_note]
  cases ready.map config.exePath with
  | error fault => rfl
  | ok data =>
    simp only
    cases (load data).result with
    | error fault => rfl
    | ok assembly =>
      simp only [patched]
      rcases (patchImage config assembly).result with fault | ⟨outcomes, edited⟩
      · rfl
      · simp only [bind, Except.bind]
        cases edited.toBytes.result <;> rfl

/-- Carrying on fails before anything is written, or finishes with a new image. -/
theorem carriedOn_cases (config : Config) (action : Option BackupAction) (ready : Disk) :
    (∃ fault, (carriedOn config action).outcome ready = (.error fault, ready)) ∨
    ∃ data outcomes image, ready.map config.exePath = .ok data ∧ Rewrites config data image ∧
      (carriedOn config action).outcome ready =
        (finished config action outcomes data image).outcome ready := by
  rw [outcome_carriedOn]
  cases ready.map config.exePath with
  | error fault => exact .inl ⟨fault, rfl⟩
  | ok data =>
    cases hload : (load data).result with
    | error fault =>
      simp only [hload]
      exact .inl ⟨fault, rfl⟩
    | ok assembly =>
      simp only [hload]
      cases hpatched : patched config assembly with
      | error fault => exact .inl ⟨fault, rfl⟩
      | ok made =>
        exact .inr ⟨data, made.1, made.2, rfl, ⟨assembly, made.1, hload, hpatched⟩, rfl⟩

/-- A run that cannot patch the executable leaves the files as they were prepared. -/
theorem outcome_carriedOn_of_refuses (hdata : ready.map config.exePath = .ok data)
    (h : Refuses config data fault) :
    (carriedOn config action).outcome ready = (.error fault, ready) := by
  obtain ⟨assembly, hload, hpatched⟩ := h
  rw [outcome_carriedOn, hdata]
  simp only [hload, hpatched]

/-- What preparing leaves, with a backup or without one. -/
theorem prepared_cases (h : (prepared config).outcome disk = (.ok action, ready)) :
    (config.backup = false ∧ action = none ∧ ready = disk) ∨
    (config.backup = true ∧ ∃ done, action = some done ∧
      (Backup.ofConfig config).prepare.outcome disk = (.ok done, ready)) := by
  unfold prepared at h
  split at h
  · next hbackup =>
    rw [Task.outcome_map] at h
    rcases hprepare : (Backup.ofConfig config).prepare.outcome disk with ⟨fault | done, after⟩
    · rw [hprepare] at h
      cases h
    · rw [hprepare] at h
      obtain ⟨hdone, rfl⟩ := Prod.mk.inj h
      exact .inr ⟨hbackup, done, (Except.ok.inj hdone).symm, rfl⟩
  · next hbackup =>
    obtain ⟨haction, rfl⟩ := Prod.mk.inj h
    exact .inl ⟨by simpa using hbackup, (Except.ok.inj haction).symm, rfl⟩

/-- Preparing leaves the executable alone unless it is known to be patched; then the copy takes
its place. -/
theorem content?_prepared (h : (prepared config).outcome disk = (.ok action, ready)) :
    ready.content? config.exePath =
      if config.backup ∧ ((Backup.ofConfig config).state disk).toOption = some .patched then
        disk.content? config.backupPath
      else disk.content? config.exePath := by
  rcases prepared_cases h with ⟨hbackup, -, rfl⟩ | ⟨hbackup, done, -, hprepare⟩
  · rw [if_neg (by simp [hbackup])]
  · have hprepared := (Backup.apart_ofConfig config disk).prepared
    rw [hprepare] at hprepared
    cases hprepared with
    | done hdirectory hstate hfiles =>
      rw [hstate]
      change ((Backup.ofConfig config).files ready).exe = _
      generalize hready : (Backup.ofConfig config).files ready = files at hfiles
      cases hfiles with
      | created hstate hexe =>
        rw [hstate, if_neg (by simp [Except.toOption])]
        rfl
      | replacedStale hstate hexe =>
        rw [hstate, if_neg (by simp [Except.toOption])]
        rfl
      | restored hstate hcopy =>
        rw [hstate, if_pos ⟨hbackup, rfl⟩]
        exact hcopy.symm
      | replacedAfterUpdate hstate hexe =>
        rw [hstate, if_neg (by simp [Except.toOption])]
        rfl

/-- A run that cannot patch the executable ends with that fault and with the files as they were
prepared. -/
theorem outcome_run_of_refuses (hvalid : config.validate = .ok ())
    (hprepared : (prepared config).outcome disk = (.ok action, ready))
    (hdata : ready.map config.exePath = .ok data) (hrefuses : Refuses config data fault) :
    (run config).outcome disk = (.error fault, ready) := by
  rw [outcome_run hvalid, hprepared]
  exact outcome_carriedOn_of_refuses hdata hrefuses

/-- A run that loads the executable and cannot patch it ends with that fault and writes nothing
after preparing. So the executable is the one before, except that one that was known to be patched
is replaced by the copy. -/
theorem run_of_refuses (hvalid : config.validate = .ok ())
    (hprepared : (prepared config).outcome disk = (.ok action, ready))
    (hdata : ready.map config.exePath = .ok data) (hrefuses : Refuses config data fault) :
    (run config).outcome disk = (.error fault, ready) ∧
      ready.content? config.exePath =
        if config.backup ∧ ((Backup.ofConfig config).state disk).toOption = some .patched then
          disk.content? config.backupPath
        else disk.content? config.exePath :=
  ⟨outcome_run_of_refuses hvalid hprepared hdata hrefuses, content?_prepared hprepared⟩

/-! ## A run that cannot patch what it has restored -/

/-- Bytes that say nothing. -/
private def zeros (count : Nat) : List UInt8 := List.replicate count 0

/-- An image without types, in which nothing that the patches use is found. -/
def bareImage : Bytes := (List.flatten [
  -- the old header
  [0x4D, 0x5A], zeros 58, [0x40, 0, 0, 0],
  -- the file header
  [0x50, 0x45, 0, 0, 0x4C, 1, 1], zeros 13, [0xD8, 0, 2, 0x21],
  -- the optional header and its directories
  [0x0B, 1, 8, 0, 0, 0, 0, 0, 0xBC], zeros 21, [0x40, 0, 0, 0x10, 0, 0, 4, 0, 0, 0, 4, 0, 0, 0,
    0, 0, 0, 0, 4, 0, 0, 0, 0, 0, 0, 0, 0, 0x20, 0, 0, 0x58, 1, 0, 0, 0, 0, 0, 0, 3, 0, 0, 0, 0,
    0, 0x10, 0, 0, 0x10, 0, 0, 0, 0, 0x10, 0, 0, 0x10, 0, 0, 0, 0, 0, 0, 0x0F], zeros 116, [0x10,
    0, 0, 0x48, 0, 0, 0],
  -- the header of the only section
  [0x2E, 0x74, 0x65, 0x78, 0x74, 0, 0, 0, 0xBC, 0, 0, 0, 0, 0x10, 0, 0, 0xBC, 0, 0, 0, 0x58, 1],
    zeros 14, [0x20, 0, 0, 0x60],
  -- the CLI header
  [0x48, 0, 0, 0, 2, 0, 5, 0, 0x48, 0x10, 0, 0, 0x74, 0, 0, 0, 1], zeros 55,
  -- the metadata root with the headers of its streams
  [0x42, 0x53, 0x4A, 0x42, 1, 0, 1], zeros 11, [3, 0, 0x44, 0, 0, 0, 0x28, 0, 0, 0, 0x23, 0x7E,
    0, 0, 0x6C, 0, 0, 0, 4, 0, 0, 0, 0x23, 0x53, 0x74, 0x72, 0x69, 0x6E, 0x67, 0x73, 0, 0, 0, 0,
    0x70, 0, 0, 0, 4, 0, 0, 0, 0x23, 0x42, 0x6C, 0x6F, 0x62, 0, 0, 0],
  -- the tables: one module
  [0, 0, 0, 0, 2, 0, 0, 1, 1], zeros 15, [1], zeros 15,
  -- the empty heaps
  [0, 0, 0, 0, 0, 0, 0, 0]]).toArray

/-- A game in the usual place. -/
def gameConfig : Config := { directory := "/game" }

/-- A game whose executable is known to be patched, next to a copy without types. -/
def restorableGame : Disk where
  directory := "/game"
  files := [("Terraria.exe", #[1]), ("Terraria.exe.bak", bareImage),
    ("Terraria.exe.patched.sha256", (Sha256.text #[1]).toUTF8.data)]

/-- The image without types cannot be patched. -/
private theorem refuses_bareImage : ∃ fault, Refuses gameConfig bareImage fault := by
  have hrefused : (match (load bareImage).result with
      | .ok assembly => (patched gameConfig assembly).toOption.isNone
      | .error _ => false) = true := by decide +kernel
  cases hload : (load bareImage).result with
  | error fault =>
    rw [hload] at hrefused
    cases hrefused
  | ok assembly =>
    rw [hload] at hrefused
    cases hpatched : patched gameConfig assembly with
    | error fault => exact ⟨fault, assembly, hload, hpatched⟩
    | ok made =>
      simp [hpatched, Except.toOption] at hrefused

/-- Preparing restores it. -/
private theorem prepared_restorableGame :
    (prepared gameConfig).outcome restorableGame =
      (.ok (some .restored), restorableGame.setFile "Terraria.exe" bareImage) := by
  have hexe : restorableGame.Leads gameConfig.exePath "Terraria.exe" := by decide +kernel
  have hcopy : restorableGame.Leads gameConfig.backupPath "Terraria.exe.bak" := by decide +kernel
  have hdigest : restorableGame.Leads gameConfig.hashPath "Terraria.exe.patched.sha256" := by
    decide +kernel
  have hstate : (Backup.ofConfig gameConfig).state restorableGame = .ok .patched :=
    Backup.state_eq_patched hcopy.pathExists_eq hdigest.pathExists_eq
      hdigest.read_eq hexe.read_eq
  have hcopied : restorableGame.copy gameConfig.backupPath gameConfig.exePath =
      .ok (restorableGame.setFile "Terraria.exe" bareImage) := by
    rw [hcopy.copy_eq hexe]
    rfl
  have hprepare := Backup.outcome_prepare_of_patched hexe.pathExists_eq hstate hcopied
  rw [prepared, if_pos (show gameConfig.backup = true from rfl), Task.outcome_map, hprepare]

/-- The restored executable is loaded. -/
private theorem map_restorableGame :
    (restorableGame.setFile "Terraria.exe" bareImage).map gameConfig.exePath = .ok bareImage := by
  have hexe : (restorableGame.setFile "Terraria.exe" bareImage).Leads gameConfig.exePath
      "Terraria.exe" := by decide +kernel
  rw [hexe.map_eq]
  rfl

/-- A run of that game fails to patch it after restoring it. -/
theorem run_of_refuses_restorableGame : ∃ fault,
    (run gameConfig).outcome restorableGame =
        (.error fault, restorableGame.setFile "Terraria.exe" bareImage) ∧
      (restorableGame.setFile "Terraria.exe" bareImage).content? gameConfig.exePath =
        if gameConfig.backup ∧
            ((Backup.ofConfig gameConfig).state restorableGame).toOption = some .patched then
          restorableGame.content? gameConfig.backupPath
        else restorableGame.content? gameConfig.exePath := by
  obtain ⟨fault, hrefuses⟩ := refuses_bareImage
  exact ⟨fault, run_of_refuses rfl prepared_restorableGame map_restorableGame hrefuses⟩

/-- So a run that ends because nothing is found has changed the executable. -/
theorem exists_refused_run_changes_exe : ∃ data fault after,
    Refuses gameConfig data fault ∧
      (run gameConfig).outcome restorableGame = (.error fault, after) ∧
      after.content? gameConfig.exePath ≠ restorableGame.content? gameConfig.exePath := by
  obtain ⟨fault, hrefuses⟩ := refuses_bareImage
  refine ⟨bareImage, fault, _, hrefuses,
    outcome_run_of_refuses rfl prepared_restorableGame map_restorableGame hrefuses, ?_⟩
  have hbefore : restorableGame.content? gameConfig.exePath = some #[1] := by
    have hexe : restorableGame.Leads gameConfig.exePath "Terraria.exe" := by decide +kernel
    rw [hexe.content?_eq]
    rfl
  have hafter := Disk.content?_eq_some_iff_read.mpr
    (Disk.map_eq_ok_iff_read.mp map_restorableGame)
  rw [hafter, hbefore]
  intro hsame
  have hsize := congrArg Array.size (Option.some.inj hsame)
  revert hsize
  decide +kernel

end Patcher

end CilPatch
