import CilPatch.Proofs.Game.Run

/-!
# Histories of a game

The game is patched, restored and updated again and again, and a run may stop at any of its steps.
The copy stays the unpatched game as long as every run starts with files that are settled: the
executable is unpatched, or its digest is the recorded one. A run that stops between writing the
executable and recording its digest leaves files that are not, and the next run takes the patched
executable for an update.
-/

namespace CilPatch

namespace GameFiles

variable {rewrites : Bytes → Bytes → Prop} {original : Bytes → Prop} {files after ready : GameFiles}
  {action : BackupAction}

/-- The files with another executable. -/
def withExe (files : GameFiles) (exe : Bytes) : GameFiles := { files with exe := some exe }

/-- The files with the digest of an image. -/
def withDigest (files : GameFiles) (image : Bytes) : GameFiles :=
  { files with digest := some (Sha256.text image).toUTF8.data }

/-- What a run with a backup can leave, wherever it stops. -/
inductive Runs (rewrites : Bytes → Bytes → Prop) (files : GameFiles) : GameFiles → Prop
  /-- It stopped before anything was done. -/
  | untouched : Runs rewrites files files
  /-- It stopped between removing a copy without digest and making another. -/
  | removed (hstate : files.state = .ok .unverified) :
      Runs rewrites files { files with copy := none }
  /-- It stopped before the new image was written. -/
  | prepared {action : BackupAction} {ready : GameFiles} (hprepares : files.Prepares action ready) :
      Runs rewrites files ready
  /-- It stopped before the digest was recorded. -/
  | written {action : BackupAction} {ready : GameFiles} {exe image : Bytes}
      (hprepares : files.Prepares action ready) (hexe : ready.exe = some exe)
      (hrewrites : rewrites exe image) : Runs rewrites files (ready.withExe image)
  /-- It came to its end. -/
  | recorded {action : BackupAction} {ready : GameFiles} {exe image : Bytes}
      (hprepares : files.Prepares action ready) (hexe : ready.exe = some exe)
      (hrewrites : rewrites exe image) :
      Runs rewrites files ((ready.withExe image).withDigest image)

/-- What restoring can leave. -/
inductive Restores (files : GameFiles) : GameFiles → Prop
  /-- Nothing was done. -/
  | untouched : Restores files files
  /-- The digest could not be removed. -/
  | copied {copy : Bytes} (hcopy : files.copy = some copy) : Restores files (files.withExe copy)
  /-- It came to its end. -/
  | forgotten {copy : Bytes} (hcopy : files.copy = some copy) :
      Restores files ⟨some copy, some copy, none⟩

/-- The executable is unpatched, or its digest is the recorded one. -/
def Settled (original : Bytes → Prop) (files : GameFiles) : Prop := ∀ exe, files.exe = some exe →
  original exe ∨ ∃ bytes, files.digest = some bytes ∧ recorded bytes = .ok (Sha256.text exe)

/-- The files after any number of runs, restorations and updates, starting with an unpatched
executable alone. A run starts only where `starts` says so. -/
inductive Reached (starts : GameFiles → Prop) (rewrites : Bytes → Bytes → Prop)
    (original : Bytes → Prop) : GameFiles → Prop
  /-- The game was installed. -/
  | installed {exe : Bytes} (horiginal : original exe) :
      Reached starts rewrites original ⟨some exe, none, none⟩
  /-- The game was patched, or a run stopped before. -/
  | run {files after : GameFiles} (hreached : Reached starts rewrites original files)
      (hstarts : starts files) (hruns : files.Runs rewrites after) :
      Reached starts rewrites original after
  /-- The game was restored. -/
  | restored {files after : GameFiles} (hreached : Reached starts rewrites original files)
      (hrestores : files.Restores after) : Reached starts rewrites original after
  /-- The game was updated. -/
  | updated {files : GameFiles} {exe : Bytes} (hreached : Reached starts rewrites original files)
      (horiginal : original exe) : Reached starts rewrites original (files.withExe exe)

/-- Only unpatched images are kept, and a patched executable has a copy. -/
structure Kept (original : Bytes → Prop) (files : GameFiles) : Prop where
  copy : ∀ copy, files.copy = some copy → original copy
  exe : ∀ exe, files.exe = some exe → original exe ∨ files.copy.isSome

/-- Preparing settled files makes both the executable and its copy unpatched. -/
theorem Kept.prepares (h : files.Kept original) (hsettled : files.Settled original)
    (hprepares : files.Prepares action ready) :
    (∀ copy, ready.copy = some copy → original copy) ∧
      (∀ exe, ready.exe = some exe → original exe) ∧ ready.copy.isSome := by
  -- an executable that is not known to be patched is unpatched
  have hexe (exe : Bytes) (hexe : files.exe = some exe) (hstate : files.state ≠ .ok .patched) :
      original exe := by
    rcases hsettled exe hexe with horiginal | ⟨bytes, hdigest, hrecorded⟩
    · exact horiginal
    · rcases h.exe exe hexe with horiginal | hcopy
      · exact horiginal
      · exact absurd (state_eq_patched_iff.mpr ⟨hcopy, bytes, exe, hdigest, hexe, hrecorded⟩) hstate
  cases hprepares with
  | created hstate hfound =>
    have horiginal := hexe _ hfound (by simp [hstate])
    exact ⟨fun copy hcopy => Option.some.inj hcopy ▸ horiginal,
      fun exe hfound' => Option.some.inj (hfound.symm.trans hfound') ▸ horiginal, rfl⟩
  | replacedStale hstate hfound =>
    have horiginal := hexe _ hfound (by simp [hstate])
    exact ⟨fun copy hcopy => Option.some.inj hcopy ▸ horiginal,
      fun exe hfound' => Option.some.inj (hfound.symm.trans hfound') ▸ horiginal, rfl⟩
  | restored hstate hcopy =>
    exact ⟨h.copy, fun exe hexe => Option.some.inj hexe ▸ h.copy _ hcopy, by
      rw [hcopy]
      rfl⟩
  | replacedAfterUpdate hstate hfound =>
    have horiginal := hexe _ hfound (by simp [hstate])
    exact ⟨fun copy hcopy => Option.some.inj hcopy ▸ horiginal,
      fun exe hfound' => Option.some.inj (hfound.symm.trans hfound') ▸ horiginal, rfl⟩

/-- Preparing other files makes both patched. -/
theorem Settled.of_prepares (hprepares : files.Prepares action ready)
    (horiginal : ∀ copy, ready.copy = some copy → original copy) : files.Settled original := by
  intro exe hexe
  cases hprepares with
  | created hstate hfound =>
    exact .inl (horiginal exe (hfound.symm.trans hexe))
  | replacedStale hstate hfound =>
    exact .inl (horiginal exe (hfound.symm.trans hexe))
  | restored hstate hcopy =>
    obtain ⟨-, bytes, found, hdigest, hfound, hrecorded⟩ := state_eq_patched_iff.mp hstate
    rw [hexe] at hfound
    obtain rfl := Option.some.inj hfound
    exact .inr ⟨bytes, hdigest, hrecorded⟩
  | replacedAfterUpdate hstate hfound =>
    exact .inl (horiginal exe (hfound.symm.trans hexe))

/-- A copy without digest is removed only where the executable of settled files is unpatched. -/
theorem Settled.original_of_unverified (hsettled : files.Settled original)
    (hstate : files.state = .ok .unverified) {exe : Bytes} (hexe : files.exe = some exe) :
    original exe := by
  have hdigest : files.digest = none := by
    rcases state_eq_ok_iff.mp hstate with ⟨-, hne⟩ | ⟨-, hdigest, -⟩ | ⟨-, _, _, _, -, -, -, hne⟩
    · cases hne
    · exact hdigest
    · split at hne <;> cases hne
  rcases hsettled exe hexe with horiginal | ⟨bytes, hbytes, -⟩
  · exact horiginal
  · rw [hdigest] at hbytes
    cases hbytes

/-- A run of settled files leaves settled files, unless it stops between writing the executable
and recording its digest. -/
theorem Kept.settled_or_written (h : files.Kept original) (hsettled : files.Settled original)
    (hruns : files.Runs rewrites after) : after.Settled original ∨
      ∃ action ready exe image, files.Prepares action ready ∧ ready.exe = some exe ∧
        rewrites exe image ∧ after = ready.withExe image := by
  cases hruns with
  | untouched => exact .inl hsettled
  | removed hstate =>
    exact .inl fun exe hexe => .inl (hsettled.original_of_unverified hstate hexe)
  | prepared hprepares =>
    obtain ⟨-, hexe, -⟩ := h.prepares hsettled hprepares
    exact .inl fun exe hfound => .inl (hexe exe hfound)
  | written hprepares hexe hrewrites => exact .inr ⟨_, _, _, _, hprepares, hexe, hrewrites, rfl⟩
  | @recorded action ready exe image hprepares hexe hrewrites =>
    refine .inl fun found hfound => .inr ⟨_, rfl, ?_⟩
    obtain rfl : image = found := Option.some.inj hfound
    exact recorded_text image

/-- A run of settled files keeps what is to be kept, wherever it stops. -/
theorem Kept.runs (h : files.Kept original) (hsettled : files.Settled original)
    (hruns : files.Runs rewrites after) : after.Kept original := by
  cases hruns with
  | untouched => exact h
  | removed hstate =>
    exact ⟨nofun, fun exe hexe => .inl (hsettled.original_of_unverified hstate hexe)⟩
  | prepared hprepares =>
    obtain ⟨hcopy, hexe, -⟩ := h.prepares hsettled hprepares
    exact ⟨hcopy, fun exe hfound => .inl (hexe exe hfound)⟩
  | written hprepares hexe hrewrites =>
    obtain ⟨hcopy, -, hsome⟩ := h.prepares hsettled hprepares
    exact ⟨hcopy, fun _ _ => .inr hsome⟩
  | recorded hprepares hexe hrewrites =>
    obtain ⟨hcopy, -, hsome⟩ := h.prepares hsettled hprepares
    exact ⟨hcopy, fun _ _ => .inr hsome⟩

/-- Along a history whose runs start with settled files, what is to be kept is kept. -/
theorem Reached.kept (h : Reached (Settled original) rewrites original files) :
    files.Kept original := by
  induction h with
  | installed horiginal => exact ⟨nofun, fun exe hexe => .inl (Option.some.inj hexe ▸ horiginal)⟩
  | run hreached hsettled hruns ih => exact ih.runs hsettled hruns
  | restored hreached hrestores ih =>
    cases hrestores with
    | untouched => exact ih
    | copied hcopy =>
      exact ⟨ih.copy, fun exe hexe => .inl (Option.some.inj hexe ▸ ih.copy _ hcopy)⟩
    | forgotten hcopy =>
      have horiginal := ih.copy _ hcopy
      exact ⟨fun copy hfound => Option.some.inj hfound ▸ horiginal,
        fun exe hexe => .inl (Option.some.inj hexe ▸ horiginal)⟩
  | updated hreached horiginal ih =>
    exact ⟨ih.copy, fun exe hexe => .inl (Option.some.inj hexe ▸ horiginal)⟩

/-- Two runs, of which the first stops before its digest is recorded: the second takes the patched
executable for an update, makes it the copy and patches it once more. -/
theorem reached_patched_copy {exe image twice : Bytes} (horiginal : original exe)
    (hrewrites : rewrites exe image) (hagain : rewrites image twice) :
    Reached (fun _ => True) rewrites original
      ((withExe ⟨some image, some image, none⟩ twice).withDigest twice) := by
  have hfirst : Reached (fun _ => True) rewrites original ⟨some image, some exe, none⟩ :=
    .run (.installed horiginal) trivial
      (.written (.created rfl rfl) rfl hrewrites)
  exact .run hfirst trivial (.recorded (.replacedStale rfl rfl) rfl hagain)

/-- The copy is a patched image after such runs, of a game of one byte. -/
theorem exists_reached_patched_copy : ∃ files,
    Reached (fun _ => True) (fun exe image => image = exe.push 1) (· = #[0]) files ∧
      files.copy = some #[0, 1] ∧ files.exe = some #[0, 1, 1] ∧ ¬ (#[0, 1] : Bytes) = #[0] :=
  ⟨_, reached_patched_copy rfl rfl rfl, rfl, rfl, by decide⟩

end GameFiles

namespace Patcher

open GameFiles

variable {config : Config} {disk : Disk} {original : Bytes → Prop} {files : GameFiles}

/-- Replacing the executable leaves the other two files. -/
theorem files_replaced {ready after : Disk} {name text temporary : String} {image : Bytes}
    (hexe : ready.Leads config.exePath name) (htext : Path.fileName? config.exePath = some text)
    (htemporary : ready.Leads (Path.sibling config.exePath (text ++ ".tmp")) temporary)
    (hreplaced : Output.Replaced ready after name temporary image) :
    (Backup.ofConfig config).files after =
      ((Backup.ofConfig config).files ready).withExe image := by
  have hbeside := hexe.beside_sibling htext htemporary (by decide)
  have hwritten : after.content? config.exePath = some image := by
    rw [(hexe.on hreplaced.directory).content?_eq, hreplaced.content]
  have hother (ending : String) (hslash : '/' ∉ ending.toList) (hne : ending ≠ "")
      (htmp : ending ≠ ".tmp") :
      after.content? (config.exePath ++ ending) = ready.content? (config.exePath ++ ending) :=
    Disk.content?_of_agree hreplaced.directory fun other hleads =>
      hreplaced.others other ((hleads.beside_append hslash hne).ne hexe.beside hne)
        ((hleads.beside_append hslash hne).ne hbeside htmp)
  have hcopy := hother ".bak" (by decide) (by decide) (by decide)
  have hdigest := hother ".patched.sha256" (by decide) (by decide) (by decide)
  exact GameFiles.ext hwritten hcopy hdigest

/-- Finishing writes the new image, unless nothing is written, and then records its digest, unless
that fails. -/
theorem files_finished (hbackup : config.backup = true) {ready : Disk} {data image : Bytes}
    (hdata : ready.map config.exePath = .ok data) (action : Option BackupAction)
    (outcomes : List PatchOutcome) :
    let before := (Backup.ofConfig config).files ready
    let after := (Backup.ofConfig config).files
      ((finished config action outcomes data image).outcome ready).2
    after = before ∨ after = before.withExe image ∨
      after = (before.withExe image).withDigest image := by
  intro before after
  obtain ⟨name, hexe, -⟩ := Disk.read_eq_ok_iff.mp (Disk.map_eq_ok_iff_read.mp hdata)
  rcases Output.outcome_replace hexe image with ⟨fault, hreplace⟩ |
    ⟨written, text, temporary, hreplace, htext, htemporary, hreplaced⟩
  · left
    simp only [after, finished, Task.outcome_bind, hreplace]
    rfl
  · right
    have hwritten := files_replaced hexe htext htemporary hreplaced
    have hrecorded := (Backup.apart_ofConfig config written).recorded
    simp only [after, finished, Task.outcome_bind, hreplace, hbackup, if_true, Task.outcome_map]
    generalize (Backup.ofConfig config).record.outcome written = left at hrecorded
    cases hrecorded with
    | refused fault => exact .inl hwritten
    | done hdirectory hfound hfiles =>
      rw [hwritten] at hfound
      obtain rfl := Option.some.inj hfound
      right
      simp only [Task.outcome_toTask, Noted.result_note, Task.outcome_pure]
      rw [hfiles, hwritten]
      rfl

/-- Whatever a run does to the disk, its files are what a run can leave of them. -/
theorem runs_run (hbackup : config.backup = true) (disk : Disk) :
    ((Backup.ofConfig config).files disk).Runs (Rewrites config)
      ((Backup.ofConfig config).files ((run config).outcome disk).2) := by
  have hprepared := (Backup.apart_ofConfig config disk).prepared
  cases hvalid : config.validate with
  | error fault =>
    rw [run_eq, Task.outcome_bind, Task.outcome_ofExcept, hvalid]
    exact .untouched
  | ok valid =>
    rw [outcome_run hvalid, prepared, if_pos hbackup, Task.outcome_map]
    generalize (Backup.ofConfig config).prepare.outcome disk = left at hprepared
    cases hprepared with
    | refused fault => exact .untouched
    | removed fault hdirectory hstate hfiles =>
      simp only [hfiles]
      exact .removed hstate
    | @done action ready hdirectory hstate hfiles =>
      simp only
      rcases carriedOn_cases config (some action) ready with ⟨fault, hcarried⟩ |
        ⟨data, outcomes, image, hdata, hrewrites, hcarried⟩
      · rw [hcarried]
        exact .prepared hfiles
      · rw [hcarried]
        have hexe : ((Backup.ofConfig config).files ready).exe = some data :=
          Disk.content?_eq_some_iff_read.mpr (Disk.map_eq_ok_iff_read.mp hdata)
        rcases files_finished hbackup hdata (some action) outcomes with hleft | hleft | hleft
        · rw [hleft]
          exact .prepared hfiles
        · rw [hleft]
          exact .written hfiles hexe hrewrites
        · rw [hleft]
          exact .recorded hfiles hexe hrewrites

/-- Whatever restoring does to the disk, its files are what restoring can leave of them. -/
theorem restores_restore (config : Config) (disk : Disk) :
    ((Backup.ofConfig config).files disk).Restores
      ((Backup.ofConfig config).files ((restore config).outcome disk).2) := by
  have hrestored := (Backup.apart_ofConfig config disk).restored
  unfold restore
  generalize (Backup.ofConfig config).restore.outcome disk = left at hrestored
  cases hrestored with
  | done hdirectory hcopy hfiles =>
    simp only [hfiles]
    exact .forgotten hcopy
  | refused fault => exact .untouched
  | copied fault hdirectory hcopy hfiles =>
    simp only [hfiles]
    exact .copied hcopy

/-- Along a history whose runs start with settled files the copy is the unpatched game, wherever
the runs stop. The next run has an unpatched executable to patch and an unpatched copy of it exactly
if its files are settled, and it leaves settled files unless it stops between writing the
executable and recording its digest. What runs and restorations do on a disk are steps of such
histories. -/
theorem copy_unpatched (hbackup : config.backup = true)
    (h : Reached (Settled original) (Rewrites config) original files) :
    (∀ copy, files.copy = some copy → original copy) ∧
    (∀ action ready, files.Prepares action ready →
      (((∀ copy, ready.copy = some copy → original copy) ∧
        ∀ exe, ready.exe = some exe → original exe) ↔ files.Settled original)) ∧
    (∀ after, files.Settled original → files.Runs (Rewrites config) after →
      after.Settled original ∨ ∃ action ready exe image, files.Prepares action ready ∧
        ready.exe = some exe ∧ Rewrites config exe image ∧ after = ready.withExe image) ∧
    ∀ disk, (Backup.ofConfig config).files disk = files →
      files.Runs (Rewrites config) ((Backup.ofConfig config).files ((run config).outcome disk).2) ∧
        files.Restores ((Backup.ofConfig config).files ((restore config).outcome disk).2) := by
  refine ⟨h.kept.copy, fun action ready hprepares => ⟨fun hready => ?_, fun hsettled => ?_⟩,
    fun after hsettled hruns => h.kept.settled_or_written hsettled hruns, ?_⟩
  · exact Settled.of_prepares hprepares hready.1
  · obtain ⟨hcopy, hexe, -⟩ := h.kept.prepares hsettled hprepares
    exact ⟨hcopy, hexe⟩
  · rintro disk rfl
    exact ⟨runs_run hbackup disk, restores_restore config disk⟩

/-- A game of one byte after a run that only made the copy. -/
theorem copy_unpatched_created :
    (∀ copy, (⟨some #[0], some #[0], none⟩ : GameFiles).copy = some copy → copy = #[0]) ∧
      ∀ action ready, (⟨some #[0], some #[0], none⟩ : GameFiles).Prepares action ready →
        (((∀ copy, ready.copy = some copy → copy = #[0]) ∧
          ∀ exe, ready.exe = some exe → exe = #[0]) ↔
            (⟨some #[0], some #[0], none⟩ : GameFiles).Settled (· = #[0])) := by
  have hreached : Reached (Settled (· = #[0])) (Rewrites gameConfig) (· = #[0])
      ⟨some #[0], some #[0], none⟩ :=
    .run (.installed rfl) (fun exe hexe => .inl (Option.some.inj hexe).symm)
      (.prepared (.created rfl rfl))
  obtain ⟨hcopy, hprepares, -⟩ := copy_unpatched rfl hreached
  exact ⟨hcopy, hprepares⟩

end Patcher

end CilPatch
