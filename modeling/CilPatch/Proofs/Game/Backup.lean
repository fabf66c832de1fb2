import CilPatch.Game.Backup
import CilPatch.Proofs.Disk.Siblings
import CilPatch.Proofs.Task

/-!
# What is done to a backup

The executable, its copy and the digest are three files. What they say about the executable
decides what is done to them before patching, and nothing else on the disk is looked at.
-/

namespace CilPatch

/-- The contents of the files that belong to one executable. -/
@[ext]
structure GameFiles where
  /-- The executable. -/
  exe : Option Bytes
  /-- The copy. -/
  copy : Option Bytes
  /-- The file with the digest. -/
  digest : Option Bytes

/-- The contents of the files of a backup. -/
def Backup.files (backup : Backup) (disk : Disk) : GameFiles :=
  ⟨disk.content? backup.exe, disk.content? backup.copy, disk.content? backup.sidecar⟩

/-- The paths of a backup never lead to the same file. -/
structure Backup.Apart (backup : Backup) (disk : Disk) : Prop where
  copy_ne_exe : ∀ {copy exe}, disk.Leads backup.copy copy → disk.Leads backup.exe exe → copy ≠ exe
  digest_ne_exe : ∀ {digest exe}, disk.Leads backup.sidecar digest → disk.Leads backup.exe exe →
    digest ≠ exe
  digest_ne_copy : ∀ {digest copy}, disk.Leads backup.sidecar digest →
    disk.Leads backup.copy copy → digest ≠ copy

/-- The files of a configuration lie next to one another. -/
theorem Backup.apart_ofConfig (config : Config) (disk : Disk) :
    (ofConfig config).Apart disk where
  copy_ne_exe hcopy hexe :=
    (hcopy.beside_append (by decide) (by decide)).ne hexe.beside (by decide)
  digest_ne_exe hdigest hexe :=
    (hdigest.beside_append (by decide) (by decide)).ne hexe.beside (by decide)
  digest_ne_copy hdigest hcopy :=
    (hdigest.beside_append (by decide) (by decide)).ne
      (hcopy.beside_append (by decide) (by decide)) (by decide)

namespace Sha256

/-- A digest is written without white space. -/
theorem not_isBlank_of_mem_text {message : Bytes} {c : Char} (h : c ∈ (text message).toList) :
    isBlank c = false := by
  have hbyte : ∀ value : Fin 256,
      ((Hex.upper value.val 2).toList.all fun c => !isBlank c) = true := by decide +kernel
  rw [text, Hex.bytesUpper, String.toList_join, List.flatMap_map, List.mem_flatMap] at h
  obtain ⟨byte, -, hc⟩ := h
  have hall := List.all_eq_true.mp (hbyte ⟨byte.toNat, byte.toNat_lt⟩) c hc
  simpa using hall

/-- A digest is not changed by taking white space away. -/
theorem trimBlank_text (message : Bytes) : trimBlank (text message) = text message := by
  have hkeep (chars : List Char) (h : ∀ c ∈ chars, isBlank c = false) :
      chars.dropWhile isBlank = chars := by
    cases chars with
    | nil => rfl
    | cons c rest => rw [List.dropWhile_cons_of_neg (by simp [h c List.mem_cons_self])]
  have hnone : ∀ c ∈ (text message).toList, isBlank c = false :=
    fun c hc => not_isBlank_of_mem_text hc
  have hback : ∀ c ∈ (text message).toList.reverse, isBlank c = false :=
    fun c hc => hnone c (List.mem_reverse.mp hc)
  rw [trimBlank, hkeep _ hnone, dropWhileEnd, hkeep _ hback, List.reverse_reverse,
    String.ofList_toList]

end Sha256

/-- The bytes of a text are the bytes of that text. -/
theorem fromUTF8?_toUTF8 (text : String) : String.fromUTF8? ⟨text.toUTF8.data⟩ = some text :=
  dif_pos text.isValidUTF8

namespace GameFiles

/-- The digest that was recorded. -/
def recorded (bytes : Bytes) : Except Fault String :=
  match String.fromUTF8? ⟨bytes⟩ with
  | some text => .ok (trimBlank text)
  | none => .error (.disk .encoding)

/-- The recorded digest of an image is read back. -/
theorem recorded_text (image : Bytes) :
    recorded (Sha256.text image).toUTF8.data = .ok (Sha256.text image) := by
  rw [recorded, fromUTF8?_toUTF8]
  exact congrArg Except.ok (Sha256.trimBlank_text image)

/-- What the files say about the executable. -/
def state (files : GameFiles) : Except Fault BackupState :=
  match files.copy, files.digest with
  | none, _ => .ok .missing
  | some _, none => .ok .unverified
  | some _, some bytes => do
      let text ← recorded bytes
      match files.exe with
      | none => .error (.disk .missing)
      | some exe => return if Sha256.text exe = text then .patched else .updated

variable {files : GameFiles}

/-- The three things that the files can say. -/
theorem state_eq_ok_iff {state : BackupState} : files.state = .ok state ↔
    (files.copy = none ∧ state = .missing) ∨
    (files.copy.isSome ∧ files.digest = none ∧ state = .unverified) ∨
    (files.copy.isSome ∧ ∃ bytes text exe, files.digest = some bytes ∧
      recorded bytes = .ok text ∧ files.exe = some exe ∧
      state = if Sha256.text exe = text then .patched else .updated) := by
  rw [GameFiles.state]
  cases files.copy with
  | none => simp [eq_comm]
  | some copy =>
    cases files.digest with
    | none => simp [eq_comm]
    | some bytes =>
      rw [bind_eq_ok_iff]
      cases files.exe with
      | none => simp
      | some exe => simp [pure, Except.pure, eq_comm]

/-- An executable that is known to be patched has a copy and the digest that was recorded. -/
theorem state_eq_patched_iff : files.state = .ok .patched ↔ files.copy.isSome ∧
    ∃ bytes exe, files.digest = some bytes ∧ files.exe = some exe ∧
      recorded bytes = .ok (Sha256.text exe) := by
  rw [state_eq_ok_iff]
  constructor
  · rintro (⟨-, h⟩ | ⟨-, -, h⟩ | ⟨hcopy, bytes, text, exe, hdigest, htext, hexe, h⟩)
    · cases h
    · cases h
    · split at h
      · next hsame => exact ⟨hcopy, bytes, exe, hdigest, hexe, by rw [hsame, htext]⟩
      · cases h
  · rintro ⟨hcopy, bytes, exe, hdigest, hexe, htext⟩
    exact .inr (.inr ⟨hcopy, bytes, _, exe, hdigest, htext, hexe, (if_pos rfl).symm⟩)

/-- What is done to the files before patching. -/
inductive Prepares (files : GameFiles) : BackupAction → GameFiles → Prop
  /-- Without a copy, one is made. -/
  | created {exe : Bytes} (hstate : files.state = .ok .missing) (hexe : files.exe = some exe) :
      Prepares files .created { files with copy := some exe }
  /-- A copy without digest is replaced. -/
  | replacedStale {exe : Bytes} (hstate : files.state = .ok .unverified)
      (hexe : files.exe = some exe) : Prepares files .replacedStale { files with copy := some exe }
  /-- A patched executable is replaced by the copy. -/
  | restored {original : Bytes} (hstate : files.state = .ok .patched)
      (hcopy : files.copy = some original) :
      Prepares files .restored { files with exe := some original }
  /-- The copy of an executable that was updated since is replaced. -/
  | replacedAfterUpdate {exe : Bytes} (hstate : files.state = .ok .updated)
      (hexe : files.exe = some exe) :
      Prepares files .replacedAfterUpdate { files with copy := some exe }

end GameFiles

namespace Backup

variable {backup : Backup} {disk after : Disk}

/-! ## Changing one of the files -/

/-- Writing the executable changes neither the copy nor the digest. -/
theorem Apart.files_setFile_exe (h : backup.Apart disk) {name : String}
    (hexe : disk.Leads backup.exe name) (data : Bytes) :
    backup.files (disk.setFile name data) = { backup.files disk with exe := some data } := by
  rw [files, Disk.content?_setFile_self hexe,
    Disk.content?_setFile_of_ne data fun _ hcopy => h.copy_ne_exe hcopy hexe,
    Disk.content?_setFile_of_ne data fun _ hdigest => h.digest_ne_exe hdigest hexe, files]

/-- Writing the copy changes neither the executable nor the digest. -/
theorem Apart.files_setFile_copy (h : backup.Apart disk) {name : String}
    (hcopy : disk.Leads backup.copy name) (data : Bytes) :
    backup.files (disk.setFile name data) = { backup.files disk with copy := some data } := by
  rw [files, Disk.content?_setFile_self hcopy,
    Disk.content?_setFile_of_ne data fun _ hexe => (h.copy_ne_exe hcopy hexe).symm,
    Disk.content?_setFile_of_ne data fun _ hdigest => h.digest_ne_copy hdigest hcopy, files]

/-- Writing the digest changes neither the executable nor the copy. -/
theorem Apart.files_setFile_digest (h : backup.Apart disk) {name : String}
    (hdigest : disk.Leads backup.sidecar name) (data : Bytes) :
    backup.files (disk.setFile name data) = { backup.files disk with digest := some data } := by
  rw [files, Disk.content?_setFile_self hdigest,
    Disk.content?_setFile_of_ne data fun _ hexe => (h.digest_ne_exe hdigest hexe).symm,
    Disk.content?_setFile_of_ne data fun _ hcopy => (h.digest_ne_copy hdigest hcopy).symm, files]

/-- Erasing the copy leaves the executable and the digest. -/
theorem Apart.files_eraseFile_copy (h : backup.Apart disk) {name : String}
    (hcopy : disk.Leads backup.copy name) :
    backup.files (disk.eraseFile name) = { backup.files disk with copy := none } := by
  rw [files, Disk.content?_eraseFile_self hcopy,
    Disk.content?_eraseFile_of_ne fun _ hexe => (h.copy_ne_exe hcopy hexe).symm,
    Disk.content?_eraseFile_of_ne fun _ hdigest => h.digest_ne_copy hdigest hcopy, files]

/-- Erasing the digest leaves the executable and the copy. -/
theorem Apart.files_eraseFile_digest (h : backup.Apart disk) {name : String}
    (hdigest : disk.Leads backup.sidecar name) :
    backup.files (disk.eraseFile name) = { backup.files disk with digest := none } := by
  rw [files, Disk.content?_eraseFile_self hdigest,
    Disk.content?_eraseFile_of_ne fun _ hexe => (h.digest_ne_exe hdigest hexe).symm,
    Disk.content?_eraseFile_of_ne fun _ hcopy => (h.digest_ne_copy hdigest hcopy).symm, files]

/-- A text that was written is read back. -/
theorem readText_eq {path text : String} (h : disk.read path = .ok text.toUTF8.data) :
    disk.readText path = .ok text := by
  rw [Disk.readText, h]
  simp only [bind, Except.bind, fromUTF8?_toUTF8]
  rfl

/-- What the files say about an executable where all three are there. -/
theorem state_eq_of_texts {recorded hash : String} (hcopy : disk.pathExists backup.copy = true)
    (hdigest : disk.pathExists backup.sidecar = true)
    (hrecorded : disk.readText backup.sidecar = .ok recorded)
    (hhash : disk.hash backup.exe = .ok hash) :
    backup.state disk = .ok (if hash = trimBlank recorded then .patched else .updated) := by
  unfold Backup.state
  rw [hcopy, hdigest, hrecorded, hhash]
  rfl

/-- An executable whose digest was recorded is known to be patched. -/
theorem state_eq_patched {exe : Bytes} (hcopy : disk.pathExists backup.copy = true)
    (hdigest : disk.pathExists backup.sidecar = true)
    (hrecorded : disk.read backup.sidecar = .ok (Sha256.text exe).toUTF8.data)
    (hexe : disk.read backup.exe = .ok exe) : backup.state disk = .ok .patched := by
  have hhash : disk.hash backup.exe = .ok (Sha256.text exe) := by
    rw [Disk.hash, hexe, Except.map]
  rw [state_eq_of_texts hcopy hdigest (readText_eq hrecorded) hhash, Sha256.trimBlank_text,
    if_pos rfl]

/-! ## Preparing, recording, restoring -/

/-- The paths stay apart whatever the files hold. -/
theorem Apart.on {other : Disk} (h : backup.Apart disk)
    (hdirectory : other.directory = disk.directory) : backup.Apart other where
  copy_ne_exe hcopy hexe := h.copy_ne_exe (hcopy.on hdirectory.symm) (hexe.on hdirectory.symm)
  digest_ne_exe hdigest hexe :=
    h.digest_ne_exe (hdigest.on hdirectory.symm) (hexe.on hdirectory.symm)
  digest_ne_copy hdigest hcopy :=
    h.digest_ne_copy (hdigest.on hdirectory.symm) (hcopy.on hdirectory.symm)

/-- A copy is there unless the state says otherwise. -/
theorem pathExists_of_state {state : BackupState} (h : backup.state disk = .ok state)
    (hstate : state ≠ .missing) : disk.pathExists backup.copy = true := by
  unfold Backup.state at h
  cases hexists : disk.pathExists backup.copy with
  | true => rfl
  | false =>
    rw [hexists] at h
    exact absurd (Except.ok.inj h).symm hstate

/-- The state of a backup is what the three files say, if a copy that exists can be read. -/
theorem state_files_eq {state : BackupState} (h : backup.state disk = .ok state)
    (hcopy : state ≠ .missing → (disk.content? backup.copy).isSome) :
    (backup.files disk).state = .ok state := by
  rw [GameFiles.state_eq_ok_iff]
  unfold Backup.state at h
  cases hexists : disk.pathExists backup.copy with
  | false =>
    rw [hexists] at h
    exact .inl ⟨Disk.content?_eq_none_of_not_exists hexists, (Except.ok.inj h).symm⟩
  | true =>
    rw [hexists] at h
    cases hrecorded : disk.pathExists backup.sidecar with
    | false =>
      rw [hrecorded] at h
      obtain rfl : BackupState.unverified = state := Except.ok.inj h
      exact .inr (.inl ⟨hcopy (by simp), Disk.content?_eq_none_of_not_exists hrecorded, rfl⟩)
    | true =>
      rw [hrecorded] at h
      obtain ⟨text, htext, h⟩ := bind_eq_ok_iff.mp h
      obtain ⟨hash, hhash, h⟩ := bind_eq_ok_iff.mp h
      obtain ⟨bytes, hbytes, htext⟩ := bind_eq_ok_iff.mp htext
      obtain ⟨exe, hexe, rfl⟩ := map_eq_ok_iff.mp hhash
      obtain rfl := Except.ok.inj h
      refine .inr (.inr ⟨hcopy (by split <;> simp), bytes, trimBlank text, exe,
        Disk.content?_eq_some_iff_read.mpr hbytes, ?_, Disk.content?_eq_some_iff_read.mpr hexe,
        rfl⟩)
      rw [GameFiles.recorded]
      cases hdecoded : String.fromUTF8? ⟨bytes⟩ with
      | none => simp [hdecoded, throw, throwThe, MonadExceptOf.throw] at htext
      | some decoded =>
        simp only [hdecoded] at htext
        rw [Except.ok.inj htext]

/-- What is done where the files say so much about the executable. -/
def follow (backup : Backup) : BackupState → Task Disk BackupAction
  | .missing => do
      Task.change (·.copy backup.exe backup.copy)
      tell ("Backup created: " ++ backup.copy)
      return .created
  | .unverified => do
      Task.change (·.remove backup.copy)
      Task.change (·.copy backup.exe backup.copy)
      tell "No hash file found, replaced stale backup"
      return .replacedStale
  | .patched => do
      Task.change (·.copy backup.copy backup.exe)
      tell "Restored original from backup"
      return .restored
  | .updated => do
      Task.change (·.copy backup.exe backup.copy)
      tell "Detected game update, backup replaced with new version"
      return .replacedAfterUpdate

/-- Preparing needs an executable, and then does what the files call for. -/
theorem outcome_prepare (backup : Backup) (disk : Disk) : backup.prepare.outcome disk =
    if disk.pathExists backup.exe then
      match backup.state disk with
      | .ok state => (backup.follow state).outcome disk
      | .error fault => (.error fault, disk)
    else (.error (.disk (.noExecutable backup.exe)), disk) := by
  rw [prepare, Task.outcome_bind, Task.outcome_get]
  cases hexists : disk.pathExists backup.exe with
  | false => simp only [hexists]; rfl
  | true =>
    simp only [hexists, if_true]
    change (Task.inspect backup.state >>= _).outcome disk = _
    rw [Task.outcome_bind, Task.outcome_inspect]
    rcases backup.state disk with fault | (_ | _ | _ | _) <;> rfl

/-- A notice is left after a change, and what was done is told. -/
private theorem outcome_change_tell {step : Disk → Except Fault Disk} {text : String}
    {action : BackupAction} :
    (do Task.change step; tell text; return action : Task Disk BackupAction).outcome disk =
      match step disk with
      | .ok after => (.ok action, after)
      | .error fault => (.error fault, disk) := by
  rw [Task.outcome_bind, Task.outcome_change]
  cases step disk <;> rfl

/-- A patched executable is replaced by the copy. -/
theorem outcome_prepare_of_patched (hexists : disk.pathExists backup.exe = true)
    (hstate : backup.state disk = .ok .patched)
    (hcopied : disk.copy backup.copy backup.exe = .ok after) :
    backup.prepare.outcome disk = (.ok .restored, after) := by
  rw [outcome_prepare, if_pos hexists, hstate]
  simp only [follow]
  rw [outcome_change_tell, hcopied]

/-- What preparing leaves. -/
inductive Prepared (backup : Backup) (disk : Disk) : Except Fault BackupAction × Disk → Prop
  /-- What the files call for was done to them. -/
  | done {action : BackupAction} {after : Disk} (hdirectory : after.directory = disk.directory)
      (hstate : backup.state disk = (backup.files disk).state)
      (hfiles : (backup.files disk).Prepares action (backup.files after)) :
      Prepared backup disk (.ok action, after)
  /-- Nothing was done. -/
  | refused (fault : Fault) : Prepared backup disk (.error fault, disk)
  /-- A copy without digest was removed and not replaced. -/
  | removed {after : Disk} (fault : Fault) (hdirectory : after.directory = disk.directory)
      (hstate : (backup.files disk).state = .ok .unverified)
      (hfiles : backup.files after = { backup.files disk with copy := none }) :
      Prepared backup disk (.error fault, after)

/-- A copy of the executable takes the place of the one before. -/
private theorem Apart.files_copy_exe (h : backup.Apart disk)
    (hcopied : disk.copy backup.exe backup.copy = .ok after) :
    after.directory = disk.directory ∧ ∃ exe, (backup.files disk).exe = some exe ∧
      backup.files after = { backup.files disk with copy := some exe } := by
  obtain ⟨exe, hexe, hwrite⟩ := Disk.copy_eq_ok_iff.mp hcopied
  obtain ⟨name, hcopy, rfl⟩ := Disk.write_eq_ok_iff.mp hwrite
  exact ⟨disk.directory_setFile _ _, exe, Disk.content?_eq_some_iff_read.mpr hexe,
    h.files_setFile_copy hcopy exe⟩

/-- The copy takes the place of the executable. -/
private theorem Apart.files_copy_back (h : backup.Apart disk)
    (hcopied : disk.copy backup.copy backup.exe = .ok after) :
    after.directory = disk.directory ∧ ∃ original, (backup.files disk).copy = some original ∧
      backup.files after = { backup.files disk with exe := some original } := by
  obtain ⟨original, hcopy, hwrite⟩ := Disk.copy_eq_ok_iff.mp hcopied
  obtain ⟨name, hexe, rfl⟩ := Disk.write_eq_ok_iff.mp hwrite
  exact ⟨disk.directory_setFile _ _, original, Disk.content?_eq_some_iff_read.mpr hcopy,
    h.files_setFile_exe hexe original⟩

/-- The copy is removed. -/
private theorem Apart.files_remove_copy (h : backup.Apart disk)
    (hremoved : disk.remove backup.copy = .ok after) :
    after.directory = disk.directory ∧ (backup.files disk).copy.isSome ∧
      backup.files after = { backup.files disk with copy := none } := by
  obtain ⟨name, data, hleads, hfile, rfl⟩ := Disk.remove_eq_ok_iff.mp hremoved
  have hcopy : (backup.files disk).copy = some data :=
    Disk.content?_eq_some_iff.mpr ⟨name, hleads, hfile⟩
  exact ⟨rfl, by rw [hcopy]; rfl, h.files_eraseFile_copy hleads⟩

/-- The executable is copied as the files call for, or nothing is done. -/
private theorem Apart.prepared_copy_exe (h : backup.Apart disk) {state : BackupState}
    {text : String} {action : BackupAction} (hstate : backup.state disk = .ok state)
    (hprepares : ∀ exe, (backup.files disk).state = .ok state →
      (backup.files disk).exe = some exe →
      (backup.files disk).Prepares action { backup.files disk with copy := some exe }) :
    backup.Prepared disk
      ((do
        Task.change (·.copy backup.exe backup.copy)
        tell text
        return action : Task Disk BackupAction).outcome disk) := by
  rw [outcome_change_tell]
  cases hcopied : disk.copy backup.exe backup.copy with
  | error fault => exact .refused fault
  | ok after =>
    obtain ⟨hdirectory, exe, hexe, hafter⟩ := h.files_copy_exe hcopied
    -- what is written over can be read
    have hfiles := state_files_eq hstate fun hstate' => by
      obtain ⟨data, -, hwrite⟩ := Disk.copy_eq_ok_iff.mp hcopied
      rw [← Disk.pathExists_of_write hwrite]
      exact pathExists_of_state hstate hstate'
    refine .done hdirectory (hstate.trans hfiles.symm) ?_
    rw [hafter]
    exact hprepares exe hfiles hexe

/-- A copy without digest is replaced, or it is only removed, or nothing is done. -/
private theorem Apart.prepared_unverified (h : backup.Apart disk)
    (hstate : backup.state disk = .ok .unverified) :
    backup.Prepared disk ((backup.follow .unverified).outcome disk) := by
  rw [follow, Task.outcome_bind, Task.outcome_change]
  cases hremoved : disk.remove backup.copy with
  | error fault => exact .refused fault
  | ok without =>
    obtain ⟨hdirectory, hcopy, hwithout⟩ := h.files_remove_copy hremoved
    have hfiles := state_files_eq hstate (fun _ => hcopy)
    simp only
    rw [outcome_change_tell]
    cases hcopied : without.copy backup.exe backup.copy with
    | error fault => exact .removed fault hdirectory hfiles hwithout
    | ok after =>
      obtain ⟨hdirectory', exe, hexe, hafter⟩ := (h.on hdirectory).files_copy_exe hcopied
      rw [hwithout] at hexe hafter
      refine .done (hdirectory'.trans hdirectory) (hstate.trans hfiles.symm) ?_
      rw [hafter]
      exact .replacedStale hfiles hexe

/-- A patched executable is replaced by the copy, or nothing is done. -/
private theorem Apart.prepared_patched (h : backup.Apart disk)
    (hstate : backup.state disk = .ok .patched) :
    backup.Prepared disk ((backup.follow .patched).outcome disk) := by
  rw [follow, outcome_change_tell]
  cases hcopied : disk.copy backup.copy backup.exe with
  | error fault => exact .refused fault
  | ok after =>
    obtain ⟨hdirectory, original, hcopy, hafter⟩ := h.files_copy_back hcopied
    have hfiles := state_files_eq hstate (fun _ => Option.isSome_of_eq_some hcopy)
    refine .done hdirectory (hstate.trans hfiles.symm) ?_
    rw [hafter]
    exact .restored hfiles hcopy

/-- Preparing does to the files what they call for, or it fails. -/
theorem Apart.prepared (h : backup.Apart disk) :
    backup.Prepared disk (backup.prepare.outcome disk) := by
  rw [outcome_prepare]
  split
  · cases hstate : backup.state disk with
    | error fault => exact .refused fault
    | ok state =>
      cases state with
      | missing => exact h.prepared_copy_exe hstate fun _ => .created
      | unverified => exact h.prepared_unverified hstate
      | patched => exact h.prepared_patched hstate
      | updated => exact h.prepared_copy_exe hstate fun _ => .replacedAfterUpdate
  · exact .refused _

/-- What recording leaves. -/
inductive Recorded (backup : Backup) (disk : Disk) : Except Fault String × Disk → Prop
  /-- The digest of the executable is in the third file. -/
  | done {exe : Bytes} {after : Disk} (hdirectory : after.directory = disk.directory)
      (hexe : (backup.files disk).exe = some exe)
      (hfiles : backup.files after =
        { backup.files disk with digest := some (Sha256.text exe).toUTF8.data }) :
      Recorded backup disk (.ok (Sha256.text exe), after)
  /-- Nothing was done. -/
  | refused (fault : Fault) : Recorded backup disk (.error fault, disk)

/-- Recording gives the digest of the executable to the third file, or it fails. -/
theorem Apart.recorded (h : backup.Apart disk) :
    backup.Recorded disk (backup.record.outcome disk) := by
  rw [record, Task.outcome_bind, Task.outcome_inspect, Disk.hash]
  cases hread : disk.read backup.exe with
  | error fault => exact .refused fault
  | ok exe =>
    simp only [Except.map]
    rw [Task.outcome_bind, Task.outcome_change]
    cases hwrite : disk.write backup.sidecar (Sha256.text exe).toUTF8.data with
    | error fault => exact .refused fault
    | ok after =>
      obtain ⟨name, hdigest, rfl⟩ := Disk.write_eq_ok_iff.mp hwrite
      exact .done (disk.directory_setFile _ _) (Disk.content?_eq_some_iff_read.mpr hread)
        (h.files_setFile_digest hdigest _)

/-- What restoring leaves. -/
inductive Restored (backup : Backup) (disk : Disk) : Except Fault Unit × Disk → Prop
  /-- The copy is in place of the executable, and the digest is forgotten. -/
  | done {original : Bytes} {after : Disk} (hdirectory : after.directory = disk.directory)
      (hcopy : (backup.files disk).copy = some original)
      (hfiles : backup.files after = ⟨some original, some original, none⟩) :
      Restored backup disk (.ok (), after)
  /-- Nothing was done. -/
  | refused (fault : Fault) : Restored backup disk (.error fault, disk)
  /-- The copy is in place of the executable, and the digest could not be removed. -/
  | copied {original : Bytes} {after : Disk} (fault : Fault)
      (hdirectory : after.directory = disk.directory)
      (hcopy : (backup.files disk).copy = some original)
      (hfiles : backup.files after = { backup.files disk with exe := some original }) :
      Restored backup disk (.error fault, after)

/-- Restoring puts the copy in place of the executable and forgets the digest, or it fails. -/
theorem Apart.restored (h : backup.Apart disk) :
    backup.Restored disk (backup.restore.outcome disk) := by
  rw [restore, Task.outcome_bind, Task.outcome_get]
  cases hexists : disk.pathExists backup.copy with
  | false =>
    simp only [hexists]
    exact .refused _
  | true =>
    simp only [hexists]
    change backup.Restored disk
      ((Task.change _ >>= fun _ => _ : Task Disk Unit).outcome disk)
    rw [Task.outcome_bind, Task.outcome_change]
    cases hcopied : disk.copy backup.copy backup.exe with
    | error fault => exact .refused fault
    | ok replaced =>
      obtain ⟨hdirectory, original, hcopy, hreplaced⟩ := h.files_copy_back hcopied
      simp only
      rw [Task.outcome_bind, Task.outcome_get]
      cases hdigest : replaced.pathExists backup.sidecar with
      | false =>
        have hnone : (backup.files disk).digest = none := by
          have hnone : (backup.files replaced).digest = none :=
            Disk.content?_eq_none_of_not_exists hdigest
          rwa [hreplaced] at hnone
        simp only [hdigest]
        refine .done hdirectory hcopy ?_
        simp only [hreplaced, hcopy, hnone]
      | true =>
        simp only [hdigest, if_true]
        rw [Task.outcome_bind, Task.outcome_change]
        cases hremoved : replaced.remove backup.sidecar with
        | error fault => exact .copied fault hdirectory hcopy hreplaced
        | ok after =>
          obtain ⟨name, data, hleads, -, rfl⟩ := Disk.remove_eq_ok_iff.mp hremoved
          refine .done hdirectory hcopy ?_
          simp only [(h.on hdirectory).files_eraseFile_digest hleads, hreplaced, hcopy]

end Backup

end CilPatch
