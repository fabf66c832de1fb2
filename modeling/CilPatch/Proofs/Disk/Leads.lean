import CilPatch.Proofs.Step
import CilPatch.Disk.Files

/-!
# Where paths lead

A path that leads to a file name leads there whatever the files hold, because only directories
are passed on the way. So reading, writing, copying and removing by path are operations on the
content of one file name.
-/

namespace CilPatch

namespace Disk

variable {disk other : Disk}

/-- What a name in a directory is on a disk: a file, or nothing yet. -/
def named (disk : Disk) (name : String) : Place :=
  if (disk.file? name).isSome then .file name else .vacant name

/-- A path leads to the file with a name, which may not be there yet. -/
structure Leads (disk : Disk) (path name : String) : Prop where
  reach : disk.reach path = .ok (disk.named name)
  plain : Path.endsInSlash path = false

instance (disk : Disk) (path name : String) : Decidable (disk.Leads path name) :=
  decidable_of_iff
    ((disk.reach path).toOption = some (disk.named name) ∧ Path.endsInSlash path = false)
    ⟨fun ⟨hreach, hplain⟩ => ⟨by cases h : disk.reach path <;> simp_all [Except.toOption], hplain⟩,
      fun h => ⟨by rw [h.reach]; rfl, h.plain⟩⟩

/-- A step from a directory ends in a directory, or at a name, whatever the files hold. -/
private theorem enter_directory (hdirectory : other.directory = disk.directory)
    (names : List String) (part : String) :
    (∃ inner, disk.enter (.directory names) part = .ok (.directory inner) ∧
      other.enter (.directory names) part = .ok (.directory inner)) ∨
    (∃ name, disk.enter (.directory names) part = .ok (disk.named name) ∧
      other.enter (.directory names) part = .ok (other.named name)) ∨
    ∃ fault, disk.enter (.directory names) part = .error fault := by
  have hhome : other.home = disk.home := by rw [home, home, hdirectory]
  simp only [enter, hhome, nameOf]
  split
  · exact .inl ⟨names, rfl, rfl⟩
  · split
    · exact .inl ⟨_, rfl, rfl⟩
    · split
      · exact .inr (.inr ⟨_, rfl⟩)
      · split
        · exact .inl ⟨_, rfl, rfl⟩
        · exact .inr (.inl ⟨_, rfl, rfl⟩)

/-- Different names are different places. -/
theorem named_injective (disk : Disk) : Function.Injective disk.named := by
  intro first second h
  simp only [named] at h
  split at h <;> split at h <;> cases h <;> rfl

/-- No way leads on from a name. -/
private theorem foldlM_enter_named {name : String} {parts : List String} {place : Place}
    (h : parts.foldlM disk.enter (disk.named name) = .ok place) : parts = [] := by
  cases parts with
  | nil => rfl
  | cons part rest =>
    rw [List.foldlM_cons, named] at h
    split at h <;> cases h

/-- Steps that end at a name on one disk end at it on every disk of the directory. -/
private theorem foldlM_enter_directory (hdirectory : other.directory = disk.directory)
    {names parts : List String} {name : String}
    (h : parts.foldlM disk.enter (.directory names) = .ok (disk.named name)) :
    parts.foldlM other.enter (.directory names) = .ok (other.named name) := by
  induction parts generalizing names with
  | nil =>
    have hplace : Place.directory names = disk.named name := Except.ok.inj h
    rw [named] at hplace
    split at hplace <;> cases hplace
  | cons part rest ih =>
    rw [List.foldlM_cons] at h ⊢
    rcases enter_directory hdirectory names part with
      ⟨inner, henter, hother⟩ | ⟨found, henter, hother⟩ | ⟨fault, henter⟩
    · rw [henter] at h
      rw [hother]
      exact ih h
    · rw [henter] at h
      obtain rfl := foldlM_enter_named h
      rw [hother]
      obtain rfl : found = name := named_injective disk (Except.ok.inj h)
      rfl
    · rw [henter] at h
      cases h

/-- Where a path leads depends on the directory and not on what its files hold. -/
theorem Leads.on {path name : String} (h : disk.Leads path name)
    (hdirectory : other.directory = disk.directory) : other.Leads path name := by
  refine ⟨?_, h.plain⟩
  have hreach := h.reach
  unfold Disk.reach at hreach ⊢
  split at hreach
  · cases hreach
  · next hcharacters =>
    split at hreach
    · cases hreach
    · next hempty =>
      split at hreach
      · cases hreach
      · next hlength =>
        rw [if_neg hcharacters, if_neg hempty, if_neg hlength]
        exact foldlM_enter_directory hdirectory hreach

@[simp] theorem directory_setFile (disk : Disk) (name : String) (data : Bytes) :
    (disk.setFile name data).directory = disk.directory := by
  unfold setFile
  split <;> rfl

@[simp] theorem directory_eraseFile (disk : Disk) (name : String) :
    (disk.eraseFile name).directory = disk.directory := rfl

namespace Leads

variable {path name source origin : String}

/-- The place that a path leads to. -/
theorem place_eq (h : disk.Leads path name) : disk.place path = .ok (disk.named name) := by
  rw [place, h.reach]
  simp only [h.plain]
  rfl

/-- A path that leads to a name exists when there is a file of that name. -/
theorem pathExists_eq (h : disk.Leads path name) :
    disk.pathExists path = (disk.file? name).isSome := by
  rw [pathExists, h.place_eq, named]
  cases disk.file? name <;> rfl

/-- The file that a path leads to. -/
theorem fileOr_eq (h : disk.Leads path name) (refusal : DiskFault) :
    disk.fileOr path refusal =
      match disk.file? name with
      | some data => .ok (name, data)
      | none => .error (.disk .missing) := by
  rw [fileOr, h.place_eq, named]
  cases hfile : disk.file? name with
  | none => rfl
  | some data =>
    change (match disk.file? name with
      | some data => pure (name, data)
      | none => throw (Fault.disk .missing)) = _
    rw [hfile]
    rfl

/-- Reading yields the content of the file. -/
theorem read_eq (h : disk.Leads path name) :
    disk.read path = (disk.file? name).elim (.error (.disk .missing)) .ok := by
  rw [read, h.fileOr_eq]
  cases disk.file? name <;> rfl

/-- Mapping yields the content of the file. -/
theorem map_eq (h : disk.Leads path name) :
    disk.map path = (disk.file? name).elim (.error (.disk .missing)) .ok := by
  rw [Disk.map, h.fileOr_eq]
  cases disk.file? name <;> rfl

/-- Writing gives the file its content. -/
theorem write_eq (h : disk.Leads path name) (data : Bytes) :
    disk.write path data = .ok (disk.setFile name data) := by
  rw [write, h.reach, named]
  simp only [h.plain]
  cases disk.file? name <;> rfl

/-- Copying gives a file the content of another. -/
theorem copy_eq (hsource : disk.Leads source origin) (h : disk.Leads path name) :
    disk.copy source path = (disk.file? origin).elim (.error (.disk .missing))
      fun data => .ok (disk.setFile name data) := by
  rw [copy, hsource.fileOr_eq]
  cases disk.file? origin with
  | none => rfl
  | some data => exact h.write_eq data

/-- Removing a file erases it. -/
theorem remove_eq (h : disk.Leads path name) :
    disk.remove path = (disk.file? name).elim (.error (.disk .missing))
      fun _ => .ok (disk.eraseFile name) := by
  rw [remove, h.fileOr_eq]
  cases disk.file? name <;> rfl

/-- Renaming a file erases it and gives its content to the other name. -/
theorem rename_eq (hsource : disk.Leads source origin) (h : disk.Leads path name) :
    disk.rename source path = (disk.file? origin).elim (.error (.disk .missing))
      fun data => .ok ((disk.eraseFile origin).setFile name data) := by
  rw [rename, hsource.fileOr_eq]
  cases disk.file? origin with
  | none => rfl
  | some data =>
    change (disk.reach path >>= _) = _
    rw [h.reach, named]
    simp only [h.plain]
    cases disk.file? name <;> rfl

end Leads

/-! ## Paths that need not lead to a name -/

variable {path name source target : String} {data : Bytes} {after : Disk}

/-- Steps from a directory end in a directory or at a name. -/
private theorem foldlM_enter_cases {parts names : List String} {place : Place}
    (h : parts.foldlM disk.enter (.directory names) = .ok place) :
    (∃ names, place = .directory names) ∨ ∃ name, place = disk.named name := by
  induction parts generalizing names with
  | nil => exact .inl ⟨names, (Except.ok.inj h).symm⟩
  | cons part rest ih =>
    rw [List.foldlM_cons] at h
    obtain ⟨inner, henter, hrest⟩ := bind_eq_ok_iff.mp h
    rcases enter_directory (show disk.directory = disk.directory from rfl) names part with
      ⟨here, hhere, -⟩ | ⟨name, hname, -⟩ | ⟨fault, hfault⟩
    · obtain rfl := Except.ok.inj (hhere.symm.trans henter)
      exact ih hrest
    · obtain rfl := Except.ok.inj (hname.symm.trans henter)
      obtain rfl := foldlM_enter_named hrest
      exact .inr ⟨name, (Except.ok.inj hrest).symm⟩
    · rw [hfault] at henter
      cases henter

/-- What is reached is a directory or a name. -/
theorem reach_cases {place : Place} (h : disk.reach path = .ok place) :
    (∃ names, place = .directory names) ∨ ∃ name, place = disk.named name := by
  unfold Disk.reach at h
  split at h
  · cases h
  · split at h
    · cases h
    · split at h
      · cases h
      · exact foldlM_enter_cases h

/-- A file is found exactly where a path leads to a name with a content. -/
theorem fileOr_eq_ok_iff {refusal : DiskFault} : disk.fileOr path refusal = .ok (name, data) ↔
    disk.Leads path name ∧ disk.file? name = some data := by
  constructor
  · intro h
    obtain ⟨place, hplace, hfile⟩ := bind_eq_ok_iff.mp h
    cases place with
    | directory names => cases hfile
    | vacant other => cases hfile
    | file other =>
      change (match disk.file? other with
        | some data => pure (other, data)
        | none => throw (Fault.disk .missing)) = _ at hfile
      cases hother : disk.file? other with
      | none =>
        rw [hother] at hfile
        cases hfile
      | some found =>
        rw [hother] at hfile
        obtain ⟨rfl, rfl⟩ := Prod.mk.inj (Except.ok.inj hfile)
        refine ⟨?_, hother⟩
        have hnamed : disk.named other = .file other := by
          rw [named, hother]
          rfl
        obtain ⟨place, hreach, hend⟩ := bind_eq_ok_iff.mp hplace
        cases hplain : Path.endsInSlash path with
        | false =>
          rw [hplain] at hend
          rw [Except.ok.inj hend] at hreach
          exact ⟨by rw [hnamed, hreach], hplain⟩
        | true =>
          rw [hplain, if_pos rfl] at hend
          rcases reach_cases hreach with ⟨names, rfl⟩ | ⟨name, rfl⟩
          · cases hend
          · rw [named] at hend
            split at hend <;> cases hend
  · rintro ⟨hleads, hfile⟩
    rw [hleads.fileOr_eq, hfile]

/-- A file is read exactly where a path leads to a name with a content. -/
theorem read_eq_ok_iff : disk.read path = .ok data ↔
    ∃ name, disk.Leads path name ∧ disk.file? name = some data := by
  change (·.2) <$> disk.fileOr path .directory = .ok data ↔ _
  rw [map_eq_ok_iff]
  constructor
  · rintro ⟨⟨name, found⟩, hfile, rfl⟩
    exact ⟨name, fileOr_eq_ok_iff.mp hfile⟩
  · rintro ⟨name, hfile⟩
    exact ⟨(name, data), fileOr_eq_ok_iff.mpr hfile, rfl⟩

/-- A file is mapped exactly where it is read. -/
theorem map_eq_ok_iff_read : disk.map path = .ok data ↔ disk.read path = .ok data := by
  change (·.2) <$> disk.fileOr path .notMappable = .ok data ↔ _
  rw [read_eq_ok_iff, map_eq_ok_iff]
  constructor
  · rintro ⟨⟨name, found⟩, hfile, rfl⟩
    exact ⟨name, fileOr_eq_ok_iff.mp hfile⟩
  · rintro ⟨name, hfile⟩
    exact ⟨(name, data), fileOr_eq_ok_iff.mpr hfile, rfl⟩

/-- A file is written exactly where a path leads to a name. -/
theorem write_eq_ok_iff : disk.write path data = .ok after ↔
    ∃ name, disk.Leads path name ∧ after = disk.setFile name data := by
  constructor
  · intro h
    obtain ⟨place, hreach, hwrite⟩ := bind_eq_ok_iff.mp h
    rcases reach_cases hreach with ⟨names, rfl⟩ | ⟨name, rfl⟩
    · cases hwrite
    · cases hplain : Path.endsInSlash path with
      | false =>
        have hleads : disk.Leads path name := ⟨hreach, hplain⟩
        rw [hleads.write_eq] at h
        exact ⟨name, hleads, (Except.ok.inj h).symm⟩
      | true =>
        have hrefused : disk.write path data = .error (.disk .directory) := by
          rw [write, hreach, named]
          simp only [hplain]
          cases disk.file? name <;> rfl
        rw [hrefused] at h
        cases h
  · rintro ⟨name, hleads, rfl⟩
    exact hleads.write_eq data

/-- A file is copied exactly where it is read and its copy is written. -/
theorem copy_eq_ok_iff : disk.copy source target = .ok after ↔
    ∃ data, disk.read source = .ok data ∧ disk.write target data = .ok after := by
  simp only [copy, bind_eq_ok_iff, read_eq_ok_iff]
  constructor
  · rintro ⟨⟨name, data⟩, hfile, hwrite⟩
    exact ⟨data, ⟨name, fileOr_eq_ok_iff.mp hfile⟩, hwrite⟩
  · rintro ⟨data, ⟨name, hfile⟩, hwrite⟩
    exact ⟨(name, data), fileOr_eq_ok_iff.mpr hfile, hwrite⟩

/-- A file is removed exactly where it is read. -/
theorem remove_eq_ok_iff : disk.remove path = .ok after ↔
    ∃ name data, disk.Leads path name ∧ disk.file? name = some data ∧
      after = disk.eraseFile name := by
  simp only [remove, bind_eq_ok_iff]
  constructor
  · rintro ⟨⟨name, data⟩, hfile, hafter⟩
    obtain ⟨hleads, hdata⟩ := fileOr_eq_ok_iff.mp hfile
    exact ⟨name, data, hleads, hdata, (Except.ok.inj hafter).symm⟩
  · rintro ⟨name, data, hleads, hdata, rfl⟩
    exact ⟨(name, data), fileOr_eq_ok_iff.mpr ⟨hleads, hdata⟩, rfl⟩

/-- The content of the file that a path leads to, if it leads to one. -/
def content? (disk : Disk) (path : String) : Option Bytes := (disk.read path).toOption

/-- A path has a content exactly where it leads to a name with one. -/
theorem content?_eq_some_iff : disk.content? path = some data ↔
    ∃ name, disk.Leads path name ∧ disk.file? name = some data := by
  rw [← read_eq_ok_iff, content?]
  cases disk.read path <;> simp [Except.toOption]

/-- A path has a content exactly where it can be read. -/
theorem content?_eq_some_iff_read : disk.content? path = some data ↔
    disk.read path = .ok data := by
  rw [content?_eq_some_iff, read_eq_ok_iff]

/-- The content of the name that a path leads to. -/
theorem Leads.content?_eq (h : disk.Leads path name) : disk.content? path = disk.file? name := by
  rw [content?, h.read_eq]
  cases disk.file? name <;> rfl

/-- A path keeps its content where the file that it leads to is the same. -/
theorem content?_of_agree (hdirectory : other.directory = disk.directory)
    (h : ∀ name, disk.Leads path name → other.file? name = disk.file? name) :
    other.content? path = disk.content? path := by
  apply Option.ext
  intro data
  simp only [content?_eq_some_iff]
  constructor
  · rintro ⟨name, hleads, hfile⟩
    have hback := hleads.on hdirectory.symm
    exact ⟨name, hback, by rw [← h name hback, hfile]⟩
  · rintro ⟨name, hleads, hfile⟩
    exact ⟨name, hleads.on hdirectory, by rw [h name hleads, hfile]⟩

/-- A file has the content that it was given. -/
theorem content?_setFile_self (h : disk.Leads path name) (data : Bytes) :
    (disk.setFile name data).content? path = some data := by
  rw [(h.on (disk.directory_setFile name data)).content?_eq, file?_setFile_self]

/-- Giving a file a content leaves paths to others alone. -/
theorem content?_setFile_of_ne (data : Bytes)
    (h : ∀ other, disk.Leads path other → other ≠ name) :
    (disk.setFile name data).content? path = disk.content? path :=
  content?_of_agree (disk.directory_setFile name data) fun other hleads =>
    disk.file?_setFile_of_ne data (h other hleads)

/-- An erased file has no content. -/
theorem content?_eraseFile_self (h : disk.Leads path name) :
    (disk.eraseFile name).content? path = none := by
  rw [(h.on (disk.directory_eraseFile name)).content?_eq, file?_eraseFile_self]

/-- Erasing a file leaves paths to others alone. -/
theorem content?_eraseFile_of_ne (h : ∀ other, disk.Leads path other → other ≠ name) :
    (disk.eraseFile name).content? path = disk.content? path :=
  content?_of_agree (disk.directory_eraseFile name) fun other hleads =>
    disk.file?_eraseFile_of_ne (h other hleads)

/-- A path that does not exist has no content. -/
theorem content?_eq_none_of_not_exists (h : disk.pathExists path = false) :
    disk.content? path = none := by
  cases hcontent : disk.content? path with
  | none => rfl
  | some data =>
    obtain ⟨name, hleads, hfile⟩ := content?_eq_some_iff.mp hcontent
    rw [hleads.pathExists_eq, hfile] at h
    cases h

/-- Where a file can be written, a path exists only with a content. -/
theorem pathExists_of_write (h : disk.write path data = .ok after) :
    disk.pathExists path = (disk.content? path).isSome := by
  obtain ⟨name, hleads, -⟩ := write_eq_ok_iff.mp h
  rw [hleads.pathExists_eq, hleads.content?_eq]

end Disk

end CilPatch
