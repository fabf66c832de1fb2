import CilPatch.Proofs.Disk.Leads
import Mathlib.Data.List.Basic

/-!
# Files next to one another

A path with something put behind it leads into the directory that the path itself leads into, and
so does the path of a sibling. Different endings make different names there, so the files that
belong to one executable never are the same file.
-/

namespace CilPatch

/-- The pieces between separators are free of them. -/
theorem not_mem_of_mem_splitOn {α : Type} [BEq α] [LawfulBEq α] {separator : α}
    {items piece : List α} (h : piece ∈ items.splitOn separator) : separator ∉ piece := by
  induction items generalizing piece with
  | nil =>
    rw [List.splitOn_nil, List.mem_singleton] at h
    simp [h]
  | cons item items ih =>
    rw [List.splitOn_cons_eq_if_modifyHead] at h
    split at h
    · rcases List.mem_cons.mp h with rfl | h
      · simp
      · exact ih h
    · next hitem =>
      have hne : ¬ separator = item := fun hsame => hitem (by rw [hsame]; exact beq_self_eq_true _)
      cases hpieces : items.splitOn separator with
      | nil => exact absurd hpieces (List.splitOn_ne_nil _ _)
      | cons first rest =>
        rw [hpieces, List.modifyHead_cons] at h
        rcases List.mem_cons.mp h with rfl | h
        · simp [hne, ih (hpieces ▸ List.mem_cons_self)]
        · exact ih (hpieces ▸ List.mem_cons_of_mem _ h)

/-- Nothing stands behind the last separator only where it ends the items. -/
theorem eq_nil_or_getLast?_of_splitOn {α : Type} [BEq α] [LawfulBEq α] {separator : α}
    {items : List α} (h : (items.splitOn separator).getLast? = some []) :
    items = [] ∨ items.getLast? = some separator := by
  induction items with
  | nil => exact .inl rfl
  | cons item items ih =>
    right
    rw [List.splitOn_cons_eq_if_modifyHead] at h
    cases hpieces : items.splitOn separator with
    | nil => exact absurd hpieces (List.splitOn_ne_nil _ _)
    | cons first rest =>
      rw [hpieces] at h ih
      split at h
      · next hitem =>
        rw [List.getLast?_cons_cons] at h
        rcases ih h with rfl | hlast
        · rw [List.getLast?_singleton, eq_of_beq hitem]
        · rw [List.getLast?_cons, hlast, Option.getD_some]
      · cases rest with
        | nil => simp at h
        | cons second rest =>
          rw [List.modifyHead_cons, List.getLast?_cons_cons] at h
          rcases ih (by rwa [List.getLast?_cons_cons]) with rfl | hlast
          · rw [List.splitOn_nil] at hpieces
            cases hpieces
          · rw [List.getLast?_cons, hlast, Option.getD_some]

/-- What is put behind the last of some pieces stands behind all of them. -/
theorem intercalate_append {α : Type} (separator last ending : List α) (pieces : List (List α)) :
    separator.intercalate (pieces ++ [last ++ ending]) =
      separator.intercalate (pieces ++ [last]) ++ ending := by
  induction pieces with
  | nil => simp [List.intercalate]
  | cons piece rest ih =>
    rw [List.cons_append, List.cons_append, List.intercalate_cons_of_ne_nil (by simp),
      List.intercalate_cons_of_ne_nil (by simp), ih]
    simp only [List.append_assoc]

namespace Path

/-- The texts between the slashes of a path. -/
def pieces (path : String) : List (List Char) := path.toList.splitOn '/'

/-- The steps of a path up to its last slash. -/
def lead (path : String) : List String :=
  ((pieces path).dropLast.filter (!·.isEmpty)).map String.ofList

/-- What stands behind the last slash of a path. -/
def last (path : String) : String := String.ofList ((pieces path).getLast (List.splitOn_ne_nil _ _))

/-- The pieces of a path are those up to the last slash and the last one. -/
theorem dropLast_append_last (path : String) :
    (pieces path).dropLast ++ [(last path).toList] = pieces path := by
  rw [last, String.toList_ofList]
  exact List.dropLast_append_getLast _

/-- Something without a slash that is put behind a path goes to its last piece. -/
theorem pieces_append (path : String) {ending : String} (h : '/' ∉ ending.toList) :
    pieces (path ++ ending) =
      (pieces path).dropLast ++ [(last path ++ ending).toList] := by
  have hfree : ∀ piece ∈ (pieces path).dropLast ++ [(last path ++ ending).toList],
      '/' ∉ piece := by
    intro piece hpiece
    rcases List.mem_append.mp hpiece with hpiece | hpiece
    · exact not_mem_of_mem_splitOn (List.dropLast_subset _ hpiece)
    · obtain rfl := List.mem_singleton.mp hpiece
      have hlast : (last path).toList ∈ pieces path := by
        rw [← dropLast_append_last path]
        exact List.mem_append_right _ (List.mem_singleton_self _)
      rw [String.toList_append, List.mem_append]
      exact not_or.mpr ⟨not_mem_of_mem_splitOn hlast, h⟩
  have hpath : path.toList = ['/'].intercalate ((pieces path).dropLast ++ [(last path).toList]) := by
    rw [dropLast_append_last, pieces, List.intercalate_splitOn]
  have happend : (path ++ ending).toList =
      ['/'].intercalate ((pieces path).dropLast ++ [(last path ++ ending).toList]) := by
    rw [String.toList_append, hpath, String.toList_append, intercalate_append]
  rw [pieces, happend, List.splitOn_intercalate '/' hfree (by simp)]

/-- The steps of a path are the texts between its slashes that are not empty. -/
theorem steps_eq (path : String) :
    steps path = lead path ++ ([last path].filter (!·.isEmpty)) := by
  have hpieces : steps path = ((pieces path).filter (!·.isEmpty)).map String.ofList := rfl
  rw [hpieces, ← dropLast_append_last, List.filter_append, List.map_append, lead]
  congr 1
  cases hlast : (last path).toList with
  | nil => simp [String.toList_eq_nil_iff.mp hlast]
  | cons c rest =>
    have hne : (last path).isEmpty = false := by
      rw [Bool.eq_false_iff, Ne, String.isEmpty_iff, ← String.toList_eq_nil_iff, hlast]
      simp
    have hback : String.ofList (c :: rest) = last path := by rw [← hlast, String.ofList_toList]
    rw [List.filter_singleton, List.filter_singleton, hne]
    exact congrArg (fun text => [text]) hback

/-- The steps of a path with something behind it that has no slash. -/
theorem steps_append (path : String) {ending : String} (h : '/' ∉ ending.toList)
    (hne : ending ≠ "") : steps (path ++ ending) = lead path ++ [last path ++ ending] := by
  have hpieces := pieces_append path h
  have hlead : lead (path ++ ending) = lead path := by
    rw [lead, hpieces, List.dropLast_concat, lead]
  have hlast : last (path ++ ending) = last path ++ ending := by
    have hconcat := dropLast_append_last (path ++ ending)
    rw [hpieces, List.dropLast_concat] at hconcat
    exact String.toList_inj.mp (List.singleton_injective (List.append_cancel_left hconcat))
  have hfull : (last path ++ ending).isEmpty = false := by
    rw [Bool.eq_false_iff, Ne, String.isEmpty_iff, String.append_eq_empty_iff]
    exact fun hempty => hne hempty.2
  rw [steps_eq, hlead, hlast]
  simp [hfull]

/-- A path that does not end in a slash has something behind its last one. -/
theorem last_ne_empty {path : String} (hplain : endsInSlash path = false) (hne : path ≠ "") :
    last path ≠ "" := by
  intro hlast
  have hpieces : (path.toList.splitOn '/').getLast? = some [] := by
    change (pieces path).getLast? = some []
    rw [← dropLast_append_last, List.getLast?_concat, hlast, String.toList_empty]
  rcases eq_nil_or_getLast?_of_splitOn hpieces with hnil | hslash
  · exact hne (String.toList_eq_nil_iff.mp hnil)
  · rw [endsInSlash, hslash] at hplain
    cases hplain

/-- The steps of a path to a file. -/
theorem steps_of_plain {path : String} (hplain : endsInSlash path = false) (hne : path ≠ "") :
    steps path = lead path ++ [last path] := by
  have hfull : (last path).isEmpty = false := by
    rw [Bool.eq_false_iff, Ne, String.isEmpty_iff]
    exact last_ne_empty hplain hne
  rw [steps_eq, List.filter_singleton, hfull]
  rfl

/-- No step is empty or has a slash. -/
theorem plain_of_mem_steps {path part : String} (h : part ∈ steps path) :
    '/' ∉ part.toList ∧ part ≠ "" := by
  obtain ⟨piece, hpiece, rfl⟩ := List.mem_map.mp h
  obtain ⟨hmem, hfull⟩ := List.mem_filter.mp hpiece
  rw [String.toList_ofList]
  refine ⟨not_mem_of_mem_splitOn hmem, fun hempty => ?_⟩
  have hnil : piece = [] := by rw [← String.toList_ofList (l := piece), hempty, String.toList_empty]
  rw [hnil] at hfull
  cases hfull

/-- Texts that are put together with slashes are the steps of what they make. -/
theorem steps_intercalate {names : List String} (hne : names ≠ [])
    (hplain : ∀ name ∈ names, '/' ∉ name.toList ∧ name ≠ "") :
    steps ("/".intercalate names) = names ∧ steps ("/" ++ "/".intercalate names) = names := by
  have hpieces : ("/".intercalate names).toList.splitOn '/' = names.map String.toList := by
    rw [String.toList_intercalate]
    refine List.splitOn_intercalate '/' ?_ (by simpa using hne)
    intro piece hpiece
    obtain ⟨name, hname, rfl⟩ := List.mem_map.mp hpiece
    exact (hplain name hname).1
  have hfull : (names.map String.toList).filter (!·.isEmpty) = names.map String.toList := by
    refine List.filter_eq_self.mpr fun piece hpiece => ?_
    obtain ⟨name, hname, rfl⟩ := List.mem_map.mp hpiece
    simpa using (hplain name hname).2
  have hback : (names.map String.toList).map String.ofList = names := by
    rw [List.map_map]
    exact List.map_id'' (fun name => String.ofList_toList) names
  refine ⟨?_, ?_⟩
  · rw [steps, hpieces, hfull, hback]
  · rw [steps, String.toList_append]
    change ((List.splitOn '/' ('/' :: ("/".intercalate names).toList)).filter _).map _ = _
    rw [List.splitOn_cons_eq_if_modifyHead, if_pos (beq_self_eq_true _), hpieces]
    change ((names.map String.toList).filter _).map _ = _
    rw [hfull, hback]

/-- A path that does not start at the root joins its parts. -/
theorem ofParts_of_ne {start : String} (h : start ≠ "/") (names : List String) :
    ofParts (start :: names) = "/".intercalate (start :: names) :=
  ofParts.eq_2 _ fun _ hparts => h (List.cons.inj hparts).1

/-- One part makes itself. -/
theorem ofParts_singleton (name : String) : ofParts [name] = name := by
  by_cases hroot : name = "/"
  · subst hroot
    rfl
  · rw [ofParts_of_ne hroot, String.intercalate_singleton]

/-- What stands behind a path does not change where it starts. -/
theorem start_append (path : String) {ending : String} (h : '/' ∉ ending.toList) :
    start (path ++ ending) = start path := by
  have habsolute : isAbsolute (path ++ ending) = isAbsolute path := by
    rw [isAbsolute, isAbsolute, String.toList_append]
    cases path.toList with
    | nil =>
      cases hending : ending.toList with
      | nil => rfl
      | cons c rest =>
        have hc : ¬ c = '/' := fun hc => h (by rw [hending, hc]; exact List.mem_cons_self)
        simp [hc]
    | cons c rest => rfl
  rw [start, start, habsolute]

/-- A path whose first part has no slash does not start at the root. -/
theorem isAbsolute_intercalate {first : String} {rest : List String} (hfree : '/' ∉ first.toList)
    (hfull : first ≠ "") : isAbsolute ("/".intercalate (first :: rest)) = false := by
  rw [isAbsolute, String.toList_intercalate, List.map_cons]
  cases hfirst : first.toList with
  | nil => exact absurd (String.toList_eq_nil_iff.mp hfirst) hfull
  | cons c cs =>
    have hc : ¬ c = '/' := fun hc => hfree (by rw [hfirst, hc]; exact List.mem_cons_self)
    cases rest with
    | nil => simp [List.intercalate, hc]
    | cons second rest => simp [List.intercalate, hc]

/-- The path of a sibling starts where the path does and has its steps, but for single dots and
for the last one. -/
theorem sibling_steps {path text ending : String} (hsteps : steps path = lead path ++ [last path])
    (hdot : last path ≠ ".") (htext : fileName? path = some text) (hslash : '/' ∉ ending.toList) :
    steps (sibling path (text ++ ending)) =
        (lead path).filter (· != ".") ++ [last path ++ ending] ∧
      start (sibling path (text ++ ending)) = start path := by
  have hnamed : (steps path).filter (· != ".") =
      (lead path).filter (· != ".") ++ [last path] := by
    rw [hsteps, List.filter_append, List.filter_cons_of_pos (by simpa using hdot), List.filter_nil]
  have hmem : last path ∈ steps path := by
    rw [hsteps]
    exact List.mem_append_right _ (List.mem_singleton_self _)
  have hplain : ∀ part ∈ (lead path).filter (· != ".") ++ [last path ++ ending],
      '/' ∉ part.toList ∧ part ≠ "" := by
    intro part hpart
    rcases List.mem_append.mp hpart with hpart | hpart
    · have hstep : part ∈ steps path := by
        rw [hsteps]
        exact List.mem_append_left _ (List.mem_filter.mp hpart).1
      exact plain_of_mem_steps hstep
    · obtain rfl := List.mem_singleton.mp hpart
      obtain ⟨hfree, hfull⟩ := plain_of_mem_steps hmem
      rw [String.toList_append, List.mem_append]
      exact ⟨not_or.mpr ⟨hfree, hslash⟩,
        fun hempty => hfull (String.append_eq_empty_iff.mp hempty).1⟩
  obtain ⟨hrelative, hrooted⟩ := steps_intercalate (by simp) hplain
  rw [fileName?, parts, hnamed] at htext
  rw [sibling, parts, hnamed]
  cases habsolute : isAbsolute path with
  | true =>
    rw [habsolute, if_pos rfl, ← List.cons_append, List.getLast?_concat] at htext
    obtain rfl : last path = text := (Option.filter_eq_some_iff.mp htext).1 |> Option.some.inj
    rw [if_pos rfl, ← List.cons_append, List.dropLast_concat, List.cons_append]
    refine ⟨hrooted, ?_⟩
    have hroot : isAbsolute (ofParts ("/" :: ((lead path).filter (· != ".") ++
        [last path ++ ending]))) = true := by
      rw [ofParts, isAbsolute, String.toList_append]
      rfl
    rw [start, start, habsolute, hroot]
  | false =>
    rw [habsolute, if_neg (by simp), List.getLast?_concat] at htext
    obtain rfl : last path = text := (Option.filter_eq_some_iff.mp htext).1 |> Option.some.inj
    rw [if_neg (by simp), List.dropLast_concat]
    cases hnames : (lead path).filter (· != ".") ++ [last path ++ ending] with
    | nil => simp at hnames
    | cons first rest =>
      rw [hnames] at hplain hrelative
      obtain ⟨hfree, hfull⟩ := hplain first List.mem_cons_self
      have hroot : first ≠ "/" := by
        rintro rfl
        exact hfree (by decide)
      rw [ofParts_of_ne hroot]
      refine ⟨hrelative, ?_⟩
      rw [start, start, habsolute, isAbsolute_intercalate hfree hfull]

end Path

namespace Disk

variable {disk : Disk} {path name : String}

/-- Only from a directory a step leads to a name, and then to a name there. -/
theorem enter_eq_named {place : Place} {part : String}
    (h : disk.enter place part = .ok (disk.named name)) :
    ∃ names, place = .directory names ∧ name = disk.nameOf names part ∧ part ≠ "." := by
  cases place with
  | file other => cases h
  | vacant other => cases h
  | directory names =>
    refine ⟨names, rfl, ?_⟩
    have hplace (inner : List String) : ¬ Place.directory inner = disk.named name := by
      intro hsame
      rw [named] at hsame
      split at hsame <;> cases hsame
    unfold enter at h
    split at h
    · next hplace => cases hplace
    · next hplace => cases hplace
    · next hdirectory =>
      obtain rfl := Place.directory.inj hdirectory
      split at h
      · exact absurd (Except.ok.inj h) (hplace _)
      · next hdot =>
        split at h
        · exact absurd (Except.ok.inj h) (hplace _)
        · split at h
          · cases h
          · split at h
            · exact absurd (Except.ok.inj h) (hplace _)
            · have hnamed : disk.named (disk.nameOf names part) = disk.named name := by
                rw [← Except.ok.inj h]
                rfl
              exact ⟨(named_injective disk hnamed).symm, hdot⟩

/-- The steps of a path from its start. -/
theorem Leads.foldlM_eq (h : disk.Leads path name) : path ≠ "" ∧
    (Path.steps path).foldlM disk.enter (.directory [Path.start path]) =
      .ok (disk.named name) := by
  have hreach := h.reach
  unfold Disk.reach at hreach
  split at hreach
  · cases hreach
  · split at hreach
    · cases hreach
    · next hempty =>
      split at hreach
      · cases hreach
      · exact ⟨fun hpath => hempty (by rw [hpath]; rfl), hreach⟩

/-- A path to a name passes a directory last, and the name is that of its last step there. -/
theorem Leads.folder (h : disk.Leads path name) {init : List String} {final : String}
    (hsteps : Path.steps path = init ++ [final]) : ∃ names,
    init.foldlM disk.enter (.directory [Path.start path]) = .ok (.directory names) ∧
      name = disk.nameOf names final ∧ final ≠ "." := by
  have hfold := h.foldlM_eq.2
  rw [hsteps, List.foldlM_append] at hfold
  obtain ⟨place, hplace, hfinal⟩ := bind_eq_ok_iff.mp hfold
  obtain ⟨_, henter, hpure⟩ := bind_eq_ok_iff.mp hfinal
  obtain rfl := Except.ok.inj hpure
  obtain ⟨names, rfl, hname, hdot⟩ := enter_eq_named henter
  exact ⟨names, hplace, hname, hdot⟩

/-- Different last steps in one directory are different names. -/
theorem nameOf_injective (disk : Disk) (names : List String) :
    Function.Injective (disk.nameOf names) := by
  intro first second h
  have hjoin (parts : List String) (hsame : "/".intercalate (parts ++ [first]) =
      "/".intercalate (parts ++ [second])) : first = second := by
    have hlists := congrArg String.toList hsame
    simp only [String.toList_intercalate, List.map_append, List.map_cons, List.map_nil] at hlists
    rw [← List.nil_append first.toList, intercalate_append, ← List.nil_append second.toList,
      intercalate_append] at hlists
    exact String.toList_inj.mp (List.append_cancel_left hlists)
  unfold nameOf at h
  split at h
  · exact h
  · cases names with
    | nil => rwa [List.nil_append, List.nil_append, Path.ofParts_singleton,
        Path.ofParts_singleton] at h
    | cons start names =>
      by_cases hroot : start = "/"
      · subst hroot
        exact hjoin names ((String.append_right_inj "/").mp h)
      · rw [List.cons_append, List.cons_append, Path.ofParts_of_ne hroot,
          Path.ofParts_of_ne hroot] at h
        exact hjoin (start :: names) h

/-- Single dots on the way to a directory can be left out. -/
theorem foldlM_enter_filter {place : Place} {parts names : List String}
    (h : parts.foldlM disk.enter place = .ok (.directory names)) :
    (parts.filter (· != ".")).foldlM disk.enter place = .ok (.directory names) := by
  induction parts generalizing place with
  | nil => exact h
  | cons part rest ih =>
    rw [List.foldlM_cons] at h
    obtain ⟨inner, henter, hrest⟩ := bind_eq_ok_iff.mp h
    by_cases hdot : part = "."
    · subst hdot
      have hstay : inner = place := by
        cases place with
        | file other => cases henter
        | vacant other => cases henter
        | directory here => exact (Except.ok.inj henter).symm
      rw [hstay] at hrest
      exact ih hrest
    · rw [List.filter_cons_of_pos (by simpa using hdot), List.foldlM_cons, henter]
      exact ih hrest

/-- A name lies in the directory that a path leads into, and is the last piece of the path with an
ending. -/
def Beside (disk : Disk) (path ending name : String) : Prop := ∃ names,
  (Path.lead path).foldlM disk.enter (.directory [Path.start path]) = .ok (.directory names) ∧
    name = disk.nameOf names (Path.last path ++ ending)

/-- Different endings make different names. -/
theorem Beside.ne {first second one other : String} (hone : disk.Beside path first one)
    (hother : disk.Beside path second other) (hne : first ≠ second) : one ≠ other := by
  obtain ⟨names, hfold, rfl⟩ := hone
  obtain ⟨others, hfold', rfl⟩ := hother
  obtain rfl := Place.directory.inj (Except.ok.inj (hfold.symm.trans hfold'))
  intro hsame
  exact hne ((String.append_right_inj _).mp (disk.nameOf_injective _ hsame))

/-- The name that a path leads to lies where the path leads. -/
theorem Leads.beside (h : disk.Leads path name) : disk.Beside path "" name := by
  obtain ⟨names, hfold, hname, -⟩ := h.folder (Path.steps_of_plain h.plain h.foldlM_eq.1)
  exact ⟨names, hfold, by rw [hname, String.append_empty]⟩

/-- So does the name that the path with an ending leads to. -/
theorem Leads.beside_append {ending : String} (h : disk.Leads (path ++ ending) name)
    (hslash : '/' ∉ ending.toList) (hne : ending ≠ "") : disk.Beside path ending name := by
  obtain ⟨names, hfold, hname, -⟩ := h.folder (Path.steps_append path hslash hne)
  rw [Path.start_append path hslash] at hfold
  exact ⟨names, hfold, hname⟩

/-- So does the name that the path of a sibling with an ending leads to. -/
theorem Leads.beside_sibling {text ending file : String} (hpath : disk.Leads path file)
    (htext : Path.fileName? path = some text)
    (h : disk.Leads (Path.sibling path (text ++ ending)) name)
    (hslash : '/' ∉ ending.toList) : disk.Beside path ending name := by
  have hplain := Path.steps_of_plain hpath.plain hpath.foldlM_eq.1
  obtain ⟨names, hfold, -, hdot⟩ := hpath.folder hplain
  have hsibling := Path.sibling_steps hplain hdot htext hslash
  obtain ⟨others, hothers, hname, -⟩ := h.folder hsibling.1
  rw [hsibling.2, foldlM_enter_filter hfold] at hothers
  obtain rfl := Place.directory.inj (Except.ok.inj hothers)
  exact ⟨names, hfold, hname⟩

end Disk

end CilPatch
