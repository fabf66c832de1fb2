import CilPatch.Patch.Pattern
import Mathlib.Data.Nat.Find
import Mathlib.Logic.Function.Iterate

/-!
# Where a search ends

A window that is moved over a method stops at the first place where all of its predicates hold.
A later place has a later target, so a target past the end of the method is no reason to look
further. A search tries its patterns one by one, in one step each, and ends with the first that
is found.
-/

namespace CilPatch

namespace Pattern

variable {pattern : Pattern} {list : InstrList} {start : Nat}

/-- All predicates of a pattern hold from a position of a method on, one for each instruction. -/
structure HoldsAt (pattern : Pattern) (list : InstrList) (start : Nat) : Prop where
  /-- The window ends in the method. -/
  within : start + pattern.window.length ≤ list.length
  /-- Each predicate holds of the instruction that it meets. -/
  holds : ∀ (offset : Nat) (predicate : Predicate), pattern.window[offset]? = some predicate →
    ∃ instruction, list.instructionAt? (start + offset) = some instruction ∧
      predicate.holds instruction = true

/-- A place of a pattern that can be used: it holds there, and the target is in the method. -/
structure UsableAt (pattern : Pattern) (list : InstrList) (start : Nat) : Prop
    extends pattern.HoldsAt list start where
  /-- The target is in the method. -/
  target_lt : start + pattern.target < list.length

/-- The instructions of a method in order are those at its positions. -/
theorem getElem?_map_placed (list : InstrList) (index : Nat) :
    (list.placed.map (·.2))[index]? = list.instructionAt? index := by
  simp [InstrList.placed, InstrList.instructionAt?, InstrList.slotAt?, Function.comp_def]

/-- There are as many instructions as positions. -/
theorem length_map_placed (list : InstrList) :
    (list.placed.map (·.2)).length = list.length := by
  simp [InstrList.placed, InstrList.length]

/-- Predicates hold of the first instructions when there are enough and each holds of its own. -/
theorem startsWith_iff {window : List Predicate} {instructions : List Instruction} :
    startsWith window instructions = true ↔
      window.length ≤ instructions.length ∧
        ∀ (offset : Nat) (predicate : Predicate), window[offset]? = some predicate →
          ∃ instruction, instructions[offset]? = some instruction ∧
            predicate.holds instruction = true := by
  induction window generalizing instructions with
  | nil => simp [startsWith]
  | cons predicate window ih =>
      cases instructions with
      | nil => simp [startsWith]
      | cons instruction rest =>
          simp only [startsWith, Bool.and_eq_true, ih, List.length_cons, Nat.add_le_add_iff_right]
          constructor
          · rintro ⟨hfirst, hlength, hrest⟩
            refine ⟨hlength, fun offset other hother => ?_⟩
            cases offset with
            | zero =>
                obtain rfl : predicate = other := by simpa using hother
                exact ⟨instruction, rfl, hfirst⟩
            | succ offset => exact hrest offset other (by simpa using hother)
          · rintro ⟨hlength, hall⟩
            refine ⟨?_, hlength, fun offset other hother => hall (offset + 1) other (by simpa)⟩
            obtain ⟨_, hsome, hholds⟩ := hall 0 predicate rfl
            obtain rfl := Option.some.inj hsome
            exact hholds

/-- Within a method, a window matches where it holds. -/
theorem startsWith_drop_iff (hstart : start ≤ list.length) :
    startsWith pattern.window ((list.placed.map (·.2)).drop start) = true ↔
      pattern.HoldsAt list start := by
  rw [startsWith_iff, List.length_drop, length_map_placed]
  constructor
  · rintro ⟨hlength, hall⟩
    refine ⟨by omega, fun offset predicate hpredicate => ?_⟩
    simpa only [List.getElem?_drop, getElem?_map_placed] using hall offset predicate hpredicate
  · rintro ⟨hlength, hall⟩
    refine ⟨by omega, fun offset predicate hpredicate => ?_⟩
    simpa only [List.getElem?_drop, getElem?_map_placed] using hall offset predicate hpredicate

/-- A window with a predicate holds only where there is an instruction. -/
theorem HoldsAt.start_lt (hholds : pattern.HoldsAt list start) (hwindow : pattern.window ≠ []) :
    start < list.length := by
  have hpositive := List.length_pos_iff.mpr hwindow
  have hwithin := hholds.within
  omega

/-- A window is found at the first place where it holds. -/
theorem scanWindow_eq_some_iff :
    pattern.scanWindow list = some start ↔
      pattern.window ≠ [] ∧ pattern.HoldsAt list start ∧
        ∀ earlier < start, ¬ pattern.HoldsAt list earlier := by
  by_cases hwindow : pattern.window = []
  · simp [scanWindow, hwindow]
  · rw [scanWindow, if_neg (by simpa using hwindow), firstPlace_eq_some_iff, length_map_placed]
    constructor
    · rintro ⟨hlt, hhere, hbefore⟩
      refine ⟨hwindow, (startsWith_drop_iff (Nat.le_of_lt hlt)).mp hhere, ?_⟩
      intro earlier hearlier hholds
      have hmatch := (startsWith_drop_iff (by omega)).mpr hholds
      exact Bool.false_ne_true ((hbefore earlier hearlier).symm.trans hmatch)
    · rintro ⟨-, hholds, hbefore⟩
      have hlt := hholds.start_lt hwindow
      refine ⟨hlt, (startsWith_drop_iff (Nat.le_of_lt hlt)).mpr hholds, fun earlier hearlier => ?_⟩
      exact Bool.eq_false_iff.mpr fun hmatch =>
        hbefore earlier hearlier ((startsWith_drop_iff (by omega)).mp hmatch)

/-- A scan finds the target of the first place that can be used. No usable place is lost where
the first place that holds has its target outside the method: all later targets lie further
outside. -/
theorem scan_eq_some_iff {index : Nat} :
    pattern.scan list = some index ↔
      pattern.window ≠ [] ∧
        ∃ start, pattern.UsableAt list start ∧
          (∀ earlier < start, ¬ pattern.UsableAt list earlier) ∧
          index = start + pattern.target := by
  simp only [scan, Option.filter_eq_some_iff, Option.map_eq_some_iff, scanWindow_eq_some_iff,
    decide_eq_true_eq]
  constructor
  · rintro ⟨⟨start, ⟨hwindow, hholds, hbefore⟩, rfl⟩, hlt⟩
    exact ⟨hwindow, start, ⟨hholds, hlt⟩,
      fun earlier hearlier husable => hbefore earlier hearlier husable.toHoldsAt, rfl⟩
  · rintro ⟨hwindow, start, husable, hbefore, rfl⟩
    refine ⟨⟨start, ⟨hwindow, husable.toHoldsAt, fun earlier hearlier hholds => ?_⟩, rfl⟩,
      husable.target_lt⟩
    have htarget := husable.target_lt
    exact hbefore earlier hearlier ⟨hholds, by omega⟩

/-- A scan finds something exactly when its window has a predicate and some place can be used. -/
theorem scan_isSome_iff :
    (pattern.scan list).isSome = true ↔
      pattern.window ≠ [] ∧ ∃ start, pattern.UsableAt list start := by
  classical
  rw [Option.isSome_iff_exists]
  constructor
  · rintro ⟨index, hindex⟩
    obtain ⟨hwindow, start, husable, -⟩ := scan_eq_some_iff.mp hindex
    exact ⟨hwindow, start, husable⟩
  · rintro ⟨hwindow, hexists⟩
    exact ⟨_, scan_eq_some_iff.mpr ⟨hwindow, Nat.find hexists, Nat.find_spec hexists,
      fun _ hearlier => Nat.find_min hexists hearlier, rfl⟩⟩

/-- The first pattern that is found: its scan succeeds, and that of no pattern before it does. -/
structure IsFirst (candidates : List Pattern) (list : InstrList) (found : Match) : Prop where
  /-- The scan of the pattern with this number finds the place that is told. -/
  scan_eq : ∃ pattern, candidates[found.candidate]? = some pattern ∧
    pattern.scan list = some found.index ∧ found.pattern = pattern.name
  /-- No scan of an earlier pattern finds a place. -/
  before : ∀ (earlier : Nat) (pattern : Pattern), earlier < found.candidate →
    candidates[earlier]? = some pattern → pattern.scan list = none

variable {candidates : List Pattern}

/-- The number of a pattern that is found is one of those of the patterns. -/
theorem IsFirst.lt_length {found : Match} (hfound : IsFirst candidates list found) :
    found.candidate < candidates.length := by
  obtain ⟨_, hpattern, -⟩ := hfound.scan_eq
  exact (List.getElem?_eq_some_iff.mp hpattern).1

/-- Where some scan succeeds there is a first pattern that is found. -/
theorem exists_isFirst (hsome : ∃ pattern ∈ candidates, pattern.scan list ≠ none) :
    ∃ found, IsFirst candidates list found := by
  induction candidates with
  | nil => simp at hsome
  | cons pattern rest ih =>
      cases hscan : pattern.scan list with
      | some index => exact ⟨⟨pattern.name, 0, index⟩, ⟨pattern, rfl, hscan, rfl⟩, by simp⟩
      | none =>
          obtain ⟨found, ⟨other, hother, hindex, hname⟩, hbefore⟩ :=
            ih (by simpa [hscan] using hsome)
          refine ⟨⟨found.pattern, found.candidate + 1, found.index⟩,
            ⟨other, hother, hindex, hname⟩, fun earlier candidate hearlier hcandidate => ?_⟩
          cases earlier with
          | zero =>
              obtain rfl : pattern = candidate := by simpa using hcandidate
              exact hscan
          | succ earlier =>
              exact hbefore earlier candidate (Nat.lt_of_succ_lt_succ hearlier) hcandidate

/-- While no scan succeeds, each step after the first moves on by one pattern. -/
theorem iterate_step_of_scan_eq_none {number : Nat} (hle : number ≤ candidates.length)
    (hnone : ∀ (earlier : Nat) (pattern : Pattern), earlier < number →
      candidates[earlier]? = some pattern → pattern.scan list = none) :
    (step candidates list)^[number + 1] .unattempted = .trying number := by
  induction number with
  | zero => rfl
  | succ number ih =>
      have hget : candidates[number]? = some candidates[number] := List.getElem?_eq_getElem hle
      have hscan : candidates[number].scan list = none :=
        hnone number _ (Nat.lt_succ_self _) hget
      rw [Function.iterate_succ_apply', ih (Nat.le_of_succ_le hle) fun earlier pattern hearlier =>
        hnone earlier pattern (Nat.lt_succ_of_lt hearlier)]
      simp only [step, hget, hscan]

/-- The states of a search are those that its steps lead to, up to the first that is final. -/
theorem search_eq_map_iterate {fuel steps : Nat} {state : MatchState} (hle : steps ≤ fuel)
    (hfinal : ((step candidates list)^[steps] state).isFinal = true)
    (hbefore : ∀ fewer < steps, ((step candidates list)^[fewer] state).isFinal = false) :
    search candidates list fuel state =
      (List.range (steps + 1)).map fun count => (step candidates list)^[count] state := by
  induction fuel generalizing steps state with
  | zero =>
      obtain rfl := Nat.le_zero.mp hle
      rfl
  | succ fuel ih =>
      cases steps with
      | zero =>
          have hstate : state.isFinal = true := hfinal
          rw [search, if_pos hstate]
          rfl
      | succ steps =>
          have hstate : state.isFinal = false := hbefore 0 (Nat.succ_pos _)
          rw [search, if_neg (by simp [hstate]), ih (Nat.le_of_succ_le_succ hle) hfinal
            fun fewer hfewer => hbefore (fewer + 1) (Nat.succ_lt_succ hfewer),
            List.range_succ_eq_map (n := steps + 1), List.map_cons, List.map_map]
          rfl

/-- A search that is over after some steps, and not before: it ends in this state. -/
structure EndsIn (candidates : List Pattern) (list : InstrList) (steps : Nat)
    (last : MatchState) : Prop where
  /-- The state after these steps. -/
  iterate_eq : (step candidates list)^[steps] .unattempted = last
  /-- The search is over. -/
  isFinal : last.isFinal = true
  /-- It was not over before. -/
  before : ∀ fewer < steps, ((step candidates list)^[fewer] .unattempted).isFinal = false

/-- A search is not over while it comes to patterns whose scans do not succeed. -/
theorem isFinal_iterate_step_of_scan_eq_none {number : Nat} (hle : number ≤ candidates.length)
    (hnone : ∀ (earlier : Nat) (pattern : Pattern), earlier < number →
      candidates[earlier]? = some pattern → pattern.scan list = none) :
    ∀ fewer < number + 2, ((step candidates list)^[fewer] .unattempted).isFinal = false := by
  intro fewer hfewer
  cases fewer with
  | zero => rfl
  | succ fewer =>
      rw [iterate_step_of_scan_eq_none (by omega) fun earlier pattern hearlier =>
        hnone earlier pattern (by omega)]
      rfl

/-- A search ends with the first pattern that is found, one step after it comes to it. -/
theorem IsFirst.endsIn {found : Match} (hfound : IsFirst candidates list found) :
    EndsIn candidates list (found.candidate + 2) (.matched found) := by
  have hle := Nat.le_of_lt hfound.lt_length
  obtain ⟨⟨pattern, hpattern, hscan, hname⟩, hbefore⟩ := hfound
  refine ⟨?_, rfl, isFinal_iterate_step_of_scan_eq_none hle hbefore⟩
  rw [Function.iterate_succ_apply', iterate_step_of_scan_eq_none hle hbefore]
  simp only [step, hpattern, hscan, ← hname]

/-- A search in which no scan succeeds comes past the last pattern and is exhausted. -/
theorem endsIn_exhausted (hnone : ∀ pattern ∈ candidates, pattern.scan list = none) :
    EndsIn candidates list (candidates.length + 2) .exhausted := by
  have hbefore : ∀ (earlier : Nat) (pattern : Pattern), earlier < candidates.length →
      candidates[earlier]? = some pattern → pattern.scan list = none :=
    fun earlier pattern _ hpattern => hnone pattern (List.mem_of_getElem? hpattern)
  refine ⟨?_, rfl, isFinal_iterate_step_of_scan_eq_none le_rfl hbefore⟩
  rw [Function.iterate_succ_apply', iterate_step_of_scan_eq_none le_rfl hbefore]
  simp only [step, List.getElem?_eq_none le_rfl]

/-- A search comes to the first pattern that is found, or no scan succeeds and all fail. -/
theorem isFirst_or_scan_eq_none (candidates : List Pattern) (list : InstrList) :
    (∃ found, IsFirst candidates list found) ∨
      ∀ pattern ∈ candidates, pattern.scan list = none := by
  by_cases hnone : ∀ pattern ∈ candidates, pattern.scan list = none
  · exact .inr hnone
  · exact .inl (exists_isFirst (by simpa using hnone))

/-- The states of a search are those of its steps. -/
theorem EndsIn.searchStates_eq {steps : Nat} {last : MatchState}
    (hends : EndsIn candidates list steps last) (hle : steps ≤ candidates.length + 2) :
    searchStates candidates list =
      (List.range (steps + 1)).map fun count => (step candidates list)^[count] .unattempted :=
  search_eq_map_iterate hle (hends.iterate_eq ▸ hends.isFinal) hends.before

/-- The last state of a search is the one that it ends in. -/
theorem EndsIn.getLast?_eq {steps : Nat} {last : MatchState}
    (hends : EndsIn candidates list steps last) (hle : steps ≤ candidates.length + 2) :
    (searchStates candidates list).getLast? = some last := by
  rw [hends.searchStates_eq hle, List.range_succ, List.map_append, List.map_singleton,
    List.getLast?_concat, hends.iterate_eq]

/-- Each pattern takes one step at most, and one more begins and one more ends the search. -/
theorem exists_endsIn (candidates : List Pattern) (list : InstrList) :
    ∃ steps ≤ candidates.length + 2, ∃ last, EndsIn candidates list steps last := by
  obtain ⟨found, hfound⟩ | hnone := isFirst_or_scan_eq_none candidates list
  · exact ⟨_, by have hlt := hfound.lt_length; omega, _, hfound.endsIn⟩
  · exact ⟨_, le_rfl, _, endsIn_exhausted hnone⟩

variable {method : String}

/-- The first pattern that is found is the one that is told. -/
theorem IsFirst.find_eq {found : Match} (hfound : IsFirst candidates list found) :
    find candidates list method = .ok found := by
  rw [find, hfound.endsIn.getLast?_eq (by have hlt := hfound.lt_length; omega)]

/-- Where no scan succeeds, all patterns are told. -/
theorem find_eq_error_of_scan_eq_none (hnone : ∀ pattern ∈ candidates, pattern.scan list = none) :
    find candidates list method = .error (.patternNotFound method (candidates.map text)) := by
  rw [find, (endsIn_exhausted hnone).getLast?_eq le_rfl]

/-- What is told is the match of the first pattern that is found. -/
theorem find_eq_ok_iff {found : Match} :
    find candidates list method = .ok found ↔ IsFirst candidates list found := by
  refine ⟨fun hok => ?_, IsFirst.find_eq⟩
  obtain ⟨first, hfirst⟩ | hnone := isFirst_or_scan_eq_none candidates list
  · rw [hfirst.find_eq, Except.ok.injEq] at hok
    exact hok ▸ hfirst
  · rw [find_eq_error_of_scan_eq_none hnone] at hok
    nomatch hok

/-- A search fails only where no scan succeeds, and then with all patterns in order. -/
theorem find_eq_error_iff {fault : Fault} :
    find candidates list method = .error fault ↔
      (∀ pattern ∈ candidates, pattern.scan list = none) ∧
        fault = .patternNotFound method (candidates.map text) := by
  constructor
  · intro herror
    obtain ⟨first, hfirst⟩ | hnone := isFirst_or_scan_eq_none candidates list
    · rw [hfirst.find_eq] at herror
      nomatch herror
    · rw [find_eq_error_of_scan_eq_none hnone, Except.error.injEq] at herror
      exact ⟨hnone, herror.symm⟩
  · rintro ⟨hnone, rfl⟩
    exact find_eq_error_of_scan_eq_none hnone

/-- **Search.** A scan finds the target of the first place that can be used, and finds nothing
where there is none. A search over several patterns ends after at most two more steps than there
are patterns, tells the match of the first pattern whose scan succeeds, and fails with all of
them in order exactly when no scan succeeds. -/
theorem search_finds_first_usable (candidates : List Pattern) (list : InstrList)
    (method : String) :
    (∀ pattern : Pattern, (pattern.scan list).isSome = true ↔
      pattern.window ≠ [] ∧ ∃ start, pattern.UsableAt list start) ∧
    (∀ (pattern : Pattern) (index : Nat), pattern.scan list = some index ↔
      pattern.window ≠ [] ∧ ∃ start, pattern.UsableAt list start ∧
        (∀ earlier < start, ¬ pattern.UsableAt list earlier) ∧
        index = start + pattern.target) ∧
    (∃ steps ≤ candidates.length + 2, ∃ last, EndsIn candidates list steps last ∧
      searchStates candidates list =
        (List.range (steps + 1)).map fun count =>
          (step candidates list)^[count] .unattempted) ∧
    (∀ found, find candidates list method = .ok found ↔ IsFirst candidates list found) ∧
    (∀ fault, find candidates list method = .error fault ↔
      (∀ pattern ∈ candidates, pattern.scan list = none) ∧
        fault = .patternNotFound method (candidates.map text)) := by
  obtain ⟨steps, hle, last, hends⟩ := exists_endsIn candidates list
  exact ⟨fun _ => scan_isSome_iff, fun _ _ => scan_eq_some_iff,
    ⟨steps, hle, last, hends, hends.searchStates_eq hle⟩,
    fun _ => find_eq_ok_iff, fun _ => find_eq_error_iff⟩

end Pattern

end CilPatch
