import CilPatch.Fault
import Mathlib.Data.List.Forall2

/-!
# Steps that keep their effects

Reading, building and editing are steps on a state that may give up and then keep what they have
done so far. These are the laws by which such a step is run, whatever the state is.
-/

namespace CilPatch

variable {σ α β : Type}

/-- A step after another goes on where that one stopped, unless it gave up. -/
theorem step_bind (step : ExceptT Fault (StateM σ) α) (next : α → ExceptT Fault (StateM σ) β)
    (state : σ) :
    (step >>= next).run state =
      match step.run state with
      | (.ok value, after) => (next value).run after
      | (.error fault, after) => (.error fault, after) := by
  change (match step.run state with
    | (result, after) => ExceptT.bindCont next result after) = _
  rcases step.run state with ⟨_ | _, _⟩ <;> rfl

/-- What a step yields may be changed without running it again. -/
theorem step_map (change : α → β) (step : ExceptT Fault (StateM σ) α) (state : σ) :
    (change <$> step).run state =
      match step.run state with
      | (.ok value, after) => (.ok (change value), after)
      | (.error fault, after) => (.error fault, after) := by
  rw [← bind_pure_comp, step_bind]
  rfl

/-- A step that only yields leaves the state alone. -/
@[simp] theorem step_pure (value : α) (state : σ) :
    (pure value : ExceptT Fault (StateM σ) α).run state = (.ok value, state) := rfl

/-- A step that gives up leaves the state alone. -/
@[simp] theorem step_throw (fault : Fault) (state : σ) :
    (throw fault : ExceptT Fault (StateM σ) α).run state = (.error fault, state) := rfl

/-- The state can be asked for. -/
@[simp] theorem step_get (state : σ) :
    (get : ExceptT Fault (StateM σ) σ).run state = (.ok state, state) := rfl

/-- The state can be replaced. -/
@[simp] theorem step_set (state after : σ) :
    (set after : ExceptT Fault (StateM σ) PUnit).run state = (.ok ⟨⟩, after) := rfl

/-- The state can be changed. -/
@[simp] theorem step_modify (change : σ → σ) (state : σ) :
    (modify change : ExceptT Fault (StateM σ) PUnit).run state = (.ok ⟨⟩, change state) := rfl

/-- A step after another yields when both do. -/
theorem run_bind_eq_ok_iff {step : ExceptT Fault (StateM σ) α}
    {next : α → ExceptT Fault (StateM σ) β} {value : β} {before after : σ} :
    (step >>= next).run before = (.ok value, after) ↔
      ∃ first middle, step.run before = (.ok first, middle) ∧
        (next first).run middle = (.ok value, after) := by
  rw [step_bind]
  constructor
  · intro h
    rcases hstep : step.run before with ⟨⟨fault⟩ | ⟨first⟩, middle⟩
    · rw [hstep] at h
      cases h
    · rw [hstep] at h
      exact ⟨first, middle, rfl, h⟩
  · rintro ⟨first, middle, hstep, h⟩
    rw [hstep]
    exact h

/-- What a step yields is changed when it yields. -/
theorem run_map_eq_ok_iff {step : ExceptT Fault (StateM σ) α} {change : α → β} {value : β}
    {before after : σ} :
    (change <$> step).run before = (.ok value, after) ↔
      ∃ first, step.run before = (.ok first, after) ∧ change first = value := by
  rw [← bind_pure_comp, run_bind_eq_ok_iff]
  constructor
  · rintro ⟨first, middle, hstep, h⟩
    obtain ⟨hvalue, rfl⟩ := Prod.mk.inj h
    exact ⟨first, hstep, Except.ok.inj hvalue⟩
  · rintro ⟨first, hstep, rfl⟩
    exact ⟨first, after, hstep, rfl⟩

/-- A step behind a check yields when the check passes and the step yields. -/
theorem run_check_eq_ok_iff {check : Prop} [Decidable check] {fault : Fault}
    {next : PUnit → ExceptT Fault (StateM σ) α} {value : α} {before after : σ} :
    (if check then throw fault >>= next else next ⟨⟩ : ExceptT Fault (StateM σ) α).run before =
        (.ok value, after) ↔
      ¬check ∧ (next ⟨⟩).run before = (.ok value, after) := by
  by_cases hcheck : check
  · rw [if_pos hcheck, step_bind, step_throw]
    exact ⟨nofun, fun h => absurd hcheck h.1⟩
  · rw [if_neg hcheck]
    exact ⟨fun h => ⟨hcheck, h⟩, fun h => h.2⟩

/-- A step behind a choice of steps yields when the chosen one does and it does. -/
theorem run_ite_bind_eq_ok_iff {check : Prop} [Decidable check]
    {first second : ExceptT Fault (StateM σ) α} {next : α → ExceptT Fault (StateM σ) β} {value : β}
    {before after : σ} :
    (if check then first >>= next else second >>= next : ExceptT Fault (StateM σ) β).run before =
        (.ok value, after) ↔
      ∃ found middle, (if check then first else second :
          ExceptT Fault (StateM σ) α).run before = (.ok found, middle) ∧
        (next found).run middle = (.ok value, after) := by
  split <;> exact run_bind_eq_ok_iff

/-! ## Results -/

variable {ε : Type}

/-- A result after another is there when both are. -/
theorem bind_eq_ok_iff {result : Except ε α} {next : α → Except ε β} {value : β} :
    result >>= next = .ok value ↔ ∃ first, result = .ok first ∧ next first = .ok value := by
  constructor
  · intro h
    cases result with
    | error fault => cases h
    | ok first => exact ⟨first, rfl, h⟩
  · rintro ⟨first, rfl, h⟩
    exact h

/-- A result that is changed is there when the result is. -/
theorem map_eq_ok_iff {result : Except ε α} {change : α → β} {value : β} :
    change <$> result = .ok value ↔ ∃ first, result = .ok first ∧ change first = value := by
  constructor
  · intro h
    cases result with
    | error fault => cases h
    | ok first => exact ⟨first, rfl, Except.ok.inj h⟩
  · rintro ⟨first, rfl, rfl⟩
    rfl

/-- A result that has a value is the value. -/
theorem eq_ok_of_toOption {result : Except ε α} {value : α} (h : result.toOption = some value) :
    result = .ok value := by
  cases result with
  | error fault => cases h
  | ok found => exact congrArg Except.ok (Option.some.inj h)

/-- A result that has a value that passes a test is a value that does. -/
theorem exists_of_toOption_any {result : Except ε α} {test : α → Bool}
    (h : result.toOption.any test = true) : ∃ value, result = .ok value ∧ test value = true := by
  cases result with
  | error fault => cases h
  | ok value => exact ⟨value, rfl, h⟩

/-- A result behind a check is there when the check passes and the result is there. -/
theorem check_eq_ok_iff {check : Prop} [Decidable check] {fault : ε} {next : PUnit → Except ε α}
    {value : α} :
    (if check then throw fault >>= next else next ⟨⟩ : Except ε α) = .ok value ↔
      ¬check ∧ next ⟨⟩ = .ok value := by
  by_cases hcheck : check
  · rw [if_pos hcheck]
    exact ⟨nofun, fun h => absurd hcheck h.1⟩
  · rw [if_neg hcheck]
    exact ⟨fun h => ⟨hcheck, h⟩, fun h => h.2⟩

/-- Results for a list are there when that for the head and those for the tail are. -/
theorem mapM_cons_eq_ok_iff {each : α → Except ε β} {head : α} {tail : List α}
    {values : List β} :
    (head :: tail).mapM each = .ok values ↔
      ∃ first rest, each head = .ok first ∧ tail.mapM each = .ok rest ∧
        values = first :: rest := by
  rw [List.mapM_cons, bind_eq_ok_iff]
  constructor
  · rintro ⟨first, hfirst, h⟩
    obtain ⟨rest, hrest, hvalues⟩ := bind_eq_ok_iff.mp h
    exact ⟨first, rest, hfirst, hrest, (Except.ok.inj hvalues).symm⟩
  · rintro ⟨first, rest, hfirst, hrest, rfl⟩
    exact ⟨first, hfirst, bind_eq_ok_iff.mpr ⟨rest, hrest, rfl⟩⟩

/-- Results for a list are there when there is one for each of its members. -/
theorem mapM_eq_ok_iff {each : α → Except ε β} {list : List α} {values : List β} :
    list.mapM each = .ok values ↔ List.Forall₂ (fun member value => each member = .ok value)
      list values := by
  induction list generalizing values with
  | nil =>
    rw [List.mapM_nil, List.forall₂_nil_left_iff]
    exact ⟨fun h => (Except.ok.inj h).symm, fun h => congrArg _ h.symm⟩
  | cons head tail ih =>
    rw [mapM_cons_eq_ok_iff, List.forall₂_cons_left_iff]
    constructor
    · rintro ⟨first, rest, hfirst, hrest, rfl⟩
      exact ⟨first, rest, hfirst, ih.mp hrest, rfl⟩
    · rintro ⟨first, rest, hfirst, hrest, rfl⟩
      exact ⟨first, rest, hfirst, ih.mpr hrest, rfl⟩

/-- There are results for a list when there is one for each of its members. -/
theorem exists_mapM_eq_ok_iff {each : α → Except ε β} {list : List α} :
    (∃ values, list.mapM each = .ok values) ↔ ∀ member ∈ list, ∃ value, each member = .ok value := by
  induction list with
  | nil => exact ⟨fun _ => nofun, fun _ => ⟨[], rfl⟩⟩
  | cons head tail ih =>
    rw [List.forall_mem_cons, ← ih]
    constructor
    · rintro ⟨values, h⟩
      obtain ⟨first, rest, hfirst, hrest, -⟩ := mapM_cons_eq_ok_iff.mp h
      exact ⟨⟨first, hfirst⟩, rest, hrest⟩
    · rintro ⟨⟨first, hfirst⟩, rest, hrest⟩
      exact ⟨first :: rest, mapM_cons_eq_ok_iff.mpr ⟨first, rest, hfirst, hrest, rfl⟩⟩

end CilPatch
