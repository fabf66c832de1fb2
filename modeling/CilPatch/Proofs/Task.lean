import CilPatch.Disk.Files

/-!
# What tasks do

A task leaves a result, a state and notices. Here the notices are put aside: what a task does is
its result together with the state that it leaves, also where it fails.
-/

namespace CilPatch

variable {σ α β : Type}

namespace Noted

/-- The result of a step, apart from its notices. -/
def result (step : Noted α) : Except Fault α := step.run.value

@[simp] theorem result_note (origin : Origin) (level : Level) (text : String) :
    (note origin level text).result = .ok () := rfl

@[simp] theorem result_pure (value : α) : (pure value : Noted α).result = .ok value := rfl

@[simp] theorem result_throw (fault : Fault) : (throw fault : Noted α).result = .error fault := rfl

/-- A lifted result is itself. -/
@[simp] theorem result_liftM (result : Except Fault α) :
    (liftM result : Noted α).result = result := by
  cases result <;> rfl

/-- A step after another has the result of both. -/
@[simp] theorem result_bind (step : Noted α) (next : α → Noted β) :
    (step >>= next).result = step.result >>= fun value => (next value).result := by
  change (step.run >>= ExceptT.bindCont next).value = _
  rw [Logged.value_bind]
  change _ = step.run.value >>= _
  rcases step.run.value with ⟨⟩ | ⟨⟩ <;> rfl

end Noted

namespace Task

/-- The result of a task and the state that it leaves. -/
def outcome (task : Task σ α) (state : σ) : Except Fault α × σ := (task.run.run state).value

/-- A task after another goes on where that one stopped, unless it gave up. -/
theorem outcome_bind (task : Task σ α) (next : α → Task σ β) (state : σ) :
    (task >>= next).outcome state =
      match task.outcome state with
      | (.ok value, after) => (next value).outcome after
      | (.error fault, after) => (.error fault, after) := by
  change ((task.run.run state) >>= fun (result, after) =>
    (ExceptT.bindCont next result).run after).value = _
  rw [Logged.value_bind]
  change _ = match (task.run.run state).value with
    | (.ok value, after) => (next value).outcome after
    | (.error fault, after) => (.error fault, after)
  rcases (task.run.run state).value with ⟨⟨fault⟩ | ⟨value⟩, after⟩ <;> rfl

@[simp] theorem outcome_pure (value : α) (state : σ) :
    (pure value : Task σ α).outcome state = (.ok value, state) := rfl

@[simp] theorem outcome_throw (fault : Fault) (state : σ) :
    (throw fault : Task σ α).outcome state = (.error fault, state) := rfl

@[simp] theorem outcome_get (state : σ) :
    (get : Task σ σ).outcome state = (.ok state, state) := rfl

@[simp] theorem outcome_set (state after : σ) :
    (set after : Task σ PUnit).outcome state = (.ok ⟨⟩, after) := rfl

@[simp] theorem outcome_modify (change : σ → σ) (state : σ) :
    (modify change : Task σ PUnit).outcome state = (.ok ⟨⟩, change state) := rfl

/-- A step without state leaves the state alone. -/
@[simp] theorem outcome_toTask (step : Noted α) (state : σ) :
    step.toTask.outcome state = (step.result, state) := rfl

/-- A result leaves the state alone. -/
@[simp] theorem outcome_ofExcept (result : Except Fault α) (state : σ) :
    (ofExcept result : Task σ α).outcome state = (result, state) := by
  cases result <;> rfl

/-- Looking at the disk leaves it alone. -/
@[simp] theorem outcome_inspect (look : Disk → Except Fault α) (disk : Disk) :
    (inspect look).outcome disk = (look disk, disk) := by
  rw [inspect, outcome_bind, outcome_get]
  exact outcome_ofExcept _ _

/-- A change takes place unless it fails. -/
theorem outcome_change (step : Disk → Except Fault Disk) (disk : Disk) :
    (change step).outcome disk =
      match step disk with
      | .ok after => (.ok (), after)
      | .error fault => (.error fault, disk) := by
  rw [change, outcome_bind, outcome_inspect]
  cases step disk <;> rfl

/-- What a task yields is changed, and the state is not. -/
theorem outcome_map (change : α → β) (task : Task σ α) (state : σ) :
    (change <$> task).outcome state =
      match task.outcome state with
      | (.ok value, after) => (.ok (change value), after)
      | (.error fault, after) => (.error fault, after) := by
  rw [← bind_pure_comp, outcome_bind]
  rfl

end Task

end CilPatch
