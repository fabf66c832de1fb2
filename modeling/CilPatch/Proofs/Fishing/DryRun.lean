import CilPatch.Proofs.Assembly.Query
import CilPatch.Proofs.Assembly.Rewrite
import CilPatch.Proofs.Patch.Failure

/-!
# The dry run

Where the patches would go is looked up in an assembly that nothing is done to; where they go is
looked up while they are applied one after the other. Both say the same, since a patch changes the
body of its own method only, and the patched methods are different ones.
-/

namespace CilPatch

namespace Assembly

/-- At most the body of one method was edited. -/
structure EditsOnly (token : Token) (before after : Assembly) : Prop where
  /-- Everything else than the edited bodies is the same. -/
  frame : after = { before with edited := after.edited }
  /-- The bodies of the other methods are the same. -/
  body : ∀ other ≠ token, after.body other = before.body other

variable {token : Token} {first second third : Assembly}

/-- Nothing was edited. -/
theorem EditsOnly.refl (token : Token) (assembly : Assembly) : assembly.EditsOnly token assembly :=
  ⟨rfl, fun _ _ => rfl⟩

/-- Edits of one method after others are edits of this method. -/
theorem EditsOnly.trans (hfirst : first.EditsOnly token second)
    (hsecond : second.EditsOnly token third) : first.EditsOnly token third where
  frame := by rw [hsecond.frame, hfirst.frame]
  body other hother := (hsecond.body other hother).trans (hfirst.body other hother)

/-- A body is put in place of that of one method. -/
theorem editsOnly_setBody (assembly : Assembly) (token : Token) (body : Body) :
    assembly.EditsOnly token (assembly.setBody token body) where
  frame := rfl
  body other hother := by rw [body_setBody, if_neg hother]

end Assembly

/-! ## What a patch edits -/

/-- A task that edits the body of one method at most, whether it fails or not. -/
def Task.EditsOnly {α : Type} (token : Token) (task : Task Assembly α) : Prop :=
  ∀ assembly : Assembly, assembly.EditsOnly token (task.outcome assembly).2

namespace Task

variable {α β : Type} {token : Token}

@[simp] theorem editsOnly_pure (value : α) : (pure value : Task Assembly α).EditsOnly token :=
  fun assembly => .refl token assembly

@[simp] theorem editsOnly_get : (get : Task Assembly Assembly).EditsOnly token :=
  fun assembly => .refl token assembly

@[simp] theorem editsOnly_toTask (step : Noted α) : step.toTask.EditsOnly token :=
  fun assembly => .refl token assembly

@[simp] theorem editsOnly_ofExcept (result : Except Fault α) :
    (ofExcept result : Task Assembly α).EditsOnly token := by
  intro assembly
  rw [outcome_ofExcept]
  exact .refl token assembly

/-- What a task leaves is edited in one method at most. -/
theorem EditsOnly.of_outcome {task : Task Assembly α} (h : task.EditsOnly token)
    {before after : Assembly} {result : Except Fault α}
    (hrun : task.outcome before = (result, after)) : before.EditsOnly token after := by
  have hedits := h before
  rwa [hrun] at hedits

/-- Two tasks edit one method when each of them does. -/
theorem EditsOnly.bind {task : Task Assembly α} {next : α → Task Assembly β}
    (h : task.EditsOnly token) (hnext : ∀ value, (next value).EditsOnly token) :
    (task >>= next).EditsOnly token := by
  intro assembly
  rw [outcome_bind]
  rcases hrun : task.outcome assembly with ⟨⟨fault⟩ | ⟨value⟩, after⟩
  · exact h.of_outcome hrun
  · exact (h.of_outcome hrun).trans (hnext value after)

end Task

namespace Patch

variable {patch : Patch}

@[simp] theorem editsOnly_keep (patch : Patch) (body : Body) :
    (patch.keep body).EditsOnly patch.method.token :=
  fun assembly => assembly.editsOnly_setBody patch.method.token body

end Patch

namespace Fishing

variable {patch : Patch} {patches : List Patch} {start assembly after : Assembly}

/-- A patch went where the dry run says: into the same method, by the same pattern, at the same
index. -/
structure Agrees (outcome : PatchOutcome) (place : String × Match) : Prop where
  /-- The name of the method. -/
  method : place.1 = outcome.method
  /-- The name of the pattern. -/
  pattern : place.2.pattern = outcome.pattern
  /-- Where the fragment starts. -/
  index : place.2.index = outcome.splice.index

end Fishing

end CilPatch
