import CilPatch.Bytes.Compressed
import CilPatch.Proofs.Bytes.Block
import CilPatch.Proofs.Step

/-!
# Local steps

A local step reads what it needs and nothing behind it: when it yields, it yields the same on a
block that goes on. So what is found in a heap is still found when the heap has grown.
-/

namespace CilPatch

/-- The same position in a block that goes on. -/
def Cursor.grow (cursor : Cursor) (more : Bytes) : Cursor :=
  { cursor with data := cursor.data ++ more }

namespace Read

variable {α β : Type}

/-- A step that does not depend on what follows the bytes that it reads. -/
def Local (step : Read α) : Prop :=
  ∀ ⦃before after : Cursor⦄ ⦃value : α⦄ (more : Bytes),
    step.run before = (.ok value, after) →
      step.run (before.grow more) = (.ok value, after.grow more)

/-- A step that only yields is local. -/
theorem local_pure (value : α) : Local (pure value) := by
  intro before after found more h
  rw [step_pure] at h ⊢
  obtain ⟨hvalue, rfl⟩ := Prod.mk.inj h
  rw [hvalue]

/-- A step that gives up is local. -/
theorem local_throw (fault : Fault) : Local (throw fault : Read α) := by
  intro before after found more h
  cases h

/-- A local step after another is local. -/
theorem Local.bind {step : Read α} {next : α → Read β} (hstep : Local step)
    (hnext : ∀ value, Local (next value)) : Local (step >>= next) := by
  intro before after value more h
  obtain ⟨first, middle, hfirst, h⟩ := run_bind_eq_ok_iff.mp h
  exact run_bind_eq_ok_iff.mpr ⟨first, _, hstep more hfirst, hnext first more h⟩

/-- Reading bytes is local. -/
theorem local_bytes (count : Nat) : Local (bytes count) := by
  intro before after value more h
  rw [run_bytes] at h ⊢
  split at h
  · cases h
  · next hroom =>
    obtain ⟨hvalue, rfl⟩ := Prod.mk.inj h
    obtain rfl := Except.ok.inj hvalue
    have hle := Nat.not_lt.mp hroom
    have hagree := (agree_append before.data more).mono (Nat.zero_le before.pos) hle
    rw [if_neg]
    · simp only [Cursor.grow]
      rw [hagree.extract_eq]
    · simp only [Cursor.grow, Array.size_append]
      omega

/-- Reading a word is local. -/
theorem local_word (width : Nat) : Local (word width) :=
  (local_bytes width).bind fun _ => local_pure _

/-- Reading a byte is local. -/
theorem local_u8 : Local u8 := (local_word 1).bind fun _ => local_pure _

/-- Reading a compressed integer is local. -/
theorem local_compressed : Local compressed := by
  refine local_u8.bind fun lead => ?_
  split
  · exact local_pure _
  split
  · exact local_u8.bind fun low => local_pure _
  split
  · exact local_u8.bind fun second => local_u8.bind fun third => local_u8.bind fun last =>
      local_pure _
  · exact local_throw _

end Read

end CilPatch
