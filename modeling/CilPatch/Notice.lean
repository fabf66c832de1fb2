import CilPatch.Fault

/-!
# Notices

What is done is told to the user in notices. A logged value carries the notices that were left
on the way to it, in order, and a task also works on a state; when a task fails, its state and
its notices are kept.
-/

namespace CilPatch

/-- How important a notice is. -/
inductive Level where
  /-- What went wrong. -/
  | error
  /-- What may surprise. -/
  | warning
  /-- What was done. -/
  | info
  /-- What helps to find a fault. -/
  | debug
  deriving DecidableEq

/-- How many levels are more important. -/
def Level.rank : Level → Nat
  | error => 0
  | warning => 1
  | info => 2
  | debug => 3

/-- What a notice is about. -/
inductive Origin where
  /-- The run as a whole. -/
  | run
  /-- Loading, patching and writing the game. -/
  | game
  /-- The backup. -/
  | backup
  /-- An image that is read. -/
  | assembly
  /-- An image that is written. -/
  | patchSection
  /-- A patch that is applied. -/
  | patch
  /-- A pattern that is searched for. -/
  | pattern
  deriving DecidableEq

/-- A message to the user. -/
structure Notice where
  /-- What it is about. -/
  origin : Origin
  /-- How important it is. -/
  level : Level
  /-- What it says. -/
  text : String
  deriving DecidableEq

/-- A value with the notices that were left on the way to it. -/
structure Logged (α : Type) where
  /-- The value. -/
  value : α
  /-- The notices, in order. -/
  notices : List Notice := []

namespace Logged

/-- A value without notices. -/
protected def pure {α : Type} (value : α) : Logged α := { value }

/-- One logged value after another. -/
protected def bind {α β : Type} (first : Logged α) (next : α → Logged β) : Logged β where
  value := (next first.value).value
  notices := first.notices ++ (next first.value).notices

instance : Monad Logged where
  pure := Logged.pure
  bind := Logged.bind

@[simp] theorem value_pure {α : Type} (value : α) : (pure value : Logged α).value = value := rfl

@[simp] theorem value_bind {α β : Type} (first : Logged α) (next : α → Logged β) :
    (first >>= next).value = (next first.value).value := rfl

@[simp] theorem notices_pure {α : Type} (value : α) : (pure value : Logged α).notices = [] := rfl

@[simp] theorem notices_bind {α β : Type} (first : Logged α) (next : α → Logged β) :
    (first >>= next).notices = first.notices ++ (next first.value).notices := rfl

theorem id_map {α : Type} (logged : Logged α) : id <$> logged = logged := by
  simp [Functor.map, Logged.bind, Logged.pure]

theorem bind_assoc {α β γ : Type} (first : Logged α) (next : α → Logged β) (last : β → Logged γ) :
    first >>= next >>= last = first >>= fun value => next value >>= last := by
  simp [bind, Logged.bind]

instance : LawfulMonad Logged :=
  LawfulMonad.mk' Logged id_map (fun value next => by simp [bind, Logged.bind, pure, Logged.pure])
    bind_assoc

end Logged

/-- A fallible step that leaves notices. -/
abbrev Noted (α : Type) := ExceptT Fault Logged α

/-- A fallible step that works on a state and leaves notices. -/
abbrev Task (σ α : Type) := ExceptT Fault (StateT σ Logged) α

/-- Leaves a notice. -/
def note (origin : Origin) (level : Level) (text : String) : Noted Unit :=
  ExceptT.mk ⟨.ok (), [⟨origin, level, text⟩]⟩

/-- A step that does not touch the state. -/
def Noted.toTask {σ α : Type} (step : Noted α) : Task σ α := ExceptT.mk (StateT.lift step.run)

/-- A step that does not fail and does not touch the state. -/
def Task.ofLogged {σ α : Type} (step : Logged α) : Task σ α :=
  Noted.toTask (ExceptT.mk (Except.ok <$> step))

/-- The result of a step that leaves no notices. -/
def Task.ofExcept {σ α : Type} : Except Fault α → Task σ α
  | .ok value => pure value
  | .error fault => throw fault

end CilPatch
