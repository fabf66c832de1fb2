import CilPatch.Proofs.Assembly.Nesting
import CilPatch.Proofs.Assembly.Undecodable

/-!
# Resolution by name

Types, fields and methods are looked up by one policy. It sees how many declarations have the name
and which of them is the first that meets all conditions. Without a condition it never chooses
between declarations of one name; with one it takes the first in the order in which they are looked
at. What it says is a function of the declarations alone, so every answer has one reason.
-/

namespace CilPatch

section Policy

variable {α β : Type} {kind : SymbolKind} {owner name : String} {isRestricted : Bool}
  {check : α → Except Fault Bool} {meets : α → Prop} {fails : α → Fault → Prop} {named : List α}
  {handle : α → β}

/-- A search comes to a declaration: none in front of it meets the conditions, and none of them
fails. -/
def ComesTo (meets : α → Prop) (fails : α → Fault → Prop) (named : List α) (declared : α) : Prop :=
  ∃ before after, named = before ++ declared :: after ∧
    ∀ earlier ∈ before, ¬meets earlier ∧ ∀ fault, ¬fails earlier fault

/-- What is answered to a query, with the reason for it. -/
inductive Answer (kind : SymbolKind) (owner name : String) (isRestricted : Bool) (named : List α)
    (handle : α → β) (meets : α → Prop) (fails : α → Fault → Prop) : Except Fault β → Prop
  /-- Nothing tells several declarations apart. -/
  | ambiguous (hfree : isRestricted = false) (hmany : 2 ≤ named.length) :
      Answer kind owner name isRestricted named handle meets fails
        (.error (.ambiguousSymbol kind owner name named.length))
  /-- A declaration is the first that meets the conditions. -/
  | found {declared : α} (hclear : isRestricted = false → named.length ≤ 1)
      (hcomes : ComesTo meets fails named declared) (hmeets : meets declared) :
      Answer kind owner name isRestricted named handle meets fails (.ok (handle declared))
  /-- No declaration meets the conditions. -/
  | notFound (hnone : ∀ declared ∈ named, ¬meets declared ∧ ∀ fault, ¬fails declared fault) :
      Answer kind owner name isRestricted named handle meets fails
        (.error (.symbolNotFound kind owner name))
  /-- It cannot be known whether a declaration meets them. -/
  | failed {declared : α} {fault : Fault} (hcomes : ComesTo meets fails named declared)
      (hfails : fails declared fault) :
      Answer kind owner name isRestricted named handle meets fails (.error fault)

/-- A check that tells of each declaration whether it meets the conditions, or why that is not
known. -/
structure Tells (check : α → Except Fault Bool) (meets : α → Prop) (fails : α → Fault → Prop) :
    Prop where
  true_iff : ∀ declared, check declared = .ok true ↔ meets declared
  error_iff : ∀ declared fault, check declared = .error fault ↔ fails declared fault

/-- A declaration misses the conditions when it does not meet them and that is known. -/
theorem Tells.false_iff (h : Tells check meets fails) (declared : α) :
    check declared = .ok false ↔ ¬meets declared ∧ ∀ fault, ¬fails declared fault := by
  simp only [← h.true_iff, ← h.error_iff]
  cases check declared with
  | error fault => simp
  | ok isMet => cases isMet <;> simp

/-- The search finds the declaration that it comes to and that meets the conditions. -/
theorem Tells.firstMeeting_eq_some_iff (h : Tells check meets fails) {declared : α} :
    firstMeeting check named = .ok (some declared) ↔
      ComesTo meets fails named declared ∧ meets declared := by
  simp only [CilPatch.firstMeeting_eq_some_iff, h.true_iff, h.false_iff]
  constructor
  · rintro ⟨before, after, hlist, hmeets, hbefore⟩
    exact ⟨⟨before, after, hlist, hbefore⟩, hmeets⟩
  · rintro ⟨⟨before, after, hlist, hbefore⟩, hmeets⟩
    exact ⟨before, after, hlist, hmeets, hbefore⟩

/-- The search finds nothing when no declaration meets the conditions and none fails. -/
theorem Tells.firstMeeting_eq_none_iff (h : Tells check meets fails) :
    firstMeeting check named = .ok none ↔
      ∀ declared ∈ named, ¬meets declared ∧ ∀ fault, ¬fails declared fault := by
  simp only [CilPatch.firstMeeting_eq_none_iff, h.false_iff]

/-- The search fails as the declaration that it comes to does. -/
theorem Tells.firstMeeting_eq_error_iff (h : Tells check meets fails) {fault : Fault} :
    firstMeeting check named = .error fault ↔
      ∃ declared, ComesTo meets fails named declared ∧ fails declared fault := by
  simp only [CilPatch.firstMeeting_eq_error_iff, h.error_iff, h.false_iff]
  constructor
  · rintro ⟨before, declared, after, hlist, hfails, hbefore⟩
    exact ⟨declared, ⟨before, after, hlist, hbefore⟩, hfails⟩
  · rintro ⟨declared, ⟨before, after, hlist, hbefore⟩, hfails⟩
    exact ⟨before, declared, after, hlist, hfails, hbefore⟩

/-- The answer is what the search and the policy say. -/
theorem Tells.answer_iff (h : Tells check meets fails)
    (hfree : isRestricted = false → ∀ declared, meets declared) {answer : Except Fault β} :
    (firstMeeting check named >>= fun found =>
        pick kind owner name named.length isRestricted (found.map handle)) = answer ↔
      Answer kind owner name isRestricted named handle meets fails answer := by
  constructor
  · rintro rfl
    cases hsearch : firstMeeting check named with
    | error fault =>
      obtain ⟨declared, hcomes, hfails⟩ := h.firstMeeting_eq_error_iff.mp hsearch
      exact .failed hcomes hfails
    | ok found =>
      change Answer _ _ _ _ _ _ _ _
        (pick kind owner name named.length isRestricted (found.map handle))
      unfold pick
      split
      · next hmany => exact .ambiguous (by simpa using hmany.2) hmany.1
      next hclear =>
      cases found with
      | none => exact .notFound (h.firstMeeting_eq_none_iff.mp hsearch)
      | some declared =>
        obtain ⟨hcomes, hmeets⟩ := h.firstMeeting_eq_some_iff.mp hsearch
        refine .found (fun hrestricted => ?_) hcomes hmeets
        simp only [hrestricted, Bool.not_false, and_true] at hclear
        omega
  · intro hanswer
    cases hanswer with
    | ambiguous hrestricted hmany =>
      obtain ⟨first, rest, rfl⟩ := List.exists_cons_of_length_pos (show 0 < named.length by omega)
      have hcomes : ComesTo meets fails (first :: rest) first :=
        ⟨[], rest, rfl, List.forall_mem_nil _⟩
      have hsearch := h.firstMeeting_eq_some_iff.mpr ⟨hcomes, hfree hrestricted first⟩
      rw [hsearch]
      exact if_pos ⟨hmany, by rw [hrestricted]; rfl⟩
    | found hclear hcomes hmeets =>
      rw [h.firstMeeting_eq_some_iff.mpr ⟨hcomes, hmeets⟩]
      refine if_neg ?_
      rintro ⟨hmany, hrestricted⟩
      have hfew := hclear (by simpa using hrestricted)
      omega
    | notFound hmiss =>
      rw [h.firstMeeting_eq_none_iff.mpr hmiss]
      refine if_neg ?_
      rintro ⟨hmany, hrestricted⟩
      obtain ⟨first, rest, rfl⟩ := List.exists_cons_of_length_pos (show 0 < named.length by omega)
      exact (hmiss first List.mem_cons_self).1 (hfree (by simpa using hrestricted) first)
    | failed hcomes hfails =>
      rw [h.firstMeeting_eq_error_iff.mpr ⟨_, hcomes, hfails⟩]
      rfl

/-- What a lookup answers, said for each answer. -/
structure Resolves (kind : SymbolKind) (owner name : String) (isRestricted : Bool) (named : List α)
    (handle : α → β) (meets : α → Prop) (fails : α → Fault → Prop) (answer : Except Fault β) :
    Prop where
  /-- Without a condition a declaration is found exactly when it is the only one of its name. -/
  only : isRestricted = false → ∀ found,
    answer = .ok found ↔ ∃ declared, named = [declared] ∧ handle declared = found
  /-- Without a condition two or more declarations are ambiguous, and their number is told. -/
  ambiguous : ∀ kind' owner' name' count,
    answer = .error (.ambiguousSymbol kind' owner' name' count) ↔
      isRestricted = false ∧ 2 ≤ named.length ∧
        kind' = kind ∧ owner' = owner ∧ name' = name ∧ count = named.length
  /-- With a condition the first declaration that meets all conditions is found. -/
  first : isRestricted = true → ∀ found,
    answer = .ok found ↔ ∃ declared, ComesTo meets fails named declared ∧ meets declared ∧
      handle declared = found
  /-- Nothing is found exactly when no declaration meets the conditions. -/
  notFound : ∀ kind' owner' name', answer = .error (.symbolNotFound kind' owner' name') ↔
    (∀ declared ∈ named, ¬meets declared ∧ ∀ fault, ¬fails declared fault) ∧
      kind' = kind ∧ owner' = owner ∧ name' = name
  /-- It fails where it comes to a declaration of which the conditions cannot be known. -/
  failed : ∀ declared fault, ComesTo meets fails named declared → fails declared fault →
    answer = .error fault
  /-- Nothing else goes wrong. -/
  faults : ∀ fault, answer = .error fault →
    fault = .ambiguousSymbol kind owner name named.length ∨
      fault = .symbolNotFound kind owner name ∨
      ∃ declared, ComesTo meets fails named declared ∧ fails declared fault

/-- A fault that says what a lookup by name has to say. -/
def Fault.IsOfLookup : Fault → Prop
  | .symbolNotFound .. | .ambiguousSymbol .. => True
  | _ => False

/-- Each answer has one reason, as long as no declaration fails with what only a lookup says. -/
theorem resolves_of_answer_iff {answer : Except Fault β}
    (h : ∀ other, answer = other ↔
      Answer kind owner name isRestricted named handle meets fails other)
    (hfree : isRestricted = false → ∀ declared, meets declared)
    (hother : ∀ declared fault, fails declared fault → ¬fault.IsOfLookup) :
    Resolves kind owner name isRestricted named handle meets fails answer where
  only hrestricted found := by
    rw [h]
    constructor
    · intro hanswer
      cases hanswer with
      | found hclear hcomes hmeets =>
        obtain ⟨before, after, rfl, -⟩ := hcomes
        have hfew := hclear hrestricted
        simp only [List.length_append, List.length_cons] at hfew
        obtain rfl : before = [] := List.eq_nil_of_length_eq_zero (by omega)
        obtain rfl : after = [] := List.eq_nil_of_length_eq_zero (by omega)
        exact ⟨_, rfl, rfl⟩
    · rintro ⟨declared, rfl, rfl⟩
      exact .found (fun _ => Nat.le_refl 1) ⟨[], [], rfl, List.forall_mem_nil _⟩
        (hfree hrestricted declared)
  ambiguous kind' owner' name' count := by
    rw [h]
    constructor
    · intro hanswer
      cases hanswer with
      | ambiguous hrestricted hmany => exact ⟨hrestricted, hmany, rfl, rfl, rfl, rfl⟩
      | failed hcomes hfails => exact absurd trivial (hother _ _ hfails)
    · rintro ⟨hrestricted, hmany, rfl, rfl, rfl, rfl⟩
      exact .ambiguous hrestricted hmany
  first hrestricted found := by
    rw [h]
    constructor
    · intro hanswer
      cases hanswer with
      | found hclear hcomes hmeets => exact ⟨_, hcomes, hmeets, rfl⟩
    · rintro ⟨declared, hcomes, hmeets, rfl⟩
      refine .found (fun hfalse => ?_) hcomes hmeets
      rw [hrestricted] at hfalse
      cases hfalse
  notFound kind' owner' name' := by
    rw [h]
    constructor
    · intro hanswer
      cases hanswer with
      | notFound hnone => exact ⟨hnone, rfl, rfl, rfl⟩
      | failed hcomes hfails => exact absurd trivial (hother _ _ hfails)
    · rintro ⟨hnone, rfl, rfl, rfl⟩
      exact .notFound hnone
  failed declared fault hcomes hfails := (h _).mpr (.failed hcomes hfails)
  faults fault hfault := by
    cases (h _).mp hfault with
    | ambiguous hrestricted hmany => exact .inl rfl
    | notFound hnone => exact .inr (.inl rfl)
    | failed hcomes hfails => exact .inr (.inr ⟨_, hcomes, hfails⟩)

/-- A search with the policy resolves the name. -/
theorem Tells.resolves (h : Tells check meets fails)
    (hfree : isRestricted = false → ∀ declared, meets declared)
    (hother : ∀ declared fault, fails declared fault → ¬fault.IsOfLookup) :
    Resolves kind owner name isRestricted named handle meets fails
      (firstMeeting check named >>= fun found =>
        pick kind owner name named.length isRestricted (found.map handle)) :=
  resolves_of_answer_iff (fun _ => h.answer_iff hfree) hfree hother

/-- So does the policy behind a search that knows of every declaration whether it meets the
conditions. -/
theorem resolves_of_find? {wanted : α → Bool}
    (hwanted : ∀ declared, wanted declared ↔ meets declared)
    (hfree : isRestricted = false → ∀ declared, meets declared) :
    Resolves kind owner name isRestricted named handle meets (fun _ _ => False)
      (pick kind owner name named.length isRestricted ((named.find? wanted).map handle)) := by
  have htells : Tells (fun declared => .ok (wanted declared)) meets (fun _ _ => False) := by
    refine ⟨fun declared => ?_, fun declared fault => ⟨fun h => (by cases h), False.elim⟩⟩
    rw [Except.ok.injEq]
    exact hwanted declared
  have hanswer : (firstMeeting (fun declared => .ok (wanted declared)) named >>= fun found =>
      pick kind owner name named.length isRestricted (found.map handle)) =
      pick kind owner name named.length isRestricted ((named.find? wanted).map handle) := by
    rw [firstMeeting_ok]
    rfl
  rw [← hanswer]
  exact htells.resolves hfree fun _ _ => False.elim

/-- In front of a declaration none fails, when none that is come to does. The induction adds one
declaration at the end. -/
theorem not_fails_of_not_comesTo
    (hnone : ∀ declared fault, ComesTo meets fails named declared → ¬fails declared fault)
    {before after : List α} (hlist : named = before ++ after)
    (hbefore : ∀ earlier ∈ before, ¬meets earlier) :
    ∀ earlier ∈ before, ∀ fault, ¬fails earlier fault := by
  induction before using List.reverseRecOn generalizing after with
  | nil => exact List.forall_mem_nil _
  | append_singleton before last ih =>
    obtain ⟨hothers, hlast⟩ := List.forall_mem_append.mp hbefore
    have hsplit : named = before ++ last :: after := by
      rw [hlist, List.append_assoc, List.singleton_append]
    have hclear := ih hsplit hothers
    refine List.forall_mem_append.mpr ⟨hclear, List.forall_mem_singleton.mpr fun fault => ?_⟩
    exact hnone last fault
      ⟨before, after, hsplit, fun earlier hmem => ⟨hothers earlier hmem, hclear earlier hmem⟩⟩

/-- A lookup that comes to no declaration that fails answers as if none could fail. -/
theorem Resolves.of_not_comesTo {answer : Except Fault β}
    (h : Resolves kind owner name isRestricted named handle meets fails answer)
    (hnone : ∀ declared fault, ComesTo meets fails named declared → ¬fails declared fault) :
    Resolves kind owner name isRestricted named handle meets (fun _ _ => False) answer := by
  have hcomes (declared : α) : ComesTo meets (fun _ _ => False) named declared ↔
      ComesTo meets fails named declared := by
    constructor
    · rintro ⟨before, after, hlist, hbefore⟩
      have hmiss (earlier : α) (hmem : earlier ∈ before) : ¬meets earlier :=
        (hbefore earlier hmem).1
      have hclear := not_fails_of_not_comesTo hnone hlist hmiss
      exact ⟨before, after, hlist, fun earlier hmem => ⟨hmiss earlier hmem, hclear earlier hmem⟩⟩
    · rintro ⟨before, after, hlist, hbefore⟩
      exact ⟨before, after, hlist, fun earlier hmem => ⟨(hbefore earlier hmem).1, fun _ => id⟩⟩
  refine ⟨h.only, h.ambiguous, ?_, fun kind' owner' name' => ?_, fun _ _ _ => False.elim,
    fun fault hfault => ?_⟩
  · simp only [hcomes]
    exact h.first
  · rw [h.notFound]
    refine and_congr_left fun _ => ⟨fun hall declared hmem => ?_, fun hall declared hmem => ?_⟩
    · exact ⟨(hall declared hmem).1, fun _ => id⟩
    have hmiss (declared : α) (hmem : declared ∈ named) : ¬meets declared := (hall declared hmem).1
    exact ⟨hmiss declared hmem,
      not_fails_of_not_comesTo hnone (List.append_nil named).symm hmiss declared hmem⟩
  · rcases h.faults fault hfault with hfault | hfault | ⟨declared, hcome, hfails⟩
    · exact .inl hfault
    · exact .inr (.inl hfault)
    · exact absurd hfails (hnone declared fault hcome)

end Policy

/-! ## Conditions -/

/-- Whatever is asked for holds when nothing is. -/
theorem forall_of_eq_none {α : Type} {wanted : Option α} {holds : α → Prop} (h : wanted = none) :
    ∀ given, wanted = some given → holds given := by
  rw [h]
  rintro _ ⟨⟩

/-- A value is the one that is asked for when it is whatever is asked for. -/
theorem isWanted_iff {α : Type} [BEq α] [LawfulBEq α] {wanted : Option α} {value : α} :
    isWanted wanted value = true ↔ ∀ given, wanted = some given → value = given := by
  cases wanted with
  | none => exact ⟨fun _ => forall_of_eq_none rfl, fun _ => rfl⟩
  | some given => simpa [isWanted] using eq_comm

/-- A type meets a query when the outermost type around it is in the namespace that is asked for. -/
def TypeQuery.Meets (query : TypeQuery) (assembly : Assembly) (type : TypeDecl) : Prop :=
  ∀ space, query.space = some space →
    ∃ steps last, assembly.EndsAt type steps last ∧ last.space = space

/-- A field meets a query when it is static and of the type that are asked for. -/
structure FieldQuery.Meets (query : FieldQuery) (field : FieldDecl) : Prop where
  isStatic : ∀ isStatic, query.isStatic = some isStatic → field.handle.isStatic = isStatic
  typeName : ∀ typeName, query.typeName = some typeName → field.typeName = typeName

/-- What a query asks of the declaration of a method. -/
structure MethodQuery.Fits (query : MethodQuery) (method : MethodDecl) : Prop where
  isStatic : ∀ isStatic, query.isStatic = some isStatic → method.handle.isStatic = isStatic
  params : ∀ params, query.params = some params → method.paramCount = params

/-- A method meets a query when its declaration does and its body has more instructions than are
asked for. A method without a body has none. -/
structure MethodQuery.Meets (query : MethodQuery) (assembly : Assembly) (method : MethodDecl) :
    Prop extends query.Fits method where
  moreThan : ∀ limit, query.moreThan = some limit →
    ∃ body, assembly.body method.handle.token = .ok body ∧ limit < body.instructions.length

/-- Whether a method meets a query is not known when its body is needed and cannot be decoded. -/
structure MethodQuery.Undecodable (query : MethodQuery) (assembly : Assembly) (method : MethodDecl)
    (fault : Fault) : Prop extends query.Fits method where
  isAsked : query.moreThan ≠ none
  body_eq : assembly.body method.handle.token = .error fault
  not_noBody : ∀ token, fault ≠ .noBody token

namespace Assembly

variable (assembly : Assembly)

/-- Types are looked at in the order of their rows, those that lie in no other first. -/
theorem typesNamed_eq (name : String) :
    assembly.typesNamed name =
      assembly.types.toList.filter (fun type => type.enclosing.isNone && type.name == name) ++
      assembly.types.toList.filter (fun type => type.enclosing.isSome && type.name == name) := by
  have hnested : (not ∘ fun type : TypeDecl => type.enclosing.isNone) =
      fun type => type.enclosing.isSome := by
    funext type
    exact Option.not_isNone type.enclosing
  rw [typesNamed, List.partition_eq_filter_filter, hnested]
  dsimp only
  rw [List.filter_append, List.filter_filter, List.filter_filter]
  simp only [Bool.and_comm]

/-- The way outwards tells whether a type meets a query, unless it runs in a circle. -/
theorem tells_typeMeets (query : TypeQuery) :
    Tells (assembly.typeMeets query) (query.Meets assembly)
      (fun type fault => fault = .endless ∧ query.space ≠ none ∧ assembly.RunsInCircle type) where
  true_iff type := by
    unfold typeMeets TypeQuery.Meets
    cases query.space with
    | none => exact ⟨fun _ => forall_of_eq_none rfl, fun _ => rfl⟩
    | some space =>
      simp only [Option.some.injEq, forall_eq']
      cases houtermost : assembly.outermost? type with
      | none =>
        refine ⟨fun h => (by cases h), ?_⟩
        rintro ⟨steps, last, hends, -⟩
        rw [hends.outermost?_eq] at houtermost
        cases houtermost
      | some last =>
        simp only [Except.ok.injEq, beq_iff_eq]
        constructor
        · intro hspace
          obtain ⟨steps, hends⟩ := exists_endsAt_of_outermost?_eq_some houtermost
          exact ⟨steps, last, hends, hspace⟩
        · rintro ⟨steps, other, hends, hspace⟩
          obtain rfl := Option.some.inj (houtermost.symm.trans hends.outermost?_eq)
          exact hspace
  error_iff type fault := typeMeets_eq_error_iff

/-- A method has a number of instructions when its body does, or none when it has no body. -/
theorem countOrNone_cases (token : Token) :
    (∃ body, assembly.body token = .ok body ∧
      assembly.countOrNone token = .ok body.instructions.length) ∨
    (assembly.body token = .error (.noBody token) ∧ assembly.countOrNone token = .ok 0) ∨
    ∃ fault, assembly.body token = .error fault ∧ fault.IsOfBytes ∧
      assembly.countOrNone token = .error fault := by
  unfold countOrNone instructionCount
  cases hbody : assembly.body token with
  | ok body => exact .inl ⟨body, rfl, rfl⟩
  | error fault =>
    rcases body_faults hbody with rfl | hbytes
    · exact .inr (.inl ⟨rfl, rfl⟩)
    · refine .inr (.inr ⟨fault, rfl, hbytes, ?_⟩)
      cases fault <;> first | rfl | exact hbytes.elim

/-- A method has more instructions than a limit when its body does. -/
theorem countOrNone_map_eq_true_iff (token : Token) (limit : Nat) :
    (assembly.countOrNone token).map (fun count => decide (limit < count)) = .ok true ↔
      ∃ body, assembly.body token = .ok body ∧ limit < body.instructions.length := by
  rcases assembly.countOrNone_cases token with
    ⟨body, hbody, hcount⟩ | ⟨hbody, hcount⟩ | ⟨fault, hbody, -, hcount⟩
  all_goals rw [hbody, hcount]
  · simp [Except.map]
  · simp [Except.map]
  · simp [Except.map]

/-- It is not known whether it does when the body cannot be decoded. -/
theorem countOrNone_map_eq_error_iff (token : Token) (limit : Nat) (fault : Fault) :
    (assembly.countOrNone token).map (fun count => decide (limit < count)) = .error fault ↔
      assembly.body token = .error fault ∧ ∀ other, fault ≠ .noBody other := by
  rcases assembly.countOrNone_cases token with
    ⟨body, hbody, hcount⟩ | ⟨hbody, hcount⟩ | ⟨cause, hbody, hbytes, hcount⟩
  all_goals rw [hbody, hcount]
  · simp [Except.map]
  · refine ⟨fun h => (by cases h), ?_⟩
    rintro ⟨hfault, hne⟩
    exact absurd (Except.error.inj hfault).symm (hne token)
  · constructor
    · intro h
      obtain rfl := Except.error.inj h
      refine ⟨rfl, ?_⟩
      rintro other rfl
      exact hbytes
    · rintro ⟨h, -⟩
      obtain rfl := Except.error.inj h
      rfl

/-- The declaration of a method and its body tell whether it meets a query. -/
theorem tells_methodMeets (query : MethodQuery) :
    Tells (assembly.methodMeets query) (query.Meets assembly) (query.Undecodable assembly) := by
  have hfits (method : MethodDecl) : (isWanted query.isStatic method.handle.isStatic &&
      isWanted query.params method.paramCount) = true ↔ query.Fits method := by
    rw [Bool.and_eq_true, isWanted_iff, isWanted_iff]
    exact ⟨fun h => ⟨h.1, h.2⟩, fun h => ⟨h.isStatic, h.params⟩⟩
  refine ⟨fun method => ?_, fun method fault => ?_⟩
  all_goals
    unfold methodMeets
    split
  · next hwanted =>
    have hmethod := (hfits method).mp hwanted
    cases hlimit : query.moreThan with
    | none => exact ⟨fun _ => ⟨hmethod, forall_of_eq_none hlimit⟩, fun _ => rfl⟩
    | some limit =>
      refine (assembly.countOrNone_map_eq_true_iff _ limit).trans ⟨fun h => ?_, fun h => ?_⟩
      · refine ⟨hmethod, fun other hother => ?_⟩
        obtain rfl := Option.some.inj (hlimit.symm.trans hother)
        exact h
      · exact h.moreThan limit hlimit
  · next hwanted =>
    refine ⟨fun h => ?_, fun h => absurd ((hfits method).mpr h.toFits) hwanted⟩
    cases h
  · next hwanted =>
    have hmethod := (hfits method).mp hwanted
    cases hlimit : query.moreThan with
    | none =>
      refine ⟨fun h => ?_, fun h => absurd hlimit h.isAsked⟩
      cases h
    | some limit =>
      refine (assembly.countOrNone_map_eq_error_iff _ limit fault).trans ⟨fun h => ?_, fun h => ?_⟩
      · exact ⟨hmethod, by simp [hlimit], h.1, h.2⟩
      · exact ⟨h.body_eq, h.not_noBody⟩
  · next hwanted =>
    refine ⟨fun h => ?_, fun h => absurd ((hfits method).mpr h.toFits) hwanted⟩
    cases h

/-! ## Lookups -/

variable {assembly}

/-- A query for a type that returns is resolved among all types of the name. -/
theorem resolves_findType {query : TypeQuery}
    (hreturns : assembly.findType query ≠ .error .endless) :
    Resolves .type (query.space.getD "") query.name query.isRestricted
      (assembly.typesNamed query.name) (·.token) (query.Meets assembly) (fun _ _ => False)
      (assembly.findType query) := by
  have hfree (hrestricted : query.isRestricted = false) (type : TypeDecl) :
      query.Meets assembly type := by
    intro space hspace
    rw [TypeQuery.isRestricted, hspace] at hrestricted
    cases hrestricted
  have hresolves : Resolves .type (query.space.getD "") query.name query.isRestricted
      (assembly.typesNamed query.name) (·.token) (query.Meets assembly)
      (fun type fault => fault = .endless ∧ query.space ≠ none ∧ assembly.RunsInCircle type)
      (assembly.findType query) := by
    refine (assembly.tells_typeMeets query).resolves hfree ?_
    rintro type fault ⟨rfl, -⟩
    exact id
  refine hresolves.of_not_comesTo fun type fault hcomes hfails => hreturns ?_
  rw [← hfails.1]
  exact hresolves.failed type fault hcomes hfails

/-- A query for a field is resolved among the fields of the type that have the name. -/
theorem resolves_findField {token : Token} {type : TypeDecl}
    (howner : assembly.type? token = some type) (query : FieldQuery) :
    Resolves .field type.fullName query.name query.isRestricted
      (type.fields.filter (·.name == query.name)) (·.handle) query.Meets (fun _ _ => False)
      (assembly.findField token query) := by
  have hfree (hrestricted : query.isRestricted = false) (field : FieldDecl) :
      query.Meets field := by
    simp only [FieldQuery.isRestricted, Bool.or_eq_false_iff, Option.isSome_eq_false_iff,
      Option.isNone_iff_eq_none] at hrestricted
    exact ⟨forall_of_eq_none hrestricted.1, forall_of_eq_none hrestricted.2⟩
  have hwanted (field : FieldDecl) : (isWanted query.isStatic field.handle.isStatic &&
      isWanted query.typeName field.typeName) = true ↔ query.Meets field := by
    rw [Bool.and_eq_true, isWanted_iff, isWanted_iff]
    exact ⟨fun h => ⟨h.1, h.2⟩, fun h => ⟨h.isStatic, h.typeName⟩⟩
  rw [findField, owner, howner]
  exact resolves_of_find? hwanted hfree

/-- A query for a method is resolved among the methods of the type that have the name. -/
theorem resolves_findMethod {token : Token} {type : TypeDecl}
    (howner : assembly.type? token = some type) (query : MethodQuery) :
    Resolves .method type.fullName query.name query.isRestricted
      (type.methods.filter (·.name == query.name)) (·.handle) (query.Meets assembly)
      (query.Undecodable assembly) (assembly.findMethod token query) := by
  have hfree (hrestricted : query.isRestricted = false) (method : MethodDecl) :
      query.Meets assembly method := by
    simp only [MethodQuery.isRestricted, Bool.or_eq_false_iff, Option.isSome_eq_false_iff,
      Option.isNone_iff_eq_none] at hrestricted
    obtain ⟨⟨hstatic, hparams⟩, hmoreThan⟩ := hrestricted
    exact ⟨⟨forall_of_eq_none hstatic, forall_of_eq_none hparams⟩, forall_of_eq_none hmoreThan⟩
  have hother (method : MethodDecl) (fault : Fault) (h : query.Undecodable assembly method fault) :
      ¬fault.IsOfLookup := by
    rcases body_faults h.body_eq with rfl | hbytes
    · exact id
    · cases fault <;> first | exact id | exact hbytes.elim
  rw [findMethod, owner, howner]
  exact (assembly.tells_methodMeets query).resolves hfree hother

/-- **Lookups never choose between namesakes unasked.** A query for a type, as long as it returns,
and queries for the fields and methods of a declared type are answered by one policy. Without a
condition a declaration is found exactly when it alone has the name, and the number of namesakes is
told exactly when there are more. With a condition the first declaration of the name that meets all
conditions is found; types are looked at in the order of their rows, those that lie in no other
first, and a type in another counts as one in the namespace of the outermost type around it. Nothing
is found exactly when no declaration meets the conditions. The only other fault is that of a body
that cannot be decoded, where the search comes to a method whose number of instructions is asked
for. -/
theorem lookups_resolve (assembly : Assembly) :
    (∀ query : TypeQuery, assembly.findType query ≠ .error .endless →
      Resolves .type (query.space.getD "") query.name query.isRestricted
        (assembly.types.toList.filter (fun type =>
            type.enclosing.isNone && type.name == query.name) ++
          assembly.types.toList.filter (fun type =>
            type.enclosing.isSome && type.name == query.name))
        (·.token) (query.Meets assembly) (fun _ _ => False) (assembly.findType query)) ∧
    ∀ token type, assembly.type? token = some type →
      (∀ query : FieldQuery, Resolves .field type.fullName query.name query.isRestricted
        (type.fields.filter (·.name == query.name)) (·.handle) query.Meets (fun _ _ => False)
        (assembly.findField token query)) ∧
      ∀ query : MethodQuery, Resolves .method type.fullName query.name query.isRestricted
        (type.methods.filter (·.name == query.name)) (·.handle) (query.Meets assembly)
        (query.Undecodable assembly) (assembly.findMethod token query) := by
  refine ⟨fun query hreturns => ?_, fun token type howner =>
    ⟨resolves_findField howner, resolves_findMethod howner⟩⟩
  rw [← typesNamed_eq]
  exact resolves_findType hreturns

/-- The names of the small image: one type and one field are found, two methods are ambiguous, and a
number of parameters takes the first of them or none. -/
theorem lookups_resolve_small :
    smallAssembly.findType { name := "m" } ≠ .error .endless ∧
      smallAssembly.type? ⟨0x02000001⟩ = some smallType ∧
      smallAssembly.findType { name := "m" } = .ok ⟨0x02000001⟩ ∧
      smallAssembly.findField ⟨0x02000001⟩ { name := "m" } = .ok ⟨⟨0x04000001⟩, false⟩ ∧
      smallAssembly.findMethod ⟨0x02000001⟩ { name := "m" } =
        .error (.ambiguousSymbol .method "m" "m" 2) ∧
      smallAssembly.findMethod ⟨0x02000001⟩ { name := "m", params := some 0 } =
        .ok ⟨⟨0x06000001⟩, true, 0, 0⟩ ∧
      smallAssembly.findMethod ⟨0x02000001⟩ { name := "m", params := some 1 } =
        .error (.symbolNotFound .method "m" "m") := by
  have hreturns : smallAssembly.findType { name := "m" } ≠ .error .endless := by
    intro hendless
    obtain ⟨space, -, -, -, hspace, -⟩ := findType_eq_endless_iff.mp hendless
    cases hspace
  have howner : smallAssembly.type? ⟨0x02000001⟩ = some smallType := rfl
  obtain ⟨htypes, hmembers⟩ := lookups_resolve smallAssembly
  obtain ⟨hfields, hmethods⟩ := hmembers ⟨0x02000001⟩ smallType howner
  have hname : smallType.fullName = "m" := rfl
  have htop : smallAssembly.types.toList = [smallType] := rfl
  have hnamed : smallType.methods.filter (·.name == "m") = smallType.methods := rfl
  refine ⟨hreturns, howner, ?_, ?_, ?_, ?_, ?_⟩
  · refine ((htypes { name := "m" } hreturns).only rfl _).mpr ⟨smallType, ?_, rfl⟩
    rw [htop]
    rfl
  · exact ((hfields { name := "m" }).only rfl _).mpr ⟨smallField, rfl, rfl⟩
  · refine ((hmethods { name := "m" }).ambiguous .method "m" "m" 2).mpr
      ⟨rfl, ?_, rfl, hname.symm, rfl, ?_⟩
    · rw [hnamed]
      decide
    · rw [hnamed]
      decide
  · refine ((hmethods { name := "m", params := some 0 }).first rfl _).mpr
      ⟨smallType.methods[0], ⟨[], [smallType.methods[1]], hnamed, List.forall_mem_nil _⟩,
        ⟨⟨forall_of_eq_none rfl, fun params hparams => ?_⟩, forall_of_eq_none rfl⟩, rfl⟩
    exact Option.some.inj hparams
  · refine ((hmethods { name := "m", params := some 1 }).notFound .method "m" "m").mpr
      ⟨fun method hmem => ⟨fun hmeets => ?_, fun fault hfails => hfails.isAsked rfl⟩,
        rfl, hname.symm, rfl⟩
    have hcount := hmeets.params 1 rfl
    rw [hnamed] at hmem
    have hnone : ∀ method ∈ smallType.methods, method.paramCount = 0 := by
      simp [smallType, MethodDecl.paramCount]
    rw [hnone method hmem] at hcount
    cases hcount

end Assembly

end CilPatch
