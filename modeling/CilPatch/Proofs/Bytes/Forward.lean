import CilPatch.Proofs.Bytes.Compressed

/-!
# Forward steps

A forward step depends on nothing but the bytes that it passes: wherever these stand, it passes
them and yields the same. Some steps look at the next byte to see where they end. They are not
forward by themselves, but a step that looks ahead and then takes that byte is.
-/

namespace CilPatch

namespace Cursor

variable {cursor before after : Cursor}

/-- The next byte is in front of the bytes that are passed, if any are. -/
theorem Passes.head? {bytes : List UInt8} (h : before.Passes bytes after) :
    before.rest.head? = bytes.head?.or after.rest.head? := by
  rw [h.rest, List.head?_append]

/-- The next byte can be passed. -/
theorem exists_passes_of_head? {byte : UInt8} (h : cursor.rest.head? = some byte) :
    ∃ after, cursor.Passes [byte] after := by
  obtain ⟨tail, htail⟩ := List.head?_eq_some_iff.mp h
  have hmore := hasMore_of_head? h
  simp only [hasMore, decide_eq_true_eq] at hmore
  exact ⟨_, passes_of_rest htail (by omega)⟩

end Cursor

namespace Read

variable {α β : Type} {before after : Cursor}

/-- The next byte is seen when it is there, and nothing is passed. -/
theorem run_peek_eq_ok_iff {byte : UInt8} :
    peek.run before = (.ok byte, after) ↔ before.rest.head? = some byte ∧ after = before := by
  have hhead : before.rest.head? = before.data[before.pos]? := by
    rw [Cursor.rest, List.head?_drop, Array.getElem?_toList]
  rw [peek, step_bind, step_get, hhead]
  cases hbyte : before.data[before.pos]? with
  | none =>
    simp only [hbyte, step_throw]
    constructor
    · intro h
      cases h
    · rintro ⟨h, -⟩
      cases h
  | some found =>
    simp only [hbyte, step_pure]
    constructor
    · intro h
      obtain ⟨hvalue, rfl⟩ := Prod.mk.inj h
      exact ⟨congrArg some (Except.ok.inj hvalue), rfl⟩
    · rintro ⟨hvalue, rfl⟩
      rw [Option.some.inj hvalue]

/-- One byte is skipped when it is passed. -/
theorem run_skip_one {byte : UInt8} (h : before.Passes [byte] after) :
    (skip 1).run before = (.ok (), after) := by
  have hmoved := h.moved
  have hbounded := h.bounded
  rw [List.length_singleton] at hmoved
  rw [hmoved] at hbounded
  rw [skip, step_bind, step_get]
  simp only
  rw [run_seek, if_neg (Nat.not_lt.mpr hbounded), hmoved]

/-- Whether a step reads forward: it passes some bytes when it yields, and wherever these bytes
stand, it passes them and yields the same. -/
def Forward (step : Read α) : Prop :=
  ∀ ⦃before after : Cursor⦄ ⦃value : α⦄, before.pos ≤ before.data.size →
    step.run before = (.ok value, after) → ∃ bytes, before.Passes bytes after ∧
      ∀ ⦃other last : Cursor⦄, other.Passes bytes last → step.run other = (.ok value, last)

/-- Whether a step reads forward and passes a byte at least. -/
def Takes (step : Read α) : Prop :=
  ∀ ⦃before after : Cursor⦄ ⦃value : α⦄, before.pos ≤ before.data.size →
    step.run before = (.ok value, after) → ∃ bytes, bytes ≠ [] ∧ before.Passes bytes after ∧
      ∀ ⦃other last : Cursor⦄, other.Passes bytes last → step.run other = (.ok value, last)

/-- Whether a step reads forward but for the next byte behind what it passes, at which it may
look. -/
def Peeks (step : Read α) : Prop :=
  ∀ ⦃before after : Cursor⦄ ⦃value : α⦄, before.pos ≤ before.data.size →
    step.run before = (.ok value, after) → ∃ bytes, before.Passes bytes after ∧
      ∀ ⦃other last : Cursor⦄, other.Passes bytes last →
        last.rest.head? = after.rest.head? → step.run other = (.ok value, last)

/-- A step that takes a byte reads forward. -/
theorem Takes.forward {step : Read α} (h : Takes step) : Forward step := by
  intro before after value hbounded hrun
  obtain ⟨bytes, -, hpasses⟩ := h hbounded hrun
  exact ⟨bytes, hpasses⟩

/-- A step that reads forward looks at nothing else. -/
theorem Forward.peeks {step : Read α} (h : Forward step) : Peeks step := by
  intro before after value hbounded hrun
  obtain ⟨bytes, hpasses, hsame⟩ := h hbounded hrun
  exact ⟨bytes, hpasses, fun _ _ hother _ => hsame hother⟩

/-- A step that only yields reads forward. -/
theorem forward_pure (value : α) : Forward (pure value) := by
  intro before after found hbounded hrun
  rw [step_pure] at hrun
  obtain ⟨hvalue, rfl⟩ := Prod.mk.inj hrun
  obtain rfl := Except.ok.inj hvalue
  refine ⟨[], (Cursor.passes_nil_iff hbounded).mpr rfl, fun other last hother => ?_⟩
  rw [(Cursor.passes_nil_iff hother.bounded_before).mp hother]
  rfl

/-- A step that gives up takes what it likes. -/
theorem takes_throw (fault : Fault) : Takes (throw fault : Read α) := by
  intro before after value _ hrun
  cases hrun

/-- A forward step after another reads forward. -/
theorem Forward.bind {step : Read α} {next : α → Read β} (hstep : Forward step)
    (hnext : ∀ value, Forward (next value)) : Forward (step >>= next) := by
  intro before after value hbounded hrun
  obtain ⟨first, middle, hfirst, hrun⟩ := run_bind_eq_ok_iff.mp hrun
  obtain ⟨front, hfront, hsame⟩ := hstep hbounded hfirst
  obtain ⟨back, hback, hsame'⟩ := hnext first hfront.bounded hrun
  refine ⟨front ++ back, Cursor.passes_append_iff.mpr ⟨middle, hfront, hback⟩, ?_⟩
  intro other last hother
  obtain ⟨between, hleft, hright⟩ := Cursor.passes_append_iff.mp hother
  exact run_bind_eq_ok_iff.mpr ⟨first, between, hsame hleft, hsame' hright⟩

/-- A forward step after one that takes a byte takes it too. -/
theorem Takes.bind {step : Read α} {next : α → Read β} (hstep : Takes step)
    (hnext : ∀ value, Forward (next value)) : Takes (step >>= next) := by
  intro before after value hbounded hrun
  obtain ⟨first, middle, hfirst, hrun⟩ := run_bind_eq_ok_iff.mp hrun
  obtain ⟨front, hne, hfront, hsame⟩ := hstep hbounded hfirst
  obtain ⟨back, hback, hsame'⟩ := hnext first hfront.bounded hrun
  refine ⟨front ++ back, by simp [hne], Cursor.passes_append_iff.mpr ⟨middle, hfront, hback⟩, ?_⟩
  intro other last hother
  obtain ⟨between, hleft, hright⟩ := Cursor.passes_append_iff.mp hother
  exact run_bind_eq_ok_iff.mpr ⟨first, between, hsame hleft, hsame' hright⟩

/-- A step that looks ahead is followed by another one. -/
theorem Peeks.bind {step : Read α} {next : α → Read β} (hstep : Peeks step)
    (hnext : ∀ value, Peeks (next value)) : Peeks (step >>= next) := by
  intro before after value hbounded hrun
  obtain ⟨first, middle, hfirst, hrun⟩ := run_bind_eq_ok_iff.mp hrun
  obtain ⟨front, hfront, hsame⟩ := hstep hbounded hfirst
  obtain ⟨back, hback, hsame'⟩ := hnext first hfront.bounded hrun
  refine ⟨front ++ back, Cursor.passes_append_iff.mpr ⟨middle, hfront, hback⟩, ?_⟩
  intro other last hother hhead
  obtain ⟨between, hleft, hright⟩ := Cursor.passes_append_iff.mp hother
  refine run_bind_eq_ok_iff.mpr ⟨first, between, hsame hleft ?_, hsame' hright hhead⟩
  rw [hright.head?, hback.head?, hhead]

/-- A step that looks ahead takes the byte that it looks at when the next step does. -/
theorem Peeks.takes {step : Read α} {next : α → Read β} (hstep : Peeks step)
    (hnext : ∀ value, Takes (next value)) : Takes (step >>= next) := by
  intro before after value hbounded hrun
  obtain ⟨first, middle, hfirst, hrun⟩ := run_bind_eq_ok_iff.mp hrun
  obtain ⟨front, hfront, hsame⟩ := hstep hbounded hfirst
  obtain ⟨back, hne, hback, hsame'⟩ := hnext first hfront.bounded hrun
  obtain ⟨byte, rest, rfl⟩ := List.exists_cons_of_ne_nil hne
  refine ⟨front ++ byte :: rest, by simp,
    Cursor.passes_append_iff.mpr ⟨middle, hfront, hback⟩, ?_⟩
  intro other last hother
  obtain ⟨between, hleft, hright⟩ := Cursor.passes_append_iff.mp hother
  refine run_bind_eq_ok_iff.mpr ⟨first, between, hsame hleft ?_, hsame' hright⟩
  rw [hright.head?, hback.head?]
  rfl

/-- A choice of forward steps reads forward. -/
theorem Forward.ite {check : Prop} [Decidable check] {step other : Read α} (h : Forward step)
    (hother : Forward other) : Forward (if check then step else other) := by
  split
  · exact h
  · exact hother

/-- A forward step that is taken several times reads forward. -/
theorem Forward.many {step : Read α} (h : Forward step) (count : Nat) :
    Forward (many step count) := by
  induction count with
  | zero => exact forward_pure []
  | succ count ih => exact h.bind fun first => ih.bind fun rest => forward_pure _

/-- A step that is taken some times and then some more times yields both lists. -/
theorem many_add (step : Read α) (first second : Nat) :
    many step (first + second) = (do
      let values ← many step first
      let rest ← many step second
      return values ++ rest) := by
  induction first with
  | zero => simp [many]
  | succ first ih =>
    rw [Nat.add_right_comm, many, ih, many]
    simp only [bind_assoc, pure_bind, List.cons_append]

/-- Looking at the next byte passes nothing. -/
theorem peeks_peek : Peeks peek := by
  intro before after byte hbounded hrun
  obtain ⟨hhead, rfl⟩ := run_peek_eq_ok_iff.mp hrun
  refine ⟨[], (Cursor.passes_nil_iff hbounded).mpr rfl, fun other last hother hsame => ?_⟩
  obtain rfl := (Cursor.passes_nil_iff hother.bounded_before).mp hother
  exact run_peek_eq_ok_iff.mpr ⟨hsame.trans hhead, rfl⟩

/-- Skipping a byte takes it. -/
theorem takes_skip_one : Takes (skip 1) := by
  intro before after value hbounded hrun
  rw [skip, step_bind, step_get] at hrun
  simp only at hrun
  rw [run_seek] at hrun
  split at hrun
  · cases hrun
  · next hroom =>
    obtain ⟨byte, hbyte⟩ : ∃ byte, before.rest.head? = some byte := by
      rw [← Option.isSome_iff_exists, ← Option.ne_none_iff_isSome, ne_eq,
        ← Cursor.hasMore_eq_false_iff]
      simp only [Cursor.hasMore, decide_eq_false_iff_not]
      omega
    obtain ⟨last, hlast⟩ := Cursor.exists_passes_of_head? hbyte
    obtain rfl : last = after := hlast.moved.trans (Prod.mk.inj hrun).2
    exact ⟨[byte], by simp, hlast, fun _ _ hother => run_skip_one hother⟩

/-- Reading a byte takes it. -/
theorem takes_u8 : Takes u8 := by
  intro before after byte _ hrun
  have hpasses := run_u8_eq_ok_iff.mp hrun
  exact ⟨[byte], by simp, hpasses, fun _ _ hother => run_u8_eq_ok_iff.mpr hother⟩

/-- Reading a compressed integer takes its bytes. -/
theorem takes_compressed : Takes compressed := by
  refine takes_u8.bind fun lead => ?_
  split
  · exact forward_pure _
  split
  · exact takes_u8.forward.bind fun low => forward_pure _
  split
  · exact takes_u8.forward.bind fun second => takes_u8.forward.bind fun third =>
      takes_u8.forward.bind fun last => forward_pure _
  · exact (takes_throw _).forward

/-- Reading a reference to a type takes its bytes. -/
theorem takes_compressedToken : Takes compressedToken := by
  refine takes_compressed.bind fun value => ?_
  dsimp only
  split
  · exact forward_pure _
  · exact forward_pure _
  · exact forward_pure _
  · exact (takes_throw _).forward

/-! ## Loops that look ahead -/

section Scans

variable {σ : Type} {loop : Nat → σ → Read β} {marked : UInt8 → Bool} {first : UInt8 → Read α}
  {next : σ → UInt8 → σ} {join : α → β → β} {result : σ → β}

/-- Whether a loop takes what is marked: where a marked byte follows, it takes this byte and what
belongs to it and goes on, and where none follows, it ends. -/
structure Scans (loop : Nat → σ → Read β) (marked : UInt8 → Bool) (first : UInt8 → Read α)
    (next : σ → UInt8 → σ) (join : α → β → β) (result : σ → β) : Prop where
  /-- What belongs to a marked byte reads forward. -/
  forward (byte : UInt8) : Forward (first byte)
  /-- Where no marked byte follows, nothing is passed. -/
  stop (fuel : Nat) (state : σ) {cursor : Cursor}
    (h : ∀ byte, cursor.rest.head? = some byte → marked byte = false) :
    (loop fuel state).run cursor = (.ok (result state), cursor)
  /-- Where a marked byte follows, it is passed and the loop goes on behind it. -/
  take (fuel : Nat) (state : σ) {byte : UInt8} {cursor middle : Cursor} (h : marked byte = true)
    (hpasses : cursor.Passes [byte] middle) :
    (loop (fuel + 1) state).run cursor =
      (do
        let value ← first byte
        let rest ← loop fuel (next state byte)
        return join value rest : Read β).run middle

/-- Where no marked byte follows, the loop ends wherever the same byte follows. -/
theorem Scans.exists_passes_of_stop (h : Scans loop marked first next join result) {fuel : Nat}
    {state : σ} {value : β} (hbounded : before.pos ≤ before.data.size)
    (hnone : ∀ byte, before.rest.head? = some byte → marked byte = false)
    (hrun : (loop fuel state).run before = (.ok value, after)) :
    ∃ bytes, before.Passes bytes after ∧ ∀ ⦃other last : Cursor⦄ (room : Nat),
      other.Passes bytes last → last.rest.head? = after.rest.head? → other.rest.length ≤ room →
        (loop room state).run other = (.ok value, last) := by
  rw [h.stop _ _ hnone] at hrun
  obtain ⟨hvalue, rfl⟩ := Prod.mk.inj hrun
  obtain rfl := Except.ok.inj hvalue
  refine ⟨[], (Cursor.passes_nil_iff hbounded).mpr rfl, fun other last room hother hhead _ => ?_⟩
  obtain rfl := (Cursor.passes_nil_iff hother.bounded_before).mp hother
  exact h.stop room state fun byte hbyte => hnone byte (hhead ▸ hbyte)

/-- A loop that has fuel for all that is left takes the same wherever its bytes stand, if the same
byte follows them. -/
theorem Scans.exists_passes (h : Scans loop marked first next join result) {fuel : Nat} (state : σ)
    {value : β} (hbounded : before.pos ≤ before.data.size) (hfuel : before.rest.length ≤ fuel)
    (hrun : (loop fuel state).run before = (.ok value, after)) :
    ∃ bytes, before.Passes bytes after ∧ ∀ ⦃other last : Cursor⦄ (room : Nat),
      other.Passes bytes last → last.rest.head? = after.rest.head? → other.rest.length ≤ room →
        (loop room state).run other = (.ok value, last) := by
  induction fuel generalizing before state value with
  | zero =>
    have hnil := List.length_eq_zero_iff.mp (Nat.le_zero.mp hfuel)
    refine h.exists_passes_of_stop hbounded (fun byte hhead => ?_) hrun
    rw [hnil] at hhead
    cases hhead
  | succ fuel ih =>
    by_cases hmarked : ∃ byte, before.rest.head? = some byte ∧ marked byte = true
    · obtain ⟨byte, hhead, hbyte⟩ := hmarked
      obtain ⟨middle, hlead⟩ := Cursor.exists_passes_of_head? hhead
      rw [h.take fuel state hbyte hlead] at hrun
      obtain ⟨found, behind, hfound, hrun⟩ := run_bind_eq_ok_iff.mp hrun
      obtain ⟨rest, final, hrest, hrun⟩ := run_bind_eq_ok_iff.mp hrun
      obtain ⟨hvalue, rfl⟩ := Prod.mk.inj hrun
      obtain rfl := Except.ok.inj hvalue
      obtain ⟨bytes, hpasses, hsame⟩ := h.forward byte hlead.bounded hfound
      have hfew : behind.rest.length ≤ fuel := by
        have := hlead.length_rest
        have := hpasses.length_rest
        simp only [List.length_singleton] at *
        omega
      obtain ⟨others, hothers, hagain⟩ := ih _ hpasses.bounded hfew hrest
      refine ⟨[byte] ++ (bytes ++ others), Cursor.passes_append_iff.mpr ⟨_, hlead,
        Cursor.passes_append_iff.mpr ⟨_, hpasses, hothers⟩⟩, ?_⟩
      intro other last room hother hhead hroom
      obtain ⟨one, hone, hother⟩ := Cursor.passes_append_iff.mp hother
      obtain ⟨two, htwo, hlast⟩ := Cursor.passes_append_iff.mp hother
      have hlength := hone.length_rest
      have hlength' := htwo.length_rest
      simp only [List.length_singleton] at hlength
      obtain ⟨less, rfl⟩ : ∃ less, room = less + 1 := ⟨room - 1, by omega⟩
      rw [h.take less state hbyte hone]
      refine run_bind_eq_ok_iff.mpr ⟨found, two, hsame htwo, ?_⟩
      exact run_bind_eq_ok_iff.mpr ⟨rest, last, hagain less hlast hhead (by omega), rfl⟩
    · refine h.exists_passes_of_stop hbounded (fun byte hhead => ?_) hrun
      exact Bool.eq_false_iff.mpr fun hbyte => hmarked ⟨byte, hhead, hbyte⟩

end Scans

/-! ## Steps that yield more -/

/-- Whether a step yields all that another one yields. -/
def Within (step larger : Read α) : Prop :=
  ∀ ⦃before after : Cursor⦄ ⦃value : α⦄, step.run before = (.ok value, after) →
    larger.run before = (.ok value, after)

/-- A step yields what it yields. -/
theorem Within.refl (step : Read α) : Within step step := fun _ _ _ h => h

/-- Steps after each other yield more when each of them does. -/
theorem Within.bind {step larger : Read α} {next more : α → Read β} (h : Within step larger)
    (hnext : ∀ value, Within (next value) (more value)) :
    Within (step >>= next) (larger >>= more) := by
  intro before after value hrun
  obtain ⟨first, middle, hfirst, hrun⟩ := run_bind_eq_ok_iff.mp hrun
  exact run_bind_eq_ok_iff.mpr ⟨first, middle, h hfirst, hnext first hrun⟩

/-- A choice of steps yields more when both steps do. -/
theorem Within.ite {check : Prop} [Decidable check] {step larger other others : Read α}
    (h : Within step larger) (hother : Within other others) :
    Within (if check then step else other) (if check then larger else others) := by
  split
  · exact h
  · exact hother

/-- A step that is taken several times yields more when it does. -/
theorem Within.many {step larger : Read α} (h : Within step larger) (count : Nat) :
    Within (many step count) (many larger count) := by
  induction count with
  | zero => exact .refl _
  | succ count ih => exact h.bind fun first => ih.bind fun rest => .refl _

end Read

end CilPatch
