import CilPatch.Proofs.Patch.Refusal
import CilPatch.Proofs.Patch.Numbering

/-!
# Accesses to local variables

Four calls of the builder access a local variable through its index. Those that load a variable
are refused when it is not declared. Those that store into one or load its address are not, so a
fragment can be finished with an index that no variable has; `Oversteps` names these calls. An
index that was handed out earlier in the same session is always that of a declared variable.
-/

namespace CilPatch

namespace Call

/-- The index of the local variable that a call accesses. -/
def accesses? : Call → Option UInt16
  | load slot | store slot | loadAddress slot => some slot.index
  | loadIndex index => some index
  | _ => none

end Call

/-! ## Encodings -/

namespace Build

/-- The indices that the opcode alone can say. -/
theorem eq_of_le_three {index : UInt16} (h : index ≤ 3) :
    index = 0 ∨ index = 1 ∨ index = 2 ∨ index = 3 := by
  have hle : index.toNat ≤ 3 := UInt16.le_iff_toNat_le.mp h
  simp only [← UInt16.toNat_inj]
  change index.toNat = 0 ∨ index.toNat = 1 ∨ index.toNat = 2 ∨ index.toNat = 3
  omega

/-- Whichever instruction is the shortest, it loads the variable it is asked for. -/
theorem localIndex?_loadOf (index : UInt16) : (loadOf index).localIndex? = some index := by
  unfold loadOf
  split
  · next hshort => rcases eq_of_le_three hshort with rfl | rfl | rfl | rfl <;> rfl
  · split <;> rfl

/-- Whichever instruction is the shortest, it stores into the variable it is asked for. -/
theorem localIndex?_storeOf (index : UInt16) : (storeOf index).localIndex? = some index := by
  unfold storeOf
  split
  · next hshort => rcases eq_of_le_three hshort with rfl | rfl | rfl | rfl <;> rfl
  · split <;> rfl

/-- A variable is loaded only if it is declared. -/
theorem lt_localCount_of_run_loadIndex {builder after : Builder} {index : UInt16} {slot : Slot}
    (h : (loadIndex index).run builder = (.ok slot, after)) : index.toNat < builder.localCount := by
  by_contra hle
  simp only [loadIndex, step_bind, step_get, Nat.not_lt.mp hle, if_true] at h
  cases h

end Build

namespace Call

variable {call : Call} {index : UInt16}

/-- What a call emits that accesses a local variable uses that variable. -/
theorem localIndex?_of_emits? {emitted : Emitted} (haccess : call.accesses? = some index)
    (hemits : call.emits? = some emitted) :
    ∃ instruction, emitted = .ofTable instruction ∧ instruction.localIndex? = some index := by
  cases call with
  | load | loadIndex =>
    obtain rfl := Option.some.inj haccess
    exact ⟨_, (Option.some.inj hemits).symm, Build.localIndex?_loadOf _⟩
  | store =>
    obtain rfl := Option.some.inj haccess
    exact ⟨_, (Option.some.inj hemits).symm, Build.localIndex?_storeOf _⟩
  | loadAddress =>
    obtain rfl := Option.some.inj haccess
    exact ⟨_, (Option.some.inj hemits).symm, rfl⟩
  | _ => cases haccess

/-- A call that accesses a local variable and is accepted emits an instruction that uses it. -/
theorem exists_pushed_of_accesses? {builder : Builder} (haccess : call.accesses? = some index)
    (haccepted : (call.step.run builder).1 = .ok ()) :
    ∃ instruction, instruction.localIndex? = some index ∧
      (call.step.run builder).2 = builder.pushed (.ofTable instruction) := by
  have houtcome := call.outcome builder
  rw [haccepted] at houtcome
  generalize (call.step.run builder).2 = after at houtcome ⊢
  cases houtcome with
  | emitted hemits =>
    obtain ⟨instruction, rfl, hindex⟩ := localIndex?_of_emits? haccess hemits
    exact ⟨instruction, hindex, rfl⟩
  | declared | reserved | bound | jumped => cases haccess

end Call

/-! ## Accesses that are not checked -/

namespace Builder

/-- Whether a call stores into, or loads the address of, a local variable that is not declared. -/
inductive Oversteps (builder : Builder) : Call → Prop
  /-- The call stores. -/
  | store {slot : Local} (h : builder.localCount ≤ slot.index.toNat) :
      Oversteps builder (.store slot)
  /-- The call loads an address. -/
  | loadAddress {slot : Local} (h : builder.localCount ≤ slot.index.toNat) :
      Oversteps builder (.loadAddress slot)

/-- An accepted access is to a declared variable exactly when it does not overstep. -/
theorem lt_localCount_iff_not_oversteps {builder : Builder} {call : Call} {index : UInt16}
    (haccess : call.accesses? = some index) (haccepted : (call.step.run builder).1 = .ok ()) :
    index.toNat < builder.localCount ↔ ¬builder.Oversteps call := by
  -- what loads is accepted only below the count, what does not is accepted on either side
  have hloads {index : UInt16}
      (h : (((fun _ => ()) <$> Build.loadIndex index : Build Unit).run builder).1 = .ok ()) :
      index.toNat < builder.localCount := by
    rw [step_map] at h
    rcases hrun : (Build.loadIndex index).run builder with ⟨⟨fault⟩ | ⟨slot⟩, after⟩
    · rw [hrun] at h
      cases h
    · exact Build.lt_localCount_of_run_loadIndex hrun
  cases call with
  | load | loadIndex =>
    obtain rfl := Option.some.inj haccess
    exact iff_of_true (hloads haccepted) nofun
  | store =>
    obtain rfl := Option.some.inj haccess
    refine Nat.not_le.symm.trans (not_congr ⟨.store, fun hoversteps => ?_⟩)
    cases hoversteps with
    | store hle => exact hle
  | loadAddress =>
    obtain rfl := Option.some.inj haccess
    refine Nat.not_le.symm.trans (not_congr ⟨.loadAddress, fun hoversteps => ?_⟩)
    cases hoversteps with
    | loadAddress hle => exact hle
  | _ => cases haccess

/-- Whether one of some calls has handed out an index for a variable. -/
def HandedOut (body : Body) (continuation : Slot) (calls : List Call) (slot : Local) : Prop :=
  ∃ front type name back after, calls = front ++ .declare type name :: back ∧
    (Build.declare type name).run ((start body continuation).after front) = (.ok slot, after)

/-- An index that was handed out is that of a declared variable. -/
theorem HandedOut.lt_localCount {body : Body} {continuation : Slot} {calls : List Call}
    {slot : Local} (h : HandedOut body continuation calls slot) :
    slot.index.toNat < ((start body continuation).after calls).localCount := by
  obtain ⟨front, type, name, back, after, rfl, hdeclare⟩ := h
  obtain ⟨hindex, rfl⟩ := Build.eq_of_run_declare hdeclare
  have hstep : (start body continuation).after (front ++ .declare type name :: back) =
      (((start body continuation).after front).declared ⟨type, some name⟩).after back := by
    rw [after_append, after_cons, Call.step, step_map, hdeclare]
  rw [hstep, hindex]
  refine Nat.lt_of_lt_of_le ?_ (declares_after _ back).localCount_le
  simp [Builder.localCount, Builder.declared]

end Builder

/-- A call that accesses a local variable and is accepted emits an instruction that uses it. The
variable is declared at that point, and in every method the finished fragment is spliced into,
unless the call oversteps, which it never does with an index that was handed out before. What a
call emits that oversteps is in the fragment all the same. -/
theorem accessed_local_declared_iff {body : Body} {continuation : Slot} {calls : List Call}
    {builder : Builder} {call : Call} {index : UInt16}
    (hbuilder : (Builder.start body continuation).after calls = builder)
    (haccess : call.accesses? = some index) (haccepted : (call.step.run builder).1 = .ok ()) :
    ∃ instruction, instruction.localIndex? = some index ∧
      (call.step.run builder).2 = builder.pushed (.ofTable instruction) ∧
      (index.toNat < builder.localCount ↔ ¬builder.Oversteps call) ∧
      (Builder.HandedOut body continuation calls ⟨index⟩ → ¬builder.Oversteps call) ∧
      ∀ later fragment, (builder.after (call :: later)).finish = .ok fragment →
        fragment.instructions[builder.emitted.size]? = some builder.nextSlot ∧
        (builder.after (call :: later)).body.instructions.get builder.nextSlot = instruction ∧
        (¬builder.Oversteps call →
          index.toNat < fragment.firstLocal + fragment.locals.length ∧
          ∀ position before report after,
            (splice position fragment).run before = (.ok report, after) →
              index.toNat < after.localCount) := by
  have howns : builder.Owns body := hbuilder ▸ (Builder.owns_start body continuation).after calls
  have hiff := Builder.lt_localCount_iff_not_oversteps haccess haccepted
  obtain ⟨instruction, hindex, hpushed⟩ := Call.exists_pushed_of_accesses? haccess haccepted
  refine ⟨instruction, hindex, hpushed, hiff, fun hhanded => ?_, fun later fragment hfinish => ?_⟩
  · exact hiff.mp (hbuilder ▸ hhanded.lt_localCount)
  · rw [Builder.after_cons, hpushed] at hfinish ⊢
    obtain ⟨hplace, hget⟩ := howns.get_of_finish _ hfinish
    refine ⟨hplace, hget, fun hwithin => ?_⟩
    have hfinishes := Builder.finishes_of_finish hfinish
    have hkept := Builder.declares_after (builder.pushed (.ofTable instruction)) later
    have hlt : index.toNat < fragment.firstLocal + fragment.locals.length := by
      rw [hfinishes.firstLocal, hfinishes.locals]
      exact Nat.lt_of_lt_of_le (hiff.mpr hwithin) hkept.localCount_le
    refine ⟨hlt, fun position before report after hsplice => ?_⟩
    obtain ⟨entry, hfits, -, rfl⟩ := Splice.eq_spliced_of_ok hsplice
    rw [hfits.localCount_spliced]
    exact hlt

/-- A builder that has declared a local variable and pushed a value to store into it. -/
def storingBuilder : Builder :=
  (Builder.start restingBody ⟨1⟩).after [.declare .i4 "x", .constant 5]

/-- The fragment that stores the value. -/
def storingFragment : Fragment where
  instructions := #[⟨2⟩, ⟨3⟩]
  locals := [⟨.i4, some "x"⟩]
  firstLocal := 0
  continuation := ⟨1⟩
  maxStack := 1

set_option maxRecDepth 4000 in
/-- A value is stored into a variable that was declared, wherever the fragment is put. -/
theorem accessed_local_declared_stored :
    ¬storingBuilder.Oversteps (.store ⟨0⟩) ∧ storingFragment.instructions[1]? = some ⟨3⟩ ∧
      ∀ position before report after,
        (splice position storingFragment).run before = (.ok report, after) →
          0 < after.localCount := by
  have hfinish : (storingBuilder.after [.store ⟨0⟩]).finish = .ok storingFragment := rfl
  have hhanded : Builder.HandedOut restingBody ⟨1⟩ [.declare .i4 "x", .constant 5] ⟨0⟩ :=
    ⟨[], .i4, "x", [.constant 5], _, rfl, rfl⟩
  have haccepted : ((Call.store ⟨0⟩).step.run storingBuilder).1 = .ok () := rfl
  obtain ⟨instruction, -, -, -, hown, hlater⟩ := accessed_local_declared_iff rfl rfl haccepted
  have hwithin := hown hhanded
  obtain ⟨hplace, -, hdeclared⟩ := hlater [] storingFragment hfinish
  exact ⟨hwithin, hplace, (hdeclared hwithin).2⟩

set_option maxRecDepth 4000 in
/-- Loading a variable that is not declared is refused, but storing into it is not, and the
fragment that stores is put into a method without variables. -/
theorem stored_local_not_declared :
    ((Call.load ⟨0⟩).step.run loadedBuilder).1.isOk = false ∧
      ((Call.store ⟨0⟩).step.run loadedBuilder).1 = .ok () ∧
      ∃ fragment report after,
        (loadedBuilder.after [.store ⟨0⟩]).finish = .ok fragment ∧
        fragment.instructions[1]? = some ⟨3⟩ ∧
        ((loadedBuilder.after [.store ⟨0⟩]).body.instructions.get ⟨3⟩).localIndex? = some 0 ∧
        (splice 1 fragment).run (loadedBuilder.after [.store ⟨0⟩]).body = (.ok report, after) ∧
        after.localCount = 0 := by
  have hfits : Splice.Fits (loadedBuilder.after [.store ⟨0⟩]).body 1
      { storingFragment with locals := [] } ⟨2⟩ :=
    ⟨by decide +kernel, rfl, by decide +kernel, rfl⟩
  refine ⟨by decide +kernel, rfl, { storingFragment with locals := [] }, _, _, rfl, rfl,
    by decide +kernel, splice_of_fits hfits, hfits.localCount_spliced⟩

end CilPatch
