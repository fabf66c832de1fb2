import CilPatch.Proofs.Assembly.Query
import CilPatch.Proofs.Assembly.Rewrite
import Mathlib.Data.Fintype.Pigeonhole

/-!
# The way outwards from a type

The namespace of a type is that of the outermost type around it, and the way there leads from each
type to the one around it. A file may declare any type around any other. The way ends at a type that
lies in no other, or only in itself; where two or more types lie around each other it runs in a
circle, and a search that takes it never ends.
-/

namespace CilPatch

namespace Assembly

variable {assembly : Assembly} {type other last : TypeDecl}

/-- The type that some steps outwards lead to, nothing where the way has ended before. -/
def outward (assembly : Assembly) (type : TypeDecl) : Nat → Option TypeDecl
  | 0 => some type
  | steps + 1 => (assembly.outward type steps).bind assembly.outer?

/-- A type at which the way outwards stops: no other type is declared around it. -/
def IsOutermost (assembly : Assembly) (type : TypeDecl) : Prop :=
  ∀ outer, type.enclosing.bind assembly.type? = some outer → outer.token = type.token

/-- The way outwards ends after some steps. -/
structure EndsAt (assembly : Assembly) (type : TypeDecl) (steps : Nat) (last : TypeDecl) :
    Prop where
  /-- The steps lead to the last type. -/
  outward_eq : assembly.outward type steps = some last
  /-- The way goes no further. -/
  isOutermost : assembly.IsOutermost last

/-- The way outwards comes to a type a second time. -/
def RunsInCircle (assembly : Assembly) (type : TypeDecl) : Prop :=
  ∃ first length other, 1 < length ∧ assembly.outward type first = some other ∧
    assembly.outward type (first + length) = some other

/-- There is a step outwards exactly to another type that is declared around the type. -/
theorem outer?_eq_some_iff :
    assembly.outer? type = some other ↔
      type.enclosing.bind assembly.type? = some other ∧ other.token ≠ type.token := by
  simp [outer?, Option.filter_eq_some_iff]

/-- The way stops at the outermost types. -/
theorem outer?_eq_none_iff : assembly.outer? type = none ↔ assembly.IsOutermost type := by
  simp [outer?, Option.filter_eq_none_iff, IsOutermost]

/-- Steps after steps are steps. -/
theorem outward_add (type : TypeDecl) (first second : Nat) :
    assembly.outward type (first + second) =
      (assembly.outward type first).bind fun middle => assembly.outward middle second := by
  induction second with
  | zero => cases assembly.outward type first <;> rfl
  | succ second ih =>
      rw [← Nat.add_assoc, outward, ih, Option.bind_assoc]
      rfl

/-- Where a way has not ended it had not ended before. -/
theorem isSome_outward_of_le {first second : Nat} (hle : first ≤ second)
    (hsome : (assembly.outward type second).isSome = true) :
    (assembly.outward type first).isSome = true := by
  obtain ⟨rest, rfl⟩ := Nat.exists_eq_add_of_le hle
  rw [outward_add] at hsome
  exact Option.isSome_of_isSome_bind hsome

/-- Each step outwards leads to a declared type. -/
theorem exists_getElem?_of_outward {steps : Nat}
    (h : assembly.outward type (steps + 1) = some other) :
    ∃ index : Nat, assembly.types[index]? = some other := by
  obtain ⟨inner, -, houter⟩ := Option.bind_eq_some_iff.mp h
  obtain ⟨hother, -⟩ := outer?_eq_some_iff.mp houter
  obtain ⟨token, -, htype⟩ := Option.bind_eq_some_iff.mp hother
  rw [type?] at htype
  split at htype
  · nomatch htype
  · exact ⟨_, htype⟩

/-- The type after one step is not the one before it. -/
theorem outward_succ_ne {steps : Nat} (h : assembly.outward type steps = some other) :
    assembly.outward type (steps + 1) ≠ some other := by
  rw [outward, h, Option.bind_some]
  exact fun hself => (outer?_eq_some_iff.mp hself).2 rfl

/-- A way that passes more types than there are comes to one of them a second time. -/
theorem runsInCircle_of_isSome
    (h : (assembly.outward type (assembly.types.size + 1)).isSome = true) :
    assembly.RunsInCircle type := by
  -- the type that each step leads to has a place in the list of types
  have hplace (step : Fin (assembly.types.size + 1)) :
      ∃ index : Fin assembly.types.size,
        assembly.outward type (step + 1) = some assembly.types[index] := by
    obtain ⟨outer, houter⟩ := Option.isSome_iff_exists.mp
      (isSome_outward_of_le (Nat.succ_le_of_lt step.isLt) h)
    obtain ⟨index, hindex⟩ := exists_getElem?_of_outward houter
    obtain ⟨hlt, hget⟩ := Array.getElem?_eq_some_iff.mp hindex
    exact ⟨⟨index, hlt⟩, houter.trans (congrArg some hget.symm)⟩
  choose place hplace using hplace
  obtain ⟨first, second, hne, heq⟩ :=
    Fintype.exists_ne_map_eq_of_card_lt place (by simp)
  wlog hlt : first < second generalizing first second
  · exact this second first hne.symm heq.symm (lt_of_le_of_ne (not_lt.mp hlt) hne.symm)
  have hfirst := hplace first
  have hsecond := (hplace second).trans (congrArg (fun index => some assembly.types[index]) heq.symm)
  have hstep : (second : Nat) ≠ first + 1 := fun hnext =>
    outward_succ_ne hfirst (hnext ▸ hsecond)
  have hle : (first : Nat) < second := hlt
  refine ⟨first + 1, second - first, _, by omega, hfirst, ?_⟩
  rw [show (first : Nat) + 1 + (second - first) = second + 1 by omega]
  exact hsecond

/-- A way that runs in a circle never ends. -/
theorem RunsInCircle.isSome_outward (hcircle : assembly.RunsInCircle type) (steps : Nat) :
    (assembly.outward type steps).isSome = true := by
  obtain ⟨first, length, other, hlength, hfirst, hagain⟩ := hcircle
  have hround : assembly.outward other length = some other := by
    rwa [outward_add, hfirst] at hagain
  have hrounds (rounds : Nat) : assembly.outward other (rounds * length) = some other := by
    induction rounds with
    | zero => rw [Nat.zero_mul, outward]
    | succ rounds ih => rw [Nat.succ_mul, outward_add, ih, Option.bind_some, hround]
  have hfar : assembly.outward type (first + steps * length) = some other := by
    rw [outward_add, hfirst, Option.bind_some, hrounds]
  have hle : steps ≤ steps * length := Nat.le_mul_of_pos_right steps (by omega)
  exact isSome_outward_of_le (by omega) (Option.isSome_of_eq_some hfar)

/-- A way that has ended goes no further. -/
theorem EndsAt.outward_succ {steps : Nat} (hends : assembly.EndsAt type steps last) :
    assembly.outward type (steps + 1) = none := by
  rw [outward, hends.outward_eq, Option.bind_some, outer?_eq_none_iff.mpr hends.isOutermost]

/-- A way that has ended at some number of steps ended after fewer. -/
theorem exists_endsAt_of_outward_eq_none {steps : Nat}
    (hnone : assembly.outward type (steps + 1) = none) :
    ∃ fewer ≤ steps, ∃ last, assembly.EndsAt type fewer last := by
  induction steps with
  | zero => exact ⟨0, le_rfl, type, rfl, outer?_eq_none_iff.mp hnone⟩
  | succ steps ih =>
      cases hlast : assembly.outward type (steps + 1) with
      | none =>
          obtain ⟨fewer, hle, hends⟩ := ih hlast
          exact ⟨fewer, Nat.le_succ_of_le hle, hends⟩
      | some last =>
          rw [outward, hlast, Option.bind_some] at hnone
          exact ⟨steps + 1, le_rfl, last, hlast, outer?_eq_none_iff.mp hnone⟩

/-- The way outwards ends after no more steps than there are types, or it runs in a circle. -/
theorem endsAt_or_runsInCircle (assembly : Assembly) (type : TypeDecl) :
    (∃ steps ≤ assembly.types.size, ∃ last, assembly.EndsAt type steps last) ∨
      assembly.RunsInCircle type := by
  cases hfar : assembly.outward type (assembly.types.size + 1) with
  | none => exact .inl (exists_endsAt_of_outward_eq_none hfar)
  | some other => exact .inr (runsInCircle_of_isSome (Option.isSome_of_eq_some hfar))

/-- The steps outwards behind the first are those from the type that it leads to. -/
theorem outward_succ_of_outer? {outer : TypeDecl} (houter : assembly.outer? type = some outer)
    (steps : Nat) : assembly.outward type (steps + 1) = assembly.outward outer steps := by
  rw [Nat.add_comm, outward_add, outward, outward, Option.bind_some, houter, Option.bind_some]

/-- What is found as the outermost type is where the way outwards ends. -/
theorem exists_endsAt_of_outermost?_eq_some (h : assembly.outermost? type = some last) :
    ∃ steps, assembly.EndsAt type steps last := by
  refine outermost?.partial_correctness assembly
    (fun type last => ∃ steps, assembly.EndsAt type steps last) ?_ type last h
  intro onward honward type last hrun
  cases houter : assembly.outer? type with
  | none =>
      rw [houter] at hrun
      obtain rfl := Option.some.inj hrun
      exact ⟨0, rfl, outer?_eq_none_iff.mp houter⟩
  | some outer =>
      rw [houter] at hrun
      obtain ⟨steps, hends⟩ := honward outer last hrun
      exact ⟨steps + 1, (outward_succ_of_outer? houter steps).trans hends.outward_eq,
        hends.isOutermost⟩

/-- Where the way outwards ends, the last type is found as the outermost. -/
theorem EndsAt.outermost?_eq {steps : Nat} (hends : assembly.EndsAt type steps last) :
    assembly.outermost? type = some last := by
  induction steps generalizing type with
  | zero =>
      obtain rfl : type = last := Option.some.inj hends.outward_eq
      rw [outermost?, outer?_eq_none_iff.mpr hends.isOutermost]
  | succ steps ih =>
      rw [outermost?]
      cases houter : assembly.outer? type with
      | none =>
          have hshort : assembly.EndsAt type 0 type := ⟨rfl, outer?_eq_none_iff.mp houter⟩
          have hsome := isSome_outward_of_le (Nat.succ_le_succ (Nat.zero_le steps))
            (Option.isSome_of_eq_some hends.outward_eq)
          rw [hshort.outward_succ] at hsome
          nomatch hsome
      | some outer =>
          exact ih ⟨(outward_succ_of_outer? houter steps).symm.trans hends.outward_eq,
            hends.isOutermost⟩

/-- No outermost type is found exactly where the way outwards runs in a circle. -/
theorem outermost?_eq_none_iff :
    assembly.outermost? type = none ↔ assembly.RunsInCircle type := by
  constructor
  · intro hnone
    rcases endsAt_or_runsInCircle assembly type with ⟨steps, -, last, hends⟩ | hcircle
    · rw [hends.outermost?_eq] at hnone
      nomatch hnone
    · exact hcircle
  · intro hcircle
    refine Option.eq_none_iff_forall_ne_some.mpr fun last hlast => ?_
    obtain ⟨steps, hends⟩ := exists_endsAt_of_outermost?_eq_some hlast
    have hsome := hcircle.isSome_outward (steps + 1)
    rw [hends.outward_succ] at hsome
    nomatch hsome

variable {query : TypeQuery}

/-- Whether a type meets the conditions is open when the way to its namespace runs in a circle. -/
theorem typeMeets_eq_error_iff {fault : Fault} :
    assembly.typeMeets query type = .error fault ↔
      fault = .endless ∧ query.space ≠ none ∧ assembly.RunsInCircle type := by
  rw [← outermost?_eq_none_iff, typeMeets]
  cases query.space with
  | none => simp
  | some space =>
      cases assembly.outermost? type <;> simp [eq_comm]

/-- A type does not meet the conditions when it is in another namespace. -/
theorem typeMeets_eq_false_iff :
    assembly.typeMeets query type = .ok false ↔
      ∃ steps last, assembly.EndsAt type steps last ∧
        ∃ space, query.space = some space ∧ last.space ≠ space := by
  rw [typeMeets]
  cases query.space with
  | none => simp
  | some space =>
      cases houtermost : assembly.outermost? type with
      | none =>
          refine ⟨nofun, ?_⟩
          rintro ⟨steps, last, hends, -⟩
          rw [hends.outermost?_eq] at houtermost
          nomatch houtermost
      | some last =>
          simp only [Except.ok.injEq, beq_eq_false_iff_ne, Option.some.injEq, exists_eq_left']
          constructor
          · intro hne
            obtain ⟨steps, hends⟩ := exists_endsAt_of_outermost?_eq_some houtermost
            exact ⟨steps, last, hends, hne⟩
          · rintro ⟨steps, other, hends, hne⟩
            obtain rfl := Option.some.inj (houtermost.symm.trans hends.outermost?_eq)
            exact hne

/-- A search for a type never ends exactly when it asks for a namespace and comes to a type of
that name from which the way outwards runs in a circle, past types of that name whose ways end in
another namespace. -/
theorem findType_eq_endless_iff :
    assembly.findType query = .error .endless ↔
      ∃ space before type after, query.space = some space ∧
        assembly.typesNamed query.name = before ++ type :: after ∧
        assembly.RunsInCircle type ∧
        ∀ earlier ∈ before, ∃ steps last, assembly.EndsAt earlier steps last ∧
          last.space ≠ space := by
  have hsearch : assembly.findType query = .error .endless ↔
      firstMeeting (assembly.typeMeets query) (assembly.typesNamed query.name) =
        .error .endless := by
    rw [findType]
    cases firstMeeting (assembly.typeMeets query) (assembly.typesNamed query.name) with
    | error fault => simp [bind, Except.bind]
    | ok found => exact ⟨fun h => absurd h pick_ne_endless, nofun⟩
  rw [hsearch, firstMeeting_eq_error_iff]
  constructor
  · rintro ⟨before, type, after, hlist, hfault, hbefore⟩
    obtain ⟨-, hspace, hcircle⟩ := typeMeets_eq_error_iff.mp hfault
    obtain ⟨space, hspace⟩ := Option.ne_none_iff_exists'.mp hspace
    refine ⟨space, before, type, after, hspace, hlist, hcircle, fun earlier hearlier => ?_⟩
    obtain ⟨steps, last, hends, other, hother, hne⟩ :=
      typeMeets_eq_false_iff.mp (hbefore earlier hearlier)
    obtain rfl := Option.some.inj (hspace.symm.trans hother)
    exact ⟨steps, last, hends, hne⟩
  · rintro ⟨space, before, type, after, hspace, hlist, hcircle, hbefore⟩
    refine ⟨before, type, after, hlist,
      typeMeets_eq_error_iff.mpr ⟨rfl, by simp [hspace], hcircle⟩, fun earlier hearlier => ?_⟩
    obtain ⟨steps, last, hends, hne⟩ := hbefore earlier hearlier
    exact typeMeets_eq_false_iff.mpr ⟨steps, last, hends, space, hspace, hne⟩

/-! ### An image with a circle -/

/-- The metadata of an image with two types, each of them declared around the other. -/
def circleMetadata : List UInt8 := List.flatten [
  -- the root with the headers of the streams
  [0x42, 0x53, 0x4A, 0x42, 1, 0, 1], blank 11, [3, 0, 0x44, 0, 0, 0, 0x54, 0, 0, 0, 0x23, 0x7E,
    0, 0, 0x98, 0, 0, 0, 7, 0, 0, 0, 0x23, 0x53, 0x74, 0x72, 0x69, 0x6E, 0x67, 0x73, 0, 0, 0, 0,
    0xA0, 0, 0, 0, 4, 0, 0, 0, 0x23, 0x42, 0x6C, 0x6F, 0x62, 0, 0, 0],
  -- the tables: a module, two types, and two rows that nest them
  [0, 0, 0, 0, 2, 0, 0, 1, 0x05, 0, 0, 0, 0, 2], blank 10,
  [1, 0, 0, 0, 2, 0, 0, 0, 2, 0, 0, 0],
  [0, 0, 1, 0, 0, 0, 0, 0, 0, 0],
  [0, 0, 0, 0, 1, 0, 5, 0, 0, 0, 1, 0, 1, 0], [0, 0, 0, 0, 3, 0, 5, 0, 0, 0, 1, 0, 1, 0],
  [1, 0, 2, 0], [2, 0, 1, 0], [0, 0],
  -- the names, and no signatures
  [0, 0x41, 0, 0x42, 0, 0x4E, 0, 0], blank 4, blank 28]

/-- The image with the two types. -/
def circleImage : Bytes :=
  (smallHeaders ++ (smallCli ++ (circleMetadata ++ smallBodies))).toArray

/-- The tables of the image. -/
def circleTables : TableStream where
  reserved := 0
  major := 2
  minor := 0
  heapSizes := 0
  reserved2 := 1
  valid := 0x20000000005
  sorted := 0
  extra := none
  tables := #[#[[0, 1, 0, 0, 0]], #[], #[[0, 1, 5, 0, 1, 1], [0, 3, 5, 0, 1, 1]]] ++
    Array.replicate 38 #[] ++ #[#[[1, 2], [2, 1]], #[], #[], #[]]
  trailing := [0, 0]

/-- The first type, which lies in the second. -/
def circleInner : TypeDecl := ⟨⟨0x02000001⟩, "A", "N", some ⟨0x02000002⟩, [], []⟩

/-- The second type, which lies in the first. -/
def circleOuter : TypeDecl := ⟨⟨0x02000002⟩, "B", "N", some ⟨0x02000001⟩, [], []⟩

/-- The image as it is loaded. -/
def circleAssembly : Assembly where
  image := { smallAssembly.image with data := circleImage }
  cli := smallAssembly.cli
  cliOffset := 0x180
  root := ⟨1, 1, 0, [], 0, [⟨0x44, 0x54, "#~"⟩, ⟨0x98, 7, "#Strings"⟩, ⟨0xA0, 4, "#Blob"⟩]⟩
  metadata := circleMetadata.toArray
  tables := circleTables
  types := #[circleInner, circleOuter]

/-- How many bytes the metadata take. -/
theorem length_circleMetadata : circleMetadata.length = 0xC0 := by
  simp only [circleMetadata, blank, List.length_flatten, List.map_cons, List.map_nil,
    List.length_replicate]
  rfl

/-- The headers of the image are read. -/
theorem headers_circleImage : ImageHeaders.ofBytes circleImage =
    .ok ⟨0x40, 0xD8, some smallAssembly.image.optional, smallAssembly.image.sections⟩ :=
  eq_ok_of_toOption (by decide +kernel)

/-- The metadata root of the image. -/
theorem root_circleAssembly :
    Cursor.parse MetadataRoot.read circleMetadata.toArray = .ok circleAssembly.root :=
  eq_ok_of_toOption (by decide +kernel)

/-- The tables of the image are read. -/
theorem tables_circleAssembly :
    circleAssembly.stream "#~" >>= TableStream.ofBytes = .ok circleTables :=
  eq_ok_of_toOption (by decide +kernel)

/-- The names of the image. -/
theorem strings_circleAssembly :
    circleAssembly.stream "#Strings" = .ok #[0, 0x41, 0, 0x42, 0, 0x4E, 0] :=
  eq_ok_of_toOption (by decide +kernel)

/-- There are no signatures. -/
theorem blobs_circleAssembly : circleAssembly.stream "#Blob" = .ok #[0, 0, 0, 0] :=
  eq_ok_of_toOption (by decide +kernel)

/-- The types of the image. -/
theorem types_circleAssembly : DeclarationSource.types
    ⟨circleTables, ⟨#[0, 0x41, 0, 0x42, 0, 0x4E, 0]⟩, ⟨#[0, 0, 0, 0]⟩⟩ =
      .ok [circleInner, circleOuter] := by
  with_unfolding_all rfl

/-- The image with the circle is loaded. -/
theorem loaded_circleAssembly : circleAssembly.Loaded circleImage where
  image := by
    have hfull : circleImage.isEmpty = false := by simp [circleImage, smallCli]
    exact Image.ofBytes_eq_ok_iff.mpr ⟨hfull, _, _, _, headers_circleImage, rfl, rfl, rfl⟩
  directory := by decide
  cliOffset := rfl
  cli := by
    have hpart := @Image.slice_between circleAssembly.image smallHeaders smallCli _ rfl
    rw [length_smallHeaders, length_smallCli] at hpart
    exact bind_eq_ok_iff.mpr ⟨_, hpart, cli_smallAssembly⟩
  metadata := by
    have hpart := @Image.slice_between circleAssembly.image (smallHeaders ++ smallCli)
      circleMetadata smallBodies (congrArg _ (List.append_assoc ..).symm)
    rw [List.length_append, length_smallHeaders, length_smallCli, length_circleMetadata] at hpart
    exact bind_eq_ok_iff.mpr ⟨_, rfl, hpart⟩
  root := root_circleAssembly
  compressed := rfl
  tables := tables_circleAssembly
  types := ⟨_, _, bind_eq_ok_iff.mpr ⟨_, strings_circleAssembly, rfl⟩,
    bind_eq_ok_iff.mpr ⟨_, blobs_circleAssembly, rfl⟩, types_circleAssembly⟩
  edited := rfl

/-- From the first type the way outwards comes back to it after two steps. -/
theorem runsInCircle_circleInner : circleAssembly.RunsInCircle circleInner :=
  ⟨0, 2, circleInner, by decide, rfl, rfl⟩

/-- **The way outwards.** From every type of every assembly it ends after no more steps than there
are types, at the one that is found as the outermost, or it runs in a circle and none is found. A
search for a type never ends exactly when it asks for a namespace and comes to a type of that name
from which the way runs in a circle. -/
theorem search_endless_iff (assembly : Assembly) :
    (∀ type,
      (∃ steps ≤ assembly.types.size, ∃ last, assembly.EndsAt type steps last ∧
        assembly.outermost? type = some last) ∨
      (assembly.RunsInCircle type ∧ (∀ steps, (assembly.outward type steps).isSome = true) ∧
        assembly.outermost? type = none)) ∧
    ∀ query, assembly.findType query = .error .endless ↔
      ∃ space before type after, query.space = some space ∧
        assembly.typesNamed query.name = before ++ type :: after ∧
        assembly.RunsInCircle type ∧
        ∀ earlier ∈ before, ∃ steps last, assembly.EndsAt earlier steps last ∧
          last.space ≠ space := by
  refine ⟨fun type => ?_, fun query => findType_eq_endless_iff⟩
  rcases endsAt_or_runsInCircle assembly type with ⟨steps, hle, last, hends⟩ | hcircle
  · exact .inl ⟨steps, hle, last, hends, hends.outermost?_eq⟩
  · exact .inr ⟨hcircle, hcircle.isSome_outward, outermost?_eq_none_iff.mpr hcircle⟩

/-- In an image that is loaded, two types lie in each other. A search for one of them in its
namespace never ends: every step outwards leads to a type, and that is never an outermost one. -/
theorem search_in_circle_endless :
    ofBytes circleImage = .ok circleAssembly ∧
      circleAssembly.findType ⟨"A", some "N"⟩ = .error .endless ∧
      ∀ steps, ∃ type, circleAssembly.outward circleInner steps = some type ∧
        ¬ circleAssembly.IsOutermost type := by
  refine ⟨ofBytes_eq_ok_iff.mpr loaded_circleAssembly, ?_, fun steps => ?_⟩
  · exact findType_eq_endless_iff.mpr
      ⟨"N", [], circleInner, [], rfl, rfl, runsInCircle_circleInner, nofun⟩
  · obtain ⟨type, htype⟩ := Option.isSome_iff_exists.mp
      (runsInCircle_circleInner.isSome_outward steps)
    refine ⟨type, htype, fun houtermost => ?_⟩
    have hends : circleAssembly.EndsAt circleInner steps type := ⟨htype, houtermost⟩
    have hnone := outermost?_eq_none_iff.mpr runsInCircle_circleInner
    rw [hends.outermost?_eq] at hnone
    nomatch hnone

end Assembly

end CilPatch
