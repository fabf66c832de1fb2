import CilPatch.Method.Header
import CilPatch.Proofs.Bytes.Block
import CilPatch.Proofs.Step

/-!
# Bodies are read from their own bytes

The header of a body says how much code there is and whether sections follow, and each section says
how long it is and whether another follows. So what is read of a body depends on its own bytes only:
the same is read when the block goes on.
-/

namespace CilPatch

open LittleEndian

variable {data : Bytes}

namespace Section

/-- The size of a section, by the word that it starts with. -/
def statedSize (head : Nat) : Nat :=
  if head.testBit fatBit then head / 256 else head / 256 % 256

/-- The clauses of the section at an offset, none if it holds something else. -/
def ownClauses (data : Bytes) (start : Nat) : Except Fault (List Clause) :=
  let head := wordAt data start headerSize
  if head.testBit tableBit then clauses data start (statedSize head) (head.testBit fatBit)
  else .ok []

/-- The clauses of the sections behind the one at an offset, none if it is the last. -/
def laterClauses (data : Bytes) (fuel start : Nat) : Except Fault (List Clause) :=
  let head := wordAt data start headerSize
  if head.testBit moreBit then readFrom data fuel (alignUp (start + statedSize head) 4)
  else .ok []

/-- Where the section behind the one at an offset starts, if one follows. -/
def next? (data : Bytes) (start : Nat) : Option Nat :=
  let head := wordAt data start headerSize
  if head.testBit moreBit then some (alignUp (start + statedSize head) 4) else none

/-- One pass of the reading: the clauses of the section at an offset, and where the next section
starts, if one follows. -/
def pass (data : Bytes) (start : Nat) : Except Fault (List Clause × Option Nat) := do
  if data.size < start + headerSize then throw .outOfBounds
  let size := statedSize (wordAt data start headerSize)
  if size < headerSize ∨ data.size < start + size then
    throw (.malformed (.bodySection size start))
  let own ← ownClauses data start
  return (own, next? data start)

/-- A pass succeeds when the section is there as far as it says, and what it holds is. -/
theorem pass_eq_ok_iff {start : Nat} {own : List Clause} {next : Option Nat} :
    pass data start = .ok (own, next) ↔
      start + headerSize ≤ data.size ∧
      headerSize ≤ statedSize (wordAt data start headerSize) ∧
      start + statedSize (wordAt data start headerSize) ≤ data.size ∧
      ownClauses data start = .ok own ∧ next? data start = next := by
  unfold pass
  constructor
  · intro h
    obtain ⟨hroom, h⟩ := check_eq_ok_iff.mp h
    obtain ⟨hinside, h⟩ := check_eq_ok_iff.mp h
    obtain ⟨hleast, hfits⟩ := not_or.mp hinside
    obtain ⟨found, hown, h⟩ := bind_eq_ok_iff.mp h
    obtain ⟨rfl, hnext⟩ := Prod.mk.inj (Except.ok.inj h)
    exact ⟨Nat.not_lt.mp hroom, Nat.not_lt.mp hleast, Nat.not_lt.mp hfits, hown, hnext⟩
  · rintro ⟨hroom, hleast, hfits, hown, rfl⟩
    refine check_eq_ok_iff.mpr ⟨Nat.not_lt.mpr hroom, ?_⟩
    refine check_eq_ok_iff.mpr ⟨not_or.mpr ⟨Nat.not_lt.mpr hleast, Nat.not_lt.mpr hfits⟩, ?_⟩
    exact bind_eq_ok_iff.mpr ⟨own, hown, rfl⟩

/-- Sections are read pass by pass. -/
theorem readFrom_succ (data : Bytes) (fuel start : Nat) :
    readFrom data (fuel + 1) start = (do
      let (own, next) ← pass data start
      match next with
      | none => return own
      | some next => return own ++ (← readFrom data fuel next)) := by
  have hstated (head : Nat) :
      (if head.testBit fatBit then head / 256 else head / 256 % 256) = statedSize head := rfl
  simp only [readFrom, pass, ownClauses, next?, hstated]
  generalize wordAt data start headerSize = head
  by_cases hroom : data.size < start + headerSize
  · simp only [hroom, if_true]
    rfl
  by_cases hinside : statedSize head < headerSize ∨ data.size < start + statedSize head
  · simp only [hroom, hinside, if_true, if_false]
    rfl
  simp only [hroom, hinside, if_false]
  cases head.testBit tableBit with
  | false => cases head.testBit moreBit <;> rfl
  | true => cases head.testBit moreBit <;> simp

/-- A section is read when it is there as far as it says, and what it holds and what follows it
is. -/
theorem readFrom_succ_eq_ok_iff {fuel start : Nat} {found : List Clause} :
    readFrom data (fuel + 1) start = .ok found ↔
      start + headerSize ≤ data.size ∧
      headerSize ≤ statedSize (wordAt data start headerSize) ∧
      start + statedSize (wordAt data start headerSize) ≤ data.size ∧
      ∃ own later, ownClauses data start = .ok own ∧ laterClauses data fuel start = .ok later ∧
        found = own ++ later := by
  have hrest (own : List Clause) : (match next? data start with
      | none => pure own
      | some next => return own ++ (← readFrom data fuel next)) = .ok found ↔
        ∃ later, laterClauses data fuel start = .ok later ∧ found = own ++ later := by
    rw [next?, laterClauses]
    cases (wordAt data start headerSize).testBit moreBit with
    | false =>
      constructor
      · intro h
        exact ⟨[], rfl, (Except.ok.inj h).symm.trans (List.append_nil own).symm⟩
      · rintro ⟨later, h, rfl⟩
        rw [← Except.ok.inj h, List.append_nil]
        rfl
    | true =>
      simp only [if_true, bind_eq_ok_iff]
      exact exists_congr fun later => and_congr_right fun _ =>
        ⟨fun h => (Except.ok.inj h).symm, fun h => congrArg _ h.symm⟩
  rw [readFrom_succ, bind_eq_ok_iff, Prod.exists]
  constructor
  · rintro ⟨own, next, hpass, h⟩
    obtain ⟨hroom, hleast, hfits, hown, rfl⟩ := pass_eq_ok_iff.mp hpass
    obtain ⟨later, hlater, rfl⟩ := (hrest own).mp h
    exact ⟨hroom, hleast, hfits, own, later, hown, hlater, rfl⟩
  · rintro ⟨hroom, hleast, hfits, own, later, hown, h, rfl⟩
    exact ⟨own, _, pass_eq_ok_iff.mpr ⟨hroom, hleast, hfits, hown, rfl⟩,
      (hrest own).mpr ⟨later, h, rfl⟩⟩

/-- The sections of a body are read from a block that goes on. -/
theorem readFrom_append {fuel start : Nat} {found : List Clause}
    (h : readFrom data fuel start = .ok found) (more : Bytes) (extra : Nat) :
    readFrom (data ++ more) (fuel + extra) start = .ok found := by
  have hagree := agree_append data more
  induction fuel generalizing start found with
  | zero => cases h
  | succ fuel ih =>
    obtain ⟨hroom, hleast, hfits, own, later, hown, hlater, rfl⟩ := readFrom_succ_eq_ok_iff.mp h
    have hhead : wordAt (data ++ more) start headerSize = wordAt data start headerSize :=
      (hagree.mono (Nat.zero_le start) hroom).wordAt_eq
    have hsize : data.size ≤ (data ++ more).size := by
      rw [Array.size_append]
      exact Nat.le_add_right _ _
    rw [Nat.add_right_comm]
    refine readFrom_succ_eq_ok_iff.mpr ⟨Nat.le_trans hroom hsize, by rwa [hhead],
      by rw [hhead]; exact Nat.le_trans hfits hsize, own, later, ?_, ?_, rfl⟩
    · have hpart := (hagree.mono (Nat.zero_le (start + headerSize)) hfits).extract_eq
      rw [ownClauses, hhead, clauses, hpart]
      exact hown
    · rw [laterClauses] at hlater ⊢
      rw [hhead]
      cases hmore : (wordAt data start headerSize).testBit moreBit with
      | true =>
        rw [hmore, if_pos rfl] at hlater
        exact ih hlater
      | false =>
        rw [if_neg Bool.false_ne_true]
        rwa [hmore, if_neg Bool.false_ne_true] at hlater

end Section

namespace MethodHeader

variable {header : MethodHeader}

/-- The clauses behind the code of a fat body, none if no sections follow. -/
def clausesBehind (data : Bytes) (codeEnd : Nat) : Except Fault (List Clause) :=
  if (wordAt data 0 2).testBit sectionsBit then Section.read data codeEnd else .ok []

/-- A fat header is read when it and its code are there, and what its words say is what is read. -/
theorem readFat_eq_ok_iff :
    readFat data = .ok header ↔
      fatSize ≤ data.size ∧ fatSize ≤ (wordAt data 0 2 >>> 12) * 4 ∧
      wordAt data 4 4 + (wordAt data 0 2 >>> 12) * 4 ≤ data.size ∧
      ∃ clauses, clausesBehind data ((wordAt data 0 2 >>> 12) * 4 + wordAt data 4 4) =
        .ok clauses ∧ header = {
          codeSize := wordAt data 4 4, headerSize := (wordAt data 0 2 >>> 12) * 4
          localSig := UInt32.ofNat (wordAt data 8 4), maxStack := wordAt data 2 2, isFat := true
          initLocals := (wordAt data 0 2).testBit initBit, clauses } := by
  have hread : readFat data = (do
      if data.size < fatSize then throw .outOfBounds
      if (wordAt data 0 2 >>> 12) * 4 < fatSize then
        throw (.malformed (.bodyHeaderSize ((wordAt data 0 2 >>> 12) * 4)))
      if data.size < wordAt data 4 4 + (wordAt data 0 2 >>> 12) * 4 then throw .outOfBounds
      let clauses ← clausesBehind data ((wordAt data 0 2 >>> 12) * 4 + wordAt data 4 4)
      return {
        codeSize := wordAt data 4 4, headerSize := (wordAt data 0 2 >>> 12) * 4
        localSig := UInt32.ofNat (wordAt data 8 4), maxStack := wordAt data 2 2, isFat := true
        initLocals := (wordAt data 0 2).testBit initBit, clauses }) := by
    simp only [readFat, clausesBehind]
    generalize wordAt data 0 2 = flags
    cases flags.testBit sectionsBit <;> rfl
  rw [hread]
  constructor
  · intro h
    obtain ⟨hroom, h⟩ := check_eq_ok_iff.mp h
    obtain ⟨hleast, h⟩ := check_eq_ok_iff.mp h
    obtain ⟨hcode, h⟩ := check_eq_ok_iff.mp h
    obtain ⟨clauses, hclauses, h⟩ := bind_eq_ok_iff.mp h
    exact ⟨Nat.not_lt.mp hroom, Nat.not_lt.mp hleast, Nat.not_lt.mp hcode, clauses, hclauses,
      (Except.ok.inj h).symm⟩
  · rintro ⟨hroom, hleast, hcode, clauses, hclauses, rfl⟩
    refine check_eq_ok_iff.mpr ⟨Nat.not_lt.mpr hroom, ?_⟩
    refine check_eq_ok_iff.mpr ⟨Nat.not_lt.mpr hleast, ?_⟩
    refine check_eq_ok_iff.mpr ⟨Nat.not_lt.mpr hcode, ?_⟩
    exact bind_eq_ok_iff.mpr ⟨clauses, hclauses, rfl⟩

/-- A header that was read is a tiny one, which says no more than how much code there is, or a fat
one. -/
theorem read_cases (h : read data = .ok header) :
    (∃ first : UInt8, first.toNat / 4 + 1 ≤ data.size ∧
      header = ⟨first.toNat / 4, 1, 0, tinyStack, false, false, []⟩) ∨
        readFat data = .ok header := by
  unfold read at h
  split at h
  · cases h
  next first _ =>
  split at h
  · simp only [readTiny] at h
    split at h
    · cases h
    · next hroom => exact .inl ⟨first, Nat.not_lt.mp hroom, (Except.ok.inj h).symm⟩
  split at h
  · exact .inr h
  · cases h

/-- Where a header is read, its code is there. -/
theorem exists_code_of_read (h : read data = .ok header) : ∃ code, header.code data = .ok code := by
  refine ⟨_, if_neg (Nat.not_lt.mpr ?_)⟩
  rcases read_cases h with ⟨first, hroom, rfl⟩ | h
  · rwa [Nat.add_comm] at hroom
  · obtain ⟨-, -, hroom, _, -, rfl⟩ := readFat_eq_ok_iff.mp h
    rwa [Nat.add_comm] at hroom

/-- A fat header is read from a block that goes on. -/
theorem readFat_append (h : readFat data = .ok header) (more : Bytes) :
    readFat (data ++ more) = .ok header := by
  obtain ⟨hroom, hleast, hcode, clauses, hclauses, rfl⟩ := readFat_eq_ok_iff.mp h
  have hword {offset width : Nat} (hle : offset + width ≤ fatSize) :
      wordAt (data ++ more) offset width = wordAt data offset width :=
    ((agree_append data more).mono (Nat.zero_le offset) (Nat.le_trans hle hroom)).wordAt_eq
  have hflags := hword (show 0 + 2 ≤ fatSize by decide)
  have hsize := hword (show 4 + 4 ≤ fatSize by decide)
  refine readFat_eq_ok_iff.mpr ⟨?_, ?_, ?_, clauses, ?_, ?_⟩
  · rw [Array.size_append]
    exact Nat.le_add_right_of_le hroom
  · rwa [hflags]
  · rw [hflags, hsize, Array.size_append]
    exact Nat.le_add_right_of_le hcode
  · rw [clausesBehind] at hclauses ⊢
    rw [hflags, hsize]
    cases hsections : (wordAt data 0 2).testBit sectionsBit with
    | true =>
      rw [hsections, if_pos rfl] at hclauses
      rw [if_pos rfl, Section.read, Array.size_append, Nat.add_right_comm]
      exact Section.readFrom_append hclauses more more.size
    | false =>
      rw [if_neg Bool.false_ne_true]
      rwa [hsections, if_neg Bool.false_ne_true] at hclauses
  · rw [hflags, hsize, hword (show 2 + 2 ≤ fatSize by decide),
      hword (show 8 + 4 ≤ fatSize by decide)]

/-- A tiny header is read from a block that goes on. -/
theorem readTiny_append {first : UInt8} (h : readTiny data first = .ok header) (more : Bytes) :
    readTiny (data ++ more) first = .ok header := by
  simp only [readTiny] at h ⊢
  split at h
  · cases h
  · next hroom =>
    rw [if_neg (by rw [Array.size_append]; omega)]
    exact h

/-- A header is read from a block that goes on. -/
theorem read_append (h : read data = .ok header) (more : Bytes) :
    read (data ++ more) = .ok header := by
  unfold read at h ⊢
  cases hfirst : data[0]? with
  | none =>
    rw [hfirst] at h
    cases h
  | some first =>
    obtain ⟨hlt, -⟩ := Array.getElem?_eq_some_iff.mp hfirst
    rw [Array.getElem?_append_left hlt, hfirst]
    rw [hfirst] at h
    simp only at h ⊢
    split at h
    · next htiny =>
      rw [if_pos htiny]
      exact readTiny_append h more
    · next hkind =>
      rw [if_neg hkind]
      split at h
      · next hfat =>
        rw [if_pos hfat]
        exact readFat_append h more
      · cases h

/-- The code of a body is there in a block that goes on. -/
theorem code_append {code : Bytes} (h : header.code data = .ok code) (more : Bytes) :
    header.code (data ++ more) = .ok code := by
  unfold MethodHeader.code at h ⊢
  split at h
  · cases h
  · next hroom =>
    have hpart := ((agree_append data more).mono (Nat.zero_le header.headerSize)
      (Nat.not_lt.mp hroom)).extract_eq
    rw [if_neg (by rw [Array.size_append]; omega), hpart]
    exact h

end MethodHeader

end CilPatch
