import CilPatch.Proofs.Method.Reencoding

/-!
# What a body can be stored as

A header is stored unless one of three numbers does not fit its field: the stack, the size of the
code, or the size of the section that its clauses need when they are fat. What is stored is read
back in front of whatever follows it, and the header takes a single byte exactly when a single byte
can say all that there is to say.
-/

namespace CilPatch

/-- Clauses are refused when they are too many for a section of fat ones. Few enough for a small
section are few enough for a fat one. -/
theorem Section.encode_eq_error_iff {list : List Clause} {fault : Fault} :
    encode list = .error fault ↔ 0xFFFFFF < headerSize + list.length * Clause.fatSize ∧
      fault = .output (.clauseCount list.length) := by
  unfold encode
  dsimp only
  split
  · next hsmall =>
    have hfew := hsmall.1
    simp only [headerSize, Clause.smallSize, Clause.fatSize] at hfew ⊢
    refine ⟨fun h => ?_, fun hmany => ?_⟩
    · cases h
    · omega
  · split
    · next hmany => exact ⟨fun h => ⟨hmany, (Except.error.inj h).symm⟩, fun h => by rw [h.2]⟩
    · next hroom => exact ⟨fun h => (by cases h), fun h => absurd h.1 hroom⟩

namespace MethodHeader

variable {header : MethodHeader} {code : List UInt8}

/-- A body is refused for its stack, else for the size of its code, else for the number of its
clauses. -/
theorem encode_eq_error_iff {fault : Fault} :
    header.encode code = .error fault ↔
      (UInt16.size ≤ header.maxStack ∧ fault = .output (.maxStack header.maxStack)) ∨
      (header.maxStack < UInt16.size ∧ UInt32.size ≤ code.length ∧
        fault = .output (.codeSize code.length)) ∨
      (header.maxStack < UInt16.size ∧ code.length < UInt32.size ∧
        Section.encode header.clauses = .error fault) := by
  have hwords : tinyLimit < UInt32.size ∧ tinyStack < UInt16.size := by decide
  have hnone (h : Section.encode [] = .error fault) : False := by
    have hmany := (Section.encode_eq_error_iff.mp h).1
    revert hmany
    decide
  simp only [encode]
  split
  · next htiny =>
    obtain ⟨hcode, hstack, -, -, hclauses⟩ := isTiny_iff.mp htiny
    rw [hclauses]
    refine ⟨fun h => (by cases h), ?_⟩
    rintro (⟨hlarge, -⟩ | ⟨-, hlarge, -⟩ | ⟨-, -, h⟩)
    · omega
    · omega
    · exact (hnone h).elim
  split
  · next hstack =>
    refine ⟨fun h => .inl ⟨hstack, (Except.error.inj h).symm⟩, ?_⟩
    rintro (⟨-, rfl⟩ | ⟨hsmall, -⟩ | ⟨hsmall, -⟩)
    · rfl
    · omega
    · omega
  next hstack =>
  split
  · next hcode =>
    refine ⟨fun h => .inr (.inl ⟨by omega, hcode, (Except.error.inj h).symm⟩), ?_⟩
    rintro (⟨hlarge, -⟩ | ⟨-, -, rfl⟩ | ⟨-, hsmall, -⟩)
    · omega
    · rfl
    · omega
  next hcode =>
  have hlast (refused : Prop) : ((UInt16.size ≤ header.maxStack ∧
      fault = .output (.maxStack header.maxStack)) ∨
      (header.maxStack < UInt16.size ∧ UInt32.size ≤ code.length ∧
        fault = .output (.codeSize code.length)) ∨
      (header.maxStack < UInt16.size ∧ code.length < UInt32.size ∧ refused)) ↔ refused := by
    refine ⟨?_, fun h => .inr (.inr ⟨by omega, by omega, h⟩)⟩
    rintro (⟨hlarge, -⟩ | ⟨-, hlarge, -⟩ | ⟨-, -, h⟩)
    · omega
    · omega
    · exact h
  rw [hlast]
  split
  · next hempty =>
    rw [List.isEmpty_iff.mp hempty]
    exact ⟨fun h => (by cases h), fun h => (hnone h).elim⟩
  · cases Section.encode header.clauses with
    | error first => exact ⟨fun h => h, fun h => h⟩
    | ok written => exact ⟨fun h => (by cases h), fun h => (by cases h)⟩

/-- What is read from a stored body says what a header says of some code. A stack may be given more
places than it needs. -/
structure Says (found header : MethodHeader) (data : Bytes) (code : List UInt8) : Prop where
  code_eq : found.code data = .ok code.toArray
  localSig_eq : found.localSig = header.localSig
  initLocals_eq : found.initLocals = header.initLocals
  clauses_eq : found.clauses = header.clauses
  maxStack_le : header.maxStack ≤ found.maxStack

/-- A header that is not fat was read from one byte. -/
theorem eq_of_read_of_not_isFat {data : Bytes} {found : MethodHeader} (h : read data = .ok found)
    (hfat : found.isFat = false) :
    ∃ first : UInt8, found = {
      codeSize := first.toNat / 4, headerSize := 1, localSig := 0, maxStack := tinyStack
      isFat := false, initLocals := false, clauses := [] } := by
  rcases read_cases h with ⟨first, -, rfl⟩ | h
  · exact ⟨first, rfl⟩
  · obtain ⟨-, -, -, _, -, rfl⟩ := readFat_eq_ok_iff.mp h
    cases hfat

/-- A header takes a single byte exactly when some byte in front of the code says what it says. -/
theorem isTiny_iff_exists_says :
    header.isTiny code.length = true ↔
      ∃ first found, read (first :: code).toArray = .ok found ∧ found.isFat = false ∧
        found.Says header (first :: code).toArray code := by
  constructor
  · intro htiny
    obtain ⟨hcode, hstack, hsig, hinit, hclauses⟩ := isTiny_iff.mp htiny
    have hencode : header.encode code = .ok (UInt8.ofNat (code.length * 4 + 2) :: code) := by
      rw [encode, if_pos htiny]
    obtain ⟨hread, hsame⟩ := read_encode hencode []
    rw [List.append_nil] at hread hsame
    have hstored : header.stored code.length =
        ⟨code.length, 1, 0, tinyStack, false, false, []⟩ := by
      rw [stored, if_pos htiny]
    rw [hstored] at hread hsame
    exact ⟨_, _, hread, rfl, hsame, hsig.symm, hinit.symm, hclauses.symm, hstack⟩
  · rintro ⟨first, found, hread, hfat, hsays⟩
    obtain ⟨given, rfl⟩ := eq_of_read_of_not_isFat hread hfat
    refine isTiny_iff.mpr ⟨?_, hsays.maxStack_le, hsays.localSig_eq.symm, hsays.initLocals_eq.symm,
      hsays.clauses_eq.symm⟩
    have hcode := hsays.code_eq
    rw [MethodHeader.code] at hcode
    split at hcode
    · cases hcode
    next hroom =>
    have hsize := congrArg Array.size (Except.ok.inj hcode)
    have hbyte : given.toNat < 256 := given.toNat_lt
    have hlimit : tinyLimit = 64 := rfl
    simp only [Array.size_extract, List.size_toArray] at hsize hroom
    omega

/-- **Stored bodies say what they were stored for.** A body with known clauses is stored with its
code, and any bytes may follow. Its header is read back, and with that the code, the local
signature, the flag of the local variables and the clauses one by one. The stack is the same under a
fat header and has eight places under a tiny one. The header is tiny exactly when the code is short
and there is nothing else to say, which is when a single byte can say it. A body is refused only for
a stack, a size of the code or a number of clauses that does not fit, and the first of these is the
fault. -/
theorem stored_body_reads_back
    (hknown : ∀ clause ∈ header.clauses, clause.flags &&& Clause.knownFlags = clause.flags)
    (code : List UInt8) :
    (∀ bytes suffix : List UInt8, header.encode code = .ok bytes →
      ∃ found, read (bytes ++ suffix).toArray = .ok found ∧
        found.Says header (bytes ++ suffix).toArray code ∧
        found.maxStack = (if found.isFat then header.maxStack else 8) ∧
        (found.isFat = false ↔ code.length < 64 ∧ header.maxStack ≤ 8 ∧ header.localSig = 0 ∧
          header.initLocals = false ∧ header.clauses = []) ∧
        (found.isFat = false ↔ ∃ first tiny, read (first :: code).toArray = .ok tiny ∧
          tiny.isFat = false ∧ tiny.Says header (first :: code).toArray code)) ∧
      ∀ fault, header.encode code = .error fault ↔
        (0xFFFF < header.maxStack ∧ fault = .output (.maxStack header.maxStack)) ∨
        (header.maxStack ≤ 0xFFFF ∧ 0xFFFFFFFF < code.length ∧
          fault = .output (.codeSize code.length)) ∨
        (header.maxStack ≤ 0xFFFF ∧ code.length ≤ 0xFFFFFFFF ∧
          0xFFFFFF < 4 + 24 * header.clauses.length ∧
          fault = .output (.clauseCount header.clauses.length)) := by
  refine ⟨fun bytes suffix h => ?_, fun fault => ?_⟩
  · obtain ⟨hread, hcode⟩ := read_encode h suffix
    obtain ⟨hsig, hinit, hclauses, -⟩ := stored_facts header code.length
    have hsame : header.clauses.map Clause.known = header.clauses.map id :=
      List.map_congr_left fun clause hclause =>
        Clause.known_eq_self_iff.mpr (hknown clause hclause)
    rw [hsame, List.map_id] at hclauses
    have hfat : (header.stored code.length).isFat = !header.isTiny code.length := by
      rw [stored]
      cases header.isTiny code.length <;> rfl
    have hstack : (header.stored code.length).maxStack =
        if header.isTiny code.length then 8 else header.maxStack := by
      rw [stored]
      cases header.isTiny code.length <;> rfl
    refine ⟨_, hread, ⟨hcode, hsig, hinit, hclauses, ?_⟩, ?_, ?_, ?_⟩
    · rw [hstack]
      split
      · next htiny => exact (isTiny_iff.mp htiny).2.1
      · exact Nat.le_refl _
    · rw [hstack, hfat]
      cases header.isTiny code.length <;> rfl
    · rw [hfat, Bool.not_eq_false']
      exact isTiny_iff
    · rw [hfat, Bool.not_eq_false']
      exact isTiny_iff_exists_says
  · have hstack : UInt16.size ≤ header.maxStack ↔ 0xFFFF < header.maxStack := Iff.rfl
    have hlow : header.maxStack < UInt16.size ↔ header.maxStack ≤ 0xFFFF := Nat.lt_succ_iff
    have hlong : UInt32.size ≤ code.length ↔ 0xFFFFFFFF < code.length := Iff.rfl
    have hshort : code.length < UInt32.size ↔ code.length ≤ 0xFFFFFFFF := Nat.lt_succ_iff
    have hmany : 0xFFFFFF < Section.headerSize + header.clauses.length * Clause.fatSize ↔
        0xFFFFFF < 4 + 24 * header.clauses.length := by
      rw [Nat.mul_comm]
      rfl
    rw [encode_eq_error_iff, Section.encode_eq_error_iff, hstack, hlow, hlong, hshort, hmany]

/-- A body with a block that is left through a handler and one that is so long that no small clause
can say it. -/
def twoBlocks : MethodHeader := ⟨0, 0, 0x11000001, 9, true, true, [
  ⟨2, 0, 2, 2, 1, 0⟩, ⟨0, 0, 0x100, 0x100, 4, 0x01000001⟩]⟩

/-- The two clauses are read back behind code that does not end at a whole word, in front of another
section that is not theirs. -/
theorem stored_body_reads_back_twoBlocks :
    (∀ clause ∈ twoBlocks.clauses, clause.flags &&& Clause.knownFlags = clause.flags) ∧
      ∃ bytes found, twoBlocks.encode [0x2B, 0x00, 0x2A] = .ok bytes ∧
        read (bytes ++ [0x01, 4, 0, 0]).toArray = .ok found ∧ found.isFat = true ∧
        found.Says twoBlocks (bytes ++ [0x01, 4, 0, 0]).toArray [0x2B, 0x00, 0x2A] := by
  have hknown : ∀ clause ∈ twoBlocks.clauses,
      clause.flags &&& Clause.knownFlags = clause.flags := by decide
  obtain ⟨hstored, hrefused⟩ := stored_body_reads_back hknown [0x2B, 0x00, 0x2A]
  cases hencode : twoBlocks.encode [0x2B, 0x00, 0x2A] with
  | error fault =>
    rcases (hrefused fault).mp hencode with ⟨hstack, -⟩ | ⟨-, hcode, -⟩ | ⟨-, -, hmany, -⟩
    · exact absurd hstack (by decide)
    · exact absurd hcode (by decide)
    · exact absurd hmany (by decide)
  | ok bytes =>
    obtain ⟨found, hread, hsays, -, htiny, -⟩ := hstored bytes [0x01, 4, 0, 0] hencode
    refine ⟨hknown, bytes, found, rfl, hread, ?_, hsays⟩
    rw [← Bool.not_eq_false, htiny]
    decide

end MethodHeader

end CilPatch
