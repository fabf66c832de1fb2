import CilPatch.Method.Header
import CilPatch.Proofs.Bytes.Align
import CilPatch.Proofs.Method.Clause

/-!
# Reading what was written as a body

The stored form of a body is read back whatever follows it: a tiny header stands for a stack of
eight values, and a fat one says everything.
-/

namespace CilPatch.MethodHeader

open LittleEndian

/-- A header as it is read back from its stored form with code of a given size. -/
def stored (header : MethodHeader) (codeSize : Nat) : MethodHeader :=
  if header.isTiny codeSize then {
    codeSize, headerSize := 1, localSig := 0, maxStack := tinyStack, isFat := false
    initLocals := false, clauses := [] }
  else { header with
    codeSize, headerSize := fatSize, isFat := true, clauses := header.clauses.map Clause.known }

/-- What a tiny header stands for. -/
theorem isTiny_iff {header : MethodHeader} {codeSize : Nat} :
    header.isTiny codeSize = true ↔ codeSize < tinyLimit ∧ header.maxStack ≤ tinyStack ∧
      header.localSig = 0 ∧ header.initLocals = false ∧ header.clauses = [] := by
  simp only [isTiny, Bool.and_eq_true, decide_eq_true_eq, beq_iff_eq, Bool.not_eq_true',
    List.isEmpty_iff, and_assoc]

/-- Nothing that is said about a body is lost, save how few values the stack must hold. -/
theorem stored_facts (header : MethodHeader) (codeSize : Nat) :
    (header.stored codeSize).localSig = header.localSig ∧
      (header.stored codeSize).initLocals = header.initLocals ∧
      (header.stored codeSize).clauses = header.clauses.map Clause.known ∧
      ((header.stored codeSize).maxStack = header.maxStack ∨
        (header.stored codeSize).isFat = false ∧
          (header.stored codeSize).maxStack = tinyStack ∧ header.maxStack ≤ tinyStack) := by
  rw [stored]
  split
  · next htiny =>
    obtain ⟨-, hstack, hsig, hinit, hclauses⟩ := isTiny_iff.mp htiny
    exact ⟨hsig.symm, hinit.symm, by rw [hclauses]; rfl, Or.inr ⟨rfl, rfl, hstack⟩⟩
  · exact ⟨rfl, rfl, rfl, Or.inl rfl⟩

/-- A tiny header is read in front of its code. -/
theorem read_tiny {code : List UInt8} (hsize : code.length < tinyLimit) (suffix : List UInt8) :
    read (UInt8.ofNat (code.length * 4 + 2) :: (code ++ suffix)).toArray = .ok {
      codeSize := code.length, headerSize := 1, localSig := 0, maxStack := tinyStack, isFat := false
      initLocals := false, clauses := [] } := by
  have hsize : code.length < 64 := hsize
  have hfirst : (UInt8.ofNat (code.length * 4 + 2)).toNat = code.length * 4 + 2 := by
    rw [UInt8.toNat_ofNat']
    omega
  have hkind : (code.length * 4 + 2) % 4 = 2 := by omega
  have hcode : (code.length * 4 + 2) / 4 = code.length := by omega
  have hroom : ¬(UInt8.ofNat (code.length * 4 + 2) :: (code ++ suffix)).toArray.size <
      code.length + 1 := by
    simp only [List.size_toArray, List.length_cons, List.length_append]
    omega
  simp only [read, List.getElem?_toArray, List.getElem?_cons_zero, hfirst, hkind, readTiny, hcode,
    hroom, if_true, if_false]

/-- The fields of a fat header. -/
def fatFields (flags maxStack codeSize : Nat) (localSig : UInt32) : List UInt8 :=
  LittleEndian.encode 2 flags ++ (LittleEndian.encode 2 maxStack ++
    (LittleEndian.encode 4 codeSize ++ LittleEndian.u32 localSig))

theorem length_fatFields (flags maxStack codeSize : Nat) (localSig : UInt32) :
    (fatFields flags maxStack codeSize localSig).length = fatSize := by
  simp [fatFields, fatSize]

/-- The words that stand in a fat header. -/
theorem words_fatFields {flags maxStack codeSize : Nat} (localSig : UInt32) (back : List UInt8)
    (hflags : flags < range 2) (hstack : maxStack < range 2) (hcode : codeSize < range 4) :
    let data := (fatFields flags maxStack codeSize localSig ++ back).toArray
    wordAt data 0 2 = flags ∧ wordAt data 2 2 = maxStack ∧ wordAt data 4 4 = codeSize ∧
      wordAt data 8 4 = localSig.toNat := by
  have hsig : localSig.toNat < range 4 := localSig.toNat_lt
  have hflagsAt := wordAt_between [] (LittleEndian.encode 2 maxStack ++
    (LittleEndian.encode 4 codeSize ++ (LittleEndian.u32 localSig ++ back))) hflags
  have hstackAt := wordAt_between (LittleEndian.encode 2 flags)
    (LittleEndian.encode 4 codeSize ++ (LittleEndian.u32 localSig ++ back)) hstack
  have hcodeAt := wordAt_between (LittleEndian.encode 2 flags ++ LittleEndian.encode 2 maxStack)
    (LittleEndian.u32 localSig ++ back) hcode
  have hsigAt := wordAt_between (LittleEndian.encode 2 flags ++ (LittleEndian.encode 2 maxStack ++
    LittleEndian.encode 4 codeSize)) back hsig
  simp only [List.length_append, length_encode, List.length_nil, List.append_assoc,
    List.nil_append, LittleEndian.u32] at hflagsAt hstackAt hcodeAt hsigAt
  simp only [fatFields, LittleEndian.u32, List.append_assoc]
  exact ⟨hflagsAt, hstackAt, hcodeAt, hsigAt⟩

/-- A fat header is read in front of its code. -/
theorem read_fat {flags maxStack : Nat} {localSig : UInt32} {code tail : List UInt8}
    {clauses : List Clause} (hflags : flags < range 2) (hkind : flags % 4 = 3)
    (hheader : flags >>> 12 = 3) (hstack : maxStack < UInt16.size)
    (hcode : code.length < UInt32.size)
    (hclauses : (if flags.testBit sectionsBit then
        Section.read (fatFields flags maxStack code.length localSig ++ (code ++ tail)).toArray
          (fatSize + code.length)
      else pure []) = .ok clauses) :
    read (fatFields flags maxStack code.length localSig ++ (code ++ tail)).toArray = .ok {
      codeSize := code.length, headerSize := fatSize, localSig, maxStack, isFat := true
      initLocals := flags.testBit initBit, clauses } := by
  have hsize : (fatFields flags maxStack code.length localSig ++ (code ++ tail)).toArray.size =
      fatSize + code.length + tail.length := by
    simp only [List.size_toArray, List.length_append, length_fatFields]
    omega
  obtain ⟨hflagsAt, hstackAt, hcodeAt, hsigAt⟩ :=
    words_fatFields localSig (code ++ tail) hflags hstack hcode
  have hfirst : (fatFields flags maxStack code.length localSig ++ (code ++ tail)).toArray[0]? =
      some (UInt8.ofNat flags) := by
    simp [fatFields, LittleEndian.encode]
  have hfat : (UInt8.ofNat flags).toNat % 4 = 3 := by
    rw [UInt8.toNat_ofNat']
    omega
  generalize (fatFields flags maxStack code.length localSig ++ (code ++ tail)).toArray = data at *
  have hroom : ¬data.size < fatSize := by omega
  have hinside : ¬data.size < code.length + fatSize := by omega
  have hwords : 3 * 4 = fatSize := rfl
  have hkinds : ¬3 = 2 := by decide
  simp only [read, hfirst, hfat, readFat, hroom, hflagsAt, hheader, hwords, hstackAt, hcodeAt,
    hsigAt, hinside, hkinds, Nat.lt_irrefl, if_true, if_false, UInt32.ofNat_toNat]
  cases hmore : flags.testBit sectionsBit with
  | true =>
    rw [hmore] at hclauses
    exact bind_eq_ok_iff.mpr ⟨clauses, hclauses, rfl⟩
  | false =>
    rw [hmore] at hclauses
    obtain rfl : [] = clauses := Except.ok.inj hclauses
    rfl

/-- The flags of a fat header. -/
def fatFlags (initLocals sections : Bool) : Nat :=
  0x3003 + (if initLocals then 1 <<< initBit else 0) + (if sections then 1 <<< sectionsBit else 0)

/-- The flags of a fat header say that it is one, how long it is, whether local variables start as
zero and whether sections follow. -/
theorem fatFlags_facts (initLocals sections : Bool) :
    fatFlags initLocals sections < range 2 ∧ fatFlags initLocals sections % 4 = 3 ∧
      fatFlags initLocals sections >>> 12 = 3 ∧
      (fatFlags initLocals sections).testBit initBit = initLocals ∧
      (fatFlags initLocals sections).testBit sectionsBit = sections := by
  cases initLocals <;> cases sections <;> decide

/-- How a body with a fat header is written: the fields, the code and what follows that. -/
structure Fat (header : MethodHeader) (code bytes tail : List UInt8) : Prop where
  stack_lt : header.maxStack < UInt16.size
  code_lt : code.length < UInt32.size
  bytes_eq : bytes = fatFields (fatFlags header.initLocals !header.clauses.isEmpty) header.maxStack
    code.length header.localSig ++ (code ++ tail)
  /-- Behind the code there are the clauses, if there are any, from a whole word on. -/
  tail_eq : (header.clauses = [] ∧ tail = []) ∨ ∃ written,
    Section.encode header.clauses = .ok written ∧
      tail = padding (fatSize + code.length) 4 ++ written

/-- A body is written with a tiny header where one can say everything, or with a fat one. -/
theorem encode_cases {header : MethodHeader} {code bytes : List UInt8}
    (h : header.encode code = .ok bytes) :
    (header.isTiny code.length = true ∧ bytes = UInt8.ofNat (code.length * 4 + 2) :: code) ∨
      header.isTiny code.length = false ∧ ∃ tail, header.Fat code bytes tail := by
  simp only [encode] at h
  split at h
  · next htiny => exact Or.inl ⟨htiny, (Except.ok.inj h).symm⟩
  next htiny =>
  split at h
  · cases h
  next hstack =>
  split at h
  · cases h
  next hcode =>
  have hflags : 0x3003 + (if header.initLocals then 1 <<< initBit else 0) +
      (if header.clauses.isEmpty then 0 else 1 <<< sectionsBit) =
        fatFlags header.initLocals !header.clauses.isEmpty := by
    rw [fatFlags]
    cases header.clauses.isEmpty <;> rfl
  have hbody (flags : Nat) : LittleEndian.encode 2 flags ++
      (LittleEndian.encode 2 header.maxStack ++ (LittleEndian.encode 4 code.length ++
        (LittleEndian.u32 header.localSig ++ code))) =
        fatFields flags header.maxStack code.length header.localSig ++ code := by
    simp [fatFields]
  rw [hflags, hbody] at h
  refine Or.inr ⟨by simpa using htiny, ?_⟩
  split at h
  · next hnone =>
    refine ⟨[], Nat.lt_of_not_le hstack, Nat.lt_of_not_le hcode, ?_,
      Or.inl ⟨List.isEmpty_iff.mp hnone, rfl⟩⟩
    rw [← Except.ok.inj h, List.append_nil]
  · obtain ⟨written, hwritten, h⟩ := bind_eq_ok_iff.mp h
    refine ⟨padding (fatSize + code.length) 4 ++ written, Nat.lt_of_not_le hstack,
      Nat.lt_of_not_le hcode, ?_, Or.inr ⟨written, hwritten, rfl⟩⟩
    rw [← Except.ok.inj h, padTo, List.length_append, length_fatFields]
    simp only [List.append_assoc]

/-- Code that is stored has a size that a word can say. -/
theorem length_lt_of_encode {header : MethodHeader} {code bytes : List UInt8}
    (h : header.encode code = .ok bytes) : code.length < UInt32.size := by
  rcases encode_cases h with ⟨htiny, -⟩ | ⟨-, tail, hfat⟩
  · exact Nat.lt_trans (isTiny_iff.mp htiny).1 (by decide)
  · exact hfat.code_lt

/-- The clauses behind the code are read back. -/
theorem Fat.read_clauses {header : MethodHeader} {code bytes tail : List UInt8}
    (h : header.Fat code bytes tail) {written : List UInt8}
    (hwritten : Section.encode header.clauses = .ok written)
    (htail : tail = padding (fatSize + code.length) 4 ++ written) (suffix : List UInt8) :
    Section.read (bytes ++ suffix).toArray (fatSize + code.length) =
      .ok (header.clauses.map Clause.known) := by
  have hroom : fatSize + code.length + 4 ≤ wordRange := by
    have hcode : code.length < 4294967296 := h.code_lt
    change 12 + code.length + 4 ≤ 18446744073709551616
    omega
  generalize hfields : fatFields (fatFlags header.initLocals !header.clauses.isEmpty)
    header.maxStack code.length header.localSig = fields
  have hlength : (fields ++ (code ++ padding (fatSize + code.length) 4)).length =
      alignUp (fatSize + code.length) 4 := by
    rw [List.length_append, List.length_append, ← hfields, length_fatFields, padding,
      List.length_replicate, alignUp_four hroom]
    omega
  have hread := Section.readFrom_encode hwritten
    (fields ++ (code ++ padding (fatSize + code.length) 4)) suffix (bytes ++ suffix).toArray.size
  rw [hlength] at hread
  rw [Section.read, ← hread, h.bytes_eq, hfields, htail]
  simp only [List.append_assoc]

/-- A fat header is read back with its clauses. -/
theorem Fat.read_eq {header : MethodHeader} {code bytes tail : List UInt8}
    (h : header.Fat code bytes tail) (suffix : List UInt8) :
    read (bytes ++ suffix).toArray = .ok { header with
      codeSize := code.length, headerSize := fatSize, isFat := true
      clauses := header.clauses.map Clause.known } := by
  obtain ⟨hflags, hkind, hheader, hinit, hsections⟩ :=
    fatFlags_facts header.initLocals !header.clauses.isEmpty
  have hassoc : bytes ++ suffix = fatFields (fatFlags header.initLocals !header.clauses.isEmpty)
      header.maxStack code.length header.localSig ++ (code ++ (tail ++ suffix)) := by
    rw [h.bytes_eq]
    simp only [List.append_assoc]
  have hclauses : (if (fatFlags header.initLocals !header.clauses.isEmpty).testBit sectionsBit then
      Section.read (bytes ++ suffix).toArray (fatSize + code.length) else pure []) =
        .ok (header.clauses.map Clause.known) := by
    rw [hsections]
    rcases h.tail_eq with ⟨hnone, -⟩ | ⟨written, hwritten, htail⟩
    · rw [hnone]
      rfl
    · cases hempty : header.clauses.isEmpty with
      | true =>
        rw [List.isEmpty_iff.mp hempty]
        rfl
      | false => exact h.read_clauses hwritten htail suffix
  rw [hassoc] at hclauses ⊢
  rw [read_fat hflags hkind hheader h.stack_lt h.code_lt hclauses, hinit]

/-- What a body was written as is read back, with its code. -/
theorem read_encode {header : MethodHeader} {code bytes : List UInt8}
    (h : header.encode code = .ok bytes) (suffix : List UInt8) :
    read (bytes ++ suffix).toArray = .ok (header.stored code.length) ∧
      (header.stored code.length).code (bytes ++ suffix).toArray = .ok code.toArray := by
  have hcode (front tail : List UInt8) (found : MethodHeader)
      (hheader : found.headerSize = front.length) (hsize : found.codeSize = code.length) :
      found.code (front ++ (code ++ tail)).toArray = .ok code.toArray := by
    have hroom : ¬(front ++ (code ++ tail)).toArray.size < front.length + code.length := by
      simp only [List.size_toArray, List.length_append]
      omega
    rw [MethodHeader.code, hheader, hsize, if_neg hroom, extract_between]
  rcases encode_cases h with ⟨htiny, rfl⟩ | ⟨htiny, tail, hfat⟩
  · rw [stored, if_pos htiny]
    exact ⟨read_tiny (isTiny_iff.mp htiny).1 suffix, hcode [_] suffix _ rfl rfl⟩
  · rw [stored, if_neg (by simp [htiny])]
    refine ⟨hfat.read_eq suffix, ?_⟩
    rw [hfat.bytes_eq, List.append_assoc, List.append_assoc]
    exact hcode _ _ _ (length_fatFields _ _ _ _).symm rfl

end CilPatch.MethodHeader
