import CilPatch.Proofs.Bytes.Strict
import CilPatch.Proofs.Method.Extent
import Mathlib.Algebra.Group.Nat.Defs

/-!
# Strict reading of bodies

The sections behind the code of a body are read in passes, and only a section says where the next
one is and whether there is one. Here the passes go on without a limit, and every byte is looked at
strictly. This has what the reading of a header has: each pass leads at least four bytes further, so
that the passes come to an end, and nothing is looked at that is not there.
-/

namespace CilPatch

open LittleEndian

namespace Strict

variable {data : Bytes} {start : Nat}

/-- The size of the section at an offset, by the first byte there. A wide size stands in the rest of
the head, another in its second byte. -/
def statedSize (data : Bytes) (start kind : Nat) : Strict Nat :=
  if kind.testBit Section.fatBit then (· / 256) <$> word data start Section.headerSize
  else word data (start + 1) 1

/-- The clauses in the bytes of a section, all of which must lie there. -/
def clauses (data : Bytes) (start size : Nat) (fat : Bool) : Strict (List Clause) := do
  let content ← part data (start + Section.headerSize) (start + size)
  let room := size - Section.headerSize
  if fat then parse (Read.many Clause.readFat (room / Clause.fatSize)) content
  else parse (Read.many Clause.readSmall (room / Clause.smallSize)) content

/-- The clauses of the section at an offset, none if it holds something else. -/
def ownClauses (data : Bytes) (start size kind : Nat) : Strict (List Clause) :=
  if kind.testBit Section.tableBit then clauses data start size (kind.testBit Section.fatBit)
  else pure []

/-- One pass: the clauses of the section at an offset, and where the next section starts, if one
follows. -/
def pass (data : Bytes) (start : Nat) : Strict (List Clause × Option Nat) := do
  if data.size < start + Section.headerSize then throw .outOfBounds
  let kind ← word data start 1
  let size ← statedSize data start kind
  if size < Section.headerSize ∨ data.size < start + size then
    throw (.malformed (.bodySection size start))
  let own ← ownClauses data start size kind
  return (own, if kind.testBit Section.moreBit then some (alignUp (start + size) 4) else none)

/-- How far the passes over the sections have come. -/
structure Walk where
  /-- Where the next section starts. -/
  start : Nat
  /-- The clauses that were found so far. -/
  found : List Clause

/-- The clauses that were found, and those of the sections that follow: one pass after another,
until a section is the last. -/
def Walk.finish (walk : Walk) (data : Bytes) : Strict (List Clause) := do
  let (own, next) ← pass data walk.start
  match next with
  | none => return walk.found ++ own
  | some next => Walk.mk next (walk.found ++ own) |>.finish data
partial_fixpoint

/-- The clauses behind the code of a fat body, none if no sections follow. -/
def clausesBehind (data : Bytes) (flags codeEnd : Nat) : Strict (List Clause) :=
  if flags.testBit MethodHeader.sectionsBit then Walk.finish ⟨alignUp codeEnd 4, []⟩ data
  else pure []

/-- Reads a fat header and the sections behind the code. -/
def readFat (data : Bytes) : Strict MethodHeader := do
  if data.size < MethodHeader.fatSize then throw .outOfBounds
  let flags ← word data 0 2
  let headerSize := (flags >>> 12) * 4
  if headerSize < MethodHeader.fatSize then throw (.malformed (.bodyHeaderSize headerSize))
  let codeSize ← word data 4 4
  if data.size < codeSize + headerSize then throw .outOfBounds
  let localSig ← word data 8 4
  let maxStack ← word data 2 2
  let clauses ← clausesBehind data flags (headerSize + codeSize)
  return {
    codeSize, headerSize, maxStack, clauses
    localSig := UInt32.ofNat localSig
    isFat := true
    initLocals := flags.testBit MethodHeader.initBit }

/-- Reads the header of the body at the start of some data. Of a tiny header there is only the first
byte. -/
def readHeader (data : Bytes) : Strict MethodHeader := do
  if data.isEmpty then throw (.malformed .emptyBody)
  let first := UInt8.ofNat (← word data 0 1)
  if first.toNat % 4 = 2 then given (MethodHeader.readTiny data first)
  else if first.toNat % 4 = 3 then readFat data
  else throw (.malformed (.bodyHeaderKind first))

/-! ## Looking only at what is there -/

/-- A small clause spans its size. -/
theorem spans_readSmall : Read.Spans Clause.readSmall Clause.smallSize :=
  Read.spans_u16.bind fun _ => Read.spans_u16.bind fun _ => Read.spans_u8.bind fun _ =>
    Read.spans_u16.bind fun _ => Read.spans_u8.bind fun _ => Read.spans_u32.bind fun _ =>
      Read.spans_pure _

/-- A fat clause spans its size. -/
theorem spans_readFat : Read.Spans Clause.readFat Clause.fatSize :=
  Read.spans_u32.bind fun _ => Read.spans_u32.bind fun _ => Read.spans_u32.bind fun _ =>
    Read.spans_u32.bind fun _ => Read.spans_u32.bind fun _ => Read.spans_u32.bind fun _ =>
      Read.spans_pure _

/-- As many clauses as a section has room for are there when the section is. -/
theorem clauses_eq {size : Nat} (hleast : Section.headerSize ≤ size)
    (hfits : start + size ≤ data.size) (fat : Bool) :
    clauses data start size fat = given (Section.clauses data start size fat) := by
  have hsize : (data.extract (start + Section.headerSize) (start + size)).size =
      size - Section.headerSize := by
    rw [Array.size_extract]
    omega
  rw [clauses, Section.clauses, part_eq (Nat.add_le_add_left hleast start) hfits, pure_bind]
  generalize data.extract (start + Section.headerSize) (start + size) = content at hsize
  have hparse {step : Read Clause} {width : Nat} (h : step.Spans width) :
      parse (Read.many step ((size - Section.headerSize) / width)) content =
        given (Cursor.parse (Read.many step ((size - Section.headerSize) / width)) content) := by
    obtain ⟨value, hvalue⟩ := (h.many ((size - Section.headerSize) / width)).exists_parse
      (Nat.le_trans (Nat.div_mul_le_self _ _) (Nat.le_of_eq hsize.symm))
    rw [hvalue, parse_eq hvalue]
  cases fat with
  | true => exact hparse spans_readFat
  | false => exact hparse spans_readSmall

section Head

variable (hroom : start + Section.headerSize ≤ data.size)
include hroom

/-- The first byte of the head of a section has its low bits. -/
theorem testBit_kind {bit : Nat} (hbit : bit < 8) :
    (wordAt data start 1).testBit bit = (wordAt data start Section.headerSize).testBit bit := by
  have hroom : start + 4 ≤ data.size := hroom
  have hlow : wordAt data start 1 = wordAt data start (1 + 3) % 2 ^ 8 :=
    wordAt_eq_mod (by omega) 3
  rw [hlow, Nat.testBit_mod_two_pow, decide_eq_true hbit, Bool.true_and]
  rfl

/-- The second byte of the head of a section. -/
theorem wordAt_second :
    wordAt data (start + 1) 1 = wordAt data start Section.headerSize / 256 % 256 := by
  have hroom : start + 4 ≤ data.size := hroom
  have hhigh : wordAt data (start + 1) (1 + 2) = wordAt data start (1 + 3) / range 1 :=
    wordAt_eq_div (by omega) 3
  have hlow : wordAt data (start + 1) 1 = wordAt data (start + 1) (1 + 2) % range 1 :=
    wordAt_eq_mod (by omega) 2
  rw [hlow, hhigh]
  rfl

/-- The size of a section is looked at where it is. -/
theorem statedSize_eq : statedSize data start (wordAt data start 1) =
    pure (Section.statedSize (wordAt data start Section.headerSize)) := by
  have hsecond : start + 1 + 1 ≤ data.size :=
    Nat.le_trans (Nat.add_le_add_left (show 2 ≤ Section.headerSize by decide) start) hroom
  rw [statedSize, Section.statedSize, testBit_kind hroom (by decide), word_eq hroom,
    word_eq hsecond, wordAt_second hroom, map_pure]
  split <;> rfl

/-- The clauses of a section are looked at where the section is. -/
theorem ownClauses_eq
    (hleast : Section.headerSize ≤ Section.statedSize (wordAt data start Section.headerSize))
    (hfits : start + Section.statedSize (wordAt data start Section.headerSize) ≤ data.size) :
    ownClauses data start (Section.statedSize (wordAt data start Section.headerSize))
      (wordAt data start 1) = given (Section.ownClauses data start) := by
  rw [ownClauses, testBit_kind hroom (by decide), testBit_kind hroom (by decide),
    clauses_eq hleast hfits, Section.ownClauses]
  split <;> rfl

end Head

/-- A pass looks only at what is there. -/
theorem pass_eq (data : Bytes) (start : Nat) :
    pass data start = given (Section.pass data start) := by
  rw [pass, Section.pass]
  by_cases hshort : data.size < start + Section.headerSize
  · simp only [hshort, if_true]
    rfl
  have hroom := Nat.not_lt.mp hshort
  have hfirst : start + 1 ≤ data.size :=
    Nat.le_trans (Nat.add_le_add_left (by decide) start) hroom
  simp only [hshort, if_false, word_eq hfirst, statedSize_eq hroom, pure_bind]
  by_cases hinside :
      Section.statedSize (wordAt data start Section.headerSize) < Section.headerSize ∨
        data.size < start + Section.statedSize (wordAt data start Section.headerSize)
  · simp only [hinside, if_true]
    rfl
  obtain ⟨hleast, hfits⟩ := not_or.mp hinside
  have hmore : Section.moreBit < 8 := by decide
  simp only [hinside, if_false, ownClauses_eq hroom (Nat.not_lt.mp hleast) (Nat.not_lt.mp hfits),
    testBit_kind hroom hmore, given_bind]
  rfl

/-! ## Coming to an end -/

/-- A pass leads behind the head of its section. In memory the place of the next section can be
rounded up without leaving the machine words, from where a pass would lead back to the start. -/
theorem le_of_pass (hmemory : data.size < 2 ^ 63) {own : List Clause} {next : Nat}
    (h : Section.pass data start = .ok (own, some next)) : start + Section.headerSize ≤ next := by
  obtain ⟨-, hleast, hfits, -, hnext⟩ := Section.pass_eq_ok_iff.mp h
  rw [Section.next?] at hnext
  split at hnext
  · obtain rfl := Option.some.inj hnext
    refine Nat.le_trans (Nat.add_le_add_left hleast start) (le_alignUp ?_)
    simp only [wordRange, UInt64.size]
    omega
  · cases hnext

/-- Passes come to an end: as many as lead past the end of the block are enough, and they find what
is found with a limit on their number. -/
theorem Walk.finish_eq (hmemory : data.size < 2 ^ 63) {walk : Walk} {fuel : Nat}
    (hfuel : data.size < walk.start + Section.headerSize * fuel) :
    walk.finish data = given ((walk.found ++ ·) <$> Section.readFrom data fuel walk.start) := by
  induction fuel generalizing walk with
  | zero =>
    -- the passes have led past the end, where no section is
    have hpass : Section.pass data walk.start = .error .outOfBounds :=
      if_pos (Nat.lt_of_lt_of_le hfuel (Nat.add_le_add_left (Nat.zero_le _) walk.start))
    rw [finish, pass_eq, hpass]
    rfl
  | succ fuel ih =>
    rw [finish, pass_eq, Section.readFrom_succ]
    cases hpass : Section.pass data walk.start with
    | error fault => rfl
    | ok result =>
      obtain ⟨own, next⟩ := result
      cases next with
      | none => rfl
      | some next =>
        have hle := le_of_pass hmemory hpass
        have hless : data.size < next + Section.headerSize * fuel := by
          rw [Nat.mul_succ] at hfuel
          omega
        change finish ⟨next, walk.found ++ own⟩ data = given ((walk.found ++ ·) <$> do
          return own ++ (← Section.readFrom data fuel next))
        rw [ih hless]
        cases Section.readFrom data fuel next with
        | error fault => rfl
        | ok later =>
          exact congrArg (fun all => given (.ok all)) (List.append_assoc walk.found own later)

/-- The clauses behind the code are read strictly. -/
theorem clausesBehind_eq (hmemory : data.size < 2 ^ 63) (flags codeEnd : Nat) :
    clausesBehind data flags codeEnd = given (if flags.testBit MethodHeader.sectionsBit then
      Section.read data codeEnd else pure []) := by
  rw [clausesBehind]
  split
  · have hfuel : data.size < alignUp codeEnd 4 + Section.headerSize * (data.size + 1) := by
      rw [Section.headerSize]
      omega
    rw [Walk.finish_eq hmemory hfuel, Section.read]
    exact congrArg given (id_map (Section.readFrom data (data.size + 1) (alignUp codeEnd 4)))
  · rfl

/-- A fat header is read strictly. -/
theorem readFat_eq (hmemory : data.size < 2 ^ 63) :
    readFat data = given (MethodHeader.readFat data) := by
  rw [readFat, MethodHeader.readFat]
  by_cases hshort : data.size < MethodHeader.fatSize
  · simp only [hshort, if_true]
    rfl
  have hroom : 12 ≤ data.size := Nat.not_lt.mp hshort
  simp only [hshort, if_false, word_eq (show 0 + 2 ≤ data.size by omega),
    word_eq (show 4 + 4 ≤ data.size by omega), word_eq (show 8 + 4 ≤ data.size by omega),
    word_eq (show 2 + 2 ≤ data.size by omega), clausesBehind_eq hmemory, pure_bind]
  by_cases hleast : (wordAt data 0 2 >>> 12) * 4 < MethodHeader.fatSize
  · simp only [hleast, if_true]
    rfl
  by_cases hcode : data.size < wordAt data 4 4 + (wordAt data 0 2 >>> 12) * 4
  · simp only [hleast, hcode, if_true, if_false]
    rfl
  simp only [hleast, hcode, if_false]
  cases (wordAt data 0 2).testBit MethodHeader.sectionsBit with
  | false => rfl
  | true => exact (given_bind _ _).symm

/-- A header is read strictly: reading comes to an end, and looks only at what is there. -/
theorem readHeader_eq (hmemory : data.size < 2 ^ 63) :
    readHeader data = given (MethodHeader.read data) := by
  rw [readHeader, MethodHeader.read]
  cases hfirst : data[0]? with
  | none =>
    have hempty : data.isEmpty = true :=
      Array.isEmpty_iff_size_eq_zero.mpr (Nat.le_zero.mp (Array.getElem?_eq_none_iff.mp hfirst))
    rw [hempty]
    rfl
  | some first =>
    obtain ⟨hlt, hget⟩ := Array.getElem?_eq_some_iff.mp hfirst
    have hempty : data.isEmpty = false := by
      rw [← Bool.not_eq_true, Array.isEmpty_iff_size_eq_zero]
      omega
    have hbyte : UInt8.ofNat (wordAt data 0 1) = first := by
      rw [wordAt_one hfirst, UInt8.ofNat_toNat]
    simp only [hempty, Bool.false_eq_true, if_false, word_eq (show 0 + 1 ≤ data.size by omega),
      pure_bind, hbyte]
    split
    · rfl
    split
    · exact readFat_eq hmemory
    · rfl

end Strict

end CilPatch
