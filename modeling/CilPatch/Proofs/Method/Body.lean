import CilPatch.Method.Body
import CilPatch.Proofs.Code.RoundTrip
import CilPatch.Proofs.Method.Header

/-!
# Bodies that are read back

What a body is encoded to is read back as the same body: the instructions at their places, and each
region between the same instructions. A region whose end is open stays open, and a null type of
exceptions is not told from none.
-/

namespace CilPatch

/-- A region as it is read back: its instructions are named anew, flags that have no meaning are
left out, and so is a null type. -/
def Region.stored (rename : Slot → Slot) (region : Region) : Region where
  kind := region.kind &&& Clause.knownFlags
  tryStart := rename region.tryStart
  tryEnd := region.tryEnd.map rename
  handlerStart := rename region.handlerStart
  handlerEnd := region.handlerEnd.map rename
  filterStart := region.filterStart.map rename
  catchType := region.catchType.filter (!·.isNull)

/-- What a region says besides its blocks suits its kind: it has a filter exactly when the kind says
so, and a type of exceptions only when they are caught by type. -/
structure Region.Typed (region : Region) : Prop where
  filter : region.filterStart.isSome = true ↔ region.kind &&& Clause.filterFlag ≠ 0
  caught : ∀ token, region.catchType = some token → token.isNull = false → region.kind = 0

namespace Body

section Clauses

variable {list : InstrList} {encoded : EncodedCode} {decoded : DecodedCode} {rename : Slot → Slot}

/-- A length leads to a boundary that does not lie before the start. -/
theorem lengthTo_eq_ok_iff {start length : Nat} {stop : Option Slot} :
    lengthTo encoded start stop = .ok length ↔
      encoded.offsetOf stop = .ok (start + length) := by
  rw [lengthTo, bind_eq_ok_iff]
  constructor
  · rintro ⟨offset, hoffset, h⟩
    obtain ⟨hle, h⟩ := check_eq_ok_iff.mp h
    obtain rfl : offset - start = length := Except.ok.inj h
    rw [hoffset, Nat.add_sub_cancel' (Nat.not_lt.mp hle)]
  · intro h
    refine ⟨_, h, check_eq_ok_iff.mpr ⟨by omega, ?_⟩⟩
    rw [Nat.add_sub_cancel_left]
    rfl

/-- What a clause says besides its blocks: where the filter starts, or which type is caught. -/
def detailOf (encoded : EncodedCode) (region : Region) : Except Fault Nat :=
  match region.filterStart with
  | some filter => encoded.offsetOf (some filter)
  | none => .ok ((region.catchType.map fun token => token.value.toNat).getD 0)

/-- The clause of a region has the offsets of its blocks. -/
theorem clauseOf_eq_ok_iff {region : Region} {clause : Clause} :
    clauseOf encoded region = .ok clause ↔
      ∃ tryOffset tryLength handlerOffset handlerLength detail,
        encoded.offsetOf (some region.tryStart) = .ok tryOffset ∧
        encoded.offsetOf region.tryEnd = .ok (tryOffset + tryLength) ∧
        encoded.offsetOf (some region.handlerStart) = .ok handlerOffset ∧
        encoded.offsetOf region.handlerEnd = .ok (handlerOffset + handlerLength) ∧
        detailOf encoded region = .ok detail ∧
        clause = ⟨region.kind, UInt32.ofNat tryOffset, UInt32.ofNat tryLength,
          UInt32.ofNat handlerOffset, UInt32.ofNat handlerLength, UInt32.ofNat detail⟩ := by
  have hclause : clauseOf encoded region = (do
      let tryOffset ← encoded.offsetOf (some region.tryStart)
      let handlerOffset ← encoded.offsetOf (some region.handlerStart)
      let tryLength ← lengthTo encoded tryOffset region.tryEnd
      let handlerLength ← lengthTo encoded handlerOffset region.handlerEnd
      let detail ← detailOf encoded region
      return ⟨region.kind, UInt32.ofNat tryOffset, UInt32.ofNat tryLength,
        UInt32.ofNat handlerOffset, UInt32.ofNat handlerLength, UInt32.ofNat detail⟩) := by
    rw [clauseOf, detailOf]
    cases region.filterStart <;> rfl
  simp only [hclause, bind_eq_ok_iff, lengthTo_eq_ok_iff]
  constructor
  · rintro ⟨tryOffset, htry, handlerOffset, hhandler, tryLength, htryEnd, handlerLength,
      hhandlerEnd, detail, hdetail, h⟩
    exact ⟨tryOffset, tryLength, handlerOffset, handlerLength, detail, htry, htryEnd, hhandler,
      hhandlerEnd, hdetail, (Except.ok.inj h).symm⟩
  · rintro ⟨tryOffset, tryLength, handlerOffset, handlerLength, detail, htry, htryEnd, hhandler,
      hhandlerEnd, hdetail, rfl⟩
    exact ⟨tryOffset, htry, handlerOffset, hhandler, tryLength, htryEnd, handlerLength,
      hhandlerEnd, detail, hdetail, rfl⟩

/-- Where the filter of a clause starts, if it has one. -/
def filterOf (decoded : DecodedCode) (clause : Clause) : Except Fault (Option Slot) :=
  if clause.flags &&& Clause.filterFlag ≠ 0 then some <$> startSlot decoded clause.detail
  else .ok none

/-- The type that a clause catches, if it says one. -/
def caughtOf (clause : Clause) : Option Token :=
  if clause.flags = 0 ∧ clause.detail ≠ 0 then some ⟨clause.detail⟩ else none

/-- The region of a clause has the blocks that stand at its offsets. -/
theorem regionOf_eq_ok_iff {region : Region} {clause : Clause} :
    regionOf decoded clause = .ok region ↔
      startSlot decoded clause.tryOffset = .ok region.tryStart ∧
      endSlot decoded clause.tryOffset clause.tryLength = .ok region.tryEnd ∧
      startSlot decoded clause.handlerOffset = .ok region.handlerStart ∧
      endSlot decoded clause.handlerOffset clause.handlerLength = .ok region.handlerEnd ∧
      filterOf decoded clause = .ok region.filterStart ∧ region.kind = clause.flags ∧
      region.catchType = caughtOf clause := by
  have hregion : regionOf decoded clause = (do
      let tryStart ← startSlot decoded clause.tryOffset
      let tryEnd ← endSlot decoded clause.tryOffset clause.tryLength
      let handlerStart ← startSlot decoded clause.handlerOffset
      let handlerEnd ← endSlot decoded clause.handlerOffset clause.handlerLength
      let filterStart ← filterOf decoded clause
      return ⟨clause.flags, tryStart, tryEnd, handlerStart, handlerEnd, filterStart,
        caughtOf clause⟩) := by
    rw [regionOf]
    by_cases hfilter : clause.flags &&& Clause.filterFlag = 0
    · simp only [filterOf, hfilter]
      rfl
    · simp only [filterOf, bne_iff_ne, ne_eq, hfilter, not_false_eq_true, if_true]
      rfl
  simp only [hregion, bind_eq_ok_iff]
  constructor
  · rintro ⟨tryStart, htry, tryEnd, htryEnd, handlerStart, hhandler, handlerEnd, hhandlerEnd,
      filterStart, hfilter, h⟩
    obtain rfl := Except.ok.inj h
    exact ⟨htry, htryEnd, hhandler, hhandlerEnd, hfilter, rfl, rfl⟩
  · rintro ⟨htry, htryEnd, hhandler, hhandlerEnd, hfilter, hkind, hcaught⟩
    refine ⟨_, htry, _, htryEnd, _, hhandler, _, hhandlerEnd, _, hfilter, ?_⟩
    rw [← hkind, ← hcaught]
    rfl

/-- What the offsets of encoded code lead to in the decoded code. -/
structure Leads (encoded : EncodedCode) (decoded : DecodedCode) (rename : Slot → Slot) : Prop where
  slotAt : ∀ boundary offset, encoded.offsetOf boundary = .ok offset →
    decoded.slotAt offset = .ok (boundary.map rename)
  offset_lt : ∀ boundary offset, encoded.offsetOf boundary = .ok offset → offset < UInt32.size

/-- The start of a block is found where it was encoded. -/
theorem Leads.startSlot (h : Leads encoded decoded rename) {slot : Slot} {offset : Nat}
    (hoffset : encoded.offsetOf (some slot) = .ok offset) :
    startSlot decoded (UInt32.ofNat offset) = .ok (rename slot) := by
  rw [Body.startSlot, UInt32.toNat_ofNat_of_lt' (h.offset_lt _ _ hoffset), h.slotAt _ _ hoffset]
  rfl

/-- The end of a block is found where it was encoded. -/
theorem Leads.endSlot (h : Leads encoded decoded rename) {stop : Option Slot} {start length : Nat}
    (hstop : encoded.offsetOf stop = .ok (start + length)) :
    endSlot decoded (UInt32.ofNat start) (UInt32.ofNat length) = .ok (stop.map rename) := by
  have hlt := h.offset_lt _ _ hstop
  rw [Body.endSlot, UInt32.toNat_ofNat_of_lt' (by omega), UInt32.toNat_ofNat_of_lt' (by omega),
    if_neg (Nat.not_le.mpr hlt), h.slotAt _ _ hstop]

/-- The known flags tell whether a clause has a filter. -/
theorem known_filterFlag (kind : UInt16) :
    kind &&& Clause.knownFlags &&& Clause.filterFlag = kind &&& Clause.filterFlag := by
  rw [UInt16.and_assoc]
  rfl

/-- A clause with a filter catches no type. -/
theorem flags_ne_zero {kind : UInt16} (h : kind &&& Clause.filterFlag ≠ 0) :
    kind &&& Clause.knownFlags ≠ 0 := by
  intro hzero
  rw [← known_filterFlag, hzero] at h
  exact h rfl

/-- The start of a filter is found where it was encoded. -/
theorem Leads.filterOf (h : Leads encoded decoded rename) {region : Region} (htyped : region.Typed)
    {clause : Clause} {detail : Nat} (hkind : clause.flags = region.kind &&& Clause.knownFlags)
    (hdetail : detailOf encoded region = .ok detail)
    (hclause : clause.detail = UInt32.ofNat detail) :
    filterOf decoded clause = .ok (region.filterStart.map rename) := by
  have hflag : clause.flags &&& Clause.filterFlag = region.kind &&& Clause.filterFlag := by
    rw [hkind, known_filterFlag]
  rw [detailOf] at hdetail
  rw [Body.filterOf, hflag]
  cases hfilter : region.filterStart with
  | some filter =>
    rw [hfilter] at hdetail
    rw [if_pos (htyped.filter.mp (by rw [hfilter]; rfl)), hclause, h.startSlot hdetail]
    rfl
  | none =>
    rw [if_neg fun hne => ?_]
    · rfl
    · have hsome := htyped.filter.mpr hne
      rw [hfilter] at hsome
      cases hsome

/-- The type that is caught is told, unless there is none. A filter catches no type. -/
theorem caughtOf_eq {region : Region} (htyped : region.Typed) {clause : Clause} {detail : Nat}
    (hkind : clause.flags = region.kind &&& Clause.knownFlags)
    (hdetail : detailOf encoded region = .ok detail)
    (hclause : clause.detail = UInt32.ofNat detail) :
    caughtOf clause = region.catchType.filter (!·.isNull) := by
  rw [detailOf] at hdetail
  cases hfilter : region.filterStart with
  | some filter =>
    have hkind' : region.kind &&& Clause.filterFlag ≠ 0 :=
      htyped.filter.mp (by rw [hfilter]; rfl)
    have hflags : clause.flags ≠ 0 := hkind ▸ flags_ne_zero hkind'
    rw [caughtOf, if_neg fun hboth => hflags hboth.1, eq_comm, Option.filter_eq_none_iff]
    intro token htoken hnull
    have hzero := htyped.caught token htoken (by simpa using hnull)
    rw [hzero] at hkind'
    exact hkind' rfl
  | none =>
    rw [hfilter] at hdetail
    obtain rfl := Except.ok.inj hdetail
    rw [caughtOf, hclause]
    cases hcaught : region.catchType with
    | none => simp
    | some token =>
      have hdetail : UInt32.ofNat (((some token).map fun token => token.value.toNat).getD 0) =
          token.value := UInt32.ofNat_toNat
      rw [hdetail]
      cases hnull : token.isNull with
      | true =>
        have hvalue : token.value = 0 := by simpa [Token.isNull] using hnull
        rw [if_neg fun hboth => hboth.2 hvalue]
        rw [Option.filter_some, hnull]
        rfl
      | false =>
        have hvalue : token.value ≠ 0 := by simpa [Token.isNull] using hnull
        have hflags : clause.flags = 0 := by
          rw [hkind, htyped.caught token hcaught hnull]
          rfl
        rw [if_pos ⟨hflags, hvalue⟩, Option.filter_some, hnull]
        rfl

/-- The clause that was written for a region is read back as the region. -/
theorem Leads.regionOf (h : Leads encoded decoded rename) {region : Region} (htyped : region.Typed)
    {clause : Clause} (hclause : clauseOf encoded region = .ok clause) :
    regionOf decoded clause.known = .ok (region.stored rename) := by
  obtain ⟨tryOffset, tryLength, handlerOffset, handlerLength, detail, htry, htryEnd, hhandler,
    hhandlerEnd, hdetail, rfl⟩ := clauseOf_eq_ok_iff.mp hclause
  have hknown : (Clause.known ⟨region.kind, UInt32.ofNat tryOffset, UInt32.ofNat tryLength,
      UInt32.ofNat handlerOffset, UInt32.ofNat handlerLength, UInt32.ofNat detail⟩).detail =
        UInt32.ofNat detail := rfl
  exact regionOf_eq_ok_iff.mpr ⟨h.startSlot htry, h.endSlot htryEnd, h.startSlot hhandler,
    h.endSlot hhandlerEnd, h.filterOf htyped rfl hdetail hknown, rfl,
    (caughtOf_eq htyped rfl hdetail hknown).symm⟩

/-- The clauses that were written for regions are read back as the regions. -/
theorem Leads.mapM_regionOf (h : Leads encoded decoded rename) {regions : List Region}
    (htyped : ∀ region ∈ regions, region.Typed) {clauses : List Clause}
    (hclauses : regions.mapM (clauseOf encoded) = .ok clauses) :
    (clauses.map Clause.known).mapM (Body.regionOf decoded) =
      .ok (regions.map (Region.stored rename)) := by
  induction regions generalizing clauses with
  | nil =>
    obtain rfl : [] = clauses := Except.ok.inj hclauses
    rfl
  | cons region rest ih =>
    obtain ⟨hregion, hrest⟩ := List.forall_mem_cons.mp htyped
    obtain ⟨first, others, hfirst, hothers, rfl⟩ := mapM_cons_eq_ok_iff.mp hclauses
    exact mapM_cons_eq_ok_iff.mpr ⟨_, _, h.regionOf hregion hfirst, ih hrest hothers, rfl⟩

/-- The boundaries of a region that has a clause are placed. -/
theorem boundaries_of_clauseOf (hencode : Code.encode list = .ok encoded) {region : Region}
    {clause : Clause} (hclause : clauseOf encoded region = .ok clause) :
    ∀ slot ∈ region.boundaries, slot ∈ list.order := by
  obtain ⟨tryOffset, tryLength, handlerOffset, handlerLength, detail, htry, htryEnd, hhandler,
    hhandlerEnd, hdetail, -⟩ := clauseOf_eq_ok_iff.mp hclause
  have hplaced {boundary : Option Slot} {offset : Nat}
      (hoffset : encoded.offsetOf boundary = .ok offset) :
      ∀ slot ∈ boundary.toList, slot ∈ list.order := by
    intro slot hslot
    rw [Option.mem_toList] at hslot
    exact Code.mem_order_of_offsetOf hencode (hslot ▸ hoffset)
  have hfilter : ∀ slot ∈ region.filterStart.toList, slot ∈ list.order := by
    rw [detailOf] at hdetail
    cases hfilter : region.filterStart with
    | none => simp
    | some filter =>
      rw [hfilter] at hdetail
      exact hplaced hdetail
  intro slot hslot
  simp only [Region.boundaries, List.mem_append, List.mem_cons, List.not_mem_nil, or_false] at hslot
  rcases hslot with ((((rfl | rfl) | hslot) | hslot) | hslot)
  · exact Code.mem_order_of_offsetOf hencode htry
  · exact Code.mem_order_of_offsetOf hencode hhandler
  · exact hplaced htryEnd slot hslot
  · exact hplaced hhandlerEnd slot hslot
  · exact hfilter slot hslot

/-- The boundaries of all regions that have clauses are placed. -/
theorem boundaries_of_clauses (hencode : Code.encode list = .ok encoded) {regions : List Region}
    {clauses : List Clause} (hclauses : regions.mapM (clauseOf encoded) = .ok clauses) :
    ∀ region ∈ regions, ∀ slot ∈ region.boundaries, slot ∈ list.order := by
  induction regions generalizing clauses with
  | nil => exact nofun
  | cons region rest ih =>
    obtain ⟨first, others, hfirst, hothers, -⟩ := mapM_cons_eq_ok_iff.mp hclauses
    exact List.forall_mem_cons.mpr ⟨boundaries_of_clauseOf hencode hfirst, ih hothers⟩

end Clauses

/-- A body is encoded when its code and its clauses are, and both can be stored. -/
theorem encode_eq_ok_iff {body : Body} {localSig : UInt32} {bytes : List UInt8} {relaxed : Nat} :
    body.encode localSig = .ok (bytes, relaxed) ↔
      ∃ encoded clauses, Code.encode body.instructions = .ok encoded ∧
        body.regions.mapM (clauseOf encoded) = .ok clauses ∧
        MethodHeader.encode ⟨encoded.code.length, 0, localSig, body.maxStack, false,
          body.initLocals, clauses⟩ encoded.code = .ok bytes ∧ relaxed = encoded.relaxed := by
  simp only [encode, bind_eq_ok_iff]
  constructor
  · rintro ⟨encoded, hencoded, clauses, hclauses, written, hwritten, h⟩
    obtain ⟨rfl, rfl⟩ := Prod.mk.inj (Except.ok.inj h)
    exact ⟨encoded, clauses, hencoded, hclauses, hwritten, rfl⟩
  · rintro ⟨encoded, clauses, hencoded, hclauses, hwritten, rfl⟩
    exact ⟨encoded, hencoded, clauses, hclauses, bytes, hwritten, rfl⟩

/-- A body whose instructions have a meaning and are placed once, and whose regions say what suits
their kinds. -/
structure Proper (body : Body) : Prop where
  valid : ∀ slot ∈ body.instructions.order, (body.instructions.get slot).opcode.isValid = true
  distinct : body.instructions.order.toList.Nodup
  typed : ∀ region ∈ body.regions, region.Typed

/-- What is read back of a body that was stored with a local signature: the instructions at their
places, the regions between the same instructions, and all else that is said about it. -/
structure ReadsBack (body : Body) (localSig : UInt32) (header : MethodHeader) (found : Body)
    (encoded : EncodedCode) (decoded : DecodedCode) (rename : Slot → Slot) : Prop where
  /-- The instructions are recovered, and only short branches are made long. -/
  code : Code.Recovers body.instructions encoded decoded rename
  instructions : found.instructions = decoded.instructions
  /-- Every boundary is an instruction with a position. -/
  boundaries : ∀ region ∈ body.regions, ∀ slot ∈ region.boundaries,
    slot ∈ body.instructions.order
  regions : found.regions = body.regions.map (Region.stored rename)
  initLocals : found.initLocals = body.initLocals
  localSig : found.localSig = localSig
  /-- A tiny header stands for eight values. -/
  maxStack : found.maxStack = body.maxStack ∨
    header.isFat = false ∧ found.maxStack = MethodHeader.tinyStack ∧
      body.maxStack ≤ MethodHeader.tinyStack

/-- A body that was stored is read back, whatever follows it. -/
theorem exists_readsBack {body : Body} (hproper : body.Proper) {localSig : UInt32}
    {bytes : List UInt8} {relaxed : Nat} (hencode : body.encode localSig = .ok (bytes, relaxed))
    (suffix : List UInt8) (declared : Nat) :
    ∃ header code found encoded decoded rename,
      MethodHeader.read (bytes ++ suffix).toArray = .ok header ∧
      header.code (bytes ++ suffix).toArray = .ok code ∧
      decode header code declared = .ok found ∧ relaxed = encoded.relaxed ∧
      body.ReadsBack localSig header found encoded decoded rename := by
  obtain ⟨encoded, clauses, hencoded, hclauses, hbytes, rfl⟩ := encode_eq_ok_iff.mp hencode
  obtain ⟨hread, hcode⟩ := MethodHeader.read_encode hbytes suffix
  obtain ⟨hsig, hinit, hkept, hstack⟩ := MethodHeader.stored_facts
    ⟨encoded.code.length, 0, localSig, body.maxStack, false, body.initLocals, clauses⟩
    encoded.code.length
  obtain ⟨decoded, hdecoded, rename, hrecovers⟩ := Code.exists_recovers hproper.valid
    hproper.distinct hencoded (MethodHeader.length_lt_of_encode hbytes)
  have hleads : Leads encoded decoded rename := by
    refine ⟨fun _ _ hoffset => hrecovers.slotAt_eq hencoded hoffset, fun _ _ hoffset => ?_⟩
    have hle := Code.le_size_of_slotAt hdecoded (hrecovers.slotAt_eq hencoded hoffset)
    exact Nat.lt_of_le_of_lt hle (MethodHeader.length_lt_of_encode hbytes)
  have hregions := hleads.mapM_regionOf hproper.typed hclauses
  rw [← hkept] at hregions
  exact ⟨_, _, _, encoded, decoded, rename, hread, hcode,
    bind_eq_ok_iff.mpr ⟨_, hdecoded, bind_eq_ok_iff.mpr ⟨_, hregions, rfl⟩⟩, rfl, hrecovers, rfl,
    boundaries_of_clauses hencoded hclauses, rfl, hinit, hsig, hstack⟩

end Body

/-- An encoded body reads back as itself, whatever follows it: when each instruction has a meaning
and is placed once, and the regions say what suits their kinds, the stored form is read, its code is
decoded, and the body that comes of it has the same instructions with the same targets, as many of
the short branches being long as the encoder says, and the same regions between the same
instructions, an open end staying open. Of a kind only the flags that have a meaning are kept, and a
null type of exceptions is read as none. The flag of the local variables and the given signature are
kept, and so is the limit of the stack unless the header is tiny. -/
theorem encoded_body_reads_back {body : Body}
    (hvalid : ∀ slot ∈ body.instructions.order, (body.instructions.get slot).opcode.isValid = true)
    (hdistinct : body.instructions.order.toList.Nodup)
    (htyped : ∀ region ∈ body.regions, region.Typed) (localSig : UInt32) (suffix : List UInt8)
    {bytes : List UInt8} {relaxed : Nat} (hencode : body.encode localSig = .ok (bytes, relaxed))
    (declared : Nat) :
    ∃ header code found encoded decoded rename,
      MethodHeader.read (bytes ++ suffix).toArray = .ok header ∧
      header.code (bytes ++ suffix).toArray = .ok code ∧
      Body.decode header code declared = .ok found ∧ relaxed = encoded.relaxed ∧
      body.ReadsBack localSig header found encoded decoded rename :=
  Body.exists_readsBack ⟨hvalid, hdistinct, htyped⟩ hencode suffix declared

/-- A region of a kind: the first instruction is protected, and the handler starts at the second one
and is open. -/
def openRegion (kind : UInt16) (catchType : Option Token) : Region :=
  ⟨kind, ⟨0⟩, some ⟨1⟩, ⟨1⟩, none, none, catchType⟩

/-- A short branch to the return behind it, with some regions. -/
def guardedBody (regions : List Region) : Body where
  instructions := .ofInstructions #[⟨.single 0x2B, .target ⟨1⟩⟩, ⟨.ret, .none⟩]
  regions := regions
  maxStack := 1
  initLocals := false
  localSig := 0
  declared := 0
  added := []

/-- The code of the short branch and the return is stored with any local signature, with the clauses
of the regions. -/
theorem encode_guardedBody {regions : List (UInt16 × Option Token)} {localSig : UInt32}
    {bytes : List UInt8} (added : List LocalSlot)
    (hbytes : MethodHeader.encode ⟨3, 0, localSig, 1, false, false,
      regions.map fun (kind, catchType) =>
        ⟨kind, 0, 2, 2, 1, ((catchType.map Token.value).getD 0)⟩⟩ [0x2B, 0x00, 0x2A] = .ok bytes) :
    Body.encode { guardedBody (regions.map fun (kind, catchType) => openRegion kind catchType) with
      added } localSig = .ok (bytes, 0) := by
  have hresolved := Code.resolved_branch
  obtain ⟨parts, hparts, hflatten⟩ := hresolved.exists_partsOf
  have hencode := Code.encode_eq_ok_iff.mpr ⟨hresolved.unplacedTarget?_eq, parts, hparts, rfl⟩
  have hoffset {offset : Nat} {slot : Slot} (hend : offset ≠ 3)
      (h : ([0, 2] : List Nat)[slot.index]? = some offset) :
      (Code.encodedOf (guardedBody []).instructions parts).offsetOf (some slot) = .ok offset := by
    refine hresolved.offsetOf_eq hflatten ((if_neg hend).trans ?_)
    rw [(Code.startsOf_eq_some_iff hresolved.written.distinct).mpr h]
  have hfirst : (Code.encodedOf (guardedBody []).instructions parts).offsetOf (some ⟨0⟩) = .ok 0 :=
    hoffset (by decide) rfl
  have hsecond : (Code.encodedOf (guardedBody []).instructions parts).offsetOf (some ⟨1⟩) = .ok 2 :=
    hoffset (by decide) rfl
  have hstop : (Code.encodedOf (guardedBody []).instructions parts).offsetOf none = .ok 3 := by
    rw [EncodedCode.offsetOf, Code.encodedOf, hflatten]
    rfl
  refine Body.encode_eq_ok_iff.mpr ⟨_, _, hencode, ?_, hflatten ▸ hbytes,
    (hresolved.relaxed_eq_zero parts).symm⟩
  refine mapM_eq_ok_iff.mpr ?_
  rw [guardedBody, List.forall₂_map_left_iff, List.forall₂_map_right_iff, List.forall₂_same]
  rintro ⟨kind, catchType⟩ -
  refine Body.clauseOf_eq_ok_iff.mpr
    ⟨0, 2, 2, 1, _, hfirst, hsecond, hsecond, hstop, rfl, ?_⟩
  cases catchType <;> simp [openRegion]

/-- The regions of the method suit their kinds when they say nothing besides their blocks, or catch
by type. -/
theorem proper_guardedBody {regions : List (UInt16 × Option Token)}
    (h : ∀ region ∈ regions, region.1 &&& Clause.filterFlag = 0 ∧
      (region.2.any (!·.isNull) = true → region.1 = 0)) :
    (guardedBody (regions.map fun (kind, catchType) => openRegion kind catchType)).Proper where
  valid := (by decide +kernel : ∀ slot ∈ (guardedBody []).instructions.order,
    ((guardedBody []).instructions.get slot).opcode.isValid = true)
  distinct := InstrList.nodup_order_ofInstructions _
  typed region hregion := by
    obtain ⟨⟨kind, catchType⟩, hmem, rfl⟩ := List.mem_map.mp hregion
    obtain ⟨hfilter, hcaught⟩ := h _ hmem
    refine ⟨⟨nofun, fun hne => absurd hfilter hne⟩, fun token htoken hnull => hcaught ?_⟩
    have htoken : catchType = some token := htoken
    simp [htoken, hnull]

/-- A method that catches exceptions of a type behind a short branch. -/
def catchingBody : Body := guardedBody [openRegion 0 (some ⟨0x01000001⟩)]

/-- The method that catches exceptions is read back. -/
theorem encoded_body_reads_back_catching :
    ∃ bytes header code found encoded decoded rename,
      catchingBody.encode 0 = .ok (bytes, 0) ∧
      MethodHeader.read (bytes ++ [0xFF]).toArray = .ok header ∧
      header.code (bytes ++ [0xFF]).toArray = .ok code ∧
      Body.decode header code 0 = .ok found ∧
      catchingBody.ReadsBack 0 header found encoded decoded rename := by
  have hproper := @proper_guardedBody [(0, some ⟨0x01000001⟩)] (by decide)
  have hencode := @encode_guardedBody [(0, some ⟨0x01000001⟩)] 0 _ [] rfl
  obtain ⟨header, code, found, encoded, decoded, rename, hread, hcode, hdecode, -, hback⟩ :=
    encoded_body_reads_back hproper.valid hproper.distinct hproper.typed 0 [0xFF] hencode 0
  exact ⟨_, header, code, found, encoded, decoded, rename, hencode, hread, hcode, hdecode, hback⟩

/-- A method with a region that catches a null type and with one whose kind has no meaning. -/
def vagueBody : Body := guardedBody [openRegion 0 (some .null), openRegion 8 none]

/-- Neither the null type nor the kind without meaning is read back. -/
theorem vagueBody_not_kept :
    vagueBody.Proper ∧ ∃ bytes header code found, vagueBody.encode 0 = .ok (bytes, 0) ∧
      MethodHeader.read bytes.toArray = .ok header ∧ header.code bytes.toArray = .ok code ∧
      Body.decode header code 0 = .ok found ∧
      found.regions.map Region.catchType ≠ vagueBody.regions.map Region.catchType ∧
      found.regions.map Region.kind ≠ vagueBody.regions.map Region.kind := by
  have hproper := @proper_guardedBody [(0, some .null), (8, none)] (by decide)
  have hencode := @encode_guardedBody [(0, some .null), (8, none)] 0 _ [] rfl
  obtain ⟨header, code, found, encoded, decoded, rename, hread, hcode, hdecode, -, hback⟩ :=
    Body.exists_readsBack hproper hencode [] 0
  rw [List.append_nil] at hread hcode
  refine ⟨hproper, _, header, code, found, hencode, hread, hcode, hdecode, ?_, ?_⟩
  · have hcaught : found.regions.map Region.catchType = [none, none] := by
      rw [hback.regions]
      rfl
    rw [hcaught]
    decide
  · have hkinds : found.regions.map Region.kind = [0, 0] := by
      rw [hback.regions]
      rfl
    rw [hkinds]
    decide

end CilPatch
