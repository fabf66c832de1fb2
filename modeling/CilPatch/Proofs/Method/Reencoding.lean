import CilPatch.Proofs.Method.Body
import CilPatch.Proofs.Method.Extent

/-!
# Untouched bodies

A body that was read and is stored again is laid out anew: its sections become one, its header takes
the least size, and its clauses are as small as they can be. The code is stored as it was, so every
offset stays where it was, and a clause loses only a detail that its kind gives no meaning.
-/

namespace CilPatch

open LittleEndian

/-! ## Clauses that were read -/

/-- Each of several results that were read was read somewhere. -/
theorem Read.exists_of_mem_many {α : Type} {step : Read α} {count : Nat} {values : List α}
    {before after : Cursor} (h : (many step count).run before = (.ok values, after)) :
    ∀ value ∈ values, ∃ start stop, step.run start = (.ok value, stop) := by
  induction count generalizing before after values with
  | zero =>
    obtain rfl := Except.ok.inj (Prod.mk.inj h).1
    exact nofun
  | succ count ih =>
    obtain ⟨first, middle, hfirst, h⟩ := run_bind_eq_ok_iff.mp h
    obtain ⟨rest, last, hrest, h⟩ := run_bind_eq_ok_iff.mp h
    obtain rfl := Except.ok.inj (Prod.mk.inj h).1
    exact List.forall_mem_cons.mpr ⟨⟨before, middle, hfirst⟩, ih hrest⟩

namespace Clause

/-- A clause is known when it has no other flags. -/
theorem known_eq_self_iff {clause : Clause} :
    clause.known = clause ↔ clause.flags &&& knownFlags = clause.flags :=
  ⟨congrArg Clause.flags, fun h => congrArg (fun flags => { clause with flags }) h⟩

/-- Flags of which the known ones are kept are known. -/
theorem known_of_flags_eq {clause : Clause} (flags : UInt16)
    (h : clause.flags = flags &&& knownFlags) : clause.known = clause := by
  rw [known_eq_self_iff, h, UInt16.and_assoc, UInt16.and_self]

/-- A small clause that was read has known flags. -/
theorem known_of_readSmall {clause : Clause} {before after : Cursor}
    (h : readSmall.run before = (.ok clause, after)) : clause.known = clause := by
  obtain ⟨flags, _, -, h⟩ := run_bind_eq_ok_iff.mp h
  obtain ⟨_, _, -, h⟩ := run_bind_eq_ok_iff.mp h
  obtain ⟨_, _, -, h⟩ := run_bind_eq_ok_iff.mp h
  obtain ⟨_, _, -, h⟩ := run_bind_eq_ok_iff.mp h
  obtain ⟨_, _, -, h⟩ := run_bind_eq_ok_iff.mp h
  obtain ⟨_, _, -, h⟩ := run_bind_eq_ok_iff.mp h
  obtain rfl := Except.ok.inj (Prod.mk.inj h).1
  exact known_of_flags_eq flags rfl

/-- A fat clause that was read has known flags. -/
theorem known_of_readFat {clause : Clause} {before after : Cursor}
    (h : readFat.run before = (.ok clause, after)) : clause.known = clause := by
  obtain ⟨flags, _, -, h⟩ := run_bind_eq_ok_iff.mp h
  obtain ⟨_, _, -, h⟩ := run_bind_eq_ok_iff.mp h
  obtain ⟨_, _, -, h⟩ := run_bind_eq_ok_iff.mp h
  obtain ⟨_, _, -, h⟩ := run_bind_eq_ok_iff.mp h
  obtain ⟨_, _, -, h⟩ := run_bind_eq_ok_iff.mp h
  obtain ⟨_, _, -, h⟩ := run_bind_eq_ok_iff.mp h
  obtain rfl := Except.ok.inj (Prod.mk.inj h).1
  exact known_of_flags_eq flags.toUInt16 rfl

end Clause

namespace Section

variable {data : Bytes} {found : List Clause}

/-- The clauses of a section have known flags. -/
theorem known_of_clauses {start size : Nat} {fat : Bool}
    (h : clauses data start size fat = .ok found) : ∀ clause ∈ found, clause.known = clause := by
  intro clause hclause
  obtain ⟨_, _, hstep⟩ | ⟨_, _, hstep⟩ :
      (∃ start stop, Clause.readFat.run start = (.ok clause, stop)) ∨
        ∃ start stop, Clause.readSmall.run start = (.ok clause, stop) := by
    cases fat with
    | true => exact .inl (Read.exists_of_mem_many (Prod.ext h rfl) clause hclause)
    | false => exact .inr (Read.exists_of_mem_many (Prod.ext h rfl) clause hclause)
  · exact Clause.known_of_readFat hstep
  · exact Clause.known_of_readSmall hstep

/-- The clauses of all sections of a body have known flags. -/
theorem known_of_readFrom {fuel start : Nat} (h : readFrom data fuel start = .ok found) :
    ∀ clause ∈ found, clause.known = clause := by
  induction fuel generalizing start found with
  | zero => cases h
  | succ fuel ih =>
    obtain ⟨-, -, -, own, later, hown, hlater, rfl⟩ := readFrom_succ_eq_ok_iff.mp h
    refine List.forall_mem_append.mpr ⟨?_, ?_⟩
    · simp only [ownClauses] at hown
      split at hown
      · exact known_of_clauses hown
      · obtain rfl := Except.ok.inj hown
        exact List.forall_mem_nil _
    · simp only [laterClauses] at hlater
      split at hlater
      · exact ih hlater
      · obtain rfl := Except.ok.inj hlater
        exact List.forall_mem_nil _

end Section

namespace MethodHeader

variable {data : Bytes} {header : MethodHeader}

/-- The clauses of a header that was read have known flags. -/
theorem known_of_read (h : read data = .ok header) :
    ∀ clause ∈ header.clauses, clause.known = clause := by
  rcases read_cases h with ⟨first, -, rfl⟩ | h
  · exact nofun
  · obtain ⟨-, -, -, clauses, hclauses, rfl⟩ := readFat_eq_ok_iff.mp h
    unfold clausesBehind at hclauses
    split at hclauses
    · exact Section.known_of_readFrom hclauses
    · obtain rfl := Except.ok.inj hclauses
      exact nofun

/-- The stack of a header that was read can be stored. -/
theorem maxStack_lt_of_read (h : read data = .ok header) : header.maxStack < UInt16.size := by
  rcases read_cases h with ⟨first, -, rfl⟩ | h
  · exact (by decide : tinyStack < UInt16.size)
  · obtain ⟨-, -, -, clauses, -, rfl⟩ := readFat_eq_ok_iff.mp h
    exact wordAt_lt data 2 2

end MethodHeader

/-! ## Code and clauses that are stored again -/

/-- A clause with a detail only where its kind gives it a meaning: it catches by type, or it has a
filter. -/
def Clause.meant (clause : Clause) : Clause :=
  if clause.flags = 0 ∨ clause.flags &&& filterFlag ≠ 0 then clause else { clause with detail := 0 }

/-- A clause that has no other flags than the known ones has none without its detail. -/
theorem Clause.known_meant {clause : Clause} (h : clause.known = clause) :
    clause.meant.known = clause.meant := by
  unfold meant
  split
  · exact h
  · have hflags := known_eq_self_iff.mp h
    exact known_eq_self_iff.mpr hflags

namespace Body

/-- What a clause says besides its blocks is what its region says, as far as it has a meaning. -/
theorem detailOf_eq_of_regionOf {encoded : EncodedCode} {decoded : DecodedCode} {region : Region}
    {clause : Clause}
    (hstart : ∀ {offset : UInt32} {slot : Slot}, startSlot decoded offset = .ok slot →
      encoded.offsetOf (some slot) = .ok offset.toNat)
    (hfilter : filterOf decoded clause = .ok region.filterStart)
    (hcaught : region.catchType = caughtOf clause) :
    detailOf encoded region = .ok clause.meant.detail.toNat := by
  unfold filterOf at hfilter
  unfold detailOf Clause.meant
  split at hfilter
  · next hflag =>
    obtain ⟨slot, hslot, hsome⟩ := map_eq_ok_iff.mp hfilter
    rw [← hsome, if_pos (.inr hflag)]
    exact hstart hslot
  · next hflag =>
    rw [← Except.ok.inj hfilter, hcaught]
    unfold caughtOf
    by_cases hkind : clause.flags = 0
    · by_cases hdetail : clause.detail = 0
      · simp [hkind, hdetail]
      · simp [hkind, hdetail]
    · simp [hkind, hflag]

/-- The clause of a region that was read off a clause is that clause, as far as it has a meaning,
where every instruction is stored at the offset it was read from. -/
theorem clauseOf_eq_of_regionOf {encoded : EncodedCode} {decoded : DecodedCode} {region : Region}
    {clause : Clause}
    (hoffset : ∀ {offset : Nat} {found : Option Slot}, decoded.slotAt offset = .ok found →
      encoded.offsetOf found = .ok offset)
    (h : regionOf decoded clause = .ok region) : clauseOf encoded region = .ok clause.meant := by
  obtain ⟨htry, htryEnd, hhandler, hhandlerEnd, hfilter, hkind, hcaught⟩ := regionOf_eq_ok_iff.mp h
  have hstart {offset : UInt32} {slot : Slot} (h : startSlot decoded offset = .ok slot) :
      encoded.offsetOf (some slot) = .ok offset.toNat := by
    obtain ⟨found, hfound, h⟩ := bind_eq_ok_iff.mp h
    cases found with
    | none => cases h
    | some other =>
      obtain rfl := Except.ok.inj h
      exact hoffset hfound
  have hend {offset length : UInt32} {found : Option Slot}
      (h : endSlot decoded offset length = .ok found) :
      encoded.offsetOf found = .ok (offset.toNat + length.toNat) := by
    unfold endSlot at h
    split at h
    · cases h
    · exact hoffset h
  refine clauseOf_eq_ok_iff.mpr ⟨_, _, _, _, _, hstart htry, hend htryEnd, hstart hhandler,
    hend hhandlerEnd, detailOf_eq_of_regionOf hstart hfilter hcaught, ?_⟩
  simp only [UInt32.ofNat_toNat, hkind]
  unfold Clause.meant
  split <;> rfl

/-- An untouched body is stored with the code that it was read with and with its clauses, as far as
they have a meaning. No branch is made long. -/
theorem encode_eq_ok_iff_of_decode {header : MethodHeader} {code : Bytes} {declared : Nat}
    {body : Body} (h : decode header code declared = .ok body) {localSig : UInt32}
    {bytes : List UInt8} {relaxed : Nat} :
    body.encode localSig = .ok (bytes, relaxed) ↔ relaxed = 0 ∧
      MethodHeader.encode ⟨code.size, 0, localSig, header.maxStack, false, header.initLocals,
        header.clauses.map Clause.meant⟩ code.toList = .ok bytes := by
  obtain ⟨decoded, hdecoded, h⟩ := bind_eq_ok_iff.mp h
  obtain ⟨regions, hregions, h⟩ := bind_eq_ok_iff.mp h
  obtain rfl := Except.ok.inj h
  obtain ⟨encoded, hencoded, hcode, hrelaxed, hoffset⟩ := Code.exists_encode_of_decode hdecoded
  have hclauses : regions.mapM (clauseOf encoded) = .ok (header.clauses.map Clause.meant) := by
    rw [mapM_eq_ok_iff, List.forall₂_map_right_iff]
    exact (mapM_eq_ok_iff.mp hregions).flip.imp fun region clause hregion =>
      clauseOf_eq_of_regionOf (hoffset _ _) hregion
  rw [encode_eq_ok_iff]
  constructor
  · rintro ⟨found, clauses, hfound, hlist, hbytes, rfl⟩
    obtain rfl := Except.ok.inj (hencoded.symm.trans hfound)
    obtain rfl := Except.ok.inj (hclauses.symm.trans hlist)
    rw [hcode, Array.length_toList] at hbytes
    exact ⟨hrelaxed, hbytes⟩
  · rintro ⟨rfl, hbytes⟩
    refine ⟨encoded, _, hencoded, hclauses, ?_, hrelaxed.symm⟩
    rw [hcode, Array.length_toList]
    exact hbytes

end Body

/-- A section holds clauses as long as its size fits three bytes. -/
theorem Section.exists_encode_iff {list : List Clause} :
    (∃ bytes, encode list = .ok bytes) ↔
      headerSize + list.length * Clause.fatSize ≤ 0xFFFFFF := by
  unfold encode
  dsimp only
  by_cases hsmall : headerSize + list.length * Clause.smallSize ≤ 0xFF ∧
      list.all Clause.fitsSmall = true
  · have hfew := hsmall.1
    rw [if_pos hsmall]
    simp only [headerSize, Clause.smallSize, Clause.fatSize] at hfew ⊢
    exact ⟨fun _ => by omega, fun _ => ⟨_, rfl⟩⟩
  · rw [if_neg hsmall]
    by_cases hmany : 0xFFFFFF < headerSize + list.length * Clause.fatSize
    · rw [if_pos hmany]
      constructor
      · rintro ⟨bytes, h⟩
        cases h
      · intro hle
        exact absurd hle (Nat.not_le.mpr hmany)
    · rw [if_neg hmany]
      exact ⟨fun _ => Nat.not_lt.mp hmany, fun _ => ⟨_, rfl⟩⟩

/-- A body whose stack and code can be stored is stored unless it has more clauses than a section
holds. -/
theorem MethodHeader.exists_encode_iff {header : MethodHeader} {code : List UInt8}
    (hstack : header.maxStack < UInt16.size) (hcode : code.length < UInt32.size) :
    (∃ bytes, header.encode code = .ok bytes) ↔
      Section.headerSize + header.clauses.length * Clause.fatSize ≤ 0xFFFFFF := by
  unfold encode
  dsimp only
  rw [if_neg (Nat.not_le.mpr hstack), if_neg (Nat.not_le.mpr hcode)]
  by_cases hnone : header.clauses = []
  · rw [hnone]
    refine ⟨fun _ => by decide, fun _ => ?_⟩
    split <;> exact ⟨_, rfl⟩
  · have htiny : ¬header.isTiny code.length = true := fun htiny =>
      hnone (isTiny_iff.mp htiny).2.2.2.2
    rw [if_neg htiny, if_neg (by rwa [List.isEmpty_iff]), ← Section.exists_encode_iff]
    constructor
    · rintro ⟨bytes, h⟩
      obtain ⟨written, hwritten, -⟩ := bind_eq_ok_iff.mp h
      exact ⟨written, hwritten⟩
    · rintro ⟨written, hwritten⟩
      exact ⟨_, bind_eq_ok_iff.mpr ⟨written, hwritten, rfl⟩⟩

/-- An untouched body is stored again unless it has more clauses than a section holds. -/
theorem Body.exists_encode_iff_of_read {data code : Bytes} {header : MethodHeader} {declared : Nat}
    {body : Body} (hread : MethodHeader.read data = .ok header)
    (hdecode : decode header code declared = .ok body) (localSig : UInt32) :
    (∃ bytes, body.encode localSig = .ok (bytes, 0)) ↔
      Section.headerSize + header.clauses.length * Clause.fatSize ≤ 0xFFFFFF := by
  obtain ⟨decoded, hdecoded, -⟩ := bind_eq_ok_iff.mp hdecode
  have hcode : code.toList.length < UInt32.size := (Code.decode_eq_ok_iff.mp hdecoded).1
  have hstack := MethodHeader.maxStack_lt_of_read hread
  have hstored := @MethodHeader.exists_encode_iff ⟨code.size, 0, localSig, header.maxStack, false,
    header.initLocals, header.clauses.map Clause.meant⟩ code.toList hstack hcode
  simp only [List.length_map] at hstored
  simp only [encode_eq_ok_iff_of_decode hdecode, true_and, hstored]

/-- An untouched body that is stored with its own local signature is read back: no branch was made
long, and the code is the same byte for byte. The local signature and the flag of the local variables
are the same, the stack is not smaller, and the clauses are the same one by one, except that a clause
which neither catches by type nor has a filter has no detail. -/
theorem untouched_body_reads_back {data code : Bytes} {header : MethodHeader} {declared : Nat}
    {body : Body} (hread : MethodHeader.read data = .ok header)
    (hdecode : Body.decode header code declared = .ok body) {bytes : List UInt8} {relaxed : Nat}
    (hencode : body.encode header.localSig = .ok (bytes, relaxed)) :
    relaxed = 0 ∧ ∃ again, MethodHeader.read bytes.toArray = .ok again ∧
      again.code bytes.toArray = .ok code ∧ again.localSig = header.localSig ∧
      again.initLocals = header.initLocals ∧ header.maxStack ≤ again.maxStack ∧
      again.clauses = header.clauses.map Clause.meant := by
  obtain ⟨hrelaxed, hbytes⟩ := (Body.encode_eq_ok_iff_of_decode hdecode).mp hencode
  obtain ⟨hagain, hcode⟩ := MethodHeader.read_encode hbytes []
  rw [List.append_nil] at hagain hcode
  obtain ⟨hsig, hinit, hclauses, hstack⟩ := MethodHeader.stored_facts
    ⟨code.size, 0, header.localSig, header.maxStack, false, header.initLocals,
      header.clauses.map Clause.meant⟩ code.toList.length
  refine ⟨hrelaxed, _, hagain, by rw [hcode, Array.toArray_toList], hsig, hinit, ?_, ?_⟩
  · rcases hstack with hsame | ⟨-, htiny, hle⟩
    · exact Nat.le_of_eq hsame.symm
    · rw [htiny]
      exact hle
  · rw [hclauses, List.map_map]
    exact List.map_congr_left fun clause hclause =>
      Clause.known_meant (MethodHeader.known_of_read hread clause hclause)

/-- A body with a header that is longer than it needs to be, behind whose code a small section is
followed by a fat one. -/
def chainedData : Bytes := #[
  0x0B, 0x40, 1, 0, 3, 0, 0, 0, 0, 0, 0, 0, 0xAA, 0xAA, 0xAA, 0xAA, 0x2B, 0x00, 0x2A, 0,
  0x81, 16, 0, 0, 2, 0, 0, 0, 2, 2, 0, 1, 5, 0, 0, 0,
  0x41, 28, 0, 0, 0, 0, 0, 0, 0, 0, 0, 0, 2, 0, 0, 0, 2, 0, 0, 0, 1, 0, 0, 0, 1, 0, 0, 1]

/-- The header of the body. The detail of the first clause has no meaning. -/
def chainedHeader : MethodHeader := ⟨3, 16, 0, 1, true, false, [
  ⟨2, 0, 2, 2, 1, 5⟩, ⟨0, 0, 2, 2, 1, 0x01000001⟩]⟩

/-- The code of the body is decoded, with clauses whose protected block is the branch and whose handler
is the return. -/
theorem exists_decode_chained {header : MethodHeader}
    (h : ∀ clause ∈ header.clauses, clause.tryOffset = 0 ∧ clause.tryLength = 2 ∧
      clause.handlerOffset = 2 ∧ clause.handlerLength = 1 ∧
      clause.flags &&& Clause.filterFlag = 0) :
    ∃ body, Body.decode header #[0x2B, 0x00, 0x2A] 0 = .ok body := by
  have hresolved := Code.resolved_branch
  obtain ⟨decoded, hdecoded, hslot, hend⟩ : ∃ decoded,
      Code.decode #[0x2B, 0x00, 0x2A] = .ok decoded ∧
      (∀ {offset : Nat} {slot : Slot}, offset ≠ 3 →
        ([0, 2] : List Nat)[slot.index]? = some offset →
        decoded.slotAt offset = .ok (some slot)) ∧ decoded.slotAt 3 = .ok none := by
    refine ⟨_, Code.decode_eq_ok_iff.mpr ⟨by decide, _, _, hresolved.written, hresolved.resolved,
      rfl⟩, fun hend hslot => ?_, rfl⟩
    refine (if_neg hend).trans ?_
    rw [(Code.startsOf_eq_some_iff hresolved.written.distinct).mpr hslot]
  have hfirst : decoded.slotAt 0 = .ok (some ⟨0⟩) := hslot (by decide) rfl
  have hsecond : decoded.slotAt 2 = .ok (some ⟨1⟩) := hslot (by decide) rfl
  obtain ⟨regions, hregions⟩ : ∃ regions,
      header.clauses.mapM (Body.regionOf decoded) = .ok regions := by
    refine exists_mapM_eq_ok_iff.mpr fun clause hclause => ?_
    obtain ⟨htry, htryLength, hhandler, hhandlerLength, hflag⟩ := h clause hclause
    refine ⟨openRegion clause.flags (Body.caughtOf clause), Body.regionOf_eq_ok_iff.mpr
      ⟨?_, ?_, ?_, ?_, if_neg (not_not.mpr hflag), rfl, rfl⟩⟩
    · rw [htry]
      exact bind_eq_ok_iff.mpr ⟨_, hfirst, rfl⟩
    · rw [htry, htryLength]
      exact hsecond
    · rw [hhandler]
      exact bind_eq_ok_iff.mpr ⟨_, hsecond, rfl⟩
    · rw [hhandler, hhandlerLength]
      exact hend
  exact ⟨_, bind_eq_ok_iff.mpr ⟨decoded, hdecoded, bind_eq_ok_iff.mpr ⟨regions, hregions, rfl⟩⟩⟩

/-- The body with two sections is stored in one, and read back without the detail. -/
theorem untouched_body_reads_back_chained :
    MethodHeader.read chainedData = .ok chainedHeader ∧
      chainedHeader.code chainedData = .ok #[0x2B, 0x00, 0x2A] ∧
      ∃ body bytes, Body.decode chainedHeader #[0x2B, 0x00, 0x2A] 0 = .ok body ∧
        body.encode 0 = .ok (bytes, 0) ∧ ∃ again, MethodHeader.read bytes.toArray = .ok again ∧
          again.code bytes.toArray = .ok #[0x2B, 0x00, 0x2A] ∧
          again.clauses = [⟨2, 0, 2, 2, 1, 0⟩, ⟨0, 0, 2, 2, 1, 0x01000001⟩] := by
  have hread : MethodHeader.read chainedData = .ok chainedHeader :=
    eq_ok_of_toOption (by decide +kernel)
  obtain ⟨body, hdecode⟩ := @exists_decode_chained chainedHeader (by decide)
  obtain ⟨bytes, hencode⟩ := (Body.exists_encode_iff_of_read hread hdecode 0).mpr (by decide)
  obtain ⟨-, again, hagain, hcode, -, -, -, hclauses⟩ :=
    untouched_body_reads_back hread hdecode hencode
  exact ⟨hread, eq_ok_of_toOption (by decide +kernel), body, bytes, hdecode, hencode, again, hagain,
    hcode, hclauses⟩

end CilPatch
