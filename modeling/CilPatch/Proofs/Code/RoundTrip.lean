import CilPatch.Proofs.Code.Recovery
import CilPatch.Proofs.Code.Reencoding

/-!
# Round trips

What is encoded is decoded to the same instructions, each in its place, and what is decoded is
encoded to the same bytes.
-/

namespace CilPatch

/-- A short branch to the return that follows it is decoded as such. -/
theorem Code.resolved_branch : Code.Resolved [0x2B, 0x00, 0x2A]
    #[⟨0, .single 0x2B, .jump 2⟩, ⟨2, .ret, .ready .none⟩]
    [⟨.single 0x2B, .target ⟨1⟩⟩, ⟨.ret, .none⟩] := by
  have hkind : (Opcode.single 0x2B).operandKind = .branch8 := by decide +kernel
  have hret : Opcode.ret.operandKind = .none := by decide +kernel
  have hbranch : Written (Opcode.single 0x2B).operandKind 2 (.jump 2) [0x00] := by
    rw [hkind]
    exact @Written.word .branch8 2 1 0 rfl (LittleEndian.range_pos 1)
  have hreturn : Written Opcode.ret.operandKind 3 (.ready .none) [] := by
    rw [hret]
    exact @Written.word .none 3 0 0 rfl (LittleEndian.range_pos 0)
  have hlast : WrittenCode 2 [⟨2, .ret, .ready .none⟩] [0x2A] :=
    @WrittenCode.cons 2 .ret (.ready .none) [] [] [] (by decide +kernel) hreturn .nil
  have hwritten : WrittenCode 0 [⟨0, .single 0x2B, .jump 2⟩, ⟨2, .ret, .ready .none⟩]
      [0x2B, 0x00, 0x2A] :=
    @WrittenCode.cons 0 (.single 0x2B) (.jump 2) _ [0x00] [0x2A] (by decide +kernel) hbranch hlast
  refine ⟨hwritten, ?_⟩
  have hfound : Code.resolve (Code.startsOf
      #[⟨0, .single 0x2B, .jump 2⟩, ⟨2, .ret, .ready .none⟩]) 2 = .ok ⟨1⟩ :=
    Code.resolve_eq_ok_iff.mpr ⟨2, rfl, (Code.startsOf_eq_some_iff hwritten.distinct).mpr rfl⟩
  refine mapM_cons_eq_ok_iff.mpr ⟨_, _, ?_, rfl, rfl⟩
  exact bind_eq_ok_iff.mpr ⟨_, by rw [Code.RawOperand.resolve, hfound]; rfl, rfl⟩

/-- Encoding, then decoding gives the same program: what a list of instructions that have a meaning
and are placed once is encoded to is decoded, unless it is too long to be, and every instruction is
recovered at its position. -/
theorem encoded_decodes {list : InstrList} {encoded : EncodedCode}
    (hvalid : ∀ slot ∈ list.order, (list.get slot).opcode.isValid = true)
    (hdistinct : list.order.toList.Nodup) (hencode : Code.encode list = .ok encoded)
    (hsize : encoded.code.length < UInt32.size) :
    ∃ decoded, Code.decode encoded.code.toArray = .ok decoded ∧
      ∃ rename, Code.Recovers list encoded decoded rename :=
  Code.exists_recovers hvalid hdistinct hencode hsize

/-- A short branch to the return that follows it is encoded and then decoded. -/
theorem encoded_decodes_branch :
    ∃ encoded, Code.encode (.ofInstructions #[⟨.single 0x2B, .target ⟨1⟩⟩, ⟨.ret, .none⟩]) =
        .ok encoded ∧ encoded.code = [0x2B, 0x00, 0x2A] ∧
      ∃ decoded, Code.decode encoded.code.toArray = .ok decoded ∧ ∃ rename, Code.Recovers
        (.ofInstructions #[⟨.single 0x2B, .target ⟨1⟩⟩, ⟨.ret, .none⟩]) encoded decoded rename := by
  have hresolved := Code.resolved_branch
  obtain ⟨parts, hparts, hflatten⟩ := hresolved.exists_partsOf
  have hencode := Code.encode_eq_ok_iff.mpr ⟨hresolved.unplacedTarget?_eq, parts, hparts, rfl⟩
  refine ⟨_, hencode, hflatten, encoded_decodes ?_ ?_ hencode ?_⟩
  · decide +kernel
  · exact InstrList.nodup_order_ofInstructions _
  · rw [Code.encodedOf, hflatten]
    decide

/-- Decoding, then encoding gives the same bytes: what code is decoded to is encoded to that code,
no short branch is relaxed, and each offset that is an instruction or the end is the offset of
that. -/
theorem decoded_encodes {code : Bytes} {decoded : DecodedCode}
    (hdecode : Code.decode code = .ok decoded) :
    ∃ encoded, Code.encode decoded.instructions = .ok encoded ∧ encoded.code = code.toList ∧
      encoded.relaxed = 0 ∧ ∀ offset found, decoded.slotAt offset = .ok found →
        encoded.offsetOf found = .ok offset :=
  Code.exists_encode_of_decode hdecode

/-- A short branch to the return that follows it is decoded and then encoded. -/
theorem decoded_encodes_branch :
    ∃ decoded, Code.decode #[0x2B, 0x00, 0x2A] = .ok decoded ∧
      ∃ encoded, Code.encode decoded.instructions = .ok encoded ∧
        encoded.code = [0x2B, 0x00, 0x2A] ∧ encoded.relaxed = 0 ∧
        ∀ offset found, decoded.slotAt offset = .ok found →
          encoded.offsetOf found = .ok offset := by
  have hresolved := Code.resolved_branch
  have hdecode : Code.decode #[0x2B, 0x00, 0x2A] = .ok _ := Code.decode_eq_ok_iff.mpr
    ⟨by decide, _, _, hresolved.written, hresolved.resolved, rfl⟩
  exact ⟨_, hdecode, decoded_encodes hdecode⟩

end CilPatch
