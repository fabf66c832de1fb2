import CilPatch.Proofs.Assembly.Survival
import CilPatch.Proofs.Method.Reencoding
import CilPatch.Proofs.Method.Strict

/-!
# Bodies in an image that goes on

A body is given the bytes from its place to the end of the image, since only the body says how long
it is. It is read from its own bytes nevertheless, so an image that goes on has the bodies that it
had.
-/

namespace CilPatch

namespace Assembly

variable {assembly : Assembly} {token : Token}

/-- An assembly whose image goes on with more bytes. -/
def grow (assembly : Assembly) (more : Bytes) : Assembly :=
  { assembly with image := { assembly.image with data := assembly.image.data ++ more } }

/-- The bytes from an offset on go on as the image does. -/
theorem bytesFrom_grow {offset : Nat} (hle : offset ≤ assembly.image.size) (more : Bytes) :
    (assembly.grow more).bytesFrom offset = assembly.bytesFrom offset ++ more := by
  have hrest (bytes : Bytes) :
      (bytes.extract offset bytes.size).toList = bytes.toList.drop offset := by
    rw [Array.toList_extract, List.extract_eq_take_drop, List.take_of_length_le]
    rw [List.length_drop, Array.length_toList]
  have hboth := hrest (assembly.image.data ++ more)
  rw [Array.toList_append, List.drop_append_of_le_length hle, ← hrest, ← Array.toList_append]
    at hboth
  exact Array.toList_inj.mp hboth

/-- What is read for a body is read in an image that goes on. -/
theorem Reads.grow {method : MethodDefRow} {offset declared : Nat} {header : MethodHeader}
    {code : Bytes} (h : assembly.Reads token method offset header code declared) (more : Bytes) :
    (assembly.grow more).Reads token method offset header code declared where
  found := h.found
  address := h.address
  intermediate := h.intermediate
  leads := h.leads
  inside := by
    change offset ≤ (assembly.image.data ++ more).size
    rw [Array.size_append]
    exact Nat.le_add_right_of_le h.inside
  read := by
    rw [bytesFrom_grow h.inside]
    exact MethodHeader.read_append h.read more
  stored := by
    rw [bytesFrom_grow h.inside]
    exact MethodHeader.code_append h.stored more
  locals := h.locals

/-- A stored body is the same in an image that goes on. -/
theorem storedBody_grow {body : Body} (h : assembly.storedBody token = .ok body) (more : Bytes) :
    (assembly.grow more).storedBody token = .ok body := by
  obtain ⟨method, offset, header, code, declared, hreads, hdecode⟩ := storedBody_eq_ok_iff.mp h
  exact storedBody_eq_ok_iff.mpr
    ⟨method, offset, header, code, declared, hreads.grow more, hdecode⟩

end Assembly

/-- **A body is read from its own bytes.** For every block in memory, the passes over the sections
lead at least four bytes further each, and a strict reading, which has no result when it looks at a
byte that is not there or does not end, has the result of the reading. Where a header is read, its
code is there, and whatever follows the block, the same header and the same code are read. So an
image that goes on has the stored bodies that it had. -/
theorem body_read_from_own_bytes :
    (∀ data : Bytes,
      (data.size < 2 ^ 63 →
        (∀ start own next,
          (Strict.pass data start).run = some (.ok (own, some next)) → start + 4 ≤ next) ∧
        (Strict.readHeader data).run = some (MethodHeader.read data)) ∧
      ∀ header, MethodHeader.read data = .ok header →
        ∃ code, header.code data = .ok code ∧ ∀ suffix,
          MethodHeader.read (data ++ suffix) = .ok header ∧
          header.code (data ++ suffix) = .ok code) ∧
    ∀ (assembly : Assembly) (token : Token) (body : Body) (suffix : Bytes),
      assembly.storedBody token = .ok body →
        (assembly.grow suffix).storedBody token = .ok body := by
  refine ⟨fun data => ⟨fun hmemory => ⟨fun start own next hpass => ?_, ?_⟩,
    fun header hread => ?_⟩, fun assembly token body suffix h => Assembly.storedBody_grow h suffix⟩
  · rw [Strict.pass_eq] at hpass
    exact Strict.le_of_pass hmemory (Option.some.inj hpass)
  · rw [Strict.readHeader_eq hmemory]
    rfl
  · obtain ⟨code, hcode⟩ := MethodHeader.exists_code_of_read hread
    exact ⟨code, hcode, fun suffix =>
      ⟨MethodHeader.read_append hread suffix, MethodHeader.code_append hcode suffix⟩⟩

/-- Behind the first section of the body with two sections, a pass leads to the second one. In front
of a section that is not its own the body is read as it was, and so is a body of the small image. -/
theorem body_read_from_own_bytes_chained :
    chainedData.size < 2 ^ 63 ∧
      (Strict.pass chainedData 20).run = some (.ok ([⟨2, 0, 2, 2, 1, 5⟩], some 36)) ∧ 20 + 4 ≤ 36 ∧
      (Strict.readHeader chainedData).run = some (.ok chainedHeader) ∧
      MethodHeader.read (chainedData ++ #[0x41, 4, 0, 0]) = .ok chainedHeader ∧
      chainedHeader.code (chainedData ++ #[0x41, 4, 0, 0]) = .ok #[0x2B, 0x00, 0x2A] ∧
      ∃ stored, Assembly.smallAssembly.storedBody ⟨0x06000001⟩ = .ok stored ∧
        (Assembly.smallAssembly.grow #[0x41, 4, 0, 0]).storedBody ⟨0x06000001⟩ = .ok stored := by
  obtain ⟨hbytes, hgrown⟩ := body_read_from_own_bytes
  obtain ⟨hstrict, hsuffix⟩ := hbytes chainedData
  have hmemory : chainedData.size < 2 ^ 63 := by decide
  obtain ⟨hfurther, hends⟩ := hstrict hmemory
  have hread : MethodHeader.read chainedData = .ok chainedHeader :=
    eq_ok_of_toOption (by decide +kernel)
  have hpass : Section.pass chainedData 20 = .ok ([⟨2, 0, 2, 2, 1, 5⟩], some 36) :=
    eq_ok_of_toOption (by decide +kernel)
  have hlooked : (Strict.pass chainedData 20).run =
      some (.ok ([⟨2, 0, 2, 2, 1, 5⟩], some 36)) := by
    rw [Strict.pass_eq, hpass]
    rfl
  obtain ⟨code, hcode, hsame⟩ := hsuffix chainedHeader hread
  obtain ⟨hagain, hcode'⟩ := hsame #[0x41, 4, 0, 0]
  have hcodeEq : chainedHeader.code chainedData = .ok #[0x2B, 0x00, 0x2A] :=
    eq_ok_of_toOption (by decide +kernel)
  obtain rfl := Except.ok.inj (hcode.symm.trans hcodeEq)
  obtain ⟨stored, hstored, -⟩ := Assembly.exists_storedBody_smallAssembly
  exact ⟨hmemory, hlooked, hfurther _ _ _ hlooked, hends.trans (congrArg some hread), hagain,
    hcode', stored, hstored, hgrown _ _ _ _ hstored⟩

end CilPatch
