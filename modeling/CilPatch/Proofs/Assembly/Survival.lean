import CilPatch.Proofs.Assembly.Rewrite
import CilPatch.Proofs.Assembly.Stored
import CilPatch.Proofs.Method.Body
import CilPatch.Proofs.Method.Extent
import Mathlib.Data.List.Nodup

/-!
# Bodies survive in a written image

An edited body is found under the address that its method got, and what stands there is what it was
encoded to; a body that was not edited is found where it was, since nothing is written over it. So
the bodies that are read from a written image are those of the assembly it was written from.
-/

namespace CilPatch

open LittleEndian PatchSection

/-! ## What is read for a body -/

/-- A body that was decoded has the local signature of its header, and no variables besides those
that it declares. -/
theorem Body.locals_of_decode {header : MethodHeader} {code : Bytes} {declared : Nat} {body : Body}
    (h : Body.decode header code declared = .ok body) :
    body.localSig = header.localSig ∧ body.declared = declared ∧ body.added = [] := by
  obtain ⟨decoded, -, h⟩ := bind_eq_ok_iff.mp h
  obtain ⟨regions, -, h⟩ := bind_eq_ok_iff.mp h
  obtain rfl := Except.ok.inj h
  exact ⟨rfl, rfl, rfl⟩

namespace Assembly

variable {assembly loaded again : Assembly} {token : Token} {body : Body} {data out : Bytes}

/-- The bytes of an image from an offset on. -/
def bytesFrom (assembly : Assembly) (offset : Nat) : Bytes :=
  assembly.image.data.extract offset assembly.image.size

/-- What is read for the body of a method. -/
structure Reads (assembly : Assembly) (token : Token) (method : MethodDefRow) (offset : Nat)
    (header : MethodHeader) (code : Bytes) (declared : Nat) : Prop where
  found : assembly.tables.methodDef token.row = .ok method
  address : method.rva ≠ 0
  intermediate : MethodDecl.isIntermediate method.implFlags = true
  leads : assembly.image.offsetOf method.rva.toNat = .ok offset
  inside : offset ≤ assembly.image.size
  read : MethodHeader.read (assembly.bytesFrom offset) = .ok header
  stored : header.code (assembly.bytesFrom offset) = .ok code
  locals : assembly.declaredLocals ⟨header.localSig⟩ = .ok declared

/-- A stored body is what is decoded from what is read for it. -/
theorem storedBody_eq_ok_iff : assembly.storedBody token = .ok body ↔
    ∃ method offset header code declared,
      assembly.Reads token method offset header code declared ∧
      Body.decode header code declared = .ok body := by
  have hslice (offset : Nat) (hle : offset ≤ assembly.image.size) :
      offset + (assembly.image.size - offset) = assembly.image.size := Nat.add_sub_cancel' hle
  unfold storedBody
  constructor
  · intro h
    obtain ⟨method, hmethod, h⟩ := bind_eq_ok_iff.mp h
    obtain ⟨hnone, h⟩ := check_eq_ok_iff.mp h
    obtain ⟨haddress, hintermediate⟩ := not_or.mp hnone
    obtain ⟨offset, hoffset, h⟩ := bind_eq_ok_iff.mp h
    obtain ⟨bytes, hbytes, h⟩ := bind_eq_ok_iff.mp h
    obtain ⟨hroom, rfl⟩ := Image.slice_eq_ok_iff.mp hbytes
    have hle : offset ≤ assembly.image.size := by omega
    rw [hslice offset hle] at h
    obtain ⟨header, hheader, h⟩ := bind_eq_ok_iff.mp h
    obtain ⟨code, hcode, h⟩ := bind_eq_ok_iff.mp h
    obtain ⟨declared, hdeclared, h⟩ := bind_eq_ok_iff.mp h
    exact ⟨method, offset, header, code, declared, ⟨hmethod, haddress,
      by simpa using hintermediate, hoffset, hle, hheader, hcode, hdeclared⟩, h⟩
  · rintro ⟨method, offset, header, code, declared, hreads, hdecode⟩
    refine bind_eq_ok_iff.mpr ⟨method, hreads.found, ?_⟩
    refine check_eq_ok_iff.mpr ⟨not_or.mpr ⟨hreads.address, by simp [hreads.intermediate]⟩, ?_⟩
    refine bind_eq_ok_iff.mpr ⟨offset, hreads.leads, ?_⟩
    refine bind_eq_ok_iff.mpr
      ⟨_, Image.slice_eq_ok_iff.mpr ⟨(hslice offset hreads.inside).le, rfl⟩, ?_⟩
    rw [hslice offset hreads.inside]
    refine bind_eq_ok_iff.mpr ⟨header, hreads.read, ?_⟩
    refine bind_eq_ok_iff.mpr ⟨code, hreads.stored, ?_⟩
    exact bind_eq_ok_iff.mpr ⟨declared, hreads.locals, hdecode⟩

/-! ## Local signatures -/

section Reloading

variable {edits : List (Token × Body)} {place : SectionPlace} {draft : Draft}
  {metadata front encoded : List UInt8} {sig : UInt32}

/-- The body of a loaded assembly is the stored one. -/
theorem Loaded.body_eq (h : loaded.Loaded data) (token : Token) :
    loaded.body token = loaded.storedBody token := by
  rw [body, h.edited]
  rfl

end Reloading

/-! ## The bodies of the small image -/

/-- Some bytes of the small image that stand behind its metadata. -/
theorem extract_smallImage (front middle back : List UInt8) {start stop : Nat}
    (hbodies : smallBodies = front ++ (middle ++ back)) (hstart : 0x288 + front.length = start)
    (hstop : start + middle.length = stop) :
    smallAssembly.image.data.extract start stop = middle.toArray := by
  have hdata : smallAssembly.image.data =
      ((smallHeaders ++ (smallCli ++ (smallMetadata ++ front))) ++ (middle ++ back)).toArray := by
    simp only [smallAssembly, smallImage, hbodies, List.append_assoc]
  have hfront : (smallHeaders ++ (smallCli ++ (smallMetadata ++ front))).length = start := by
    rw [List.length_append, List.length_append, List.length_append, length_smallHeaders,
      length_smallCli, length_smallMetadata]
    omega
  have hextract :=
    extract_between (smallHeaders ++ (smallCli ++ (smallMetadata ++ front))) middle back
  rwa [← hdata, hfront, hstop] at hextract

/-- The first method of the small image has a body without local variables. -/
theorem exists_storedBody_smallAssembly : ∃ stored,
    smallAssembly.storedBody ⟨0x06000001⟩ = .ok stored ∧ stored.localSig = 0 ∧
      stored.declared = 0 := by
  have hencode := @encode_guardedBody [] 0 smallBranch [] rfl
  obtain ⟨header, code, stored, _, _, _, hread, hcode, hdecode, -, hback⟩ :=
    Body.exists_readsBack (@proper_guardedBody [] nofun) hencode (smallReturn ++ [0, 0]) 0
  obtain ⟨hsig, hdeclared, -⟩ := Body.locals_of_decode hdecode
  have hsig' : header.localSig = 0 := hsig.symm.trans hback.localSig
  have hfrom : smallAssembly.bytesFrom 0x288 = smallBodies.toArray := by
    rw [bytesFrom, size_smallAssembly]
    exact extract_smallImage [] smallBodies [] (List.append_nil _).symm rfl rfl
  have hreads : smallAssembly.Reads ⟨0x06000001⟩ ⟨0x1108, 0, 0x10, 1, 1, 1⟩ 0x288 header code 0 := {
    found := rfl
    address := by decide
    intermediate := rfl
    leads := rfl
    inside := size_smallAssembly ▸ by decide
    read := (congrArg MethodHeader.read hfrom).trans hread
    stored := (congrArg header.code hfrom).trans hcode
    locals := by
      rw [hsig']
      rfl }
  exact ⟨stored, storedBody_eq_ok_iff.mpr ⟨_, _, _, _, _, hreads, hdecode⟩, hback.localSig,
    hdeclared⟩

end Assembly

end CilPatch
