import CilPatch.Proofs.Assembly.Separation

/-!
# The end of the address space

The address of a new section is refused when it is not a word, and so is every size. But addresses in
the section are added up as words, and sections are counted as words of 16 bits, so both wrap for a
section that does not end within the address space, and for one more section than can be counted.
-/

namespace CilPatch

open LittleEndian PatchSection

namespace PatchSection

end PatchSection

namespace Assembly

variable {loaded : Assembly} {data out : Bytes} {edits : List (Token × Body)}
  {place : SectionPlace} {blobs : Bytes} {draft : Draft} {metadata : List UInt8}

end Assembly

end CilPatch
