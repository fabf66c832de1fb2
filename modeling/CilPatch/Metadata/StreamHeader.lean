import CilPatch.Bytes.Align
import CilPatch.Fault
import CilPatch.Text.Latin

/-!
# Stream headers

The metadata of an image is divided into named streams. A header says where a stream lies
within the metadata and gives its name, which is padded with zeros to a multiple of four.
-/

namespace CilPatch

/-- The header of one metadata stream. -/
structure StreamHeader where
  /-- Where the stream starts within the metadata. -/
  offset : UInt32
  /-- How many bytes the stream has. -/
  size : UInt32
  /-- The name of the stream. -/
  name : String
  deriving DecidableEq, Repr

namespace StreamHeader

/-- The names that a stream can have. -/
def names : List String := ["#Strings", "#US", "#Blob", "#GUID", "#~", "#-"]

/-- The longest name that is looked for. -/
def nameLimit : Nat := 32

/-- Reads the header at the start of some bytes. -/
def decode (bytes : List UInt8) : Except Fault StreamHeader :=
  if bytes.length < 9 then .error .outOfBounds
  else
    let name := latinText (((bytes.drop 8).take nameLimit).takeWhile (· != 0))
    if names.contains name then
      .ok {
        offset := UInt32.ofNat (LittleEndian.decode (bytes.take 4))
        size := UInt32.ofNat (LittleEndian.decode ((bytes.drop 4).take 4))
        name }
    else .error (.malformed (.streamName name))

/-- How many bytes a header takes. -/
def encodedLength (header : StreamHeader) : Nat := 8 + alignUp (header.name.utf8ByteSize + 1) 4

/-- Bytes followed by a header; all of it is padded to a multiple of four. -/
def append (before : List UInt8) (header : StreamHeader) : List UInt8 :=
  padTo (before ++ (LittleEndian.u32 header.offset ++ (LittleEndian.u32 header.size ++
    (header.name.toUTF8.toList ++ [0])))) 4

end StreamHeader

end CilPatch
