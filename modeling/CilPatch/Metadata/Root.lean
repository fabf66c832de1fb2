import CilPatch.Bytes.Cursor
import CilPatch.Metadata.StreamHeader

/-!
# The metadata root

The metadata of an image starts with a magic word, a version text and the headers of its
streams (ECMA-335 II.24.2.1). The root can be written again with other headers.
-/

namespace CilPatch

/-- The start of the metadata of an image. -/
structure MetadataRoot where
  /-- The first part of the version of the format. -/
  major : UInt16
  /-- The second part of the version of the format. -/
  minor : UInt16
  /-- A word without meaning. -/
  reserved : UInt32
  /-- The stored bytes of the version text. -/
  versionRaw : List UInt8
  /-- Flags without meaning. -/
  flags : UInt16
  /-- The headers of the streams, in the order in which they are stored. -/
  headers : List StreamHeader
  deriving DecidableEq, Repr

namespace MetadataRoot

/-- The word that the metadata starts with. -/
def magic : UInt32 := 0x424A5342

/-- How many streams there can be. -/
def streamLimit : Nat := 6

/-- The least number of bytes that can hold a root. -/
def leastSize : Nat := 36

/-- The version text, up to the first zero. -/
def version (root : MetadataRoot) : String := latinText (root.versionRaw.takeWhile (· != 0))

/-- The header of the first stream with a name. -/
def stream? (root : MetadataRoot) (name : String) : Option StreamHeader :=
  root.headers.find? (·.name == name)

/-- Reads stream headers from an offset on, each of which must lie within the data. -/
def readHeaders (data : Bytes) : Nat → Nat → Except Fault (List StreamHeader)
  | _, 0 => .ok []
  | offset, count + 1 => do
      if data.size < offset then throw .outOfBounds
      let header ← StreamHeader.decode
        (data.extract offset (offset + 8 + StreamHeader.nameLimit)).toList
      let stop := header.offset.toNat + header.size.toNat
      if UInt32.size ≤ stop then throw (.malformed (.streamOverflow header.offset header.size))
      if data.size < stop then throw .outOfBounds
      let rest ← readHeaders data (offset + header.encodedLength) count
      return header :: rest

/-- Reads the root at the start of the metadata. -/
def read : Read MetadataRoot := do
  let cursor ← get
  if cursor.data.size < leastSize then throw .outOfBounds
  let word ← Read.u32
  if word != magic then throw (.malformed (.rootMagic word))
  let major ← Read.u16
  let minor ← Read.u16
  let reserved ← Read.u32
  let length ← Read.u32
  if cursor.data.size < 16 + length.toNat + 4 then throw .outOfBounds
  let versionRaw ← Read.bytes length.toNat
  let flags ← Read.u16
  let count ← Read.u16
  if count = 0 ∨ streamLimit < count.toNat then throw (.malformed (.streamCount count))
  let headers ← readHeaders cursor.data (16 + length.toNat + 4) count.toNat
  return { major, minor, reserved, versionRaw := versionRaw.toList, flags, headers }

/-- How many bytes a root takes with other headers. -/
def encodedLength (root : MetadataRoot) (headers : List StreamHeader) : Nat :=
  headers.foldl (fun length header => length + header.encodedLength) (20 + root.versionRaw.length)

/-- A root with other headers. -/
def encode (root : MetadataRoot) (headers : List StreamHeader) : Except Fault (List UInt8) :=
  if UInt16.size ≤ headers.length then .error (.malformed .tooManyStreams)
  else
    let start := LittleEndian.u32 magic ++ (LittleEndian.u16 root.major ++
      (LittleEndian.u16 root.minor ++ (LittleEndian.u32 root.reserved ++
      (LittleEndian.encode 4 root.versionRaw.length ++ (root.versionRaw ++
      (LittleEndian.u16 root.flags ++ LittleEndian.encode 2 headers.length))))))
    .ok (headers.foldl StreamHeader.append start)

end MetadataRoot

end CilPatch
