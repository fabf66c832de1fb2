import CilPatch.Instruction
import CilPatch.Signature.Type

/-!
# Faults

Everything that can go wrong, as causes. The wording of each cause is kept in one place, so a
function says only what it found and a report says it in words.
-/

namespace CilPatch

/-- What is wrong with a damaged file. -/
inductive Malformation where
  /-- No compressed integer starts with this byte. -/
  | compressedLead (lead : UInt8)
  /-- No compressed token has this tag. -/
  | compressedTag (value : UInt32)
  /-- The text at this offset is not UTF-8. -/
  | textEncoding (offset : Nat)
  /-- A column of two bytes cannot hold this value. -/
  | narrowColumn (value : UInt32)
  /-- A compressed integer cannot hold this value. -/
  | incompressible (value : Nat)
  /-- There is no optional header. -/
  | missingOptionalHeader
  /-- There is no directory entry for the CLI header. -/
  | missingCliDirectory
  /-- An address lies in the part of a section that the file does not store. -/
  | uninitializedAddress (rva : Nat)
  /-- An address lies in no section. -/
  | unmappedAddress (rva : Nat)
  /-- The CLI header has the wrong size. -/
  | cliHeaderSize (size : UInt32)
  /-- The CLI header has no metadata. -/
  | emptyMetadataDirectory
  /-- The CLI directory is too small for a header. -/
  | cliDirectorySize (size : Nat)
  /-- The metadata does not start with its magic word. -/
  | rootMagic (word : UInt32)
  /-- The number of streams is not one to six. -/
  | streamCount (count : UInt16)
  /-- A stream ends past the address space. -/
  | streamOverflow (offset size : UInt32)
  /-- There are more streams than can be counted. -/
  | tooManyStreams
  /-- No stream has this name. -/
  | streamName (name : String)
  /-- The metadata lacks a stream. -/
  | missingStream (name : String)
  /-- The string heap is empty. -/
  | emptyStringHeap
  /-- No text starts at this index of the string heap. -/
  | stringIndex (index : Nat)
  /-- The blob heap does not start with a zero. -/
  | blobHeapStart
  /-- The blob heap is past its size limit. -/
  | blobHeapSize
  /-- A blob is past its size limit. -/
  | blobSize
  /-- The GUID heap has an incomplete entry. -/
  | guidHeapSize (size : Nat)
  /-- No table is present. -/
  | noTables
  /-- A row has the wrong number of columns. -/
  | rowWidth (table : TableId) (expected found : Nat)
  /-- A table lacks a row. -/
  | missingRow (table : TableId) (rid : UInt32)
  /-- The module table is empty. -/
  | emptyModuleTable
  /-- A list of members starts past its table. -/
  | memberList (start count : UInt32)
  /-- The token of a local signature names another table. -/
  | localSignatureToken (token : Token)
  /-- Types are nested too deep. -/
  | signatureDepth (limit : Nat)
  /-- A generic type is neither a class nor a value type. -/
  | genericBase (byte : UInt8)
  /-- No type starts with this byte. -/
  | elementType (byte : UInt8)
  /-- A field signature starts with another byte. -/
  | fieldHead (byte : UInt8)
  /-- A local variable signature starts with another byte. -/
  | localsHead (byte : UInt8)
  /-- There is no method body. -/
  | emptyBody
  /-- A method header is shorter than its fields. -/
  | bodyHeaderSize (size : Nat)
  /-- A method header is of no known kind. -/
  | bodyHeaderKind (byte : UInt8)
  /-- A data section of a method does not have the size it must have. -/
  | bodySection (size offset : Nat)
  /-- A method body is too long. -/
  | codeSize (size : Nat)
  /-- A switch has more targets than the body has room for. -/
  | switchCount (count : UInt32)
  /-- A jump does not lead to the start of an instruction. -/
  | branchTarget (target : Int)
  /-- No instruction starts at an offset. -/
  | notBoundary (offset : Nat)
  /-- An exception clause starts where the method ends. -/
  | clauseStart (offset : UInt32)
  /-- An exception clause ends past the address space. -/
  | clauseOverflow (offset length : UInt32)
  /-- A match lies outside the method. -/
  | matchIndex (index : Nat) (method : String)
  deriving Inhabited

/-- What is wrong with the jumps of a method. -/
inductive BranchFault where
  /-- A slot is not part of the encoded method. -/
  | notEncoded (slot : Slot)
  /-- A jump is too far for its displacement. -/
  | outOfReach (opcode : Opcode) (target : Slot) (distance : Int)
  /-- An entry of a switch is too far. -/
  | switchOutOfReach (target : Slot)
  /-- A jump leads to an instruction that is not placed. -/
  | unplacedTarget (opcode : Opcode) (source target : Slot)
  /-- A slot that is jumped to is not placed. -/
  | unplaced (slot : Slot)
  /-- A clause ends before it starts. -/
  | clauseOrder
  /-- A label is not waiting to be bound. -/
  | notUnbound (slot : Slot)
  /-- Two labels would name one instruction. -/
  | doubleLabel (pending slot : Slot)
  /-- Jumps to a label and falling through to it leave different stack depths. -/
  | bindDepth (slot : Slot) (jumped fallen : Nat)
  /-- An opcode that does not branch is given a label. -/
  | notBranch (opcode : Opcode)
  /-- A jump leaves the fragment. -/
  | leavesFragment (opcode : Opcode) (target : Slot)
  /-- A label is bound where no instruction follows. -/
  | boundPastEnd (slot : Slot)
  /-- A label is never bound. -/
  | neverBound (slot : Slot)
  /-- The end of a fragment is reached with values on the stack. -/
  | fallsThrough (depth : Nat)
  /-- An instruction of a fragment jumps outside it. -/
  | jumpsOutside (opcode : Opcode) (source target : Slot)
  /-- A jump to the continuation leaves values on the stack. -/
  | continuationDepth (depth : Nat)
  /-- Two jumps to a label leave different stack depths. -/
  | jumpDepth (slot : Slot) (expected found : Nat)
  /-- A splice is past the end of the method. -/
  | spliceIndex (index length : Nat)
  /-- A fragment is spliced at another place than it was built for. -/
  | wrongAnchor (continuation anchor : Slot) (index : Nat)
  /-- A fragment has no instructions. -/
  | emptyFragment

/-- What is wrong with an instruction. -/
inductive InstructionFault where
  /-- An opcode without meaning is decoded. -/
  | reserved (opcode : Opcode) (offset : Nat)
  /-- An opcode cannot take an operand. -/
  | mismatch (opcode : Opcode) (operand : Operand)
  /-- No index is left for another local variable. -/
  | noLocalLeft (name : String)
  /-- A call needs to know the called method. -/
  | needsSignature (opcode : Opcode)
  /-- A branch needs a label. -/
  | needsLabel (opcode : Opcode)
  /-- An opcode cannot access a field. -/
  | fieldAccess (opcode : Opcode) (field : Token)
  /-- A method returns with values left on the stack. -/
  | returnDepth (depth : Nat)
  /-- A local variable is not declared. -/
  | undeclaredLocal (index : UInt16) (declared : Nat)
  /-- An instruction needs more values than there are on the stack. -/
  | underflow (opcode : Opcode) (depth needed : Nat)
  /-- A fragment returns from inside an exception clause. -/
  | returnsFromClause (index : Nat)

/-- Why an image cannot be produced. -/
inductive OutputFault where
  /-- The stack limit of a method is too large. -/
  | maxStack (value : Nat)
  /-- The code of a method is too long. -/
  | codeSize (size : Nat)
  /-- The clauses of a method do not fit one section. -/
  | clauseCount (count : Nat)
  /-- A token cannot stand in a signature. -/
  | signatureToken (token : Token)
  /-- A generic type has too many arguments. -/
  | genericArguments
  /-- A type cannot be written. -/
  | localType (type : TypeSig)
  /-- A signature has too many local variables. -/
  | tooManyLocals
  /-- No index is left for another local variable. -/
  | localTableFull
  /-- A fragment counts its local variables from another index. -/
  | localNumbering (first : Nat) (present : Nat)
  /-- A size does not fit 32 bits. -/
  | tooLarge (what : String)
  /-- The headers have no room for another section. -/
  | noSectionRoom
  /-- A path does not name a file. -/
  | notFilePath (path : String)
  /-- There is nothing to write. -/
  | emptyImage
  /-- A write is past the end of the output. -/
  | writeBounds (length offset size : Nat)

/-- Why a configuration is refused. -/
inductive ConfigFault where
  /-- The number of projectile slots is not positive. -/
  | projectiles (slots : Int)
  /-- The scan has no projectile slot to look at. -/
  | scanSlots (slots : Int)

/-- Why a file cannot be read or written. -/
inductive DiskFault where
  /-- There is no such file or directory. -/
  | missing
  /-- A directory stands where a file is needed. -/
  | directory
  /-- Something that is not a file is to be copied. -/
  | notRegular
  /-- A part of the path is a file and not a directory. -/
  | notDirectory
  /-- Something that has no content is to be mapped into memory. -/
  | notMappable
  /-- A name or the whole path is too long. -/
  | nameTooLong
  /-- There is a null character in the path. -/
  | nullCharacter
  /-- The path names a directory only by the way to it, where it is to be replaced. -/
  | busy
  /-- The content is not text. -/
  | encoding
  /-- There is no executable. -/
  | noExecutable (path : String)
  /-- There is no backup. -/
  | noBackup (path : String)

/-- What a lookup by name was looking for. -/
inductive SymbolKind where
  /-- A type. -/
  | type
  /-- A field. -/
  | field
  /-- A method. -/
  | method
  deriving DecidableEq

/-- Why a file is not an executable image. -/
inductive ImageFault where
  /-- The file ends too early for a field of some bytes. -/
  | short (size left : Nat)
  /-- A field would start behind the end of the file. -/
  | beyond (offset : Nat)
  /-- The file ends too early for this many sections. -/
  | sectionCount (count : Nat)
  /-- There is no optional header with this magic word. -/
  | optionalMagic (word : Nat)
  /-- There is no magic word at the start. -/
  | noOldMagic
  /-- The magic word at the start is wrong. -/
  | oldMagic (word : Nat)
  /-- The offset of the new header is not in the file. -/
  | noHeaderOffset (offset : Nat)
  /-- The magic word of the new header is not in the file. -/
  | noMagic (offset : Nat)
  /-- The magic word of the new header is wrong. -/
  | magic (word : Nat)
  /-- The new header starts within the old one. -/
  | headersOverlap (stop start : Nat)
  /-- There are too many directories. -/
  | directoryCount (count limit : Nat)
  /-- A name of a section refers to a longer name without a number. -/
  | sectionName (reference : String)
  /-- An address of something lies in no section. -/
  | unmapped (what : String) (rva : Nat)
  /-- A text that starts what is left of some bytes is not UTF-8. -/
  | textEncoding (left : Nat)
  deriving DecidableEq

/-- Everything that can go wrong. -/
inductive Fault where
  /-- The file is damaged. -/
  | malformed (cause : Malformation)
  /-- The file ends too early. -/
  | outOfBounds
  /-- The file uses something that is not supported. -/
  | notSupported
  /-- The file is empty. -/
  | empty
  /-- A file cannot be read or written. -/
  | disk (cause : DiskFault)
  /-- The file is not an executable image. -/
  | image (cause : ImageFault)
  /-- A declaration is not there. -/
  | symbolNotFound (kind : SymbolKind) (owner name : String)
  /-- Several declarations have the name. -/
  | ambiguousSymbol (kind : SymbolKind) (owner name : String) (count : Nat)
  /-- No pattern is found in a method. -/
  | patternNotFound (method : String) (tried : List String)
  /-- A jump is wrong. -/
  | branch (cause : BranchFault)
  /-- An instruction is wrong. -/
  | instruction (cause : InstructionFault)
  /-- The image cannot be produced. -/
  | output (cause : OutputFault)
  /-- The configuration is refused. -/
  | config (cause : ConfigFault)
  /-- The method has no body to decode. -/
  | noBody (method : Token)
  /-- There is no answer, for the way to it never ends. No run comes to say so. -/
  | endless

instance : Inhabited Fault := ⟨.outOfBounds⟩

/-- A malformation in words. -/
def Malformation.text : Malformation → String
  | compressedLead lead => "Invalid compressed uint - " ++ toString lead.toNat
  | compressedTag value => "Invalid compressed token - " ++ toString value.toNat
  | textEncoding offset => "Invalid UTF-8 at offset " ++ toString offset
  | narrowColumn value =>
      "Value 0x" ++ Hex.upper value.toNat 1 ++ " does not fit a 2-byte column"
  | incompressible value => "Value too large for compression - " ++ toString value
  | missingOptionalHeader => "File does not have an OptionalHeader"
  | missingCliDirectory => "File does not have a CLR runtime header directory"
  | uninitializedAddress rva =>
      "RVA 0x" ++ Hex.lower rva 1 ++ " points into uninitialized section data"
  | unmappedAddress rva => "RVA could not be converted to offset - 0x" ++ Hex.lower rva 1
  | cliHeaderSize size =>
      "Invalid CLR header size: expected 72, got " ++ toString size.toNat
  | emptyMetadataDirectory => "Metadata directory cannot be empty"
  | cliDirectorySize size => "CLR header is too small - " ++ toString size
  | rootMagic word => "CIL_HEADER_MAGIC does not match - " ++ toString word.toNat
  | streamCount count => "Invalid stream count - " ++ toString count.toNat
  | streamOverflow offset size =>
      "Stream offset and size cause integer overflow - " ++ toString offset.toNat ++ " + " ++
        toString size.toNat
  | tooManyStreams => "Too many streams"
  | streamName name => "Invalid stream header name - " ++ name
  | missingStream name => "Metadata has no " ++ name ++ " stream"
  | emptyStringHeap => "Provided #String heap is empty"
  | stringIndex index => "Invalid string at index - " ++ toString index
  | blobHeapStart => "Invalid memory for #Blob heap"
  | blobHeapSize => "#Blob heap exceeds 4GB"
  | blobSize => "Blob too large"
  | guidHeapSize size => "#GUID heap size " ++ toString size ++ " is not a multiple of 16"
  | noTables => "No valid rows in any of the tables"
  | rowWidth table expected found =>
      table.name ++ " rows have " ++ toString expected ++ " columns, got " ++ toString found
  | missingRow table rid => table.name ++ " row " ++ toString rid.toNat ++ " does not exist"
  | emptyModuleTable => "Module table is empty"
  | memberList start count =>
      "Member list starts past the end of its table - " ++ toString start.toNat ++ " > " ++
        toString count.toNat
  | localSignatureToken token =>
      "Local signature token is not a StandAloneSig - " ++ token.text
  | signatureDepth limit => "Signature nesting exceeds " ++ toString limit ++ " levels"
  | genericBase byte =>
      "GENERICINST - Next byte is not TYPE_CLASS or TYPE_VALUE - " ++ toString byte.toNat
  | elementType byte => "Unsupported ELEMENT_TYPE - " ++ toString byte.toNat
  | fieldHead byte => "SignatureField - invalid start - " ++ toString byte.toNat
  | localsHead byte => "SignatureLocalVar - invalid start - " ++ toString byte.toNat
  | emptyBody => "Provided data for body parsing is empty"
  | bodyHeaderSize size => "Fat method header declares " ++ toString size ++ " bytes"
  | bodyHeaderKind byte => "Invalid method header format - 0x" ++ Hex.upper byte.toNat 2
  | bodySection size offset =>
      "Method data section of " ++ toString size ++ " bytes at 0x" ++ Hex.upper offset 1 ++
        " is invalid"
  | codeSize size => "Method body of " ++ toString size ++ " bytes is too large"
  | switchCount count =>
      "Switch with " ++ toString count.toNat ++ " targets exceeds the method body"
  | branchTarget target =>
      "Branch target 0x" ++ Hex.upper (target % UInt64.size).toNat 1 ++ " is not an instruction"
  | notBoundary offset =>
      "Offset 0x" ++ Hex.upper offset 4 ++ " is not an instruction boundary"
  | clauseStart offset =>
      "Exception clause starts at the end of the method - " ++ toString offset.toNat
  | clauseOverflow offset length =>
      "Exception clause overflows - " ++ toString offset.toNat ++ " + " ++
        toString length.toNat
  | matchIndex index method =>
      "Match index " ++ toString index ++ " is outside of " ++ method

/-- A fault of a jump in words. -/
def BranchFault.text : BranchFault → String
  | notEncoded slot => slot.text ++ " is not part of the encoded method"
  | outOfReach opcode target distance =>
      opcode.text ++ " to " ++ target.text ++ " does not reach (" ++ toString distance ++ ")"
  | switchOutOfReach target => "switch to " ++ target.text ++ " does not reach"
  | unplacedTarget opcode source target =>
      opcode.text ++ " at " ++ source.text ++ " jumps to " ++ target.text ++
        ", which is not in the method"
  | unplaced slot => slot.text ++ " is not in the method"
  | clauseOrder => "exception clause ends before it starts"
  | notUnbound slot => slot.text ++ " is not an unbound label of this fragment"
  | doubleLabel pending slot =>
      pending.text ++ " and " ++ slot.text ++ " would name the same instruction"
  | bindDepth slot jumped fallen =>
      "stack depth mismatch at " ++ slot.text ++ ": " ++ toString jumped ++ " from jumps, " ++
        toString fallen ++ " falling through"
  | notBranch opcode => opcode.text ++ " is not a branch"
  | leavesFragment opcode target =>
      opcode.text ++ " leaves the fragment towards " ++ target.text
  | boundPastEnd slot => slot.text ++ " is bound past the last instruction"
  | neverBound slot => "label " ++ slot.text ++ " was never bound"
  | fallsThrough depth =>
      "falls through to the continuation with " ++ toString depth ++ " values on the stack"
  | jumpsOutside opcode source target =>
      opcode.text ++ " at " ++ source.text ++ " jumps to " ++ target.text ++
        ", outside the fragment"
  | continuationDepth depth =>
      "jump to the continuation with " ++ toString depth ++ " values on the stack"
  | jumpDepth slot expected found =>
      "stack depth mismatch for jump to " ++ slot.text ++ ": " ++ toString expected ++
        " expected, " ++ toString found ++ " here"
  | spliceIndex index length =>
      "splice index " ++ toString index ++ " is past the end of the method (" ++
        toString length ++ " instructions)"
  | wrongAnchor continuation anchor index =>
      "fragment continues at " ++ continuation.text ++ ", but " ++ anchor.text ++
        " is at index " ++ toString index
  | emptyFragment => "cannot splice an empty fragment"

/-- A fault of an instruction in words. -/
def InstructionFault.text : InstructionFault → String
  | reserved opcode offset =>
      "reserved opcode " ++ opcode.text ++ " at 0x" ++ Hex.upper offset 4
  | mismatch opcode operand => opcode.text ++ " cannot take operand " ++ operand.detail
  | noLocalLeft name => "no local slot left for " ++ name
  | needsSignature opcode => opcode.text ++ " needs the callee signature"
  | needsLabel opcode => opcode.text ++ " needs a label"
  | fieldAccess opcode field => opcode.text ++ " cannot access " ++ field.text
  | returnDepth depth => "ret with " ++ toString depth ++ " values on the stack"
  | undeclaredLocal index declared =>
      "local " ++ toString index.toNat ++ " is not declared (" ++ toString declared ++ " locals)"
  | underflow opcode depth needed =>
      opcode.text ++ " underflows the stack (" ++ toString depth ++ " values, " ++
        toString needed ++ " needed)"
  | returnsFromClause index =>
      "fragment returns from inside an exception clause at index " ++ toString index

/-- A fault of the output in words. -/
def OutputFault.text : OutputFault → String
  | maxStack value => "max stack " ++ toString value ++ " exceeds 65535"
  | codeSize size => "code size " ++ toString size ++ " too large"
  | clauseCount count => toString count ++ " exception clauses do not fit one section"
  | signatureToken token => token.text ++ " is not a TypeDefOrRef token"
  | genericArguments => "too many generic arguments"
  | localType type => "cannot encode local type " ++ type.detail
  | tooManyLocals => "too many locals"
  | localTableFull => "local variable table is full"
  | localNumbering first present =>
      "fragment numbers its locals from " ++ toString first ++ ", the method has " ++
        toString present ++ " now"
  | tooLarge what => what ++ " exceeds 4GB"
  | noSectionRoom => "no room in the PE headers for another section header"
  | notFilePath path => path ++ " is not a file path"
  | emptyImage => "refusing to write an empty image"
  | writeBounds length offset size =>
      "write of " ++ toString length ++ " bytes at " ++ toString offset ++
        " exceeds the output size " ++ toString size

/-- A fault of the configuration in words. -/
def ConfigFault.text : ConfigFault → String
  | projectiles slots => "max_projectiles must be positive, got " ++ toString slots
  | scanSlots slots =>
      "the recast scan needs at least one projectile slot, got " ++ toString slots

/-- A fault of the disk in words. -/
def DiskFault.text : DiskFault → String
  | missing => "No such file or directory (os error 2)"
  | directory => "Is a directory (os error 21)"
  | notRegular => "the source path is neither a regular file nor a symlink to a regular file"
  | notDirectory => "Not a directory (os error 20)"
  | notMappable => "No such device (os error 19)"
  | nameTooLong => "File name too long (os error 36)"
  | nullCharacter => "file name contained an unexpected NUL byte"
  | busy => "Device or resource busy (os error 16)"
  | encoding => "stream did not contain valid UTF-8"
  | noExecutable path => path ++ " does not exist"
  | noBackup path => "no backup at " ++ path

/-- A kind of declaration in words. -/
def SymbolKind.text : SymbolKind → String
  | type => "type"
  | field => "field"
  | method => "method"

/-- A fault of an image in words. -/
def ImageFault.text : ImageFault → String
  | short size left => "type is too big (" ++ toString size ++ ") for " ++ toString left
  | beyond offset => "bad offset " ++ toString offset
  | sectionCount count => "Buffer is too short for " ++ toString count ++ " sections"
  | optionalMagic word => "Invalid magic number: " ++ number word
  | noOldMagic => damaged "cannot parse DOS signature (offset 0x0)"
  | oldMagic word => damaged ("DOS header is malformed (signature " ++ number word ++ ")")
  | noHeaderOffset offset =>
      damaged ("cannot parse PE header pointer (offset " ++ number offset ++ ")")
  | noMagic offset => damaged ("cannot parse PE header signature (offset " ++ number offset ++ ")")
  | magic word => damaged ("PE header is malformed (signature " ++ number word ++ ")")
  | headersOverlap stop start =>
      damaged ("DOS stub start (" ++ number stop ++ ") is greater than its end (" ++
        number start ++ ")")
  | directoryCount count limit =>
      damaged ("data directory count (" ++ toString count ++
        ") is greater than maximum number of data directories (" ++ toString limit ++ ")")
  | sectionName reference =>
      damaged ("Invalid indirect section name /" ++ reference ++ ": " ++
        if reference.isEmpty then "cannot parse integer from empty string"
        else "invalid digit found in string")
  | unmapped what rva => damaged ("cannot map " ++ what ++ " (" ++ number rva ++ ") into offset")
  | textEncoding left => "bad input invalid utf8 (" ++ toString left ++ ")"
where
  /-- A number with the sign of hexadecimal digits. -/
  number (value : Nat) : String := "0x" ++ Hex.lower value 1
  /-- What is said about a damaged file. -/
  damaged (what : String) : String := "Malformed entity: " ++ what

/-- How many faults stand behind one another, each with the same words: that of the image, that
of its headers, and that of a field that cannot be read. -/
def ImageFault.levels : ImageFault → Nat
  | short _ _ | beyond _ | textEncoding _ => 3
  | _ => 2

/-- A fault in words. -/
def Fault.text : Fault → String
  | malformed cause => "Malformed - " ++ cause.text
  | outOfBounds => "Out of Bound read would have occurred!"
  | notSupported => "This file type is not supported"
  | empty => "Provided input was empty"
  | disk cause => cause.text
  | image cause => cause.text
  | symbolNotFound kind owner name =>
      "Could not resolve " ++ kind.text ++ " '" ++ name ++ "' (in '" ++ owner ++ "')"
  | ambiguousSymbol kind owner name count =>
      toString count ++ " candidates for " ++ kind.text ++ " '" ++ name ++ "' in '" ++ owner ++
        "', a disambiguating predicate is required"
  | patternNotFound method tried =>
      "No pattern matched in " ++ method ++ " (tried: " ++ ", ".intercalate tried ++ ")"
  | branch cause => "Invalid branch - " ++ cause.text
  | instruction cause => "Invalid instruction - " ++ cause.text
  | output cause => "Serialization failed - " ++ cause.text
  | config cause => "Invalid configuration - " ++ cause.text
  | noBody method => "Method has no IL body - " ++ method.text
  | endless => "No end"

end CilPatch
