import CilPatch.Text.Hex

/-!
# Opcodes

The opcodes of the common intermediate language (ECMA-335 Partition III) are one byte long, or
two bytes of which the first is `FE`. A table gives each one its mnemonic, the encoding of its
operand, its control flow and the fixed part of its effect on the evaluation stack.
-/

namespace CilPatch

/-- How the operand of an opcode is encoded. -/
inductive OperandKind where
  /-- No operand. -/
  | none
  /-- A signed byte. -/
  | int8
  /-- An unsigned byte. -/
  | uint8
  /-- A signed 32-bit word. -/
  | int32
  /-- A signed 64-bit word. -/
  | int64
  /-- The bits of a 32-bit floating point number. -/
  | float32
  /-- The bits of a 64-bit floating point number. -/
  | float64
  /-- A metadata token. -/
  | token
  /-- A local variable index of one byte. -/
  | local8
  /-- A local variable index of two bytes. -/
  | local16
  /-- An argument index of one byte. -/
  | arg8
  /-- An argument index of two bytes. -/
  | arg16
  /-- A branch displacement of one byte. -/
  | branch8
  /-- A branch displacement of four bytes. -/
  | branch32
  /-- A count and that many branch displacements. -/
  | switch
  deriving DecidableEq, Repr, Inhabited

namespace OperandKind

/-- How many bytes an operand takes; a switch depends on how many targets it has. -/
def size? : OperandKind → Option Nat
  | none => some 0
  | int8 | uint8 | local8 | arg8 | branch8 => some 1
  | local16 | arg16 => some 2
  | int32 | float32 | token | branch32 => some 4
  | int64 | float64 => some 8
  | switch => Option.none

/-- The name of an operand encoding. -/
def name : OperandKind → String
  | none => "None"
  | int8 => "Int8"
  | uint8 => "UInt8"
  | int32 => "Int32"
  | int64 => "Int64"
  | float32 => "Float32"
  | float64 => "Float64"
  | token => "Token"
  | local8 => "Local8"
  | local16 => "Local16"
  | arg8 => "Arg8"
  | arg16 => "Arg16"
  | branch8 => "Branch8"
  | branch32 => "Branch32"
  | switch => "Switch"

end OperandKind

/-- Where control goes after an instruction. -/
inductive Flow where
  /-- To the next instruction. -/
  | sequential
  /-- To the target or to the next instruction. -/
  | conditionalBranch
  /-- To the target. -/
  | unconditionalBranch
  /-- Into another method and back to the next instruction. -/
  | call
  /-- Back to the caller. -/
  | ret
  /-- To one of the targets or to the next instruction. -/
  | switch
  /-- To an exception handler. -/
  | raise
  /-- Out of a finally block or a filter. -/
  | endFinally
  /-- Out of a protected region. -/
  | leave
  deriving DecidableEq, Repr, Inhabited

/-- The name of a kind of control flow. -/
def Flow.name : Flow → String
  | sequential => "Sequential"
  | conditionalBranch => "ConditionalBranch"
  | unconditionalBranch => "UnconditionalBranch"
  | call => "Call"
  | ret => "Return"
  | switch => "Switch"
  | raise => "Throw"
  | endFinally => "EndFinally"
  | leave => "Leave"

/-- What the table says of one opcode. -/
structure OpcodeEntry where
  /-- The mnemonic, empty for a reserved opcode. -/
  mnemonic : String
  /-- How the operand is encoded. -/
  operand : OperandKind
  /-- Where control goes. -/
  flow : Flow
  /-- How many stack values are taken, apart from those a signature decides. -/
  pops : Nat
  /-- How many stack values are left, apart from those a signature decides. -/
  pushes : Nat
  deriving DecidableEq, Repr

/-- The entry of an opcode without meaning. -/
def OpcodeEntry.reserved : OpcodeEntry := ⟨"", .none, .sequential, 0, 0⟩

/-- The entries of the opcodes of one byte, in the order of their codes. -/
def OpcodeEntry.singles : Array OpcodeEntry :=
  #[
    -- 00
    ⟨"nop", .none, .sequential, 0, 0⟩, ⟨"break", .none, .sequential, 0, 0⟩,
    ⟨"ldarg.0", .none, .sequential, 0, 1⟩, ⟨"ldarg.1", .none, .sequential, 0, 1⟩,
    ⟨"ldarg.2", .none, .sequential, 0, 1⟩, ⟨"ldarg.3", .none, .sequential, 0, 1⟩,
    ⟨"ldloc.0", .none, .sequential, 0, 1⟩, ⟨"ldloc.1", .none, .sequential, 0, 1⟩,
    ⟨"ldloc.2", .none, .sequential, 0, 1⟩, ⟨"ldloc.3", .none, .sequential, 0, 1⟩,
    ⟨"stloc.0", .none, .sequential, 1, 0⟩, ⟨"stloc.1", .none, .sequential, 1, 0⟩,
    ⟨"stloc.2", .none, .sequential, 1, 0⟩, ⟨"stloc.3", .none, .sequential, 1, 0⟩,
    ⟨"ldarg.s", .arg8, .sequential, 0, 1⟩, ⟨"ldarga.s", .arg8, .sequential, 0, 1⟩,
    -- 10
    ⟨"starg.s", .arg8, .sequential, 1, 0⟩, ⟨"ldloc.s", .local8, .sequential, 0, 1⟩,
    ⟨"ldloca.s", .local8, .sequential, 0, 1⟩, ⟨"stloc.s", .local8, .sequential, 1, 0⟩,
    ⟨"ldnull", .none, .sequential, 0, 1⟩, ⟨"ldc.i4.m1", .none, .sequential, 0, 1⟩,
    ⟨"ldc.i4.0", .none, .sequential, 0, 1⟩, ⟨"ldc.i4.1", .none, .sequential, 0, 1⟩,
    ⟨"ldc.i4.2", .none, .sequential, 0, 1⟩, ⟨"ldc.i4.3", .none, .sequential, 0, 1⟩,
    ⟨"ldc.i4.4", .none, .sequential, 0, 1⟩, ⟨"ldc.i4.5", .none, .sequential, 0, 1⟩,
    ⟨"ldc.i4.6", .none, .sequential, 0, 1⟩, ⟨"ldc.i4.7", .none, .sequential, 0, 1⟩,
    ⟨"ldc.i4.8", .none, .sequential, 0, 1⟩, ⟨"ldc.i4.s", .int8, .sequential, 0, 1⟩,
    -- 20
    ⟨"ldc.i4", .int32, .sequential, 0, 1⟩, ⟨"ldc.i8", .int64, .sequential, 0, 1⟩,
    ⟨"ldc.r4", .float32, .sequential, 0, 1⟩, ⟨"ldc.r8", .float64, .sequential, 0, 1⟩, .reserved,
    ⟨"dup", .none, .sequential, 1, 2⟩, ⟨"pop", .none, .sequential, 1, 0⟩,
    ⟨"jmp", .token, .call, 0, 0⟩, ⟨"call", .token, .call, 0, 0⟩, ⟨"calli", .token, .call, 0, 0⟩,
    ⟨"ret", .none, .ret, 0, 0⟩, ⟨"br.s", .branch8, .unconditionalBranch, 0, 0⟩,
    ⟨"brfalse.s", .branch8, .conditionalBranch, 1, 0⟩,
    ⟨"brtrue.s", .branch8, .conditionalBranch, 1, 0⟩,
    ⟨"beq.s", .branch8, .conditionalBranch, 2, 0⟩, ⟨"bge.s", .branch8, .conditionalBranch, 2, 0⟩,
    -- 30
    ⟨"bgt.s", .branch8, .conditionalBranch, 2, 0⟩, ⟨"ble.s", .branch8, .conditionalBranch, 2, 0⟩,
    ⟨"blt.s", .branch8, .conditionalBranch, 2, 0⟩,
    ⟨"bne.un.s", .branch8, .conditionalBranch, 2, 0⟩,
    ⟨"bge.un.s", .branch8, .conditionalBranch, 2, 0⟩,
    ⟨"bgt.un.s", .branch8, .conditionalBranch, 2, 0⟩,
    ⟨"ble.un.s", .branch8, .conditionalBranch, 2, 0⟩,
    ⟨"blt.un.s", .branch8, .conditionalBranch, 2, 0⟩,
    ⟨"br", .branch32, .unconditionalBranch, 0, 0⟩,
    ⟨"brfalse", .branch32, .conditionalBranch, 1, 0⟩,
    ⟨"brtrue", .branch32, .conditionalBranch, 1, 0⟩,
    ⟨"beq", .branch32, .conditionalBranch, 2, 0⟩, ⟨"bge", .branch32, .conditionalBranch, 2, 0⟩,
    ⟨"bgt", .branch32, .conditionalBranch, 2, 0⟩, ⟨"ble", .branch32, .conditionalBranch, 2, 0⟩,
    ⟨"blt", .branch32, .conditionalBranch, 2, 0⟩,
    -- 40
    ⟨"bne.un", .branch32, .conditionalBranch, 2, 0⟩,
    ⟨"bge.un", .branch32, .conditionalBranch, 2, 0⟩,
    ⟨"bgt.un", .branch32, .conditionalBranch, 2, 0⟩,
    ⟨"ble.un", .branch32, .conditionalBranch, 2, 0⟩,
    ⟨"blt.un", .branch32, .conditionalBranch, 2, 0⟩, ⟨"switch", .switch, .switch, 1, 0⟩,
    ⟨"ldind.i1", .none, .sequential, 1, 1⟩, ⟨"ldind.u1", .none, .sequential, 1, 1⟩,
    ⟨"ldind.i2", .none, .sequential, 1, 1⟩, ⟨"ldind.u2", .none, .sequential, 1, 1⟩,
    ⟨"ldind.i4", .none, .sequential, 1, 1⟩, ⟨"ldind.u4", .none, .sequential, 1, 1⟩,
    ⟨"ldind.i8", .none, .sequential, 1, 1⟩, ⟨"ldind.i", .none, .sequential, 1, 1⟩,
    ⟨"ldind.r4", .none, .sequential, 1, 1⟩, ⟨"ldind.r8", .none, .sequential, 1, 1⟩,
    -- 50
    ⟨"ldind.ref", .none, .sequential, 1, 1⟩, ⟨"stind.ref", .none, .sequential, 2, 0⟩,
    ⟨"stind.i1", .none, .sequential, 2, 0⟩, ⟨"stind.i2", .none, .sequential, 2, 0⟩,
    ⟨"stind.i4", .none, .sequential, 2, 0⟩, ⟨"stind.i8", .none, .sequential, 2, 0⟩,
    ⟨"stind.r4", .none, .sequential, 2, 0⟩, ⟨"stind.r8", .none, .sequential, 2, 0⟩,
    ⟨"add", .none, .sequential, 2, 1⟩, ⟨"sub", .none, .sequential, 2, 1⟩,
    ⟨"mul", .none, .sequential, 2, 1⟩, ⟨"div", .none, .sequential, 2, 1⟩,
    ⟨"div.un", .none, .sequential, 2, 1⟩, ⟨"rem", .none, .sequential, 2, 1⟩,
    ⟨"rem.un", .none, .sequential, 2, 1⟩, ⟨"and", .none, .sequential, 2, 1⟩,
    -- 60
    ⟨"or", .none, .sequential, 2, 1⟩, ⟨"xor", .none, .sequential, 2, 1⟩,
    ⟨"shl", .none, .sequential, 2, 1⟩, ⟨"shr", .none, .sequential, 2, 1⟩,
    ⟨"shr.un", .none, .sequential, 2, 1⟩, ⟨"neg", .none, .sequential, 1, 1⟩,
    ⟨"not", .none, .sequential, 1, 1⟩, ⟨"conv.i1", .none, .sequential, 1, 1⟩,
    ⟨"conv.i2", .none, .sequential, 1, 1⟩, ⟨"conv.i4", .none, .sequential, 1, 1⟩,
    ⟨"conv.i8", .none, .sequential, 1, 1⟩, ⟨"conv.r4", .none, .sequential, 1, 1⟩,
    ⟨"conv.r8", .none, .sequential, 1, 1⟩, ⟨"conv.u4", .none, .sequential, 1, 1⟩,
    ⟨"conv.u8", .none, .sequential, 1, 1⟩, ⟨"callvirt", .token, .call, 0, 0⟩,
    -- 70
    ⟨"cpobj", .token, .sequential, 2, 0⟩, ⟨"ldobj", .token, .sequential, 1, 1⟩,
    ⟨"ldstr", .token, .sequential, 0, 1⟩, ⟨"newobj", .token, .call, 0, 1⟩,
    ⟨"castclass", .token, .sequential, 1, 1⟩, ⟨"isinst", .token, .sequential, 1, 1⟩,
    ⟨"conv.r.un", .none, .sequential, 1, 1⟩, .reserved, .reserved,
    ⟨"unbox", .token, .sequential, 1, 1⟩, ⟨"throw", .none, .raise, 1, 0⟩,
    ⟨"ldfld", .token, .sequential, 1, 1⟩, ⟨"ldflda", .token, .sequential, 1, 1⟩,
    ⟨"stfld", .token, .sequential, 2, 0⟩, ⟨"ldsfld", .token, .sequential, 0, 1⟩,
    ⟨"ldsflda", .token, .sequential, 0, 1⟩,
    -- 80
    ⟨"stsfld", .token, .sequential, 1, 0⟩, ⟨"stobj", .token, .sequential, 2, 0⟩,
    ⟨"conv.ovf.i1.un", .none, .sequential, 1, 1⟩, ⟨"conv.ovf.i2.un", .none, .sequential, 1, 1⟩,
    ⟨"conv.ovf.i4.un", .none, .sequential, 1, 1⟩, ⟨"conv.ovf.i8.un", .none, .sequential, 1, 1⟩,
    ⟨"conv.ovf.u1.un", .none, .sequential, 1, 1⟩, ⟨"conv.ovf.u2.un", .none, .sequential, 1, 1⟩,
    ⟨"conv.ovf.u4.un", .none, .sequential, 1, 1⟩, ⟨"conv.ovf.u8.un", .none, .sequential, 1, 1⟩,
    ⟨"conv.ovf.i.un", .none, .sequential, 1, 1⟩, ⟨"conv.ovf.u.un", .none, .sequential, 1, 1⟩,
    ⟨"box", .token, .sequential, 1, 1⟩, ⟨"newarr", .token, .sequential, 1, 1⟩,
    ⟨"ldlen", .none, .sequential, 1, 1⟩, ⟨"ldelema", .token, .sequential, 2, 1⟩,
    -- 90
    ⟨"ldelem.i1", .none, .sequential, 2, 1⟩, ⟨"ldelem.u1", .none, .sequential, 2, 1⟩,
    ⟨"ldelem.i2", .none, .sequential, 2, 1⟩, ⟨"ldelem.u2", .none, .sequential, 2, 1⟩,
    ⟨"ldelem.i4", .none, .sequential, 2, 1⟩, ⟨"ldelem.u4", .none, .sequential, 2, 1⟩,
    ⟨"ldelem.i8", .none, .sequential, 2, 1⟩, ⟨"ldelem.i", .none, .sequential, 2, 1⟩,
    ⟨"ldelem.r4", .none, .sequential, 2, 1⟩, ⟨"ldelem.r8", .none, .sequential, 2, 1⟩,
    ⟨"ldelem.ref", .none, .sequential, 2, 1⟩, ⟨"stelem.i", .none, .sequential, 3, 0⟩,
    ⟨"stelem.i1", .none, .sequential, 3, 0⟩, ⟨"stelem.i2", .none, .sequential, 3, 0⟩,
    ⟨"stelem.i4", .none, .sequential, 3, 0⟩, ⟨"stelem.i8", .none, .sequential, 3, 0⟩,
    -- A0
    ⟨"stelem.r4", .none, .sequential, 3, 0⟩, ⟨"stelem.r8", .none, .sequential, 3, 0⟩,
    ⟨"stelem.ref", .none, .sequential, 3, 0⟩, ⟨"ldelem", .token, .sequential, 2, 1⟩,
    ⟨"stelem", .token, .sequential, 3, 0⟩, ⟨"unbox.any", .token, .sequential, 1, 1⟩, .reserved,
    .reserved, .reserved, .reserved, .reserved, .reserved, .reserved, .reserved, .reserved,
    .reserved,
    -- B0
    .reserved, .reserved, .reserved, ⟨"conv.ovf.i1", .none, .sequential, 1, 1⟩,
    ⟨"conv.ovf.u1", .none, .sequential, 1, 1⟩, ⟨"conv.ovf.i2", .none, .sequential, 1, 1⟩,
    ⟨"conv.ovf.u2", .none, .sequential, 1, 1⟩, ⟨"conv.ovf.i4", .none, .sequential, 1, 1⟩,
    ⟨"conv.ovf.u4", .none, .sequential, 1, 1⟩, ⟨"conv.ovf.i8", .none, .sequential, 1, 1⟩,
    ⟨"conv.ovf.u8", .none, .sequential, 1, 1⟩, .reserved, .reserved, .reserved, .reserved,
    .reserved,
    -- C0
    .reserved, .reserved, ⟨"refanyval", .token, .sequential, 1, 1⟩,
    ⟨"ckfinite", .none, .sequential, 1, 1⟩, .reserved, .reserved,
    ⟨"mkrefany", .token, .sequential, 1, 1⟩, .reserved, .reserved, .reserved, .reserved,
    .reserved, .reserved, .reserved, .reserved, .reserved,
    -- D0
    ⟨"ldtoken", .token, .sequential, 0, 1⟩, ⟨"conv.u2", .none, .sequential, 1, 1⟩,
    ⟨"conv.u1", .none, .sequential, 1, 1⟩, ⟨"conv.i", .none, .sequential, 1, 1⟩,
    ⟨"conv.ovf.i", .none, .sequential, 1, 1⟩, ⟨"conv.ovf.u", .none, .sequential, 1, 1⟩,
    ⟨"add.ovf", .none, .sequential, 2, 1⟩, ⟨"add.ovf.un", .none, .sequential, 2, 1⟩,
    ⟨"mul.ovf", .none, .sequential, 2, 1⟩, ⟨"mul.ovf.un", .none, .sequential, 2, 1⟩,
    ⟨"sub.ovf", .none, .sequential, 2, 1⟩, ⟨"sub.ovf.un", .none, .sequential, 2, 1⟩,
    ⟨"endfinally", .none, .endFinally, 0, 0⟩, ⟨"leave", .branch32, .leave, 0, 0⟩,
    ⟨"leave.s", .branch8, .leave, 0, 0⟩, ⟨"stind.i", .none, .sequential, 2, 0⟩,
    -- E0
    ⟨"conv.u", .none, .sequential, 1, 1⟩]

/-- The entries of the opcodes after `FE`, in the order of their second bytes. -/
def OpcodeEntry.extendeds : Array OpcodeEntry :=
  #[
    -- 00
    ⟨"arglist", .none, .sequential, 0, 1⟩, ⟨"ceq", .none, .sequential, 2, 1⟩,
    ⟨"cgt", .none, .sequential, 2, 1⟩, ⟨"cgt.un", .none, .sequential, 2, 1⟩,
    ⟨"clt", .none, .sequential, 2, 1⟩, ⟨"clt.un", .none, .sequential, 2, 1⟩,
    ⟨"ldftn", .token, .sequential, 0, 1⟩, ⟨"ldvirtftn", .token, .sequential, 1, 1⟩, .reserved,
    ⟨"ldarg", .arg16, .sequential, 0, 1⟩, ⟨"ldarga", .arg16, .sequential, 0, 1⟩,
    ⟨"starg", .arg16, .sequential, 1, 0⟩, ⟨"ldloc", .local16, .sequential, 0, 1⟩,
    ⟨"ldloca", .local16, .sequential, 0, 1⟩, ⟨"stloc", .local16, .sequential, 1, 0⟩,
    ⟨"localloc", .none, .sequential, 1, 1⟩,
    -- 10
    .reserved, ⟨"endfilter", .none, .endFinally, 1, 0⟩,
    ⟨"unaligned.", .uint8, .sequential, 0, 0⟩, ⟨"volatile.", .none, .sequential, 0, 0⟩,
    ⟨"tail.", .none, .sequential, 0, 0⟩, ⟨"initobj", .token, .sequential, 1, 0⟩,
    ⟨"constrained.", .token, .sequential, 0, 0⟩, ⟨"cpblk", .none, .sequential, 3, 0⟩,
    ⟨"initblk", .none, .sequential, 3, 0⟩, ⟨"no.", .uint8, .sequential, 0, 0⟩,
    ⟨"rethrow", .none, .raise, 0, 0⟩, .reserved, ⟨"sizeof", .token, .sequential, 0, 1⟩,
    ⟨"refanytype", .none, .sequential, 1, 1⟩, ⟨"readonly.", .none, .sequential, 0, 0⟩]

/-- An opcode: a single byte, or a second byte after `FE`. -/
inductive Opcode where
  /-- An opcode of one byte. -/
  | single (code : UInt8)
  /-- An opcode of two bytes, the second of which is given. -/
  | extended (code : UInt8)
  deriving DecidableEq, Hashable, Repr, Inhabited

namespace Opcode

/-- The first byte of every opcode of two bytes. -/
def escape : UInt8 := 0xFE

/-- The byte that tells an opcode from the others of its length. -/
def code : Opcode → UInt8
  | single code | extended code => code

/-- The byte in front of the code, zero when there is none. -/
def lead : Opcode → UInt8
  | single _ => 0
  | extended _ => escape

/-- The bytes of an opcode. -/
def bytes : Opcode → List UInt8
  | single code => [code]
  | extended code => [escape, code]

/-- How many bytes an opcode has. -/
def size (opcode : Opcode) : Nat := opcode.bytes.length

/-- What the table says of an opcode. -/
def entry : Opcode → OpcodeEntry
  | single code => OpcodeEntry.singles.getD code.toNat .reserved
  | extended code => OpcodeEntry.extendeds.getD code.toNat .reserved

/-- The mnemonic, empty for a reserved opcode. -/
def mnemonic (opcode : Opcode) : String := opcode.entry.mnemonic

/-- How the operand is encoded. -/
def operandKind (opcode : Opcode) : OperandKind := opcode.entry.operand

/-- Where control goes. -/
def flow (opcode : Opcode) : Flow := opcode.entry.flow

/-- Whether the opcode has a meaning. -/
def isValid (opcode : Opcode) : Bool := opcode.mnemonic != ""

/-- Whether the operand is a single branch displacement. -/
def isBranch (opcode : Opcode) : Bool :=
  opcode.operandKind == .branch8 || opcode.operandKind == .branch32

/-- Whether the operand is a branch displacement of one byte. -/
def isShortBranch (opcode : Opcode) : Bool := opcode.operandKind == .branch8

/-- The form of a short branch with a displacement of four bytes; other opcodes stay. -/
def longForm : Opcode → Opcode
  | single code =>
      if 0x2B ≤ code && code ≤ 0x37 then single (code + 13)
      else if code = 0xDE then single 0xDD
      else single code
  | extended code => extended code

/-- The form of a branch with a displacement of one byte. -/
def shortForm? : Opcode → Option Opcode
  | single code =>
      if 0x38 ≤ code && code ≤ 0x44 then some (single (code - 13))
      else if code = 0xDD then some (single 0xDE)
      else if (single code).isShortBranch then some (single code)
      else none
  | extended code => if (extended code).isShortBranch then some (extended code) else none

/-- The long form of a short branch is not short. -/
theorem isShortBranch_longForm {opcode : Opcode} (h : opcode.isShortBranch = true) :
    opcode.longForm.isShortBranch = false := by
  have hsingle : ∀ code : Fin 256, (single (UInt8.ofFin code)).isShortBranch = true →
      (single (UInt8.ofFin code)).longForm.isShortBranch = false := by decide +kernel
  have hextended : ∀ code : Fin 256, (extended (UInt8.ofFin code)).isShortBranch = false := by
    decide +kernel
  cases opcode with
  | single code => exact hsingle code.toFin h
  | extended code =>
      have hnot : (extended code).isShortBranch = false := hextended code.toFin
      rw [hnot] at h
      exact absurd h Bool.false_ne_true

/-- Whether two opcodes are one operation, whatever the size of their displacements. -/
def sameFamily (left right : Opcode) : Bool := left.longForm == right.longForm

/-- The mnemonic, or the bytes of an opcode that has none. -/
def text (opcode : Opcode) : String :=
  if opcode.isValid then opcode.mnemonic
  else match opcode with
    | single code => "<" ++ Hex.upper code.toNat 2 ++ ">"
    | extended code => "<FE " ++ Hex.upper code.toNat 2 ++ ">"

/-- The opcode `ldarg.0`. -/
@[match_pattern] def ldarg0 : Opcode := single 0x02

/-- The opcode `ldloc.0`. -/
@[match_pattern] def ldloc0 : Opcode := single 0x06

/-- The opcode `stloc.0`. -/
@[match_pattern] def stloc0 : Opcode := single 0x0A

/-- The opcode `ldloc.s`. -/
@[match_pattern] def ldlocS : Opcode := single 0x11

/-- The opcode `ldloca.s`. -/
@[match_pattern] def ldlocaS : Opcode := single 0x12

/-- The opcode `stloc.s`. -/
@[match_pattern] def stlocS : Opcode := single 0x13

/-- The opcode `ldc.i4.m1`. -/
@[match_pattern] def ldcI4M1 : Opcode := single 0x15

/-- The opcode `ldc.i4.0`. -/
@[match_pattern] def ldcI40 : Opcode := single 0x16

/-- The opcode `ldc.i4.1`. -/
@[match_pattern] def ldcI41 : Opcode := single 0x17

/-- The opcode `ldc.i4.s`. -/
@[match_pattern] def ldcI4S : Opcode := single 0x1F

/-- The opcode `ldc.i4`. -/
@[match_pattern] def ldcI4 : Opcode := single 0x20

/-- The opcode `ldc.r4`. -/
@[match_pattern] def ldcR4 : Opcode := single 0x22

/-- The opcode `call`. -/
@[match_pattern] def call : Opcode := single 0x28

/-- The opcode `ret`. -/
@[match_pattern] def ret : Opcode := single 0x2A

/-- The opcode `br`. -/
@[match_pattern] def br : Opcode := single 0x38

/-- The opcode `brfalse`. -/
@[match_pattern] def brfalse : Opcode := single 0x39

/-- The opcode `bge.un`. -/
@[match_pattern] def bgeUn : Opcode := single 0x41

/-- The opcode `ble`. -/
@[match_pattern] def ble : Opcode := single 0x3E

/-- The opcode `blt`. -/
@[match_pattern] def blt : Opcode := single 0x3F

/-- The opcode `bne.un`. -/
@[match_pattern] def bneUn : Opcode := single 0x40

/-- The opcode `add`. -/
@[match_pattern] def add : Opcode := single 0x58

/-- The opcode `ldfld`. -/
@[match_pattern] def ldfld : Opcode := single 0x7B

/-- The opcode `ldflda`. -/
@[match_pattern] def ldflda : Opcode := single 0x7C

/-- The opcode `stfld`. -/
@[match_pattern] def stfld : Opcode := single 0x7D

/-- The opcode `ldsfld`. -/
@[match_pattern] def ldsfld : Opcode := single 0x7E

/-- The opcode `ldsflda`. -/
@[match_pattern] def ldsflda : Opcode := single 0x7F

/-- The opcode `stsfld`. -/
@[match_pattern] def stsfld : Opcode := single 0x80

/-- The opcode `ldelem.r4`. -/
@[match_pattern] def ldelemR4 : Opcode := single 0x98

/-- The opcode `ldelem.ref`. -/
@[match_pattern] def ldelemRef : Opcode := single 0x9A

/-- The opcode `ldloc` with a wide index. -/
@[match_pattern] def ldloc : Opcode := extended 0x0C

/-- The opcode `ldloca` with a wide index. -/
@[match_pattern] def ldloca : Opcode := extended 0x0D

/-- The opcode `stloc` with a wide index. -/
@[match_pattern] def stloc : Opcode := extended 0x0E

end Opcode

end CilPatch
