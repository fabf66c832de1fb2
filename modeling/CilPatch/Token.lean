import CilPatch.Table.Id
import CilPatch.Text.Hex

/-!
# Metadata tokens

A token is a 32-bit word: its high byte is a table number and its low 24 bits a row number
that counts from one.
-/

namespace CilPatch

/-- A reference to one row of one metadata table. -/
structure Token where
  /-- The whole word. -/
  value : UInt32
  deriving DecidableEq, Hashable, Inhabited, Repr

namespace Token

/-- The token of a row of a table; only 24 bits of the row are kept. -/
def ofRow (table : TableId) (row : UInt32) : Token :=
  ⟨(UInt32.ofNat table.number <<< 24) ||| (row &&& 0x00FFFFFF)⟩

/-- The token of the first word, which names nothing. -/
def null : Token := ⟨0⟩

/-- The high byte. -/
def table (token : Token) : UInt8 := (token.value >>> 24).toUInt8

/-- The low 24 bits. -/
def row (token : Token) : UInt32 := token.value &&& 0x00FFFFFF

/-- Whether all bits are zero. -/
def isNull (token : Token) : Bool := token.value == 0

/-- Whether the high byte is the number of a table. -/
def isIn (token : Token) (table : TableId) : Bool := token.table.toNat == table.number

/-- A token as it stands in messages: `0x` and eight digits. -/
def text (token : Token) : String := "0x" ++ Hex.lower token.value.toNat 8

/-- A token with its parts spelled out. -/
def detail (token : Token) : String :=
  "Token(" ++ token.text ++ ", table: 0x" ++ Hex.lower token.table.toNat 2 ++ ", row: " ++
    toString token.row.toNat ++ ")"

end Token

end CilPatch
