import CilPatch.Token
import Mathlib.Data.Nat.Bitwise

/-!
# Tokens and rows

A token is the number of a table above 24 bits of a row number. So a token of a table is known by
its row, and a row of a table by its token as long as its number fits.
-/

namespace CilPatch.Token

/-- How many rows a token can tell apart. -/
def rowLimit : Nat := 2 ^ 24

/-- The row is what is left of the word without its high byte. -/
theorem toNat_row (token : Token) : token.row.toNat = token.value.toNat % rowLimit := by
  rw [row, UInt32.toNat_and]
  exact Nat.and_two_pow_sub_one_eq_mod token.value.toNat 24

/-- The row of a token is below the limit. -/
theorem toNat_row_lt (token : Token) : token.row.toNat < rowLimit := by
  rw [toNat_row]
  exact Nat.mod_lt _ (by decide)

/-- The table is the high byte. -/
theorem toNat_table (token : Token) : token.table.toNat = token.value.toNat / rowLimit := by
  have hlt := token.value.toNat_lt
  rw [table, UInt32.toNat_toUInt8, UInt32.toNat_shiftRight]
  change token.value.toNat >>> 24 % 256 = _
  rw [Nat.shiftRight_eq_div_pow, rowLimit, Nat.mod_eq_of_lt (by omega)]

/-- A token is in a table when its high byte is the number of the table. -/
theorem isIn_iff {token : Token} {table : TableId} :
    token.isIn table = true ↔ token.value.toNat / rowLimit = table.number := by
  rw [isIn, beq_iff_eq, toNat_table]

end CilPatch.Token
