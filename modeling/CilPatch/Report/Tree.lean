import CilPatch.Text.Hex
import CilPatch.Bytes.LittleEndian

/-!
# Reports

A report is a tree of named values, for other programs to read. It is written as JSON, either on
one line or with one value a line. The fields of a record keep their order.
-/

namespace CilPatch

/-- A tree of named values. -/
inductive Report where
  /-- No value. -/
  | absent
  /-- A truth value. -/
  | flag (value : Bool)
  /-- A whole number. -/
  | number (value : Int)
  /-- A text. -/
  | text (value : String)
  /-- Reports in order. -/
  | list (items : List Report)
  /-- Named reports in order. -/
  | record (fields : List (String × Report))
  deriving Inhabited

namespace Report

/-- A character as it stands in a quoted text. -/
def escape (c : Char) : String :=
  if c = '"' then "\\\""
  else if c = '\\' then "\\\\"
  else if c = '\n' then "\\n"
  else if c = '\r' then "\\r"
  else if c = '\t' then "\\t"
  else if c.toNat = 0x08 then "\\b"
  else if c.toNat = 0x0C then "\\f"
  else if c.toNat < 0x20 then "\\u" ++ Hex.lower c.toNat 4
  else String.singleton c

/-- A text in quotes. -/
def quote (text : String) : String :=
  "\"" ++ String.join (text.toList.map escape) ++ "\""

/-- A line break with the indentation of a depth, two blanks for each level. -/
def lineBreak (depth : Nat) : String := "\n" ++ String.ofList (List.replicate (2 * depth) ' ')

/-- How the parts of a list or record are set apart. -/
structure Spacing where
  /-- What stands before a part at a depth, and before the closing bracket. -/
  lead : Nat → String
  /-- What stands between a name and its value. -/
  colon : String

/-- Everything on one line. -/
def Spacing.compact : Spacing := ⟨fun _ => "", ":"⟩

/-- One value a line. -/
def Spacing.lines : Spacing := ⟨lineBreak, ": "⟩

/-- Texts in brackets, set apart by commas. -/
def enclose (spacing : Spacing) (depth : Nat) (opening closing : String) :
    List String → String
  | [] => opening ++ closing
  | parts =>
      opening ++ ",".intercalate (parts.map (spacing.lead (depth + 1) ++ ·)) ++
        spacing.lead depth ++ closing

mutual

/-- A report at a depth. -/
def write (spacing : Spacing) (depth : Nat) : Report → String
  | absent => "null"
  | flag true => "true"
  | flag false => "false"
  | number value => toString value
  | text value => quote value
  | list items => enclose spacing depth "[" "]" (writeItems spacing (depth + 1) items)
  | record fields =>
      enclose spacing depth "\x7b" "\x7d" (writeFields spacing (depth + 1) fields)

/-- The items of a list at a depth. -/
def writeItems (spacing : Spacing) (depth : Nat) : List Report → List String
  | [] => []
  | item :: items => write spacing depth item :: writeItems spacing depth items

/-- The fields of a record at a depth. -/
def writeFields (spacing : Spacing) (depth : Nat) : List (String × Report) → List String
  | [] => []
  | (name, value) :: fields =>
      (quote name ++ spacing.colon ++ write spacing depth value) ::
        writeFields spacing depth fields

end

/-- A report on one line. -/
def compact (report : Report) : String := report.write .compact 0

/-- A report with one value a line. -/
def pretty (report : Report) : String := report.write .lines 0

end Report

/-- Values that can stand in a report. -/
class Reported (α : Type) where
  /-- A value as a report. -/
  report : α → Report

export Reported (report)

/-- A named value of a record. -/
def Report.field {α : Type} [Reported α] (name : String) (value : α) : String × Report :=
  (name, report value)

/-- A named value of a record that is left out when there is none. -/
def Report.field? {α : Type} [Reported α] (name : String) (value : Option α) :
    List (String × Report) :=
  value.toList.map (Report.field name)

instance : Reported Report := ⟨id⟩
instance : Reported Unit := ⟨fun _ => .absent⟩
instance : Reported Bool := ⟨.flag⟩
instance : Reported Nat := ⟨fun value => .number value⟩
instance : Reported Int := ⟨.number⟩
instance : Reported String := ⟨.text⟩
instance : Reported UInt8 := ⟨fun value => .number value.toNat⟩
instance : Reported UInt16 := ⟨fun value => .number value.toNat⟩
instance : Reported UInt32 := ⟨fun value => .number value.toNat⟩
instance : Reported Int32 := ⟨fun value => .number value.toInt⟩
instance : Reported Bytes := ⟨fun data => .text (Hex.bytes data.toList)⟩
instance : Reported (List UInt8) := ⟨fun data => .text (Hex.bytes data)⟩
instance {α : Type} [Reported α] : Reported (Option α) := ⟨fun value =>
  (value.map report).getD .absent⟩
instance {α : Type} [Reported α] : Reported (List α) := ⟨fun items => .list (items.map report)⟩
instance {α : Type} [Reported α] : Reported (Array α) := ⟨fun items =>
  .list (items.toList.map report)⟩

end CilPatch
