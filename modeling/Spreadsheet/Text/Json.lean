import Spreadsheet.Text.Digits

/-!
# Reports as JSON

A report is an array of records with named fields, printed over several lines with two spaces for each level.
A field is a text, a whole number or null. An array without records is `[]`.
-/

namespace Spreadsheet.Text.Json

/-- The value of a field. -/
inductive Value where
  | null
  | number (n : Nat)
  | text (s : List Char)
deriving DecidableEq

/-- A record, its fields in the order in which they are printed. -/
abbrev Record := List (List Char × Value)

/-- A digit of a hexadecimal numeral. -/
def hexDigit (n : Nat) : Char :=
  Nat.digitChar n

/-- How a character is written inside quotes. Controls are written behind a backslash, by a letter or as a
number of four hexadecimal digits. -/
def escaped (c : Char) : List Char :=
  match c with
  | '"' => ['\\', '"']
  | '\\' => ['\\', '\\']
  | '\x08' => ['\\', 'b']
  | '\t' => ['\\', 't']
  | '\n' => ['\\', 'n']
  | '\x0c' => ['\\', 'f']
  | '\r' => ['\\', 'r']
  | c =>
    if c.toNat < 0x20 then ['\\', 'u', '0', '0', hexDigit (c.toNat / 16), hexDigit (c.toNat % 16)]
    else [c]

/-- A text between quotes. -/
def quoted (s : List Char) : List Char :=
  '"' :: s.flatMap escaped ++ ['"']

/-- The text of a value. -/
def Value.print : Value → List Char
  | .null => "null".toList
  | .number n => numeral n
  | .text s => quoted s

/-- Lines with commas between them, each behind a line break. -/
def commaLines (items : List (List Char)) : List Char :=
  [','].intercalate (items.map ('\n' :: ·))

/-- The text of a record inside an array. -/
def printRecord (r : Record) : List Char :=
  let fields := r.map fun (name, value) =>
    "    ".toList ++ quoted name ++ ": ".toList ++ value.print
  "  \x7b".toList ++ commaLines fields ++ "\n  \x7d".toList

/-- The text of an array of records. -/
def print (records : List Record) : List Char :=
  match records with
  | [] => "[]".toList
  | records => '[' :: commaLines (records.map printRecord) ++ "\n]".toList

example : print [[("a".toList, .number 1), ("b".toList, .null)]] =
    "[\n  \x7b\n    \"a\": 1,\n    \"b\": null\n  \x7d\n]".toList := by decide +kernel

end Spreadsheet.Text.Json
