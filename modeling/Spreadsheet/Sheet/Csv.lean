import Spreadsheet.Cell

/-!
# Tables of separated values

A table is a text of records, one in a line, with commas between their fields. Double quotes may stand around
a field or a part of it; between them commas and line breaks belong to the field, and a doubled quote is one
quote. Blanks around a field without quotes do not count. A carriage return before a line feed does not count
outside of quotes. There is no record behind the last line break.

`records` cuts a text into fields, and `cells` makes cells of the fields that are not empty, each at its
distance from a given corner.
-/

namespace Spreadsheet.Csv

/-- What has been read of a table, the newest first throughout. -/
structure Progress where
  records : List (List (List Char))
  /-- The complete fields of the record that is being read. -/
  fields : List (List Char)
  /-- The characters of the field that is being read. -/
  current : List Char
  /-- Whether a quote has been seen in that field. -/
  quoted : Bool

namespace Progress

/-- Nothing has been read. -/
def start : Progress := ⟨[], [], [], false⟩

/-- Adds a character to the field. -/
def add (p : Progress) (c : Char) : Progress :=
  { p with current := c :: p.current }

/-- Ends the field. Blanks around it are kept if it has quotes. -/
def endField (p : Progress) : Progress :=
  let field := if p.quoted then p.current.reverse else Text.trim p.current.reverse
  { p with fields := field :: p.fields, current := [], quoted := false }

/-- Ends the field and its record. -/
def endRecord (p : Progress) : Progress :=
  let p := p.endField
  { p with records := p.fields.reverse :: p.records, fields := [] }

/-- The records when the text has ended. The last record need not be ended by a line break. -/
def finish (p : Progress) : List (List (List Char)) :=
  let p := if p.current = [] ∧ p.quoted = false ∧ p.fields = [] then p else p.endRecord
  p.records.reverse

end Progress

/-- Reads on, inside or outside of quotes. -/
def scan (p : Progress) (inside : Bool) : List Char → Progress
  | [] => p
  | c :: s =>
    if inside then
      if c ≠ '"' then scan (p.add c) true s
      else
        match s with
        | '"' :: s => scan (p.add '"') true s
        | s => scan p false s
    else if c = '"' then scan { p with quoted := true } true s
    else if c = ',' then scan p.endField false s
    else if c = '\n' then scan p.endRecord false s
    else if c = '\r' ∧ s.head? = some '\n' then scan p false s
    else scan (p.add c) false s

/-- The records of a table, each a list of fields. -/
def records (s : List Char) : List (List (List Char)) :=
  (scan .start false s).finish

/-- Whether a text begins with a zero and another digit. -/
def hasLeadingZero (s : List Char) : Bool :=
  match s with
  | '0' :: c :: _ => c.isDigit
  | _ => false

/-- Whether a text begins or ends with a blank. -/
def hasOuterBlank (s : List Char) : Bool :=
  s.head?.any Text.isBlank || s.getLast?.any Text.isBlank

/-- The cell for a field. A field with blanks around it is a text, and so is a number with a zero in front. -/
def cell (options : Formula.Options) (field : List Char) : Cell :=
  if field = [] then .empty
  else if hasOuterBlank field then .text field
  else if field.head? = some '=' then .formula options field
  else if hasLeadingZero field then .text field
  else
    match Number.read? field with
    | some value => .number value
    | none => .text field

/-- The cells of a record, from the address `a` to the right. -/
def recordCells (options : Formula.Options) (a : Address) (fields : List (List Char)) :
    List (Address × Cell) :=
  (fields.zipIdx a.column).filterMap fun (field, column) =>
    if field = [] then none else some (⟨a.row, column⟩, cell options field)

/-- The cells of a table whose first field stands at `corner`, row by row. Empty fields make no cells. -/
def cells (options : Formula.Options) (corner : Address) (s : List Char) : List (Address × Cell) :=
  ((records s).zipIdx corner.row).flatMap fun (fields, row) =>
    recordCells options ⟨row, corner.column⟩ fields

/-- A quoted field keeps its blanks, commas and line breaks. -/
example : records "a , \" b,\nc\"\"\"\r\n,".toList =
    [["a".toList, "  b,\nc\"".toList], [[], []]] := by decide +kernel

end Spreadsheet.Csv
