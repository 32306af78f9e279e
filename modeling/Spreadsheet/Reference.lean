import Spreadsheet.Address
import Spreadsheet.Text.Blank

/-!
# References in formulas

A reference names a cell, a block of cells between two corners, or whole columns or rows, as in `B3`,
`$A1:C$2`, `A:C` or `1:3`. A dollar sign anchors a column or a row, so that it stays when the formula is
copied. In front of it may stand the name of a sheet with an exclamation mark.

Reading is liberal in the case of letters and in zeros before a row number; writing is not, so writing what
was read gives the canonical spelling of a reference.
-/

namespace Spreadsheet

/-- The index of a column or a row in a reference, and whether a dollar sign anchors it. -/
structure Coordinate where
  index : Nat
  anchored : Bool
deriving DecidableEq

namespace Coordinate

/-- A text without the dollar sign in front, and whether there was one. -/
def splitAnchor : List Char → Bool × List Char
  | '$' :: s => (true, s)
  | s => (false, s)

/-- The dollar sign of an anchored coordinate. -/
def mark (c : Coordinate) : List Char :=
  if c.anchored then ['$'] else []

/-- The text of a column. -/
def columnText (c : Coordinate) : List Char :=
  c.mark ++ Address.columnName c.index

/-- The text of a row. -/
def rowText (c : Coordinate) : List Char :=
  c.mark ++ Address.rowName c.index

/-- Reads a column. -/
def readColumn? (s : List Char) : Option Coordinate :=
  let (anchored, s) := splitAnchor s
  (Address.readColumn? s).map (⟨·, anchored⟩)

/-- Reads a row. -/
def readRow? (s : List Char) : Option Coordinate :=
  let (anchored, s) := splitAnchor s
  (Address.readRow? s).map (⟨·, anchored⟩)

end Coordinate

/-- A reference to one cell. -/
structure CellReference where
  column : Coordinate
  row : Coordinate
deriving DecidableEq

namespace CellReference

/-- The address of the cell. -/
def address (r : CellReference) : Address :=
  ⟨r.row.index, r.column.index⟩

/-- The text of the reference. -/
def text (r : CellReference) : List Char :=
  r.column.columnText ++ r.row.rowText

/-- Reads a reference to one cell: the letters of a column, then a row. -/
def read? (s : List Char) : Option CellReference :=
  let (anchored, s) := Coordinate.splitAnchor s
  match Address.readColumn? (s.takeWhile Char.isAlpha),
    Coordinate.readRow? (s.dropWhile Char.isAlpha) with
  | some column, some row => some ⟨⟨column, anchored⟩, row⟩
  | _, _ => none

end CellReference

/-- The cell with this name; dollar signs are allowed and dropped. -/
def Address.read? (s : List Char) : Option Address :=
  (CellReference.read? s).map CellReference.address

/-- The wording of the fault that a text is no name of a cell. -/
def Address.invalidName (s : List Char) : String :=
  "Invalid cell reference: " ++ String.ofList s

/-- One end of a reference: a cell, a column or a row. -/
inductive ReferencePart where
  | cell (cell : CellReference)
  | column (column : Coordinate)
  | row (row : Coordinate)
deriving DecidableEq

namespace ReferencePart

/-- The text of the part. -/
def text : ReferencePart → List Char
  | .cell c => c.text
  | .column c => c.columnText
  | .row c => c.rowText

/-- Reads a part. -/
def read? (s : List Char) : Option ReferencePart :=
  ((CellReference.read? s).map .cell).or
    (((Coordinate.readColumn? s).map .column).or ((Coordinate.readRow? s).map .row))

end ReferencePart

/-- What a reference covers on its sheet. The two ends of a block are of one kind. -/
inductive Area where
  | cell (cell : CellReference)
  | cells (first last : CellReference)
  | columns (first last : Coordinate)
  | rows (first last : Coordinate)
deriving DecidableEq

namespace Area

/-- The one or two parts of an area. -/
def parts : Area → List ReferencePart
  | .cell c => [.cell c]
  | .cells a b => [.cell a, .cell b]
  | .columns a b => [.column a, .column b]
  | .rows a b => [.row a, .row b]

/-- The area with these parts. -/
def ofParts? : List ReferencePart → Option Area
  | [.cell c] => some (.cell c)
  | [.cell a, .cell b] => some (.cells a b)
  | [.column a, .column b] => some (.columns a b)
  | [.row a, .row b] => some (.rows a b)
  | _ => none

@[simp] theorem ofParts?_parts (a : Area) : ofParts? a.parts = some a := by
  cases a <;> rfl

theorem ofParts?_eq_some_iff {parts : List ReferencePart} {a : Area} :
    ofParts? parts = some a ↔ parts = a.parts := by
  constructor
  · intro h
    unfold ofParts? at h
    split at h <;> cases h <;> rfl
  · rintro rfl
    exact ofParts?_parts a

/-- The text of an area. -/
def text (a : Area) : List Char :=
  [':'].intercalate (a.parts.map ReferencePart.text)

/-- Reads an area. -/
def read? (s : List Char) : Option Area :=
  ((Text.split (· = ':') s).mapM ReferencePart.read?).bind ofParts?

end Area

/-- A reference with the sheet it names, if it names one. -/
structure Reference where
  /-- The name of the sheet with its mark, empty for the sheet of the formula. -/
  sheet : List Char
  area : Area
deriving DecidableEq

namespace Reference

/-- The text of a reference. -/
def text (r : Reference) : List Char :=
  r.sheet ++ r.area.text

/-- A text cut behind its last exclamation mark; the first part is empty if there is none. -/
def splitSheet (s : List Char) : List Char × List Char :=
  let area := (s.reverse.takeWhile (· ≠ '!')).reverse
  (s.take (s.length - area.length), area)

/-- Reads a reference. Any text may stand before the last exclamation mark. -/
def read? (s : List Char) : Option Reference :=
  let (sheet, area) := splitSheet s
  (Area.read? area).map (⟨sheet, ·⟩)

/-- Writing what was read gives the canonical spelling. -/
example : ((read? "my sheet!$a01:c$2".toList).map text) = some "my sheet!$A1:C$2".toList := by
  decide +kernel

/-- The ends of a block are of one kind, and a column or a row alone is no reference. -/
example : read? "A:3".toList = none ∧ read? "A".toList = none ∧ read? "1:3".toList ≠ none := by
  decide +kernel

end Reference

end Spreadsheet
