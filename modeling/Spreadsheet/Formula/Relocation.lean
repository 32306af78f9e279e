import Spreadsheet.Formula.Scan
import Spreadsheet.Reference

/-!
# Moving the references of a formula

Two things move references: copying a formula to another cell, which moves every coordinate without an anchor
by a distance, and inserting or deleting a line of the sheet, which moves every coordinate behind that line.
Both say what becomes of a column and of a row, and that is a `Relocation`. A reference with a coordinate that
has no new place becomes the error code `#REF!`, its sheet included.

`relocate` splits a formula, moves its references and puts it together again. Every other token stays as it
is; a run of spaces comes back as one space.
-/

namespace Spreadsheet

/-- What becomes of the coordinates of references; nothing where there is no new place. -/
structure Relocation where
  column : Coordinate → Option Coordinate
  row : Coordinate → Option Coordinate

/-- The lines of a sheet. -/
inductive Axis where
  | row
  | column
deriving DecidableEq

/-- Whether a line is put in or taken out. -/
inductive LineChange where
  | insert
  | delete
deriving DecidableEq

/-- The insertion or the deletion of one line of a sheet. -/
structure LineEdit where
  axis : Axis
  change : LineChange
  /-- The line that is deleted, or before which a new line comes in. -/
  line : Nat
deriving DecidableEq

namespace LineEdit

/-- The new index of a line that had this index; none for the deleted line. It is a whole number: an insertion takes the
last index of 64 bits out of them. No reference that has been read has that index, and where cells are followed through
insertions it is said that they have room (`LineEdit.onGrid_of_moveAddress?`). -/
def moveIndex? (e : LineEdit) (index : Nat) : Option Nat :=
  match e.change with
  | .insert => some (if e.line ≤ index then index + 1 else index)
  | .delete =>
    if index = e.line then none
    else some (if e.line < index then index - 1 else index)

/-- The new place of a cell; none for a cell on the deleted line. -/
def moveAddress? (e : LineEdit) (a : Address) : Option Address :=
  match e.axis with
  | .row => (e.moveIndex? a.row).map (⟨·, a.column⟩)
  | .column => (e.moveIndex? a.column).map (⟨a.row, ·⟩)

/-- The new coordinate in a reference. An anchor does not hold it. -/
def moveCoordinate? (e : LineEdit) (c : Coordinate) : Option Coordinate :=
  (e.moveIndex? c.index).map (⟨·, c.anchored⟩)

/-- How an edit moves references. -/
def relocation (e : LineEdit) : Relocation :=
  match e.axis with
  | .row => ⟨some, e.moveCoordinate?⟩
  | .column => ⟨e.moveCoordinate?, some⟩

end LineEdit

namespace Relocation

/-- Moves a coordinate by a distance unless it is anchored. Its index must stay below the bound. -/
def offsetCoordinate? (distance : Int) (c : Coordinate) : Option Coordinate :=
  if c.anchored then some c
  else
    let index := c.index + distance
    if 0 ≤ index ∧ index < indexBound then some ⟨index.toNat, false⟩ else none

/-- How copying a formula by a distance moves references. -/
def offset (columns rows : Int) : Relocation :=
  ⟨offsetCoordinate? columns, offsetCoordinate? rows⟩

/-- The moved reference to a cell. -/
def moveCell? (m : Relocation) (c : CellReference) : Option CellReference :=
  match m.column c.column, m.row c.row with
  | some column, some row => some ⟨column, row⟩
  | _, _ => none

/-- Moves both ends of a block. -/
def moveBoth? {α β : Type} (move : α → Option α) (make : α → α → β) (first last : α) : Option β :=
  match move first, move last with
  | some first, some last => some (make first last)
  | _, _ => none

/-- The moved area. -/
def moveArea? (m : Relocation) : Area → Option Area
  | .cell c => (m.moveCell? c).map .cell
  | .cells a b => moveBoth? m.moveCell? .cells a b
  | .columns a b => moveBoth? m.column .columns a b
  | .rows a b => moveBoth? m.row .rows a b

/-- The text of the moved reference, `#REF!` if it has no new place. -/
def moveText (m : Relocation) (r : Reference) : List Char :=
  match m.moveArea? r.area with
  | some area => Reference.text ⟨r.sheet, area⟩
  | none => "#REF!".toList

/-- The moved token. Only an operand that is a reference changes. -/
def moveToken (m : Relocation) (t : Token) : Token :=
  if t.kind = .operand .range then
    match Reference.read? t.value with
    | some r => .operand (m.moveText r)
    | none => t
  else t

end Relocation

namespace Formula

/-- Moves the references of a formula. The formula must be one under the given limit on nesting. -/
def relocate (options : Options) (m : Relocation) (formula : List Char) :
    Except ScanError (List Char) :=
  (tokenize { options with preserveWhitespace := true } formula).map fun tokens =>
    render (tokens.map m.moveToken)

/-- The formula for a cell that lies some columns and rows away. Without any distance it is left as it is. -/
def offset (options : Options) (columns rows : Int) (formula : List Char) :
    Except ScanError (List Char) :=
  if columns = 0 ∧ rows = 0 then .ok formula
  else relocate options (.offset columns rows) formula

/-- The formula after a line of the sheet has been inserted or deleted. -/
def shift (options : Options) (e : LineEdit) (formula : List Char) : Except ScanError (List Char) :=
  relocate options e.relocation formula

/-- Anchored coordinates stay, and a reference that leaves the sheet is an error. -/
example : (offset {} 0 (-1) "=B2+b$2 +S!B1:B2".toList).toOption = some "=B1+B$2 +#REF!".toList := by
  decide +kernel

/-- A range across an inserted line grows. -/
example : (shift {} ⟨.row, .insert, 1⟩ "=$A$1:A2".toList).toOption = some "=$A$1:A3".toList := by
  decide +kernel

end Formula

end Spreadsheet
