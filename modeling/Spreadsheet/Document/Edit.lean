import Spreadsheet.Document.Basic
import Spreadsheet.Formula.Relocation
import Spreadsheet.Sheet.Cycle

/-!
# Editing a document

Cells are set, cleared and copied, and lines are inserted and deleted. A cell whose formula closes a cycle of
dependencies is refused. Copying moves the references of a formula by the distance between the two cells, and
inserting or deleting a line moves cells and references behind it.
-/

namespace Spreadsheet.Document

/-- Removes a cell. -/
def clear (d : Document) (a : Address) : Document :=
  if a ∈ d.sheet then d.edited (d.sheet.erase a) else d

/-- Puts a cell at an address; an empty one removes what is there. If a cycle can be reached from the new cell, it is
refused, and what was there is put back. -/
def setCell (d : Document) (a : Address) (cell : Cell) : Except Error Unit × Document :=
  if cell.content = .empty then (.ok (), d.clear a)
  else
    let old := d.sheet[a]?
    let sheet : Sheet := d.sheet.insert a cell
    let cycle := if cell.dependsOn.isEmpty then none else sheet.findCycle a
    match cycle with
    | some path => (.error (.circularDependency path), { d with sheet := sheet.restore a old })
    | none => (.ok (), d.edited sheet)

/-- Sets a cell from a text that a user enters. -/
def setInput (d : Document) (a : Address) (entered : List Char) : Except Error Unit × Document :=
  d.setCell a (.ofInput d.options entered)

/-- The way from one index to another as a signed number of 64 bits. -/
def distance (source target : Nat) : Int :=
  Int.bmod (target - source) indexBound

/-- Copies a cell; copying no cell removes the target. The references of a formula move along. -/
def copy (d : Document) (source target : Address) : Except Error Unit × Document :=
  match d.sheet[source]? with
  | none => (.ok (), d.clear target)
  | some cell =>
    match cell.content with
    | .formula text _ =>
      match Formula.offset d.options (distance source.column target.column)
        (distance source.row target.row) text with
      | .error error => (.error (.formula error), d)
      | .ok moved => d.setInput target moved
    | _ => d.setCell target cell

/-- A cell after a line has been inserted or deleted. A formula that can no longer be read is kept with its
error; any other content stays. -/
def shiftCell (options : Formula.Options) (e : LineEdit) (cell : Cell) : Cell :=
  match cell.content with
  | .formula source _ =>
    match Formula.shift options e source with
    | .ok shifted => if shifted == source then cell else .formula options shifted
    | .error error => ⟨.invalid source error, []⟩
  | _ => cell

/-- The cells of a sheet after a line has been inserted or deleted. -/
def shiftSheet (options : Formula.Options) (e : LineEdit) (s : Sheet) : Sheet :=
  (∅ : Sheet).insertAll <| s.toList.filterMap fun (a, cell) =>
    (e.moveAddress? a).map fun a => (a, shiftCell options e cell)

/-- Inserts or deletes a line. -/
def editLine (d : Document) (e : LineEdit) : Document :=
  d.edited (shiftSheet d.options e d.sheet)

/-- Changes how formulas are read from now on. -/
def setOptions (d : Document) (options : Formula.Options) : Document :=
  { d with options }

end Spreadsheet.Document
