import Spreadsheet.Disk
import Spreadsheet.Document.Basic
import Spreadsheet.Sheet.Csv

/-!
# Documents and files

A document is loaded from a file and saved to one. The extension of the file says in which of two formats it
is read, as lines of text or as a table; it is always written as lines of text. A table can also be imported
into a sheet that has cells. Files above a limit are refused.
-/

namespace Spreadsheet.Document

/-- The largest sheet file that is read, in bytes. -/
def sheetFileLimit : Nat := 16 * 1024 * 1024

/-- The sheet in a file. -/
def readSheet (options : Formula.Options) (files : Files) (path : Path) : Except Error Sheet :=
  if path.extension = "grd".toList then
    match files.read sheetFileLimit path with
    | .error fault => .error (.file fault)
    | .ok text => (Grd.read options text).mapError .parse
  else if path.extension = "csv".toList then
    match files.read sheetFileLimit path with
    | .error fault => .error (.file fault)
    | .ok text => .ok ((∅ : Sheet).insertAll (Csv.cells options ⟨0, 0⟩ text))
  else .error (.unsupportedFormat path.extension)

/-- Loads a file in place of the sheet; the document then belongs to that file. -/
def load (d : Document) (files : Files) (path : Path) : Except Error Unit × Document :=
  match readSheet d.options files path with
  | .error error => (.error error, d)
  | .ok sheet =>
    (.ok (), { d with sheet, path := some path, modified := false, dependents := sheet.dependents })

/-- The document of a file. It is empty if there is no such file yet. -/
def ofFile (options : Formula.Options) (files : Files) (path : Path) : Except Error Document :=
  if files.holds path then
    match (new options).load files path with
    | (.ok (), d) => .ok d
    | (.error error, _) => .error error
  else .ok { new options with path := some path }

/-- Puts the cells of a table into the sheet, the first field at a given corner, and gives their number. -/
def importCsv (d : Document) (files : Files) (path : Path) (corner : Address) :
    Except Error Nat × Document :=
  match files.read sheetFileLimit path with
  | .error fault => (.error (.file fault), d)
  | .ok text =>
    match Csv.cells d.options corner text with
    | [] => (.ok 0, d)
    | cells => (.ok cells.length, d.edited (d.sheet.insertAll cells))

/-- Saves the sheet to the file of the document, and gives its path. -/
def save (d : Document) (disk : Disk) : Except Error Path × Document × Disk :=
  match d.path with
  | none => (.error .noPath, d, disk)
  | some path =>
    match disk.write path (Grd.write d.sheet) with
    | .error fault => (.error (.file fault), d, disk)
    | .ok disk => (.ok path, { d with modified := false }, disk)

/-- Saves the sheet to another file, to which the document belongs from then on even if saving fails. -/
def saveAs (d : Document) (disk : Disk) (path : Path) : Except Error Path × Document × Disk :=
  save { d with path := some path } disk

end Spreadsheet.Document
