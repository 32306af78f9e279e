import Spreadsheet.Files
import Spreadsheet.Sheet.Grd

/-!
# Documents

A document is a sheet that is being edited: beside the cells it knows the file that it belongs to, whether it
has changed since it was last loaded or saved, how its formulas are read, and which cells depend on which. The
last of these is kept up to date by every operation.

An operation that can fail gives its result together with the document that it leaves behind.
-/

namespace Spreadsheet

/-- A sheet that is being edited. -/
structure Document where
  sheet : Sheet
  /-- The file that the document belongs to. -/
  path : Option Path
  /-- Whether the sheet may differ from its file. -/
  modified : Bool
  options : Formula.Options
  /-- For each cell the cells that depend on it. -/
  dependents : Dependents

namespace Document

/-- Why an operation on a document fails. -/
inductive Error where
  | file (fault : FileFault)
  | parse (error : Grd.ParseError)
  | circularDependency (path : List Address)
  | noPath
  | unsupportedFormat (extension : List Char)
  | formula (error : Formula.ScanError)
deriving DecidableEq

/-- Addresses with arrows between them. -/
def pathText (path : List Address) : String :=
  String.ofList (" -> ".toList.intercalate (path.map Address.name))

/-- The wording of an error. -/
def Error.message : Error → String
  | .file fault => "IO error: " ++ fault.message
  | .parse error => error.message
  | .circularDependency path => "Circular dependency detected: " ++ pathText path
  | .noPath => "No file path set"
  | .unsupportedFormat extension => "Unsupported file format: " ++ String.ofList extension
  | .formula error => "Tokenizer error: " ++ error.message

/-- The wording of an error with its cause behind it. -/
def Error.messageWithCause (e : Error) : String :=
  match e with
  | .file fault => e.message ++ ": " ++ fault.message
  | .formula error => e.message ++ ": " ++ error.message
  | e => e.message

/-- A document without cells and without a file. -/
def new (options : Formula.Options) : Document :=
  ⟨∅, none, false, options, ∅⟩

/-- The document with other cells, as after an edit. -/
def edited (d : Document) (sheet : Sheet) : Document :=
  { d with sheet, modified := true, dependents := sheet.dependents }

end Document

end Spreadsheet
