import Spreadsheet.Formula.Dependencies
import Spreadsheet.Formula.Scan
import Spreadsheet.Number.Shortest
import Spreadsheet.Text.Blank

/-!
# Cells

A cell holds nothing, a text, a number or a formula. A formula that cannot be split into tokens is kept as an
invalid one with its error. Beside its content a cell keeps the list of cells that its formula depends on;
only a valid formula has any.

`ofInput` makes a cell of what a user enters, and `input` is the text to enter for a content.
-/

namespace Spreadsheet

/-- What a cell holds. -/
inductive Content where
  | empty
  | text (value : List Char)
  | number (value : Number)
  | formula (source : List Char) (tokens : List Token)
  | invalid (source : List Char) (error : Formula.ScanError)
deriving DecidableEq

/-- A cell with the cells that it depends on. -/
structure Cell where
  content : Content
  dependsOn : List Address
deriving DecidableEq

namespace Cell

/-- The cell that holds nothing. -/
def empty : Cell := ⟨.empty, []⟩

/-- A cell with a text. -/
def text (value : List Char) : Cell := ⟨.text value, []⟩

/-- A cell with a number. -/
def number (value : Number) : Cell := ⟨.number value, []⟩

/-- A cell with a formula; an invalid one if the formula cannot be split into tokens. -/
def formula (options : Formula.Options) (source : List Char) : Cell :=
  match Formula.tokenize options source with
  | .ok tokens => ⟨.formula source tokens, Formula.dependencies tokens⟩
  | .error error => ⟨.invalid source error, []⟩

/-- The text between the double quotes that stand around a text, if they do. -/
def unquoted? (s : List Char) : Option (List Char) :=
  match s with
  | '"' :: s => if s.getLast? = some '"' then some s.dropLast else none
  | _ => none

/-- The cell for a text that a user enters. Blanks around it do not count. A formula begins with `=`; quotes
around a text are dropped; what is no number either is a text. -/
def ofInput (options : Formula.Options) (entered : List Char) : Cell :=
  let s := Text.trim entered
  if s = [] then empty
  else if s.head? = some '=' then formula options s
  else
    match unquoted? s with
    | some value => text value
    | none =>
      match Number.read? s with
      | some value => number value
      | none => text s

/-- The text that shows the content of a cell for editing. -/
def input (c : Cell) : List Char :=
  match c.content with
  | .empty => []
  | .text value => value
  | .number value => value.text
  | .formula source _ | .invalid source _ => source

/-- The error of an invalid formula. -/
def error? (c : Cell) : Option Formula.ScanError :=
  match c.content with
  | .invalid _ error => some error
  | _ => none

/-- The tokens of a valid formula. -/
def tokens? (c : Cell) : Option (List Token) :=
  match c.content with
  | .formula _ tokens => some tokens
  | _ => none

/-- A single quote mark is a text by itself; two make an empty text. -/
example : ofInput {} ['"'] = text ['"'] ∧ ofInput {} [' ', '"', '"'] = text [] := by decide +kernel

end Cell

end Spreadsheet
