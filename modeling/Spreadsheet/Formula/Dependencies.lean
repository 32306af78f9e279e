import Spreadsheet.Range
import Spreadsheet.Token

/-!
# Cells that a formula depends on

A formula depends on the cells of its own sheet that it names, each cell by itself or as part of a range. An
operand that names another sheet, whole columns or rows, or anything else is no dependency, and neither is a
range with more cells than the limit. The cells are listed in the order in which the formula names them.
-/

namespace Spreadsheet.Formula

/-- The cells that the text of a range operand names on its own sheet. -/
def cellsNamed (value : List Char) : List Address :=
  if '!' ∈ value ∨ '[' ∈ value then []
  else if ':' ∈ value then
    match Range.read? value with
    | none => []
    | some range =>
      match range.count? with
      | some count => if count ≤ expansionLimit then range.cells else []
      | none => []
  else (Address.read? value).toList

/-- The cells that a token names. -/
def cellsOfToken (t : Token) : List Address :=
  if t.kind = .operand .range then cellsNamed t.value else []

/-- The cells that tokens name, in the order of the tokens, with repetitions. -/
def dependencies (tokens : List Token) : List Address :=
  tokens.flatMap cellsOfToken

/-- A cell on another sheet is no dependency. -/
example : dependencies [.operand "Other!A1".toList, .operand "$B$1".toList] = [⟨0, 1⟩] := by
  decide +kernel

end Spreadsheet.Formula
