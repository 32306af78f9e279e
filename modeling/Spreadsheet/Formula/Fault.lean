import Spreadsheet.Formula.Piece
import Spreadsheet.Text.Digits
import Spreadsheet.Text.Quoted

/-!
# Faults of a formula

Why a formula cannot be split into tokens. A `ScanError` adds where this shows, counted in bytes of UTF-8
from the beginning of the formula, and the formula itself.
-/

namespace Spreadsheet.Formula

/-- Why a formula cannot be split into tokens. -/
inductive Fault where
  | unterminatedString
  | unterminatedLink
  | unmatchedBracket
  | invalidErrorCode
  | mismatchedPair
  | unexpectedCharacter (c : Char)
  | unmatchedCloser (c : Char)
  | unclosedSubexpression (opener : List Char)
  | nestingTooDeep (limit : Nat)
deriving DecidableEq

/-- The fault of a piece that is not complete. -/
def Broken.fault : Broken → Fault
  | .text => .unterminatedString
  | .link => .unterminatedLink
  | .bracketed => .unmatchedBracket
  | .errorCode => .invalidErrorCode

/-- The wording of a fault. -/
def Fault.message : Fault → String
  | .unterminatedString => "reached end of formula while parsing string"
  | .unterminatedLink => "reached end of formula while parsing link"
  | .unmatchedBracket => "encountered unmatched '['"
  | .invalidErrorCode => "invalid error code"
  | .mismatchedPair => "mismatched ( and \x7b pair"
  | .unexpectedCharacter c => "unexpected character " ++ String.ofList (Text.quotedChar c)
  | .unmatchedCloser c =>
    "closing " ++ String.ofList (Text.quotedChar c) ++ " has no matching opener"
  | .unclosedSubexpression opener =>
    "unclosed subexpression " ++ String.ofList (Text.quoted opener)
  | .nestingTooDeep limit =>
    "subexpressions nested deeper than " ++ String.ofList (Text.numeral limit) ++ " levels"

/-- A fault, where it shows and in which formula. -/
structure ScanError where
  fault : Fault
  /-- The number of bytes before the place of the fault. -/
  offset : Nat
  formula : List Char
deriving DecidableEq

/-- The wording of an error: its fault, its place and the formula. -/
def ScanError.message (e : ScanError) : String :=
  e.fault.message ++ " at position " ++ String.ofList (Text.numeral e.offset) ++ " in '" ++
    String.ofList e.formula ++ "'"

example : (ScanError.mk .invalidErrorCode 1 "=#BAD".toList).message =
    "invalid error code at position 1 in '=#BAD'" := by decide +kernel

end Spreadsheet.Formula
