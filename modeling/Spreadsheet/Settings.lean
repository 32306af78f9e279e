import Spreadsheet.Formula.Scan

/-!
# Settings

What a settings file may say: how formulas are read, and how much is logged. Each setting may be left out,
and then a default holds.
-/

namespace Spreadsheet

/-- The contents of a settings file; what the file does not mention is absent. -/
structure Settings where
  preserveWhitespace : Option Bool := none
  maxDepth : Option Nat := none
  logLevel : Option (List Char) := none
deriving DecidableEq

namespace Settings

/-- The value of a setting. -/
inductive Value where
  | switch (on : Bool)
  | count (n : Nat)
  | text (s : List Char)
deriving DecidableEq

/-- Adds a setting. The name must be known, its value of the right kind, and each name may occur once. -/
def set? (s : Settings) (name : List Char) (value : Value) : Option Settings :=
  match value with
  | .switch on =>
    if name = "preserve_whitespace".toList ∧ s.preserveWhitespace = none then
      some { s with preserveWhitespace := some on }
    else none
  | .count n =>
    if name = "max_depth".toList ∧ s.maxDepth = none then some { s with maxDepth := some n } else none
  | .text level =>
    if name = "log_level".toList ∧ s.logLevel = none then some { s with logLevel := some level } else none

/-- How formulas are read under these settings. -/
def options (s : Settings) : Formula.Options where
  preserveWhitespace := s.preserveWhitespace.getD false
  maxDepth := s.maxDepth.getD Nesting.defaultLimit

end Settings

end Spreadsheet
