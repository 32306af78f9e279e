import Spreadsheet.Files

/-!
# What a run is asked to do

An invocation is a task with all that the command line says beside it. How much is to be logged is left out: it has no
influence on anything else.
-/

namespace Spreadsheet.Command

/-- What a command is asked to do. -/
inductive Task where
  | tokenize (formula : List Char) (json : Bool)
  | roundtrip (formula : List Char)
  | dependencies (formula : List Char) (collapse : Bool)
  | relocate (formula : List Char) (columns rows : Int)
  | check (file : Path) (json : Bool)
deriving DecidableEq

/-- What the arguments ask for. -/
structure Invocation where
  /-- The settings file that is named. -/
  config : Option Path
  /-- Whether no settings file is to be read. -/
  noConfig : Bool
  preserveWhitespace : Bool
  maxDepth : Option Nat
  task : Task
deriving DecidableEq

end Spreadsheet.Command
