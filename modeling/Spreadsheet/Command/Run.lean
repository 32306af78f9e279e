import Spreadsheet.Command.Arguments
import Spreadsheet.Command.Execution
import Spreadsheet.Settings.Reading

/-!
# Running a command

The formats in which the program is used: flags and operands on the command line, a settings file with a setting in
each line, and records as JSON. What is written about a command line without a task, or about a settings file that
cannot be read, says no more than that.
-/

namespace Spreadsheet.Command

/-- How the program is used. -/
def usage : List Char :=
  "Usage: sheetlex [OPTIONS] <COMMAND>\n".toList

/-- The report when no task is performed. -/
def Stop.report : Stop → Report
  | .misuse => ⟨2, [], usage⟩
  | .help => .success usage
  | .version => .success "sheetlex 0.1.0\n".toList

/-- The formats that the program is used with. -/
def Formats.usual : Formats where
  readArguments arguments := (Invocation.ofArguments arguments).mapError Stop.report
  readSettings text :=
    match Settings.read? text with
    | some settings => .ok settings
    | none => .error "TOML parse error"
  printRecords := Text.Json.print

/-- The paths under which a run may look for files. -/
def pathsSeen (arguments : List (List Char)) (default : Option Path) : List Path :=
  match Formats.usual.readArguments arguments with
  | .error _ => []
  | .ok invocation =>
    let sheets :=
      match invocation.task with
      | .check file _ => [file]
      | _ => []
    default.toList ++ invocation.config.toList ++ sheets

/-- Runs what the arguments ask for. The default settings file is `default`. -/
def run (arguments : List (List Char)) (default : Option Path) (files : Files) : Report :=
  Formats.usual.run arguments default files

end Spreadsheet.Command
