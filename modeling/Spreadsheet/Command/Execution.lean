import Spreadsheet.Command.Invocation
import Spreadsheet.Document.Files
import Spreadsheet.Formula.Relocation
import Spreadsheet.Range.Listing
import Spreadsheet.Settings
import Spreadsheet.Text.Json

/-!
# Executing a command

`Formats.run` takes the arguments and the files that can be seen, and gives a report: the exit code, and what the
program itself writes to its two outputs. The code is 0 if all is well, 1 if an error or a finding is reported, and 2
if the arguments make no sense. Lines of a log, which go to the second output as well, are no part of a report.

How arguments and settings are written and how records are printed is not up to the program: `Formats` has what it
uses of this, and all that follows is for any of them. `Command.run` is for the usual ones.

A settings file that is named must exist; the default one need not. What the arguments say wins over the
settings file.
-/

namespace Spreadsheet.Command

/-- What a run leaves behind. -/
structure Report where
  exit : Nat
  output : List Char
  /-- The errors that the program writes out itself, without what is logged. -/
  errors : List Char
deriving DecidableEq

namespace Report

/-- A run without errors. -/
def success (output : List Char) : Report := ⟨0, output, []⟩

/-- A run that fails with an error. -/
def failure (message : String) : Report := ⟨1, [], "Error: ".toList ++ message.toList ++ ['\n']⟩

/-- Texts on lines of their own. -/
def lines (texts : List (List Char)) : List Char :=
  texts.flatMap (· ++ ['\n'])

end Report

/-- The formats of what a run exchanges with its surroundings. -/
structure Formats where
  /-- What the arguments ask for, or the report of a run that they have ended. -/
  readArguments : List (List Char) → Except Report Invocation
  /-- The settings that a text holds, or what is wrong with it. -/
  readSettings : List Char → Except String Settings
  /-- The text of an array of records. -/
  printRecords : List Text.Json.Record → List Char

/-! ### Settings -/

/-- The largest settings file that is read, in bytes. -/
def settingsFileLimit : Nat := 1048576

/-- Why the settings cannot be had. -/
inductive SettingsError where
  | missing (path : Path)
  | unreadable (path : Path) (fault : FileFault)
  | malformed (path : Path) (reason : String)
deriving DecidableEq

/-- The wording of an error with its cause behind it. -/
def SettingsError.message : SettingsError → String
  | .missing path => "Config file not found: " ++ String.ofList path
  | .unreadable _ (.tooLarge path size limit) => tooLargeMessage path size limit
  | .unreadable path fault =>
    "Failed to read " ++ String.ofList path ++ ": " ++ fault.message ++ ": " ++ fault.message
  | .malformed path reason => "Failed to parse " ++ String.ofList path ++ ": " ++ reason ++ ": " ++ reason

namespace Formats

/-- The settings in a file. -/
def settingsIn (f : Formats) (files : Files) (path : Path) : Except SettingsError Settings :=
  match files.read settingsFileLimit path with
  | .error fault => .error (.unreadable path fault)
  | .ok text => (f.readSettings text).mapError (.malformed path)

/-- The settings for an invocation. -/
def settingsFor (f : Formats) (i : Invocation) (default : Option Path) (files : Files) :
    Except SettingsError Settings :=
  if i.noConfig then .ok {}
  else
    match i.config, default with
    | some path, _ => if files.holds path then f.settingsIn files path else .error (.missing path)
    | none, some path => if files.holds path then f.settingsIn files path else .ok {}
    | none, none => .ok {}

end Formats

/-- How formulas are read: what the invocation says wins over the settings. -/
def optionsFor (i : Invocation) (settings : Settings) : Formula.Options where
  preserveWhitespace := settings.options.preserveWhitespace || i.preserveWhitespace
  maxDepth := i.maxDepth.getD settings.options.maxDepth

/-! ### Tasks -/

/-- The record of a token in a report. -/
def tokenRecord (t : Token) : Text.Json.Record :=
  [("value".toList, .text t.value), ("type".toList, .text t.kind.typeName.toList),
    ("subtype".toList,
      match t.kind.subtypeName? with
      | some name => .text name.toList
      | none => .null)]

/-- The record of an invalid formula in a report. -/
def invalidRecord (a : Address) (e : Formula.ScanError) : Text.Json.Record :=
  [("cell".toList, .text a.name), ("error".toList, .text e.fault.message.toList),
    ("offset".toList, .number e.offset)]

/-- Reports on the tokens of a formula, or why there are none. -/
def withTokens (options : Formula.Options) (formula : List Char) (report : List Token → Report) :
    Report :=
  match Formula.tokenize options formula with
  | .ok tokens => report tokens
  | .error error => .failure error.message

/-- Writes the formula that the tokens give, which ought to be the one that they come from. -/
def reportRendering (formula : List Char) (tokens : List Token) : Report :=
  let rendered := Formula.render tokens
  let output := Report.lines [rendered]
  if rendered == formula then .success output
  else ⟨1, output, "Rendered formula differs from input\n".toList⟩

/-- Writes the cells that a formula depends on. -/
def reportDependencies (collapse : Bool) (tokens : List Token) : Report :=
  let cells := Formula.dependencies tokens
  .success <| Report.lines <|
    if collapse then [Listing.collapse cells] else cells.map Address.name

namespace Formats

/-- Writes the tokens of a formula. -/
def reportTokens (f : Formats) (json : Bool) (tokens : List Token) : Report :=
  .success <| Report.lines <|
    if json then [f.printRecords (tokens.map tokenRecord)]
    else tokens.map fun t => t.describe.toList

/-- Reports on the formulas of a sheet that cannot be split into tokens. -/
def reportOn (f : Formats) (file : Path) (json : Bool) (sheet : Sheet) : Report :=
  let invalid := sheet.invalidCells
  let output :=
    if json then Report.lines [f.printRecords (invalid.map fun (a, e) => invalidRecord a e)]
    else if invalid.isEmpty then
      Report.lines
        [file ++ ": ".toList ++ Text.numeral sheet.size ++ " cells, all formulas tokenize".toList]
    else Report.lines (invalid.map fun (a, e) => a.name ++ ": ".toList ++ e.message.toList)
  ⟨if invalid.isEmpty then 0 else 1, output, []⟩

/-- Reports on a file. -/
def check (f : Formats) (options : Formula.Options) (file : Path) (json : Bool) (files : Files) : Report :=
  match (Document.new options).load files file with
  | (.ok (), d) => f.reportOn file json d.sheet
  | (.error error, _) =>
    .failure ("Failed to load " ++ String.ofList file ++ ": " ++ error.messageWithCause)

/-- Performs a task. -/
def perform (f : Formats) (options : Formula.Options) (files : Files) : Task → Report
  | .tokenize formula json => withTokens options formula (f.reportTokens json)
  | .roundtrip formula => withTokens options formula (reportRendering formula)
  | .dependencies formula collapse => withTokens options formula (reportDependencies collapse)
  | .relocate formula columns rows =>
    match Formula.offset options columns rows formula with
    | .ok moved => .success (Report.lines [moved])
    | .error error => .failure error.message
  | .check file json => f.check options file json files

/-- Runs what the arguments ask for. The default settings file is `default`. -/
def run (f : Formats) (arguments : List (List Char)) (default : Option Path) (files : Files) : Report :=
  match f.readArguments arguments with
  | .error report => report
  | .ok invocation =>
    match f.settingsFor invocation default files with
    | .error error => .failure error.message
    | .ok settings => f.perform (optionsFor invocation settings) files invocation.task

end Formats

end Spreadsheet.Command
