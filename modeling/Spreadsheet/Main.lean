import Spreadsheet.Command.Run

/-!
# The program

Looks up the files that a run may need, runs the command and prints its report. The default settings file is
`sheetlex/config.toml` in the directory for settings of the user.
-/

namespace Spreadsheet.Program

/-- The directory for settings of the user, if it is known. -/
def settingsDirectory : IO (Option String) := do
  match ← IO.getEnv "XDG_CONFIG_HOME" with
  | some directory =>
    if directory.startsWith "/" then return some directory
  | none => pure ()
  return (← IO.getEnv "HOME").map (· ++ "/.config")

/-- What a failed attempt to read a file says about its path. -/
def nodeOfError : IO.Error → Except FileFault Node
  | .inappropriateType _ 20 _ => .error .notADirectory
  | .inappropriateType _ _ _ => .ok .directory
  | .permissionDenied _ _ _ => .error .denied
  | .invalidArgument _ 36 _ => .error .nameTooLong
  | _ => .error .notFound

/-- What stands under a path. -/
def look (path : Path) : IO (Except FileFault Node) := do
  try
    return .ok (.file (← IO.FS.readBinFile (String.ofList path)))
  catch error => return nodeOfError error

/-- What stands under each of several paths. -/
def lookAll (paths : List Path) : IO Files := do
  let seen ← paths.mapM fun path => return (path, ← look path)
  return ⟨fun path => ((seen.find? fun entry => entry.1 = path).map Prod.snd).getD (.error .notFound)⟩

/-- Runs the program with the given arguments. -/
def program (arguments : List String) : IO UInt32 := do
  let arguments := arguments.map String.toList
  let default := (← settingsDirectory).map fun directory =>
    (directory ++ "/sheetlex/config.toml").toList
  let files ← lookAll (Command.pathsSeen arguments default)
  let report := Command.run arguments default files
  IO.print (String.ofList report.output)
  IO.eprint (String.ofList report.errors)
  return report.exit.toUInt32

end Spreadsheet.Program

def main (arguments : List String) : IO UInt32 :=
  Spreadsheet.Program.program arguments
