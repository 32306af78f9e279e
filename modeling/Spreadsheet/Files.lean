import Spreadsheet.Text.Blank
import Spreadsheet.Text.Digits

/-!
# Files by their paths

What a program sees of a file system: under a path it finds a file, a directory or a fault. A path is a text
with slashes between its components. Reading a file gives its text, provided that it is not too large and
that its bytes are UTF-8.
-/

namespace Spreadsheet

/-- A path as it is written. -/
abbrev Path := List Char

namespace Path

/-- The components of a path. -/
def components (p : Path) : List (List Char) :=
  Text.split (· = '/') p

/-- The last component that is a name, if the path ends with a name. -/
def fileName? (p : Path) : Option (List Char) :=
  match (p.components.filter fun c => c ≠ [] ∧ c ≠ ['.']).getLast? with
  | some name => if name = "..".toList then none else some name
  | none => none

/-- What stands behind the last dot of a name, in small letters; empty if nothing stands before that dot. -/
def extensionOf (name : List Char) : List Char :=
  let ext := (name.reverse.takeWhile (· ≠ '.')).reverse
  if ext.length + 1 < name.length then ext.map Char.toLower else []

/-- The extension of the file that a path names. -/
def extension (p : Path) : List Char :=
  match p.fileName? with
  | some name => extensionOf name
  | none => []

/-- A path cut at its last component that is not empty: the components before it, that component, and whether
a slash stands behind it. -/
def splitLast? (p : Path) : Option (List (List Char) × List Char × Bool) :=
  match p.components.reverse.dropWhile (· = []) with
  | [] => none
  | last :: before => some (before.reverse, last, p.getLast? = some '/')

example : extension "a.b/c.GRD/".toList = "grd".toList ∧ extension ".grd".toList = [] := by
  decide +kernel

end Path

/-- Why a file cannot be read or written. -/
inductive FileFault where
  | notFound
  | notADirectory
  | isADirectory
  | denied
  | nameTooLong
  | noSpace
  | nulInName
  | invalidText
  | tooLarge (path : Path) (size limit : Nat)
deriving DecidableEq

/-- The wording of a refusal to read a file that is too large. -/
def tooLargeMessage (path : Path) (size limit : Nat) : String :=
  "Refusing to read " ++ String.ofList path ++ ": file too large (" ++
    String.ofList (Text.numeral size) ++ " bytes, max " ++ String.ofList (Text.numeral limit) ++ ")"

/-- The wording of a fault. -/
def FileFault.message : FileFault → String
  | .notFound => "No such file or directory (os error 2)"
  | .notADirectory => "Not a directory (os error 20)"
  | .isADirectory => "Is a directory (os error 21)"
  | .denied => "Permission denied (os error 13)"
  | .nameTooLong => "File name too long (os error 36)"
  | .noSpace => "No space left on device (os error 28)"
  | .nulInName => "file name contained an unexpected NUL byte"
  | .invalidText => "stream did not contain valid UTF-8"
  | .tooLarge path size limit => tooLargeMessage path size limit

/-- What stands under a path. -/
inductive Node where
  | file (bytes : ByteArray)
  | directory

/-- What is found under each path. -/
structure Files where
  find : Path → Except FileFault Node

namespace Files

/-- Whether anything stands under a path. -/
def holds (f : Files) (p : Path) : Bool :=
  (f.find p).isOk

/-- The text of a file of at most `limit` bytes. -/
def read (f : Files) (limit : Nat) (p : Path) : Except FileFault (List Char) :=
  match f.find p with
  | .error fault => .error fault
  | .ok .directory => .error .isADirectory
  | .ok (.file bytes) =>
    if limit < bytes.size then .error (.tooLarge p bytes.size limit)
    else
      match String.fromUTF8? bytes with
      | some text => .ok text.toList
      | none => .error .invalidText

end Files

end Spreadsheet
