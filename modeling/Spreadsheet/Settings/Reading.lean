import Spreadsheet.Settings.Literal

/-!
# Reading a settings file

A settings file has one setting in a line: its name, an equals sign and its value. A name may stand between
quotes. Blank lines do not count, nor does anything from a `#` to the end of a line. Line breaks may have a
carriage return in front, and the file may begin with a byte order mark. A file that says anything else is
refused as a whole.
-/

namespace Spreadsheet.Settings

/-- The text without the carriage returns in front of line breaks. What has been read stands in `done`, the
newest first. -/
def unifyBreaks (done : List Char) : List Char → List Char
  | [] => done.reverse
  | c :: s =>
    if c = '\r' ∧ s.head? = some '\n' then unifyBreaks done s else unifyBreaks (c :: done) s

/-- The text without a byte order mark in front. -/
def skipMark (s : List Char) : List Char :=
  match s with
  | '\ufeff' :: s => s
  | s => s

/-- Whether a character may stand in a name without quotes. -/
def isNameCharacter (c : Char) : Bool :=
  c.isAlphanum || c = '_' || c = '-'

/-- Reads a name. -/
def readName? (s : List Char) : Option (List Char × List Char) :=
  match s with
  | '"' :: s => readBasic? [] s
  | '\x27' :: s => readLiteral? s
  | s =>
    match s.takeWhile isNameCharacter with
    | [] => none
    | name => some (name, s.dropWhile isNameCharacter)

/-- What follows the end of a line, of which blanks and a comment may be left. -/
def readLineEnd? (s : List Char) : Option (List Char) :=
  let s := s.dropWhile isSpace
  let s := if s.head? = some '#' then s.dropWhile isTextual else s
  match s with
  | [] => some []
  | '\n' :: s => some s
  | _ => none

/-- Reads a name, an equals sign and a value. -/
def readEntry? (s : List Char) : Option (List Char × Value × List Char) :=
  match readName? s with
  | none => none
  | some (name, s) =>
    match s.dropWhile isSpace with
    | '=' :: s => (readValue? (s.dropWhile isSpace)).map fun (value, s) => (name, value, s)
    | _ => none

/-- Reads a line, with or without a setting, and adds the setting. -/
def readLine? (settings : Settings) (s : List Char) : Option (Settings × List Char) :=
  let s := s.dropWhile isSpace
  match readLineEnd? s with
  | some rest => some (settings, rest)
  | none =>
    match readEntry? s with
    | none => none
    | some (name, value, s) =>
      match settings.set? name value, readLineEnd? s with
      | some settings, some rest => some (settings, rest)
      | _, _ => none

/-- Reads at most `lines` lines. -/
def readLines? (settings : Settings) (s : List Char) : Nat → Option Settings
  | 0 => none
  | lines + 1 =>
    match readLine? settings s with
    | none => none
    | some (settings, []) => some settings
    | some (settings, rest) => readLines? settings rest lines

/-- The settings in the text of a file. A text has at most one line more than characters. -/
def read? (s : List Char) : Option Settings :=
  let s := unifyBreaks [] (skipMark s)
  readLines? {} s (s.length + 1)

/-- Names may stand between quotes, and a name may not occur twice. -/
example : read? "# limits\r\n\"max_depth\" = 0x40 # hex\n".toList = some { maxDepth := some 64 } ∧
    read? "max_depth = 1\nmax_depth = 1".toList = none := by decide +kernel

end Spreadsheet.Settings
