import Spreadsheet.Sheet

/-!
# Sheets as lines of text

A sheet is kept in a file with one cell in a line: the name of the cell, a colon and the value. A formula
begins with `=`, a number stands as it is, and a text stands between double quotes, in which a double quote
and a backslash have a backslash in front. Nothing behind the colon is an empty cell. Blank lines, blanks
around a line and lines that begin with `#` do not count. A later line replaces an earlier one for the same
cell, and a line that cannot be read makes the whole text invalid.

`write` puts the cells that are not empty into such lines, row by row.
-/

namespace Spreadsheet.Grd

/-! ### Quoted texts -/

/-- A text with a backslash in front of each backslash and each double quote. -/
def escape (s : List Char) : List Char :=
  s.flatMap fun c => if c = '\\' ∨ c = '"' then ['\\', c] else [c]

/-- Takes backslashes off in front of a backslash or a double quote; any other backslash stands for itself.
What has been read stands in `done`, the newest character first. -/
def unescapeOnto (done : List Char) : List Char → List Char
  | [] => done.reverse
  | [c] => (c :: done).reverse
  | c :: d :: s =>
    if c = '\\' then
      if d = '\\' ∨ d = '"' then unescapeOnto (d :: done) s else unescapeOnto (d :: c :: done) s
    else unescapeOnto (c :: done) (d :: s)

/-- The text that was written with backslashes. -/
def unescape (s : List Char) : List Char :=
  unescapeOnto [] s

theorem unescapeOnto_escape (s done : List Char) :
    unescapeOnto done (escape s) = done.reverse ++ s := by
  induction s generalizing done with
  | nil => simp [escape, unescapeOnto]
  | cons c s ih =>
    rw [escape, List.flatMap_cons, ← escape]
    by_cases special : c = '\\' ∨ c = '"'
    · simp [special, unescapeOnto, ih]
    · rw [if_neg special, List.singleton_append]
      have plain : c ≠ '\\' := fun h => special (.inl h)
      cases rest : escape s with
      | nil =>
        have := ih []
        rw [rest] at this
        simp only [unescapeOnto, List.reverse_nil, List.nil_append] at this
        simp [unescapeOnto, ← this]
      | cons d t =>
        rw [unescapeOnto, if_neg plain, ← rest, ih]
        simp

/-- Reading undoes writing. -/
theorem unescape_escape (s : List Char) : unescape (escape s) = s :=
  unescapeOnto_escape s []

/-- A backslash before any other character stands for itself. -/
example : unescape ['\\', 'n', '\\'] = ['\\', 'n', '\\'] := rfl

/-! ### Reading -/

/-- Why a line cannot be read. -/
inductive LineFault where
  | missingColon
  | invalidName (name : List Char)
  | invalidValue (value : List Char)
deriving DecidableEq

/-- The wording of a fault. -/
def LineFault.message : LineFault → String
  | .missingColon => "Expected 'CELLREF: VALUE' format"
  | .invalidName name => Address.invalidName name
  | .invalidValue value => "Invalid value: " ++ String.ofList value ++ ". Use quotes for text."

/-- A line that cannot be read, counted from 1. -/
structure ParseError where
  line : Nat
  fault : LineFault
deriving DecidableEq

/-- The wording of an error: its line and its fault. -/
def ParseError.message (e : ParseError) : String :=
  "Parse error at line " ++ String.ofList (Text.numeral e.line) ++ ": " ++ e.fault.message

/-- The cell for the value behind the colon. -/
def readValue (options : Formula.Options) (written : List Char) : Except LineFault Cell :=
  let s := Text.trim written
  if s = [] then .ok .empty
  else if s.head? = some '=' then .ok (.formula options s)
  else
    match Cell.unquoted? s with
    | some value => .ok (.text (unescape value))
    | none =>
      match Number.read? s with
      | some value => .ok (.number value)
      | none => .error (.invalidValue s)

/-- The address and the cell of a line; nothing if the line does not count. -/
def readLine? (options : Formula.Options) (line : List Char) :
    Except LineFault (Option (Address × Cell)) :=
  let s := Text.trim line
  if s = [] ∨ s.head? = some '#' then .ok none
  else
    match s.dropWhile (· ≠ ':') with
    | [] => .error .missingColon
    | _ :: value =>
      let name := Text.trim (s.takeWhile (· ≠ ':'))
      match Address.read? name with
      | none => .error (.invalidName name)
      | some a => (readValue options value).map fun cell => some (a, cell)

/-- Puts the cells of lines into a sheet. The first line has the number `number`. -/
def readLines (options : Formula.Options) (number : Nat) (sheet : Sheet) :
    List (List Char) → Except ParseError Sheet
  | [] => .ok sheet
  | line :: rest =>
    match readLine? options line with
    | .error fault => .error ⟨number, fault⟩
    | .ok none => readLines options (number + 1) sheet rest
    | .ok (some (a, cell)) => readLines options (number + 1) (sheet.insert a cell) rest

/-- The sheet that a text describes. -/
def read (options : Formula.Options) (s : List Char) : Except ParseError Sheet :=
  readLines options 1 ∅ (Text.split (· = '\n') s)

/-! ### Writing -/

/-- The first line of every file. -/
def header : List Char := "# Sheetlex Sheet".toList

/-- The value of a cell behind the colon; nothing for an empty cell. -/
def value? (cell : Cell) : Option (List Char) :=
  match cell.content with
  | .empty => none
  | .text value => some ('"' :: escape value ++ ['"'])
  | .number value => some value.text
  | .formula source _ | .invalid source _ => some source

/-- The line of a cell; nothing for an empty cell. -/
def line? (a : Address) (cell : Cell) : Option (List Char) :=
  (value? cell).map fun value => a.name ++ ':' :: ' ' :: value

/-- The text that describes a sheet. -/
def write (sheet : Sheet) : List Char :=
  let lines := header :: sheet.toList.filterMap fun (a, cell) => line? a cell
  lines.flatMap (· ++ ['\n'])

end Spreadsheet.Grd
