import Spreadsheet.Range

/-!
# Lists of ranges

A list of cells is written as names and ranges with blanks between them. `expand?` lists the cells of such a
text, unless an entry cannot be read or there are more cells than the limit. `collapse` writes a set of cells
column by column, and joins cells that follow one another in a column into one range.
-/

namespace Spreadsheet.Listing

/-- The cells of one entry, if there are at most `room` of them. -/
def entryCells? (room : Nat) (entry : List Char) : Option (List Address) :=
  if ':' ∈ entry then
    (Range.read? entry).bind fun range =>
      range.count?.bind fun count =>
        if count ≤ room then some range.cells else none
  else if room = 0 then none
  else (Address.read? entry).map ([·])

/-- The cells of entries in turn, if there are at most `room` of them. What was found stands in `done`, the
newest entry first. -/
def expandEntries? (room : Nat) (done : List (List Address)) :
    List (List Char) → Option (List Address)
  | [] => some done.reverse.flatten
  | entry :: rest =>
    match entryCells? room entry with
    | none => none
    | some cells => expandEntries? (room - cells.length) (cells :: done) rest

/-- The cells that a list of names and ranges denotes, in the order of its entries. -/
def expand? (s : List Char) : Option (List Address) :=
  expandEntries? expansionLimit [] (Text.words s)

/-- Column by column, and by row within a column. -/
def columnFirst (a b : Address) : Bool :=
  a.column < b.column || (a.column = b.column && a.row ≤ b.row)

/-- Whether the second cell is the one below the first. -/
def isBelow (a b : Address) : Bool :=
  b.column = a.column && b.row = a.row + 1

/-- A run of cells in one column: a single name, or its first and its last cell as a range. -/
def runText : List Address → List Char
  | [] => []
  | [a] => a.name
  | a :: b :: rest => Range.text ⟨a, (b :: rest).getLast (by simp)⟩

/-- The maximal runs of cells that follow one another in a column. -/
def runs (cells : List Address) : List (List Address) :=
  (cells.mergeSort columnFirst).eraseReps.splitBy isBelow

/-- The text of a set of cells. -/
def collapse (cells : List Address) : List Char :=
  [' '].intercalate ((runs cells).map runText)

/-- The text of a set of cells behind entries that are written as they are. -/
def collapseBehind (entries : List (List Char)) (cells : List Address) : List Char :=
  [' '].intercalate (entries ++ (runs cells).map runText)

/-- The order and repetitions of the cells do not matter. -/
example : runs [⟨1, 0⟩, ⟨0, 1⟩, ⟨0, 0⟩, ⟨1, 0⟩, ⟨3, 0⟩] = [[⟨0, 0⟩, ⟨1, 0⟩], [⟨3, 0⟩], [⟨0, 1⟩]] := by
  cbv

end Spreadsheet.Listing
