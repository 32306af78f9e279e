import Spreadsheet.Reference

/-!
# Ranges of cells

A range is the block of cells between two opposite corners, in any order. Its cells are listed row by row.
`text` and `read?` are the written form, such as `A1:B3`. `count?` is the number of cells as long as it is
below `2 ^ 64`; a block that large is never listed.
-/

namespace Spreadsheet

/-- A block of cells, given by two opposite corners. -/
structure Range where
  first : Address
  last : Address
deriving DecidableEq

namespace Range

/-- Reads two corners with a colon between them. -/
def read? (s : List Char) : Option Range :=
  match Text.split (· = ':') s with
  | [first, last] =>
    match Address.read? first, Address.read? last with
    | some first, some last => some ⟨first, last⟩
    | _, _ => none
  | _ => none

/-- The text of a range. -/
def text (r : Range) : List Char :=
  r.first.name ++ ':' :: r.last.name

/-- The whole numbers between two, both included, in ascending order. -/
def between (a b : Nat) : List Nat :=
  List.range' (min a b) (max a b - min a b + 1)

@[simp] theorem mem_between {a b n : Nat} : n ∈ between a b ↔ min a b ≤ n ∧ n ≤ max a b := by
  simp only [between, List.mem_range'_1]
  omega

/-- The number of cells, if it is below `2 ^ 64`. -/
def count? (r : Range) : Option Nat :=
  let height := max r.first.row r.last.row - min r.first.row r.last.row + 1
  let width := max r.first.column r.last.column - min r.first.column r.last.column + 1
  if height * width < indexBound then some (height * width) else none

/-- The cells, row by row. -/
def cells (r : Range) : List Address :=
  (between r.first.row r.last.row).flatMap fun row =>
    (between r.first.column r.last.column).map fun column => ⟨row, column⟩

/-- A cell belongs to a range if its row and its column lie between those of the corners. -/
theorem mem_cells {r : Range} {a : Address} :
    a ∈ r.cells ↔
      (min r.first.row r.last.row ≤ a.row ∧ a.row ≤ max r.first.row r.last.row) ∧
      min r.first.column r.last.column ≤ a.column ∧ a.column ≤ max r.first.column r.last.column := by
  simp only [cells, List.mem_flatMap, List.mem_map, mem_between]
  constructor
  · rintro ⟨row, hrow, column, hcolumn, rfl⟩
    exact ⟨hrow, hcolumn⟩
  · rintro ⟨hrow, hcolumn⟩
    exact ⟨a.row, hrow, a.column, hcolumn, rfl⟩

/-- The number of cells, however large it is. -/
def size (r : Range) : Nat :=
  (max r.first.row r.last.row - min r.first.row r.last.row + 1) *
    (max r.first.column r.last.column - min r.first.column r.last.column + 1)

theorem size_single (a : Address) : (Range.mk a a).size = 1 := by
  simp [size]

theorem length_cells (r : Range) : r.cells.length = r.size := by
  simp [cells, size, between, List.length_flatMap, List.map_const']

/-- The number is given unless it reaches the bound. -/
theorem count?_eq (r : Range) : r.count? = if r.cells.length < indexBound then some r.cells.length else none := by
  rw [length_cells]
  rfl

/-- The corners may be given in any order. -/
example : (Range.mk ⟨1, 1⟩ ⟨0, 0⟩).cells = [⟨0, 0⟩, ⟨0, 1⟩, ⟨1, 0⟩, ⟨1, 1⟩] := by decide

end Range

/-- The most cells that one range or one list of ranges is expanded to. -/
def expansionLimit : Nat := 1000000

end Spreadsheet
