import Spreadsheet.Text.Digits

/-!
# Cell addresses

A cell is named by its column in letters and its row as a number, such as `B3`. Inside, both are counted from
zero. Column names count `A` to `Z`, then `AA` to `ZZ` and so on: they are numerals with the digits 1 to 26
and no zero. A column name or a row number is read only if it is below `2 ^ 64`. Column names may be longer than
those that are read; the number of a row is always written with 64 bits.

Addresses are ordered row by row, and by column within a row.
-/

namespace Spreadsheet

/-- Indices of columns and rows that are read are below this bound. -/
def indexBound : Nat := Nat.pow 2 64

/-- The place of a cell, its row and its column counted from zero. -/
structure Address where
  row : Nat
  column : Nat
deriving DecidableEq

namespace Address

/-! ### Columns -/

/-- The letter of a digit from 1 to 26, given as 0 to 25. -/
def letter (digit : Nat) : Char :=
  Char.ofNat ('A'.toNat + digit)

/-- The digit of a letter, from 1 to 26. -/
def letterValue (c : Char) : Nat :=
  c.toUpper.toNat - 'A'.toNat + 1

/-- The letters of a number without zero digits, in front of what is given. -/
def lettersOf (n : Nat) (behind : List Char) : List Char :=
  match n with
  | 0 => behind
  | n + 1 => lettersOf (n / 26) (letter (n % 26) :: behind)
termination_by n
decreasing_by omega

/-- The name of a column. -/
def columnName (column : Nat) : List Char :=
  lettersOf (column + 1) []

/-- The number that letters denote. -/
def lettersValue (s : List Char) : Nat :=
  s.foldl (fun n c => 26 * n + letterValue c) 0

/-- The column with this name, in letters of either case. -/
def readColumn? (s : List Char) : Option Nat :=
  if s ≠ [] ∧ s.all Char.isAlpha ∧ lettersValue s < indexBound then some (lettersValue s - 1)
  else none

example : columnName 25 = ['Z'] ∧ columnName 26 = ['A', 'A'] ∧ readColumn? ['z', 'Z'] = some 701 := by
  decide +kernel

/-! ### Rows -/

/-- The name of a row: its number, counted from one. The number has 64 bits and one is added to the index without a look
at overflow, so that it is zero again for the row with the last index. That name cannot be read. -/
def rowName (row : Nat) : List Char :=
  Text.numeral ((row + 1) % indexBound)

theorem rowName_of_lt {row : Nat} (h : row + 1 < indexBound) : rowName row = Text.numeral (row + 1) := by
  rw [rowName, Nat.mod_eq_of_lt h]

/-- The row with this name. There is no row zero. -/
def readRow? (s : List Char) : Option Nat :=
  match Text.readNumeral? s with
  | some (row + 1) => if row + 1 < indexBound then some row else none
  | _ => none

example : readRow? ['0', '3'] = some 2 ∧ readRow? ['0'] = none := by decide +kernel

example : rowName 2 = ['3'] ∧ rowName (indexBound - 1) = ['0'] := by decide +kernel

theorem readRow?_rowName {row : Nat} (h : row + 1 < indexBound) : readRow? (rowName row) = some row := by
  simp [readRow?, rowName_of_lt h, Text.readNumeral?_numeral, h]

/-! ### Addresses -/

/-- The name of a cell. -/
def name (a : Address) : List Char :=
  columnName a.column ++ rowName a.row

/-- Row by row, and by column within a row. -/
instance : Ord Address :=
  ⟨compareLex (compareOn row) (compareOn column)⟩

instance : Std.TransOrd Address :=
  inferInstanceAs (Std.TransCmp (compareLex (compareOn row) (compareOn column)))

instance : Std.LawfulEqOrd Address where
  eq_of_compare {a b} h := by
    have ⟨sameRow, sameColumn⟩ : compare a.row b.row = .eq ∧ compare a.column b.column = .eq :=
      Ordering.then_eq_eq.1 h
    rw [Address.mk.injEq]
    exact ⟨Std.LawfulEqOrd.eq_of_compare sameRow, Std.LawfulEqOrd.eq_of_compare sameColumn⟩

/-- The one of two cells that comes first in row order. -/
def earlier (a b : Address) : Address :=
  if (compare b a).isLT then b else a

example : earlier ⟨1, 2⟩ ⟨0, 5⟩ = ⟨0, 5⟩ := by decide

end Address

end Spreadsheet
