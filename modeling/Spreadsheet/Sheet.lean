import Spreadsheet.Cell
import Std.Data.ExtTreeMap
import Std.Data.ExtTreeSet

/-!
# Sheets

A sheet maps addresses to cells. Two sheets with the same cells are equal, and the cells of a sheet are
listed row by row.

`dependents` turns the dependencies of all cells round: for each cell that a formula names, the cells with
such a formula.
-/

namespace Spreadsheet

/-- The cells of a sheet by their addresses. -/
abbrev Sheet := Std.ExtTreeMap Address Cell

/-- For each cell the cells that depend on it. Cells on which nothing depends do not occur. -/
abbrev Dependents := Std.ExtTreeMap Address (Std.ExtTreeSet Address)

/-- Notes that the cell at `a` depends on the cell at `on`. -/
def Dependents.add (d : Dependents) (a on : Address) : Dependents :=
  d.insert on ((d.getD on ∅).insert a)

/-- The cells that depend on the cell at an address, row by row. -/
def Dependents.listAt (d : Dependents) (a : Address) : List Address :=
  (d.getD a ∅).toList

namespace Sheet

/-- The cells on which the cell at an address depends; none if there is no cell. -/
def dependsOn (s : Sheet) (a : Address) : List Address :=
  match s[a]? with
  | some cell => cell.dependsOn
  | none => []

/-- The sheet with further cells; later ones replace earlier ones at the same address. -/
def insertAll (s : Sheet) (cells : List (Address × Cell)) : Sheet :=
  cells.foldl (fun s (a, cell) => s.insert a cell) s

/-- The sheet with what stood at an address before, a cell or nothing. -/
def restore (s : Sheet) (a : Address) (old : Option Cell) : Sheet :=
  match old with
  | some cell => s.insert a cell
  | none => s.erase a

/-- Putting back what stood at an address undoes an insertion there. -/
theorem restore_insert (s : Sheet) (a : Address) (cell : Cell) : restore (s.insert a cell) a s[a]? = s := by
  refine Std.ExtTreeMap.ext_getElem? fun b => ?_
  cases found : s[a]? with
  | some old =>
    rw [restore, Std.ExtTreeMap.getElem?_insert, Std.ExtTreeMap.getElem?_insert]
    split
    · next same => rw [← Std.LawfulEqOrd.eq_of_compare same, found]
    · rfl
  | none =>
    rw [restore, Std.ExtTreeMap.getElem?_erase, Std.ExtTreeMap.getElem?_insert]
    split
    · next same => rw [← Std.LawfulEqOrd.eq_of_compare same, found]
    · rfl

/-- For each cell that a formula names, the cells with such a formula. -/
def dependents (s : Sheet) : Dependents :=
  s.foldl (fun d a cell => cell.dependsOn.foldl (fun d on => d.add a on) d) ∅

/-- The cells with an invalid formula and their errors, row by row. -/
def invalidCells (s : Sheet) : List (Address × Formula.ScanError) :=
  s.toList.filterMap fun (a, cell) => cell.error?.map (a, ·)

end Sheet

end Spreadsheet
