import Spreadsheet.Proofs.Document.Acyclic
import Spreadsheet.Proofs.Sheet.Search

/-!
# Which cells a document accepts

A cell is refused if a cycle can be reached from it in the sheet that it would make, and is put in otherwise.  The check
begins at the new cell, so cycles that the sheet holds already, as it may after a file has been loaded, count only if the
new cell leads to them.  A sheet without cycles stays without, for a new cycle would have to pass through the new cell.

* `setCell_refused_or_set` — the two outcomes for a cell that holds something.
* `setCell_exact` — what setting a cell does, for every document, address and cell.
-/

namespace Spreadsheet.Document

/-- A cell that holds something is refused with a path to a cycle, and the document stays; or no cycle can be reached from
it, and it is put in. -/
theorem setCell_refused_or_set (d : Document) (a : Address) {cell : Cell} (filled : cell.content ≠ .empty) :
    (∃ path, Sheet.Lasso (d.sheet.insert a cell) a path ∧
        d.setCell a cell = (.error (.circularDependency path), d)) ∨
      ¬Sheet.ReachesCycle (d.sheet.insert a cell) a ∧
        d.setCell a cell = (.ok (), d.edited (d.sheet.insert a cell)) := by
  rcases d.setCell_cases a cell with ⟨empty, -⟩ | ⟨-, ⟨path, found, refused⟩ | ⟨free, set⟩⟩
  · exact absurd empty filled
  · exact .inl ⟨path, Sheet.lasso_of_findCycle found, refused⟩
  · exact .inr ⟨Sheet.grounded_iff_not_reachesCycle.1 (Sheet.grounded_insert free), set⟩

theorem sheet_clear (d : Document) (a : Address) : (d.clear a).sheet = d.sheet.erase a := by
  rw [clear]
  split
  · rfl
  · next absent => exact (Sheet.erase_eq_self (Std.ExtTreeMap.getElem?_eq_none absent)).symm

/-- **A cell is refused if and only if it leads to a cycle.** This is judged in the sheet with the new cell, and the error
gives a path from there that comes back to one of its cells. An accepted cell stands in place of what was at its address,
nothing else changes in the sheet, and if there was no cycle before, there is none. Setting an empty cell never fails and
takes away what was there. -/
theorem setCell_exact (d : Document) (a : Address) (cell : Cell) :
    (cell.content ≠ .empty →
      ((∃ error, (d.setCell a cell).1 = .error error) ↔ Sheet.ReachesCycle (d.sheet.insert a cell) a) ∧
      (∀ error, (d.setCell a cell).1 = .error error →
        ∃ path, error = .circularDependency path ∧ Sheet.Lasso (d.sheet.insert a cell) a path) ∧
      ((d.setCell a cell).1 = .ok () →
        (d.setCell a cell).2.sheet = d.sheet.insert a cell ∧
          (d.sheet.Acyclic → (d.setCell a cell).2.sheet.Acyclic))) ∧
    (cell.content = .empty →
      (d.setCell a cell).1 = .ok () ∧ (d.setCell a cell).2.sheet = d.sheet.erase a) := by
  refine ⟨fun filled => ?_, fun empty => ?_⟩
  · rcases d.setCell_refused_or_set a filled with ⟨path, lasso, refused⟩ | ⟨free, set⟩
    · rw [refused]
      refine ⟨iff_of_true ⟨_, rfl⟩ lasso.reachesCycle, ?_, ?_⟩
      · intro error failed
        cases failed
        exact ⟨path, rfl, lasso⟩
      · intro ok
        cases ok
    · rw [set]
      refine ⟨iff_of_false (by simp) free, ?_, fun _ => ⟨rfl, fun acyclic => ?_⟩⟩
      · intro error failed
        cases failed
      · exact Sheet.acyclic_insert acyclic (Sheet.grounded_iff_not_reachesCycle.2 free)
  · rcases d.setCell_cases a cell with ⟨-, cleared⟩ | ⟨filled, -⟩
    · rw [cleared]
      exact ⟨rfl, d.sheet_clear a⟩
    · exact absurd empty filled

/-- Next to a cycle that a file has brought in, a formula that leads to the cycle is refused, and another is accepted. -/
theorem setCell_exact_beside :
    let d : Document := { new {} with sheet := (∅ : Sheet).insert ⟨0, 0⟩ (.formula {} "=A1".toList) }
    (∃ error, (d.setCell ⟨0, 1⟩ (.formula {} "=A1".toList)).1 = .error error) ∧
      ¬∃ error, (d.setCell ⟨0, 1⟩ (.formula {} "=C1".toList)).1 = .error error := by
  intro d
  obtain ⟨leading, -⟩ := setCell_exact d ⟨0, 1⟩ (.formula {} "=A1".toList)
  obtain ⟨apart, -⟩ := setCell_exact d ⟨0, 1⟩ (.formula {} "=C1".toList)
  rw [(leading (by decide +kernel)).1, (apart (by decide +kernel)).1]
  constructor
  · have itself : Sheet.IsCycle (d.sheet.insert ⟨0, 1⟩ (.formula {} "=A1".toList)) [⟨0, 0⟩, ⟨0, 0⟩] :=
      ⟨by decide +kernel, by decide, rfl⟩
    exact ⟨_, itself, ⟨0, 0⟩, by simp, .single (by decide +kernel)⟩
  · -- the only dependency is not a cell of the sheet
    refine Sheet.grounded_iff_not_reachesCycle.1 (.of_forall fun b step => Sheet.grounded_of_not_mem ?_)
    have named : Sheet.dependsOn (d.sheet.insert ⟨0, 1⟩ (.formula {} "=C1".toList)) ⟨0, 1⟩ = [⟨0, 2⟩] := by
      decide +kernel
    rw [Sheet.Depends, named, List.mem_singleton] at step
    subst step
    decide +kernel

end Spreadsheet.Document
