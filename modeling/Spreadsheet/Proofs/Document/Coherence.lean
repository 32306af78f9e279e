import Spreadsheet.Proofs.Document.Run
import Spreadsheet.Proofs.Sheet.Walk

/-!
# The map of dependents and the cells agree

In every document that can be reached, whether the operations on the way have succeeded or failed, the map of
dependents says exactly what the cells say, and each cell depends on the cells that its own tokens name.

* `Cell.Coherent` — a formula depends on the cells that its tokens name, and no other cell depends on any.
* `shiftCell_cases` — what an edit of a line does to a cell.
* `has_dependents_iff_of_reachable` — the whole statement.
-/

namespace Spreadsheet

namespace Cell

/-- A formula depends on the cells that its tokens name, and no other cell depends on any. -/
def Coherent (cell : Cell) : Prop :=
  match cell.content with
  | .formula _ tokens => cell.dependsOn = Formula.dependencies tokens
  | .empty | .text _ | .number _ | .invalid _ _ => cell.dependsOn = []

theorem coherent_formula (options : Formula.Options) (source : List Char) :
    (Cell.formula options source).Coherent := by
  rw [formula]
  split <;> rfl

theorem Built.coherent {cell : Cell} (h : cell.Built) : cell.Coherent :=
  Cell.holds_of_built (P := Coherent) rfl (fun _ => rfl) (fun _ => rfl) coherent_formula h

end Cell

namespace Document

/-- When a line is edited, a cell stays as it is, or its formula is rewritten or given up. -/
theorem shiftCell_cases (options : Formula.Options) (e : LineEdit) (cell : Cell) :
    shiftCell options e cell = cell ∨
      ∃ source ts, cell.content = .formula source ts ∧
        ((∃ shifted, Formula.shift options e source = .ok shifted ∧
            shiftCell options e cell = .formula options shifted) ∨
          ∃ error, Formula.shift options e source = .error error ∧
            shiftCell options e cell = ⟨.invalid source error, []⟩) := by
  rw [shiftCell]
  split
  · next source ts content =>
    split
    · next shifted moved =>
      split
      · exact .inl rfl
      · exact .inr ⟨source, ts, content, .inl ⟨shifted, moved, rfl⟩⟩
    · next error failed => exact .inr ⟨source, ts, content, .inr ⟨error, failed, rfl⟩⟩
  · exact .inl rfl

theorem coherent_shiftCell (options : Formula.Options) (e : LineEdit) {cell : Cell} (h : cell.Coherent) :
    (shiftCell options e cell).Coherent := by
  rcases shiftCell_cases options e cell with same | ⟨source, ts, -, ⟨shifted, -, anew⟩ | ⟨error, -, given⟩⟩
  · rw [same]
    exact h
  · rw [anew]
    exact Cell.coherent_formula _ _
  · rw [given]
    rfl

theorem inherited_coherent : Inherited Cell.Coherent :=
  .of_built (fun _ built => built.coherent) fun options e _ h => coherent_shiftCell options e h

/-- **The map of dependents is exact.** At any time the map says that a cell depends on another one if and only
if the sheet holds a cell that does, no entry of the map is empty, and the cells are coherent. -/
theorem has_dependents_iff_of_reachable {d : Document} (h : Reachable Opened Operation.Proper d) :
    (∀ p q : Address, (∃ set, d.dependents[p]? = some set ∧ q ∈ set) ↔
      ∃ cell, d.sheet[q]? = some cell ∧ p ∈ cell.dependsOn) ∧
    (∀ (p : Address) set, d.dependents[p]? = some set → set ≠ ∅) ∧
    ∀ (a : Address) cell, d.sheet[a]? = some cell → cell.Coherent := by
  refine ⟨fun p q => ?_, fun p set found => ?_, ?_⟩
  · rw [h.dependents_eq]
    exact Sheet.has_dependents_iff
  · rw [h.dependents_eq] at found
    obtain ⟨q, mem⟩ := Sheet.tight_dependents d.sheet p set found
    rintro rfl
    simp at mem
  · exact h.holds inherited_coherent fun a cell built => Cell.Built.coherent built

/-- No cycle is found from a cell that depends on empty places only. -/
theorem findCycle_insert_of_absent {s : Sheet} {a : Address} {cell : Cell}
    (absent : ∀ p ∈ cell.dependsOn, p ≠ a ∧ p ∉ s) : Sheet.findCycle (s.insert a cell) a = none := by
  refine Sheet.findCycle_eq_none_iff.2 (.of_forall fun p step => Sheet.grounded_of_not_mem ?_)
  rw [Sheet.Depends, Sheet.dependsOn, Std.ExtTreeMap.getElem?_insert_self] at step
  obtain ⟨other, out⟩ := absent p step
  rw [Std.ExtTreeMap.mem_insert, Address.compare_eq_iff, not_or]
  exact ⟨other.symm, out⟩

/-- A cell that depends on empty places only is accepted. -/
theorem setCell_of_absent (d : Document) {a : Address} {cell : Cell} (filled : cell.content ≠ .empty)
    (absent : ∀ p ∈ cell.dependsOn, p ≠ a ∧ p ∉ d.sheet) :
    d.setCell a cell = (.ok (), d.edited (d.sheet.insert a cell)) := by
  simp only [setCell, filled, findCycle_insert_of_absent absent, if_false, ite_self]

/-- A formula that is entered into an empty sheet is accepted unless it names its own cell. -/
theorem perform_setInput_new {options : Formula.Options} {a : Address} {entered : List Char}
    (content : (Cell.ofInput options entered).content ≠ .empty)
    (other : a ∉ (Cell.ofInput options entered).dependsOn) :
    (new options).perform (.setInput a entered) =
      (new options).edited ((∅ : Sheet).insert a (.ofInput options entered)) := by
  have absent : ∀ p ∈ (Cell.ofInput options entered).dependsOn, p ≠ a ∧ p ∉ (new options).sheet := fun p mem =>
    ⟨fun same => other (same ▸ mem), by simp [new]⟩
  exact congrArg Prod.snd ((new options).setCell_of_absent content absent)

/-- A formula that is entered and then moved by an inserted row depends on the moved cell. -/
theorem has_dependents_entered :
    let d := ((new {}).perform (.setInput ⟨1, 1⟩ "=A1".toList)).perform (.editLine ⟨.row, .insert, 0⟩)
    ∃ set, d.dependents[(⟨1, 0⟩ : Address)]? = some set ∧ ⟨2, 1⟩ ∈ set := by
  intro d
  have reachable : Reachable Opened Operation.Proper d :=
    .step (.step (.start ⟨{}, .inl rfl⟩) trivial) trivial
  have entered := @perform_setInput_new {} ⟨1, 1⟩ "=A1".toList (by decide +kernel) (by decide +kernel)
  have moved : d.sheet[(⟨2, 1⟩ : Address)]?.map Cell.dependsOn = some [⟨1, 0⟩] := by
    show (perform _ _).sheet[(⟨2, 1⟩ : Address)]?.map Cell.dependsOn = some [⟨1, 0⟩]
    rw [entered]
    decide +kernel
  obtain ⟨cell, found, on⟩ := Option.map_eq_some_iff.1 moved
  exact ((has_dependents_iff_of_reachable reachable).1 ⟨1, 0⟩ ⟨2, 1⟩).2 ⟨cell, found, by simp [on]⟩

end Document

end Spreadsheet
