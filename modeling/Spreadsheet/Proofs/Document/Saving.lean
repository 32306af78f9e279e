import Spreadsheet.Proofs.Document.Sources
import Spreadsheet.Proofs.Sheet.Grd

/-!
# What is saved is read back

A document under options that stay is written as lines that are read back as its sheet without the empty cells: texts
with any quotes and backslashes, numbers of any size, formulas that are valid or not.  Two things are not written so
that they can be read back.  A line break within a text or a formula is written as it is, and what stands behind it is
read as a line of its own; and a formula of which nothing is left is written as nothing.

* `Storable` — no cell holds a line break or a formula of which nothing is left.
* `read_write_of_reachable` — such a document is read back.
* `read_write_forged` — a text with line breaks puts a cell into the file that the sheet does not hold.
-/

namespace Spreadsheet.Document

variable {options : Formula.Options} {d : Document}

/-- The operations that put nothing into the sheet but cells that a text makes, and keep the options. -/
def Operation.Enters : Operation → Prop
  | .setCell _ _ | .setOptions _ => False
  | _ => True

theorem Operation.Enters.keepsOptions {op : Operation} (h : op.Enters) : op.KeepsOptions := by
  cases op with
  | setOptions => exact absurd h not_false
  | _ => trivial

/-- All cells have names, and none holds a line break or a formula of which nothing is left. -/
structure Storable (s : Sheet) : Prop where
  named : ∀ a ∈ s, a.row + 1 < indexBound ∧ a.column + 1 < indexBound
  unbroken : ∀ (a : Address) cell, s[a]? = some cell → '\n' ∉ cell.input
  sources : ∀ (a : Address) cell, s[a]? = some cell → cell.source? ≠ some []

/-- A cell of such a sheet fits into a line. -/
theorem Storable.fits {s : Sheet} (h : Storable s) {a : Address} {cell : Cell} (found : s[a]? = some cell)
    (fresh : cell.Fresh options) (sourced : cell.Sourced) : Grd.Fits options a cell := by
  obtain ⟨row, column⟩ := h.named a (Std.ExtTreeMap.mem_iff_isSome_getElem?.2 (by rw [found]; rfl))
  have plain := h.unbroken a cell found
  refine ⟨row, column, ?_⟩
  cases fresh with
  | empty => exact .inl rfl
  | text value => exact .inr (.text plain)
  | number value => exact .inr (.number value)
  | formula source =>
    rcases sourced source (Cell.source?_formula options source) with rfl | ⟨head, trimmed⟩
    · exact absurd (Cell.source?_formula options []) (h.sources a _ found)
    · rw [Cell.input_formula] at plain
      exact .inr (.formula head trimmed plain)

/-- **What is saved is read back.** Whatever has been entered, moved, loaded and imported under the options: if no cell
holds a line break or a formula of which nothing is left, the lines of the sheet are read as the sheet without its empty
cells. -/
theorem read_write_of_reachable (h : Reachable (· = new options) Operation.Enters d) (storable : Storable d.sheet) :
    Grd.read options (Grd.write d.sheet) = .ok d.sheet.filled := by
  have fresh := (h.holds_under (inherited_fresh options) (fun _ enters => enters.keepsOptions)
    fun _ _ given => absurd given not_false).2
  have sourced := (h.holds_under (inherited_sourced options) (fun _ enters => enters.keepsOptions)
    fun _ _ given => absurd given not_false).2
  exact Grd.read_write fun a cell found => storable.fits found (fresh a cell found) (sourced a cell found)

/-- A text with quotes, a backslash, a colon and a mark of comments is read back. -/
theorem read_write_of_reachable_text :
    let d := (new {}).perform (.setInput ⟨0, 0⟩ "# B1: \"5\\\"".toList)
    Storable d.sheet ∧ Grd.read {} (Grd.write d.sheet) = .ok d.sheet.filled := by
  intro d
  have entered : d = (new {}).edited ((∅ : Sheet).insert ⟨0, 0⟩ (.text "# B1: \"5\\\"".toList)) :=
    perform_setInput_new (by decide +kernel) (by decide +kernel)
  have only {a : Address} {cell : Cell} (found : d.sheet[a]? = some cell) :
      a = ⟨0, 0⟩ ∧ cell = .text "# B1: \"5\\\"".toList := by
    rw [entered, edited, Std.ExtTreeMap.getElem?_insert] at found
    split at found
    · next same => exact ⟨(Address.compare_eq_iff.1 same).symm, (Option.some.inj found).symm⟩
    · simp at found
  have storable : Storable d.sheet := by
    refine ⟨fun a mem => ?_, fun a cell found => ?_, fun a cell found => ?_⟩
    · rw [(only (Std.ExtTreeMap.getElem?_eq_some_getElem mem)).1]
      decide
    · rw [(only found).2]
      decide
    · rw [(only found).2]
      decide
  exact ⟨storable, read_write_of_reachable (.step (.start rfl) trivial) storable⟩

/-- A text with line breaks puts a cell into the file that the sheet does not hold, and is cut off itself. -/
theorem read_write_forged :
    let d := (new {}).perform (.setInput ⟨0, 0⟩ "a\"\nB1: 5\n#".toList)
    Reachable (· = new {}) Operation.Enters d ∧ d.sheet[(⟨0, 1⟩ : Address)]? = none ∧
      ∃ s, Grd.read {} (Grd.write d.sheet) = .ok s ∧ s[(⟨0, 1⟩ : Address)]?.map Cell.input = some "5".toList ∧
        s[(⟨0, 0⟩ : Address)]?.map Cell.input = some "a\\".toList := by
  intro d
  have entered : d = (new {}).edited ((∅ : Sheet).insert ⟨0, 0⟩ (.text "a\"\nB1: 5\n#".toList)) :=
    perform_setInput_new (by decide +kernel) (by decide +kernel)
  have forged : (Grd.read {} (Grd.write d.sheet)).toOption.bind (fun s => s[(⟨0, 1⟩ : Address)]?.map Cell.input) =
      some "5".toList := by
    rw [entered]
    decide +kernel
  have cut : (Grd.read {} (Grd.write d.sheet)).toOption.bind (fun s => s[(⟨0, 0⟩ : Address)]?.map Cell.input) =
      some "a\\".toList := by
    rw [entered]
    decide +kernel
  obtain ⟨s, ok, other⟩ := Option.bind_eq_some_iff.1 forged
  rw [ok, Option.bind_some] at cut
  refine ⟨.step (.start rfl) trivial, ?_, s, Formula.toOption_eq_some_iff.1 ok, other, cut⟩
  rw [entered]
  rfl

/-- A formula of nothing but its sign is rewritten to nothing, and nothing is read as an empty cell. -/
example :
    let cell := shiftCell {} ⟨.row, .insert, 5⟩ (.formula {} ['='])
    cell.source? = some [] ∧ (Grd.read {} (Grd.write ((∅ : Sheet).insert ⟨0, 0⟩ cell))).toOption.bind
      (fun s => s[(⟨0, 0⟩ : Address)]?) = some .empty := by
  decide +kernel

end Spreadsheet.Document
