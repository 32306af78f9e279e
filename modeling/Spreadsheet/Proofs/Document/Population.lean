import Mathlib.Data.Set.Function
import Spreadsheet.Proofs.Document.LineEdit

/-!
# The cells of a sheet after a line has been inserted or deleted

The sheet is taken apart and put together again from its moved cells.  No cell gets lost that way, for no two are moved
to the same place; so the order in which they are put in does not matter either.  A formula stays one as long as it can
be read under the options of the document, since what it is rewritten to can be read again.

* `Moved` — what becomes of one cell, and `moved_shiftCell`.
* `Populates` — how the cells of two sheets correspond, and `populates_shiftSheet`.
* `shiftEntries_of_perm` — the order in which the cells are put in.
* `editLine_population` — all of it for an edit of any document.
-/

namespace Spreadsheet.Document

variable {options : Formula.Options} {e : LineEdit} {s : Sheet}

/-! ### One cell -/

/-- What becomes of a cell. A formula that can be read stays a formula, with the rewritten source; one that cannot be
read is kept as an invalid one with its source, and depends on nothing. Every other cell stays as it is. -/
def Moved (options : Formula.Options) (e : LineEdit) (cell cell' : Cell) : Prop :=
  match cell.content with
  | .formula source _ =>
    (∃ ts shifted ts', Formula.tokenize options source = .ok ts ∧ Formula.shift options e source = .ok shifted ∧
        cell'.content = .formula shifted ts') ∨
      (∀ ts, Formula.tokenize options source ≠ .ok ts) ∧
        ∃ error, Formula.shift options e source = .error error ∧ cell' = ⟨.invalid source error, []⟩
  | _ => cell' = cell

theorem moved_shiftCell (options : Formula.Options) (e : LineEdit) (cell : Cell) :
    Moved options e cell (shiftCell options e cell) := by
  cases content : cell.content with
  | formula source before =>
    simp only [Moved, content]
    cases preserving : Formula.tokenize { options with preserveWhitespace := true } source with
    | error fault =>
      refine .inr ⟨fun ts split => ?_, fault, shift_of_error preserving, shiftCell_of_error content preserving⟩
      obtain ⟨tokens, read⟩ := Formula.exists_tokenize_preserving_iff.2 ⟨ts, split⟩
      simp [preserving] at read
    | ok tokens =>
      obtain ⟨ts, split⟩ := Formula.exists_tokenize_preserving_iff.1 ⟨tokens, preserving⟩
      obtain ⟨shifted, shift, -⟩ := Formula.tokenize_relocate preserving e.relocation
      by_cases kept : shifted = source
      · subst kept
        exact .inl ⟨ts, shifted, before, split, shift, by rw [shiftCell_of_shift_eq_self content shift, content]⟩
      · obtain ⟨ts', split'⟩ := Formula.exists_tokenize_of_relocate shift
        refine .inl ⟨ts, shifted, ts', split, shift, ?_⟩
        rw [shiftCell_of_shift_ne content shift kept, Cell.formula, split']
  | _ => simp only [Moved, shiftCell, content]

/-! ### All cells -/

/-- How the cells of a sheet `s'` come from those of a sheet `s` by an edit of a line. -/
structure Populates (options : Formula.Options) (e : LineEdit) (s s' : Sheet) : Prop where
  /-- The new places of the cells that do not lie on a deleted line are the occupied ones, each of one cell. -/
  places : Set.BijOn e.moveAddress? {p | p ∈ s ∧ e.Keeps p} (some '' {p' | p' ∈ s'})
  /-- There is no cell on an inserted line. -/
  vacant : e.change = .insert → ∀ p', e.lineOf p' = e.line → p' ∉ s'
  /-- Only the cells on a deleted line have no new place. -/
  dropped : ∀ p ∈ s, e.moveAddress? p = none ↔ e.change = .delete ∧ e.lineOf p = e.line
  /-- What stands in the new place of a cell is what becomes of that cell. -/
  carried : ∀ p cell p', s[p]? = some cell → e.moveAddress? p = some p' →
    ∃ cell', s'[p']? = some cell' ∧ Moved options e cell cell'
  /-- The bound on the coordinates grows by one at most. -/
  bounded : ∀ bound, (∀ p ∈ s, p.row < bound ∧ p.column < bound) →
    ∀ p' ∈ s', p'.row < bound + 1 ∧ p'.column < bound + 1

/-- The occupied places of the new sheet are the new places of the cells. -/
theorem mem_shiftSheet {p' : Address} :
    p' ∈ shiftSheet options e s ↔ ∃ p ∈ s, e.moveAddress? p = some p' := by
  constructor
  · intro mem
    obtain ⟨p, cell, found, move, -⟩ := getElem?_shiftSheet.1 (Std.ExtTreeMap.getElem?_eq_some_getElem mem)
    exact ⟨p, Std.ExtTreeMap.mem_iff_isSome_getElem?.2 (by simp [found]), move⟩
  · rintro ⟨p, mem, move⟩
    have found : (shiftSheet options e s)[p']? = some (shiftCell options e s[p]) :=
      getElem?_shiftSheet.2 ⟨p, s[p], Std.ExtTreeMap.getElem?_eq_some_getElem mem, move, rfl⟩
    exact Std.ExtTreeMap.mem_iff_isSome_getElem?.2 (by simp [found])

theorem bijOn_moveAddress? (options : Formula.Options) (e : LineEdit) (s : Sheet) :
    Set.BijOn e.moveAddress? {p | p ∈ s ∧ e.Keeps p} (some '' {p' | p' ∈ shiftSheet options e s}) := by
  refine ⟨?mapsTo, ?injOn, ?surjOn⟩
  case mapsTo =>
    rintro p ⟨mem, keeps⟩
    obtain ⟨p', move⟩ := LineEdit.exists_moveAddress?_iff.2 keeps
    exact ⟨p', mem_shiftSheet.2 ⟨p, mem, move⟩, move.symm⟩
  case injOn =>
    rintro p ⟨-, keeps⟩ q - same
    obtain ⟨p', move⟩ := LineEdit.exists_moveAddress?_iff.2 keeps
    exact LineEdit.eq_of_moveAddress? move (same ▸ move)
  case surjOn =>
    rintro _ ⟨p', mem', rfl⟩
    obtain ⟨p, mem, move⟩ := mem_shiftSheet.1 mem'
    exact ⟨p, ⟨mem, LineEdit.exists_moveAddress?_iff.1 ⟨p', move⟩⟩, move⟩

theorem populates_shiftSheet (options : Formula.Options) (e : LineEdit) (s : Sheet) :
    Populates options e s (shiftSheet options e s) where
  places := bijOn_moveAddress? options e s
  vacant insert p' new mem' := by
    obtain ⟨p, -, move⟩ := mem_shiftSheet.1 mem'
    exact LineEdit.lineOf_ne_of_insert insert move new
  dropped p _ := by
    rw [← not_iff_not, ← ne_eq, Option.ne_none_iff_exists', LineEdit.exists_moveAddress?_iff, LineEdit.Keeps, not_and]
  carried p cell p' found move :=
    ⟨shiftCell options e cell, getElem?_shiftSheet.2 ⟨p, cell, found, move, rfl⟩, moved_shiftCell options e cell⟩
  bounded bound below p' mem' := by
    obtain ⟨p, mem, move⟩ := mem_shiftSheet.1 mem'
    obtain ⟨row, column⟩ := LineEdit.moveAddress?_le move
    have := below p mem
    omega

/-! ### The order of the cells -/

/-- The cells of a sheet may be moved in any order. -/
theorem shiftEntries_of_perm {entries : List (Address × Cell)} (h : entries.Perm s.toList) :
    shiftEntries options e entries = shiftSheet options e s := by
  refine Std.ExtTreeMap.ext_getElem? fun p' => Option.ext fun cell' => ?_
  have apart : entries.Pairwise fun x y => x.1 ≠ y.1 :=
    (h.pairwise_iff Ne.symm).2 (Sheet.pairwise_toList s)
  rw [getElem?_shiftEntries apart, getElem?_shiftSheet]
  simp only [h.mem_iff, Std.ExtTreeMap.mem_toList_iff_getElem?_eq_some]

/-- **An edit of a line moves the cells of a sheet and nothing else.** Their new places are different, and they are the
only occupied ones; no cell is dropped but those of a deleted line, and a new line is empty. Formulas are rewritten, or
given up if they cannot be read, and every other cell stays as it is. All this does not depend on the order in which
the cells of the old sheet are enumerated. -/
theorem editLine_population (d : Document) (e : LineEdit) :
    Populates d.options e d.sheet (d.editLine e).sheet ∧
      ∀ entries, entries.Perm d.sheet.toList → shiftEntries d.options e entries = (d.editLine e).sheet :=
  ⟨populates_shiftSheet d.options e d.sheet, fun _ => shiftEntries_of_perm⟩

/-- A formula that is nested too deeply for the options of the document is given up when a row is inserted above it, and
the last cell may be moved first. -/
theorem editLine_population_nested :
    let formula := Cell.formula {} "=((A1))".toList
    let sheet := (∅ : Sheet).insertAll [(⟨0, 0⟩, .text ['x']), (⟨4, 0⟩, formula)]
    let d : Document := { new { maxDepth := 1 } with sheet := sheet }
    let e : LineEdit := ⟨.row, .insert, 2⟩
    (∃ error, (d.editLine e).sheet[(⟨5, 0⟩ : Address)]? = some ⟨.invalid "=((A1))".toList error, []⟩) ∧
      shiftEntries d.options e d.sheet.toList.reverse = (d.editLine e).sheet := by
  intro formula sheet d e
  obtain ⟨populates, ordered⟩ := editLine_population d e
  refine ⟨?_, ordered _ (List.reverse_perm _)⟩
  have found : d.sheet[(⟨4, 0⟩ : Address)]? = some formula := by decide +kernel
  have unreadable : (Formula.tokenize d.options "=((A1))".toList).toOption = none := by decide +kernel
  obtain ⟨cell', found', moved⟩ := populates.carried ⟨4, 0⟩ formula ⟨5, 0⟩ found rfl
  have content : formula.content = .formula "=((A1))".toList formula.tokens := by decide +kernel
  rw [Moved, content] at moved
  rcases moved with ⟨ts, -, -, split, -⟩ | ⟨-, error, -, rfl⟩
  · rw [Formula.toOption_eq_some_iff.2 split] at unreadable
    cases unreadable
  · exact ⟨error, found'⟩

end Spreadsheet.Document
