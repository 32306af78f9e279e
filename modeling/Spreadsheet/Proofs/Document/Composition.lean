import Spreadsheet.Proofs.Document.LineEdit
import Spreadsheet.Proofs.Formula.Composition

/-!
# Two edits of lines

When two lines are edited one after the other, each cell is moved twice and each formula is rewritten twice.  Deleting
a line that has just been inserted brings every cell and every reference back, also a range that the line has made
longer.  Only the spelling of a formula may have changed, so a formula that has the spelling that rewriting gives is
the same as before.

* `getElem?_shiftSheet_shiftSheet` — the cells of the sheet after two edits.
* `moveAddress?_insert_delete`, `agrees_insert_delete` — what is inserted and deleted again moves nothing.
* `Canonical` — the formulas are in the spelling that rewriting gives.
* `editLine_insert_delete` — inserting a line and deleting it again changes nothing.
-/

namespace Spreadsheet

/-! ### Indices -/

namespace LineEdit

theorem moveIndex?_insert_delete (axis : Axis) (line index : Nat) :
    ((LineEdit.mk axis .insert line).moveIndex? index).bind (LineEdit.mk axis .delete line).moveIndex? =
      some index := by
  rw [moveIndex?_insert rfl, Option.bind_some, moveIndex?_delete rfl]
  dsimp only
  split
  · rw [if_neg (by omega), if_pos (by omega), Nat.add_sub_cancel]
  · rw [if_neg (by omega), if_neg (by omega)]

/-- Every cell comes back to its place. -/
theorem moveAddress?_insert_delete (axis : Axis) (line : Nat) (a : Address) :
    ((LineEdit.mk axis .insert line).moveAddress? a).bind (LineEdit.mk axis .delete line).moveAddress? = some a := by
  cases axis with
  | row =>
    obtain ⟨row, moved, back⟩ := Option.bind_eq_some_iff.1 (moveIndex?_insert_delete .row line a.row)
    simp only [moveAddress?, moved, back, Option.map_some, Option.bind_some]
  | column =>
    obtain ⟨column, moved, back⟩ := Option.bind_eq_some_iff.1 (moveIndex?_insert_delete .column line a.column)
    simp only [moveAddress?, moved, back, Option.map_some, Option.bind_some]

theorem moveCoordinate?_insert_delete (axis : Axis) (line : Nat) (c : Coordinate) :
    ((LineEdit.mk axis .insert line).moveCoordinate? c).bind (LineEdit.mk axis .delete line).moveCoordinate? =
      some c := by
  obtain ⟨index, moved, back⟩ := Option.bind_eq_some_iff.1 (moveIndex?_insert_delete axis line c.index)
  simp only [moveCoordinate?, moved, back, Option.map_some, Option.bind_some]

/-- Inserting and deleting the same line moves references as little as inserting a row behind all of them. -/
theorem agrees_insert_delete (axis : Axis) (line : Nat) {bound last : Nat} (h : bound ≤ last) :
    ((LineEdit.mk axis .insert line).relocation.andThen (LineEdit.mk axis .delete line).relocation).Agrees
      (LineEdit.mk .row .insert last).relocation bound := by
  intro c below
  have stays : (LineEdit.mk .row .insert last).moveCoordinate? c = some c :=
    moveCoordinate?_of_lt rfl (Nat.lt_of_lt_of_le below h)
  have back := moveCoordinate?_insert_delete axis line c
  cases axis with
  | row => exact ⟨rfl, back.trans stays.symm⟩
  | column => exact ⟨back, stays.symm⟩

end LineEdit

namespace Document

variable {options : Formula.Options}

/-! ### Cells -/

/-- The cells after two edits are the cells that have been moved twice. -/
theorem getElem?_shiftSheet_shiftSheet {e e' : LineEdit} {s : Sheet} {p : Address} {cell : Cell} :
    (shiftSheet options e' (shiftSheet options e s))[p]? = some cell ↔
      ∃ q c, s[q]? = some c ∧ (e.moveAddress? q).bind e'.moveAddress? = some p ∧
        shiftCell options e' (shiftCell options e c) = cell := by
  constructor
  · intro twice
    obtain ⟨q', c', once, move', rfl⟩ := getElem?_shiftSheet.1 twice
    obtain ⟨q, c, found, move, rfl⟩ := getElem?_shiftSheet.1 once
    exact ⟨q, c, found, by rw [move, Option.bind_some, move'], rfl⟩
  · rintro ⟨q, c, found, moves, rfl⟩
    obtain ⟨q', move, move'⟩ := Option.bind_eq_some_iff.1 moves
    exact getElem?_shiftSheet.2 ⟨q', _, getElem?_shiftSheet.2 ⟨q, c, found, move, rfl⟩, move', rfl⟩

/-- A cell with a formula is what its source gives if its tokens are those of the source. -/
theorem eq_formula_of_coherent {cell : Cell} (coherent : cell.Coherent) {source : List Char} {ts : List Token}
    (content : cell.content = .formula source ts) (split : Formula.tokenize options source = .ok ts) :
    cell = .formula options source := by
  obtain ⟨c, dependsOn⟩ := cell
  dsimp only at content
  subst content
  rw [Cell.formula, split]
  exact congrArg _ coherent

/-- The source of a formula has the spelling that rewriting gives, and the tokens are those of the source. -/
structure Written (options : Formula.Options) (cell : Cell) : Prop where
  split : ∀ source ts, cell.content = .formula source ts → Formula.tokenize options source = .ok ts
  /-- A row that is inserted behind everything moves no reference, and so it leaves the source as it is. -/
  stays : ∀ source ts, cell.content = .formula source ts →
    Formula.shift options ⟨.row, .insert, indexBound - 1⟩ source = .ok source

/-- A cell is the same after a line has been inserted and deleted again. -/
theorem shiftCell_insert_delete {cell : Cell} (coherent : cell.Coherent) (written : Written options cell)
    (below : ∀ r ∈ Formula.references cell.tokens, r.area.Below (indexBound - 3)) (axis : Axis) (line : Nat) :
    shiftCell options ⟨axis, .delete, line⟩ (shiftCell options ⟨axis, .insert, line⟩ cell) = cell := by
  cases content : cell.content with
  | formula source ts =>
    have split := written.split source ts content
    obtain ⟨tokens, preserving⟩ := Formula.exists_tokenize_preserving_iff.2 ⟨ts, split⟩
    rw [Cell.tokens_of_content content, Formula.references_of_tokenize split preserving] at below
    let insert : LineEdit := ⟨axis, .insert, line⟩
    let delete : LineEdit := ⟨axis, .delete, line⟩
    have bounds := insert.bounds_relocation (indexBound - 3)
    have before : indexBound - 3 ≤ indexBound - 1 := by decide
    have agrees := LineEdit.agrees_insert_delete axis line before
    obtain ⟨shifted, shift, twice⟩ := Formula.relocate_relocate (by decide) preserving
      (fun r mem => bounds.lands (below r mem)) delete.relocation
    have back : Formula.shift options delete shifted = .ok source := by
      calc Formula.shift options delete shifted
        _ = Formula.relocate options (insert.relocation.andThen delete.relocation) source := twice
        _ = Formula.shift options ⟨.row, .insert, indexBound - 1⟩ source :=
            Formula.relocate_congr preserving fun r mem => agrees.moveArea? (below r mem)
        _ = .ok source := written.stays source ts content
    obtain ⟨ts', split'⟩ := Formula.exists_tokenize_of_relocate shift
    rw [eq_formula_of_coherent coherent content split, shiftCell_formula split shift, shiftCell_formula split' back]
  | _ => simp only [shiftCell, content]

/-! ### Documents -/

/-- The documents whose formulas are in the spelling that rewriting gives, with the tokens that the current options
give, and with room for another line behind their references. -/
structure Canonical (d : Document) : Prop where
  reachable : Reachable Opened Operation.Proper d
  written : Holds (Written d.options) d.sheet
  below : ∀ p, ∀ r ∈ Formula.references (d.sheet.tokensAt p), r.area.Below (indexBound - 3)

/-- **Inserting a line and deleting it again changes nothing.** The sheet has the same cells with the same contents and
dependencies, and the map of dependents is the same, whatever line it is. -/
theorem editLine_insert_delete {d : Document} (h : d.Canonical) (axis : Axis) (line : Nat) :
    ((d.editLine ⟨axis, .insert, line⟩).editLine ⟨axis, .delete, line⟩).sheet = d.sheet ∧
      ((d.editLine ⟨axis, .insert, line⟩).editLine ⟨axis, .delete, line⟩).dependents = d.dependents := by
  have coherent := h.reachable.holds inherited_coherent fun a cell built => Cell.Built.coherent built
  have cell {p : Address} {c : Cell} (found : d.sheet[p]? = some c) :
      shiftCell d.options ⟨axis, .delete, line⟩ (shiftCell d.options ⟨axis, .insert, line⟩ c) = c := by
    refine shiftCell_insert_delete (coherent p c found) (h.written p c found) ?_ axis line
    have below := h.below p
    rwa [Sheet.tokensAt, found] at below
  have sheet : shiftSheet d.options ⟨axis, .delete, line⟩ (shiftSheet d.options ⟨axis, .insert, line⟩ d.sheet) =
      d.sheet := by
    refine Std.ExtTreeMap.ext_getElem? fun p => Option.ext fun c => ?_
    rw [getElem?_shiftSheet_shiftSheet]
    simp only [LineEdit.moveAddress?_insert_delete, Option.some.injEq]
    constructor
    · rintro ⟨p, c, found, rfl, rfl⟩
      rw [found, cell found]
    · intro found
      exact ⟨p, c, found, rfl, cell found⟩
  refine ⟨sheet, ?_⟩
  calc ((d.editLine ⟨axis, .insert, line⟩).editLine ⟨axis, .delete, line⟩).dependents
    _ = (shiftSheet d.options ⟨axis, .delete, line⟩
          (shiftSheet d.options ⟨axis, .insert, line⟩ d.sheet)).dependents := rfl
    _ = d.sheet.dependents := by rw [sheet]
    _ = d.dependents := h.reachable.dependents_eq.symm

/-- A column that is put into the ranges of a formula and taken out again leaves the formula as it was. -/
theorem editLine_insert_delete_entered :
    let d := (new {}).perform (.setInput ⟨0, 0⟩ "=SUM($B$1:D3)+'S'!$A:C".toList)
    d.Canonical ∧
      ((d.editLine ⟨.column, .insert, 2⟩).editLine ⟨.column, .delete, 2⟩).sheet = d.sheet := by
  intro d
  let cell := Cell.formula {} "=SUM($B$1:D3)+'S'!$A:C".toList
  have entered : d = (new {}).edited ((∅ : Sheet).insert ⟨0, 0⟩ cell) :=
    perform_setInput_new (by decide +kernel) (by decide +kernel)
  have options : d.options = {} := by rw [entered]; rfl
  have only {p : Address} {c : Cell} (found : d.sheet[p]? = some c) : c = cell := by
    rw [entered, edited, Std.ExtTreeMap.getElem?_insert] at found
    split at found
    · exact (Option.some.inj found).symm
    · simp at found
  have named : Formula.references cell.tokens =
      [⟨[], .cells ⟨⟨1, true⟩, ⟨0, true⟩⟩ ⟨⟨3, false⟩, ⟨2, false⟩⟩⟩,
        ⟨"'S'!".toList, .columns ⟨0, true⟩ ⟨2, false⟩⟩] := by
    decide +kernel
  have stays : Formula.shift {} ⟨.row, .insert, indexBound - 1⟩ "=SUM($B$1:D3)+'S'!$A:C".toList =
      .ok "=SUM($B$1:D3)+'S'!$A:C".toList := Formula.toOption_eq_some_iff.1 (by decide +kernel)
  have canonical : d.Canonical := by
    refine ⟨.step (.start ⟨{}, .inl rfl⟩) trivial,
      fun p c found => ⟨fun source ts content => ?_, fun source ts content => ?_⟩, fun p r mem => ?_⟩
    · rw [only found] at content
      exact options ▸ Cell.tokenize_of_formula content
    · rw [only found] at content
      have same : source = "=SUM($B$1:D3)+'S'!$A:C".toList := by
        have input : cell.input = "=SUM($B$1:D3)+'S'!$A:C".toList := by decide +kernel
        rwa [Cell.input, content] at input
      rw [options, same, stays]
    · obtain ⟨c, found, mem⟩ := exists_of_mem_references mem
      rw [only found, named] at mem
      rcases List.mem_cons.1 mem with rfl | mem
      · simp [Area.Below, Area.parts, ReferencePart.Below, indexBound]
      · rw [List.mem_singleton] at mem
        subst mem
        simp [Area.Below, Area.parts, ReferencePart.Below, indexBound]
  exact ⟨canonical, (editLine_insert_delete canonical .column 2).1⟩

end Document

end Spreadsheet
