import Spreadsheet.Proofs.Document.Composition

/-!
# Edits of a row and of a column

Inserting or deleting a row and inserting or deleting a column can be done in either order.  Cells and references are
moved by the two edits along different axes, so the new places and the new texts are the same.  What has to be looked
at is which cells are made anew: a formula that an edit leaves as it is keeps its tokens, perhaps of other options,
while a rewritten one is read again.  No column edit gives back the text that a row edit has changed, and so a formula
is made anew in both orders or in none; and one that can no longer be read is given up at the first edit.

* `LineEdit.andThen_comm`, `LineEdit.staysWith_andThen` — what two edits of different axes do to references.
* `shiftCell_shiftCell` — a cell after two edits is made anew exactly if its text has changed in the end.
* `shiftCell_comm` — the order of the edits does not matter for a cell.
* `editLine_comm` — nor for a document.
-/

namespace Spreadsheet

/-! ### Places and references -/

namespace LineEdit

variable {e e' : LineEdit}

/-- The axis of an edit that is not along the axis of another one. -/
theorem axis_cases (apart : e.axis ≠ e'.axis) :
    e.axis = .row ∧ e'.axis = .column ∨ e.axis = .column ∧ e'.axis = .row := by
  cases h : e.axis with
  | row =>
    cases h' : e'.axis with
    | row => exact absurd (h.trans h'.symm) apart
    | column => exact .inl ⟨rfl, rfl⟩
  | column =>
    cases h' : e'.axis with
    | row => exact .inr ⟨rfl, rfl⟩
    | column => exact absurd (h.trans h'.symm) apart

theorem moveAddress?_row (rows : e.axis = .row) (a : Address) :
    e.moveAddress? a = (e.moveIndex? a.row).map (⟨·, a.column⟩) := by
  rw [moveAddress?, rows]

theorem moveAddress?_column (columns : e.axis = .column) (a : Address) :
    e.moveAddress? a = (e.moveIndex? a.column).map (⟨a.row, ·⟩) := by
  rw [moveAddress?, columns]

theorem moveAddress?_row_column (rows : e.axis = .row) (columns : e'.axis = .column) (a : Address) :
    (e.moveAddress? a).bind e'.moveAddress? = (e'.moveAddress? a).bind e.moveAddress? := by
  rw [moveAddress?_row rows, moveAddress?_column columns]
  cases row : e.moveIndex? a.row <;> cases column : e'.moveIndex? a.column <;>
    simp [moveAddress?_row rows, moveAddress?_column columns, row, column]

/-- A cell comes to the same place in either order. -/
theorem moveAddress?_comm (apart : e.axis ≠ e'.axis) (a : Address) :
    (e.moveAddress? a).bind e'.moveAddress? = (e'.moveAddress? a).bind e.moveAddress? := by
  rcases axis_cases apart with ⟨rows, columns⟩ | ⟨columns, rows⟩
  · exact moveAddress?_row_column rows columns a
  · exact (moveAddress?_row_column rows columns a).symm

theorem relocation_row (rows : e.axis = .row) : e.relocation = ⟨some, e.moveCoordinate?⟩ := by
  rw [relocation, rows]

theorem relocation_column (columns : e.axis = .column) : e.relocation = ⟨e.moveCoordinate?, some⟩ := by
  rw [relocation, columns]

/-- Two edits move the columns of references by the one and the rows by the other. -/
theorem andThen_row_column (rows : e.axis = .row) (columns : e'.axis = .column) :
    e.relocation.andThen e'.relocation = ⟨e'.moveCoordinate?, e.moveCoordinate?⟩ ∧
      e'.relocation.andThen e.relocation = ⟨e'.moveCoordinate?, e.moveCoordinate?⟩ := by
  rw [relocation_row rows, relocation_column columns]
  constructor
  · simp [Relocation.andThen]
  · simp [Relocation.andThen]

/-- References are moved in the same way in either order. -/
theorem andThen_comm (apart : e.axis ≠ e'.axis) :
    e.relocation.andThen e'.relocation = e'.relocation.andThen e.relocation := by
  rcases axis_cases apart with ⟨rows, columns⟩ | ⟨columns, rows⟩
  · obtain ⟨first, second⟩ := andThen_row_column rows columns
    rw [first, second]
  · obtain ⟨second, first⟩ := andThen_row_column rows columns
    rw [first, second]

/-- A coordinate that is in its old place after both edits has not been moved by the first one. -/
theorem staysWith_andThen (apart : e.axis ≠ e'.axis) :
    e.relocation.StaysWith (e.relocation.andThen e'.relocation) := by
  intro c
  rcases axis_cases apart with ⟨rows, columns⟩ | ⟨columns, rows⟩
  · rw [(andThen_row_column rows columns).1, relocation_row rows]
    exact ⟨fun _ => rfl, id⟩
  · rw [(andThen_row_column rows columns).2, relocation_column columns]
    exact ⟨id, fun _ => rfl⟩

/-- Neither edit moves a coordinate that the other one has moved. -/
theorem bounds_andThen (apart : e.axis ≠ e'.axis) (bound : Nat) :
    (e.relocation.andThen e'.relocation).Bounds bound (bound + 1) := by
  have le {c c' : Coordinate} (below : c.index < bound)
      (moved : e.moveCoordinate? c = some c' ∨ e'.moveCoordinate? c = some c') : c'.index < bound + 1 := by
    have grown : c'.index ≤ c.index + 1 := moved.elim moveCoordinate?_le moveCoordinate?_le
    omega
  intro c c' below moved
  rcases axis_cases apart with ⟨rows, columns⟩ | ⟨columns, rows⟩
  · rw [(andThen_row_column rows columns).1] at moved
    exact le below moved.symm
  · rw [(andThen_row_column rows columns).2] at moved
    exact le below moved

end LineEdit

namespace Document

variable {options : Formula.Options} {e e' : LineEdit}

/-! ### Cells -/

/-- After two edits of different axes a formula is made anew exactly if its text is another one in the end. -/
theorem shiftCell_shiftCell (apart : e.axis ≠ e'.axis) {cell : Cell} {source last : List Char} {ts tokens : List Token}
    (content : cell.content = .formula source ts)
    (split : Formula.tokenize { options with preserveWhitespace := true } source = .ok tokens)
    (below : ∀ r ∈ Formula.references tokens, r.area.Below (indexBound - 3))
    (twice : Formula.relocate options (e.relocation.andThen e'.relocation) source = .ok last) :
    shiftCell options e' (shiftCell options e cell) = if last = source then cell else .formula options last := by
  have bounds := e.bounds_relocation (indexBound - 3)
  obtain ⟨middle, first, second⟩ := Formula.relocate_relocate (by decide) split
    (fun r mem => bounds.lands (below r mem)) e'.relocation
  have second : Formula.shift options e' middle = .ok last := second.trans twice
  have first : Formula.shift options e source = .ok middle := first
  by_cases kept : middle = source
  · rw [kept] at first second
    rw [shiftCell_of_shift_eq_self content first]
    split
    · next same => exact shiftCell_of_shift_eq_self content (same ▸ second)
    · next changed => exact shiftCell_of_shift_ne content second changed
  · -- the second edit does not bring the old text back
    have changed : last ≠ source := by
      intro same
      rw [same] at twice
      have stays := Formula.relocate_eq_self (LineEdit.staysWith_andThen apart) (LineEdit.bounds_andThen apart _) split
        twice
      exact kept (Except.ok.inj (first.symm.trans stays))
    obtain ⟨ts', split'⟩ := Formula.exists_tokenize_of_relocate first
    rw [shiftCell_of_shift_ne content first kept, shiftCell_formula split' second, if_neg changed]

/-- The order of two edits of different axes does not matter for a cell. -/
theorem shiftCell_comm (apart : e.axis ≠ e'.axis) {cell : Cell} (scanned : cell.Scanned)
    (below : ∀ r ∈ Formula.references cell.tokens, r.area.Below (indexBound - 3)) :
    shiftCell options e' (shiftCell options e cell) = shiftCell options e (shiftCell options e' cell) := by
  cases content : cell.content with
  | formula source ts =>
    cases split : Formula.tokenize { options with preserveWhitespace := true } source with
    | error fault =>
      rw [shiftCell_of_error content split, shiftCell_of_error content split]
      rfl
    | ok tokens =>
      obtain ⟨before, scan⟩ := scanned source ts content
      rw [Cell.tokens_of_content content, Formula.references_of_tokenize scan split] at below
      obtain ⟨last, twice, -⟩ := Formula.tokenize_relocate split (e.relocation.andThen e'.relocation)
      have twice' : Formula.relocate options (e'.relocation.andThen e.relocation) source = .ok last := by
        rw [← LineEdit.andThen_comm apart, twice]
      rw [shiftCell_shiftCell apart content split below twice,
        shiftCell_shiftCell (Ne.symm apart) content split below twice']
  | _ => simp only [shiftCell, content]

/-! ### Documents -/

/-- **A row and a column can be edited in either order.** The sheet has the same cells in the same places with the same
contents and dependencies, formulas that have become invalid and formulas without any tokens included, and the map of
dependents is the same. -/
theorem editLine_comm {d : Document} (reachable : Reachable Opened Operation.Proper d)
    (below : ∀ p, ∀ r ∈ Formula.references (d.sheet.tokensAt p), r.area.Below (indexBound - 3)) {e e' : LineEdit}
    (apart : e.axis ≠ e'.axis) :
    ((d.editLine e).editLine e').sheet = ((d.editLine e').editLine e).sheet ∧
      ((d.editLine e).editLine e').dependents = ((d.editLine e').editLine e).dependents := by
  have scanned := reachable.holds inherited_scanned fun a cell built => Cell.Built.scanned built
  have cell {p : Address} {c : Cell} (found : d.sheet[p]? = some c) :
      shiftCell d.options e' (shiftCell d.options e c) = shiftCell d.options e (shiftCell d.options e' c) := by
    refine shiftCell_comm apart (scanned p c found) ?_
    have below := below p
    rwa [Sheet.tokensAt, found] at below
  have sheet : shiftSheet d.options e' (shiftSheet d.options e d.sheet) =
      shiftSheet d.options e (shiftSheet d.options e' d.sheet) := by
    apply Std.ExtTreeMap.ext_getElem?
    intro p
    apply Option.ext
    intro c'
    rw [getElem?_shiftSheet_shiftSheet, getElem?_shiftSheet_shiftSheet]
    constructor
    · rintro ⟨q, c, found, moves, rfl⟩
      exact ⟨q, c, found, by rw [← moves, LineEdit.moveAddress?_comm apart], (cell found).symm⟩
    · rintro ⟨q, c, found, moves, rfl⟩
      exact ⟨q, c, found, by rw [← moves, LineEdit.moveAddress?_comm apart], cell found⟩
  exact ⟨sheet, congrArg Sheet.dependents sheet⟩

/-- A row is taken out of a range and a column put into it. -/
theorem editLine_comm_entered :
    let d := (new {}).perform (.setInput ⟨5, 7⟩ "=SUM($B$1:D3) +'S'!$A:C".toList)
    ((d.editLine ⟨.row, .delete, 1⟩).editLine ⟨.column, .insert, 2⟩).sheet =
      ((d.editLine ⟨.column, .insert, 2⟩).editLine ⟨.row, .delete, 1⟩).sheet := by
  intro d
  let cell := Cell.formula {} "=SUM($B$1:D3) +'S'!$A:C".toList
  have entered : d = (new {}).edited ((∅ : Sheet).insert ⟨5, 7⟩ cell) :=
    perform_setInput_new (by decide +kernel) (by decide +kernel)
  have only {p : Address} {c : Cell} (found : d.sheet[p]? = some c) : c = cell := by
    rw [entered, edited, Std.ExtTreeMap.getElem?_insert] at found
    split at found
    · exact (Option.some.inj found).symm
    · simp at found
  have named : Formula.references cell.tokens =
      [⟨[], .cells ⟨⟨1, true⟩, ⟨0, true⟩⟩ ⟨⟨3, false⟩, ⟨2, false⟩⟩⟩,
        ⟨"'S'!".toList, .columns ⟨0, true⟩ ⟨2, false⟩⟩] := by
    decide +kernel
  have reachable : Reachable Opened Operation.Proper d := .step (.start ⟨{}, .inl rfl⟩) trivial
  have below (p : Address) : ∀ r ∈ Formula.references (d.sheet.tokensAt p), r.area.Below (indexBound - 3) := by
    intro r mem
    obtain ⟨c, found, mem⟩ := exists_of_mem_references mem
    rw [only found, named] at mem
    rcases List.mem_cons.1 mem with rfl | mem
    · simp [Area.Below, Area.parts, ReferencePart.Below, indexBound]
    · rw [List.mem_singleton] at mem
      subst mem
      simp [Area.Below, Area.parts, ReferencePart.Below, indexBound]
  exact (editLine_comm reachable below (by decide)).1

end Document

end Spreadsheet
