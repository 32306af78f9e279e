import Spreadsheet.Proofs.Document.Sources

/-!
# Formulas of which nothing is left

A formula stays a formula: whatever is done with the document, its source begins with `=` and has no blanks at its
ends, so that it is written and entered as a formula again.  The one exception is the formula of nothing but the sign.
It has no tokens, and no tokens are put together to the empty text, so inserting or deleting a line anywhere in the
sheet takes the sign away.

* `Cell.Whole` — the source of the cell, if it has one, is that of a formula; `Cell.erased` is not whole.
* `source_eq_of_relocate` — only the sign alone is rewritten to nothing.
* `holds_perform` — one operation leaves whole cells, and an erased one only behind a sign that stood alone.
* `whole_of_run` — the same for a whole run.
* `whole_of_run_erased` — a run that erases a formula.
-/

namespace Spreadsheet

open Text

/-! ### What is rewritten to nothing -/

namespace Formula

variable {options : Options}

/-- Narrowing spaces leaves something of every text but the empty one. -/
theorem eq_nil_of_respace {gap s : List Char} (ne : gap ≠ []) (h : respace gap (.outside false) s = []) : s = [] := by
  cases s with
  | nil => rfl
  | cons c s =>
    rw [respace] at h
    split at h
    · simp [ne] at h
    · cases h

/-- Only the sign alone is rewritten to nothing. -/
theorem source_eq_of_relocate {m : Relocation} {source : List Char} (h : relocate options m source = .ok [])
    (head : source.head? = some '=') : source = ['='] := by
  obtain ⟨body, rfl⟩ := List.head?_eq_some_iff.1 head
  rw [relocate] at h
  cases split : tokenize { options with preserveWhitespace := true } ('=' :: body) with
  | error fault =>
    rw [split] at h
    cases h
  | ok tokens =>
    rw [split] at h
    have moved : render (tokens.map m.moveToken) = [] := Except.ok.inj h
    have none : tokens = [] := by
      by_contra ne
      rw [render_map_moveToken split ne] at moved
      cases moved
    have text := flatMap_value_of_tokenize split
    rw [none] at text
    rw [eq_nil_of_respace (by simp [Options.gap]) text.symm]

end Formula

namespace Cell

/-- The source of a formula, valid or not, begins as a formula and has no blanks at its ends. -/
def Whole (cell : Cell) : Prop :=
  ∀ source ∈ cell.source?, source.head? = some '=' ∧ Trimmed source

/-- The formula of which nothing is left. -/
def erased : Cell :=
  ⟨.formula [] [], []⟩

variable {options : Formula.Options}

theorem whole_formula {source : List Char} (head : source.head? = some '=') (trimmed : Trimmed source) :
    (Cell.formula options source).Whole := by
  intro s mem
  rw [source?_formula] at mem
  obtain rfl := Option.some.inj mem
  exact ⟨head, trimmed⟩

theorem Entered.whole {cell : Cell} (h : cell.Entered options) : cell.Whole := by
  cases h with
  | empty | text | number => exact fun _ none => nomatch none
  | formula head trimmed => exact whole_formula head trimmed

theorem not_whole_erased : ¬erased.Whole := by
  intro whole
  have head := (whole [] rfl).1
  cases head

end Cell

namespace Document

variable {options : Formula.Options}

/-- A whole cell stays whole when a line is inserted or deleted, unless it holds the sign alone. -/
theorem whole_or_erased_shiftCell (e : LineEdit) {cell : Cell} (h : cell.Whole) :
    (shiftCell options e cell).Whole ∨ shiftCell options e cell = .erased ∧ cell.source? = some ['='] := by
  rcases shiftCell_cases options e cell with same | ⟨source, ts, content, rewritten⟩
  · rw [same]
    exact .inl h
  · have old : cell.source? = some source := by rw [Cell.source?, content]
    obtain ⟨head, trimmed⟩ := h source old
    rcases rewritten with ⟨shifted, moved, anew⟩ | ⟨error, -, given⟩
    · rw [anew]
      rcases Formula.whole_of_relocate moved head trimmed with rfl | ⟨head', trimmed'⟩
      · rw [Formula.source_eq_of_relocate moved head] at old
        exact .inr ⟨rfl, old⟩
      · exact .inl (Cell.whole_formula head' trimmed')
    · rw [given]
      left
      intro s mem
      obtain rfl := Option.some.inj mem
      exact h _ old

/-- What has been erased stays as it is. -/
theorem shiftCell_erased (e : LineEdit) : shiftCell options e .erased = .erased :=
  rfl

/-! ### Runs -/

/-- The operations that put nothing into the sheet but cells that a text makes. -/
def Operation.FromText : Operation → Prop
  | .setCell _ _ => False
  | _ => True

/-- A cell holds a formula of nothing but its sign. -/
def HoldsSign (s : Sheet) : Prop :=
  ∃ (a : Address) (cell : Cell), s[a]? = some cell ∧ cell.source? = some ['=']

/-- One operation leaves whole cells and erased ones.  If `E` says that a formula has been erased, then an edit of a line
has to meet the sign alone to make it true. -/
theorem holds_perform {d : Document} {op : Operation} {E : Prop} (text : op.FromText)
    (sign : ∀ e, op = .editLine e → HoldsSign d.sheet → E)
    (all : Holds (fun cell => cell.Whole ∨ cell = .erased ∧ E) d.sheet) :
    Holds (fun cell => cell.Whole ∨ cell = .erased ∧ E) (d.perform op).sheet := by
  have made : MadeUnder d.options fun cell => cell.Whole ∨ cell = .erased ∧ E :=
    { ofInput := fun entered => .inl (Cell.entered_ofInput entered).whole
      field := fun field => .inl (Csv.entered_cell field).whole
      value := fun _ _ read => .inl (Grd.entered_of_readValue read).whole }
  apply made.change (change_perform d op)
  · intro a cell given
    rw [given] at text
    exact absurd text not_false
  · intro e edit a cell found
    rcases all a cell found with whole | ⟨rfl, erased⟩
    · rcases whole_or_erased_shiftCell e whole with whole' | ⟨gone, alone⟩
      · exact .inl whole'
      · exact .inr ⟨gone, sign e edit ⟨a, cell, found, alone⟩⟩
    · exact .inr ⟨shiftCell_erased e, erased⟩
  · exact all

/-- In a run a line is inserted or deleted while a cell holds a formula of nothing but its sign. -/
def Erases (first : Document) (ops : List Operation) : Prop :=
  ∃ before e after, ops = before ++ .editLine e :: after ∧ HoldsSign (before.foldl perform first).sheet

theorem Erases.append_singleton {first : Document} {ops : List Operation} (h : Erases first ops) (op : Operation) :
    Erases first (ops ++ [op]) := by
  obtain ⟨before, e, after, rfl, sign⟩ := h
  exact ⟨before, e, after ++ [op], by simp, sign⟩

/-- A document that has just been opened has whole cells only. -/
theorem whole_of_opened {first : Document} (h : Opened first) : Holds Cell.Whole first.sheet := by
  obtain ⟨options, ⟨sheet, -⟩ | ⟨files, path, change⟩⟩ := change_opened h
  · rw [sheet]
    exact holds_empty _
  · have made : MadeUnder options Cell.Whole :=
      { ofInput := fun entered => (Cell.entered_ofInput entered).whole
        field := fun field => (Csv.entered_cell field).whole
        value := fun _ _ read => (Grd.entered_of_readValue read).whole }
    exact made.change change (by simp) (by simp) (holds_empty _)

/-- **Formulas stay formulas.** At any time in a run the source of every formula, valid or not, begins with the sign and
has no blanks at its ends.  Only the formula of the sign alone is lost: where a line has been inserted or deleted
while a cell held it, a cell may hold a formula without source and tokens. -/
theorem whole_of_run {first : Document} (opened : Opened first) {ops : List Operation}
    (text : ∀ op ∈ ops, op.FromText) :
    ∀ (a : Address) cell, (ops.foldl perform first).sheet[a]? = some cell →
      cell.Whole ∨ cell = .erased ∧ Erases first ops := by
  induction ops using List.reverseRecOn with
  | nil =>
    intro a cell found
    exact .inl (whole_of_opened opened a cell found)
  | append_singleton ops op ih =>
    obtain ⟨before, last⟩ := List.forall_mem_append.1 text
    have all := ih before
    rw [List.foldl_append, List.foldl_cons, List.foldl_nil]
    apply holds_perform (last op (List.mem_singleton_self op))
    · intro e edit sign
      exact ⟨ops, e, [], by rw [edit], sign⟩
    · intro a cell found
      rcases all a cell found with whole | ⟨gone, erases⟩
      · exact .inl whole
      · exact .inr ⟨gone, erases.append_singleton op⟩

/-- A formula that is entered between blanks and whose first reference is then lost is still a formula. -/
theorem whole_of_run_lost :
    let ops : List Operation := [.setInput ⟨1, 0⟩ " =A1 &\"x \"%\t".toList, .editLine ⟨.row, .delete, 0⟩]
    Opened (new {}) ∧ (∀ op ∈ ops, op.FromText) ∧
      ∃ cell, (ops.foldl perform (new {})).sheet[(⟨0, 0⟩ : Address)]? = some cell ∧ cell.Whole ∧
        cell.source? = some "=#REF! &\"x \"%".toList := by
  intro ops
  have opened : Opened (new {}) := ⟨{}, .inl rfl⟩
  have text : ∀ op ∈ ops, op.FromText := by
    intro op mem
    rcases List.mem_cons.1 mem with rfl | mem
    · trivial
    · rw [List.mem_singleton.1 mem]
      trivial
  have entered := @perform_setInput_new {} ⟨1, 0⟩ " =A1 &\"x \"%\t".toList (by decide +kernel) (by decide +kernel)
  have run : ops.foldl perform (new {}) = perform _ (.editLine ⟨.row, .delete, 0⟩) :=
    congrArg (fun d => perform d (.editLine ⟨.row, .delete, 0⟩)) entered
  have shown : (ops.foldl perform (new {})).sheet[(⟨0, 0⟩ : Address)]?.bind Cell.source? =
      some "=#REF! &\"x \"%".toList := by
    rw [run]
    decide +kernel
  obtain ⟨cell, found, source⟩ := Option.bind_eq_some_iff.1 shown
  refine ⟨opened, text, cell, found, ?_, source⟩
  rcases whole_of_run opened text _ cell found with whole | ⟨rfl, -⟩
  · exact whole
  · cases source

/-- A row that is inserted far below takes the sign of a formula away. -/
theorem whole_of_run_erased :
    let ops : List Operation := [.setInput ⟨0, 0⟩ ['='], .editLine ⟨.row, .insert, 5⟩]
    (∀ op ∈ ops, op.FromText) ∧ (ops.foldl perform (new {})).sheet[(⟨0, 0⟩ : Address)]? = some .erased ∧
      ¬Cell.erased.Whole := by
  intro ops
  have entered := @perform_setInput_new {} ⟨0, 0⟩ ['='] (by decide +kernel) (by decide +kernel)
  have run : ops.foldl perform (new {}) = perform _ (.editLine ⟨.row, .insert, 5⟩) :=
    congrArg (fun d => perform d (.editLine ⟨.row, .insert, 5⟩)) entered
  refine ⟨fun op mem => ?_, ?_, Cell.not_whole_erased⟩
  · rcases List.mem_cons.1 mem with rfl | mem
    · trivial
    · rw [List.mem_singleton.1 mem]
      trivial
  · rw [run]
    decide +kernel

end Document

end Spreadsheet
