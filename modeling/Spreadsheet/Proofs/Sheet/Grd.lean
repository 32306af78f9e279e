import Spreadsheet.Proofs.Number.Text
import Spreadsheet.Proofs.Reference
import Spreadsheet.Proofs.Sheet
import Spreadsheet.Proofs.Text
import Spreadsheet.Sheet.Grd

/-!
# Lines of text are read back

Each cell that holds something is written in a line of its own.  Such a line is read as that cell unless a line break
stands in what it holds; then it is two lines, and the second one may be read as anything.

* `Writable` — the cells that one line can hold.
* `readLine?_line` — the line of such a cell is read as that cell.
* `split_write`, `read_write` — a sheet of such cells is written in lines and read back without its empty cells.
-/

namespace Spreadsheet

/-- The sheet without the cells that hold nothing. -/
def Sheet.filled (s : Sheet) : Sheet :=
  s.filter fun _ cell => cell.content ≠ .empty

namespace Grd

open Text

variable {options : Formula.Options}

/-! ### Values -/

/-- The cells that one line can hold.  A text has no line break; a formula has none either, begins as a formula, has no
blanks at its ends and the tokens that it has under the options. -/
inductive Writable (options : Formula.Options) : Cell → Prop
  | text {value : List Char} : '\n' ∉ value → Writable options (.text value)
  | number (value : Number) : Writable options (.number value)
  | formula {source : List Char} : source.head? = some '=' → Trimmed source → '\n' ∉ source →
      Writable options (.formula options source)

theorem value?_formula (options : Formula.Options) (source : List Char) :
    value? (.formula options source) = some source := by
  cases split : Formula.tokenize options source <;> simp only [value?, Cell.formula, split]

theorem readValue_of_trimmed {value : List Char} (trimmed : Trimmed value) :
    readValue options (' ' :: value) = readValue options value := by
  have blank : trim (' ' :: value) = trim value := trim_cons_blank (by decide) value
  simp only [readValue, blank, trim_of_trimmed trimmed]

/-- A text that has been escaped has line breaks only where it had some before. -/
theorem not_mem_escape {value : List Char} (h : '\n' ∉ value) : '\n' ∉ escape value := by
  rw [escape, List.mem_flatMap]
  rintro ⟨c, mem, here⟩
  have other : '\n' ≠ c := fun same => h (same ▸ mem)
  split at here <;> simp [other] at here

theorem trimmed_quoted (value : List Char) : Trimmed ('"' :: escape value ++ ['"']) := by
  constructor
  · intro c mem
    obtain rfl : '"' = c := by simpa using mem
    decide
  · intro c mem
    obtain rfl : '"' = c := by simpa [List.getLast?_cons] using mem
    decide

theorem readValue_text (value : List Char) :
    readValue options ('"' :: escape value ++ ['"']) = .ok (.text value) := by
  have unquoted : Cell.unquoted? ('"' :: escape value ++ ['"']) = some (escape value) := by
    simp [Cell.unquoted?]
  simp only [readValue, trim_of_trimmed (trimmed_quoted value)]
  rw [if_neg (by simp), if_neg (by simp), unquoted]
  simp only [unescape_escape]

theorem isBlank_of_mem_text {n : Number} : ∀ c ∈ n.text, isBlank c = false := by
  intro c mem
  rcases n.mem_text c mem with digit | other
  · exact isBlank_of_isDigit digit
  · have none : "-.Nainf".toList.any isBlank = false := by decide
    exact Bool.eq_false_iff.2 (List.any_eq_false.1 none c other)

theorem readValue_number (n : Number) : readValue options n.text = .ok (.number n) := by
  have apart : ∀ c ∈ n.text, c ≠ '=' ∧ c ≠ '"' := by
    intro c mem
    rcases n.mem_text c mem with digit | other
    · constructor <;> rintro rfl <;> exact absurd digit (by decide)
    · constructor <;> rintro rfl <;> exact absurd other (by decide)
  have unquoted : Cell.unquoted? n.text = none := by
    rw [Cell.unquoted?]
    intro s eq
    exact (apart '"' (by simp [eq])).2 rfl
  have head : n.text.head? ≠ some '=' := fun head => (apart _ (List.mem_of_mem_head? head)).1 rfl
  simp only [readValue, trim_of_trimmed (trimmed_of_forall isBlank_of_mem_text), if_neg n.text_ne_nil, if_neg head,
    unquoted, n.read?_text]

/-- What is written for a cell is a trimmed text without a line break, and it is read as that cell. -/
theorem Writable.exists_value {cell : Cell} (h : Writable options cell) :
    ∃ value, value? cell = some value ∧ value ≠ [] ∧ '\n' ∉ value ∧ Trimmed value ∧
      readValue options value = .ok cell := by
  cases h with
  | @text value plain =>
    refine ⟨_, rfl, by simp, ?_, trimmed_quoted value, readValue_text value⟩
    simpa using not_mem_escape plain
  | number value =>
    refine ⟨_, rfl, value.text_ne_nil, fun mem => ?_, trimmed_of_forall isBlank_of_mem_text, readValue_number value⟩
    exact absurd (isBlank_of_mem_text '\n' mem) (by decide)
  | @formula source head trimmed plain =>
    have ne : source ≠ [] := by
      rintro rfl
      simp at head
    refine ⟨source, value?_formula options source, ne, plain, trimmed, ?_⟩
    simp only [readValue, trim_of_trimmed trimmed, if_neg ne, if_pos head]

/-! ### Lines -/

theorem trimmed_name (a : Address) : Trimmed a.name :=
  trimmed_of_forall fun c mem =>
    (a.isAlphanum_name c mem).elim isBlank_of_isAlpha isBlank_of_isDigit

/-- The line of a cell is read as that cell. -/
theorem readLine?_line {a : Address} {cell : Cell} {value : List Char} (row : a.row + 1 < indexBound)
    (column : a.column + 1 < indexBound) (ne : value ≠ []) (trimmed : Trimmed value)
    (read : readValue options value = .ok cell) :
    readLine? options (a.name ++ ':' :: ' ' :: value) = .ok (some (a, cell)) := by
  have whole : Trimmed (a.name ++ ':' :: ' ' :: value) := by
    have between := (trimmed_name a).append trimmed a.name_ne_nil ne [':', ' ']
    simpa using between
  have counts : ¬(a.name ++ ':' :: ' ' :: value = [] ∨ (a.name ++ ':' :: ' ' :: value).head? = some '#') := by
    rw [List.head?_append_of_ne_nil _ a.name_ne_nil]
    rintro (empty | mark)
    · simp at empty
    · exact Address.not_mem_name (by decide) a (List.mem_of_mem_head? mark)
  have plain : ∀ c ∈ a.name, decide (c ≠ ':') = true := fun c mem =>
    decide_eq_true fun same => Address.not_mem_name (c := ':') (by decide) a (same ▸ mem)
  simp only [readLine?, trim_of_trimmed whole, if_neg counts]
  rw [List.dropWhile_append_of_pos plain, List.takeWhile_append_of_pos plain,
    List.dropWhile_cons_of_neg (by simp), List.takeWhile_cons_of_neg (by simp), List.append_nil,
    trim_of_trimmed (trimmed_name a)]
  simp only [Address.read?_name row column, readValue_of_trimmed trimmed, read]
  rfl

/-- A place that has a name and a cell that one line can hold, or that holds nothing. -/
structure Fits (options : Formula.Options) (a : Address) (cell : Cell) : Prop where
  row : a.row + 1 < indexBound
  column : a.column + 1 < indexBound
  cell : cell.content = .empty ∨ Writable options cell

theorem line?_eq_none {a : Address} {cell : Cell} (h : cell.content = .empty) : line? a cell = none := by
  rw [line?, value?, h]
  rfl

theorem Writable.content_ne {cell : Cell} (h : Writable options cell) : cell.content ≠ .empty := by
  cases h with
  | text | number => simp [Cell.text, Cell.number]
  | formula =>
    rw [Cell.formula]
    split <;> simp

theorem Writable.exists_line {a : Address} {cell : Cell} (h : Writable options cell) (row : a.row + 1 < indexBound)
    (column : a.column + 1 < indexBound) :
    ∃ line, line? a cell = some line ∧ '\n' ∉ line ∧ readLine? options line = .ok (some (a, cell)) := by
  obtain ⟨value, eq, ne, plain, trimmed, read⟩ := h.exists_value
  refine ⟨_, by rw [line?, eq]; rfl, ?_, readLine?_line row column ne trimmed read⟩
  simp [Address.not_mem_name (c := '\n') (by decide) a, plain]

/-! ### Sheets -/

/-- The lines of cells put these cells into the sheet, one after another. -/
theorem readLines_lines {entries : List (Address × Cell)} (h : ∀ entry ∈ entries, Fits options entry.1 entry.2)
    (number : Nat) (s : Sheet) :
    readLines options number s ((entries.filterMap fun (a, cell) => line? a cell) ++ [[]]) =
      .ok (s.insertAll (entries.filter fun entry => entry.2.content ≠ .empty)) := by
  induction entries generalizing number s with
  | nil => rfl
  | cons entry entries ih =>
    obtain ⟨a, cell⟩ := entry
    obtain ⟨⟨row, column, empty | writable⟩, rest⟩ := List.forall_mem_cons.1 h
    · rw [List.filterMap_cons, List.filter_cons_of_neg (by simpa using empty)]
      simp only [line?_eq_none empty]
      exact ih rest number s
    · obtain ⟨line, eq, -, read⟩ := writable.exists_line row column
      rw [List.filterMap_cons, List.filter_cons_of_pos (by simpa using writable.content_ne)]
      simp only [eq, List.cons_append, readLines, read, Sheet.insertAll_cons]
      exact ih rest (number + 1) (s.insert a cell)

theorem insertAll_filled (s : Sheet) :
    (∅ : Sheet).insertAll (s.toList.filter fun entry => entry.2.content ≠ .empty) = s.filled := by
  refine Std.ExtTreeMap.ext_getElem? fun a => Option.ext fun cell => ?_
  have apart : (s.toList.filter fun entry => decide (entry.2.content ≠ .empty)).Pairwise fun x y => x.1 ≠ y.1 :=
    (Sheet.pairwise_toList s).filter _
  rw [Sheet.getElem?_insertAll apart, Sheet.filled, Std.ExtTreeMap.getElem?_filter', List.mem_filter,
    Std.ExtTreeMap.mem_toList_iff_getElem?_eq_some, Option.filter_eq_some_iff]
  simp

/-- The lines of such a sheet are found again, with an empty one behind the last. -/
theorem split_write {s : Sheet} (h : ∀ (a : Address) cell, s[a]? = some cell → Fits options a cell) :
    Text.split (· = '\n') (write s) = (header :: s.toList.filterMap fun (a, cell) => line? a cell) ++ [[]] := by
  refine split_lines (by decide) ?_
  have title : '\n' ∉ header := by decide
  refine List.forall_mem_cons.2 ⟨fun c hc => decide_eq_false fun same => title (same ▸ hc),
    fun line mem c hc => decide_eq_false fun same => ?_⟩
  obtain ⟨⟨a, cell⟩, listed, eq⟩ := List.mem_filterMap.1 mem
  obtain ⟨row, column, empty | writable⟩ := h a cell (Std.ExtTreeMap.mem_toList_iff_getElem?_eq_some.1 listed)
  · simp [line?_eq_none empty] at eq
  · obtain ⟨_, eq', none, -⟩ := writable.exists_line row column
    obtain rfl := Option.some.inj (eq.symm.trans eq')
    exact none (same ▸ hc)

/-- A sheet is read back without its empty cells. -/
theorem read_write {s : Sheet} (h : ∀ (a : Address) cell, s[a]? = some cell → Fits options a cell) :
    read options (write s) = .ok s.filled := by
  have fits : ∀ entry ∈ s.toList, Fits options entry.1 entry.2 := fun entry mem =>
    h entry.1 entry.2 (Std.ExtTreeMap.mem_toList_iff_getElem?_eq_some.1 mem)
  have comment : readLine? options header = .ok none := rfl
  rw [read, split_write h, List.cons_append, readLines, comment]
  simp only [readLines_lines fits, insertAll_filled]

end Grd

end Spreadsheet
