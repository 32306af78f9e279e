import Spreadsheet.Proofs.Formula.Lexeme
import Spreadsheet.Proofs.Sheet.Grd
import Spreadsheet.Proofs.Sheet.Lines

/-!
# The normal form of lines

More is read than is written: names in small letters, with dollar signs or zeros in front, several lines for one cell,
blanks and carriage returns around anything, double quotes and backslashes that have none in front.  What has been read
is still no more than lines can hold, so it is written as lines that are read as the same cells, and these lines are all
that is ever written for them.

* `fits_of_read` — every cell that has been read fits into a line of its own.
* `Lists` — lines that list the cells of a sheet row by row.
* `read_write_of_read` — the lines that are written for what has been read are its normal form.
-/

namespace Spreadsheet

theorem Cell.mem_of_unquoted? {s value : List Char} {c : Char} (h : unquoted? s = some value) (mem : c ∈ value) :
    c ∈ s := by
  unfold unquoted? at h
  split at h
  · next s =>
    obtain ⟨-, eq⟩ := Option.ite_none_right_eq_some.1 h
    obtain rfl := Option.some.inj eq
    exact List.mem_cons_of_mem _ (List.dropLast_subset s mem)
  · cases h

namespace Grd

open Text

variable {options : Formula.Options}

/-! ### What lines can hold -/

theorem mem_of_mem_unescapeOnto {done s : List Char} {c : Char} (h : c ∈ unescapeOnto done s) : c ∈ done ∨ c ∈ s := by
  fun_induction unescapeOnto done s <;> grind

/-- Taking backslashes off adds nothing. -/
theorem mem_of_mem_unescape {s : List Char} {c : Char} (h : c ∈ unescape s) : c ∈ s :=
  (mem_of_mem_unescapeOnto h).resolve_left List.not_mem_nil

/-- What is read from a value without a line break can be written as one. -/
theorem writable_of_readValue {written : List Char} {cell : Cell} (plain : '\n' ∉ written)
    (h : readValue options written = .ok cell) : cell.content = .empty ∨ Writable options cell := by
  have inside : '\n' ∉ trim written := mt mem_of_mem_trim plain
  rcases readValue_cases h with rfl | ⟨quoted, unquoted, rfl⟩ | ⟨value, rfl⟩ | ⟨head, rfl⟩
  · exact .inl rfl
  · exact .inr (.text fun mem => inside (Cell.mem_of_unquoted? unquoted (mem_of_mem_unescape mem)))
  · exact .inr (.number value)
  · exact .inr (.formula head (trimmed_trim written) inside)

theorem fits_of_readLine? {line : List Char} {a : Address} {cell : Cell} (plain : '\n' ∉ line)
    (h : readLine? options line = .ok (some (a, cell))) : Fits options a cell := by
  obtain ⟨name, value, named, inside, read⟩ := exists_of_readLine? h
  obtain ⟨row, column⟩ := Address.lt_of_read? named
  exact ⟨row, column, writable_of_readValue (mt (inside _) plain) read⟩

/-- Every cell that has been read fits into a line of its own. -/
theorem fits_of_read {text : List Char} {s : Sheet} (h : read options text = .ok s) :
    ∀ (a : Address) cell, s[a]? = some cell → Fits options a cell := by
  refine forall_of_readLines (fun line mem a cell read => fits_of_readLine? (fun broken => ?_) read) (by simp) h
  exact of_decide_eq_false (eq_false_of_mem_split line mem '\n' broken) rfl

/-! ### What is written -/

/-- Cells that hold nothing have no lines. -/
theorem lines_filled (s : Sheet) : (s.filled.toList.filterMap fun (a, cell) => line? a cell) =
    s.toList.filterMap fun (a, cell) => line? a cell := by
  rw [Sheet.filled, Std.ExtTreeMap.toList_filter, List.filterMap_filter]
  refine List.filterMap_congr fun entry _ => ?_
  by_cases empty : entry.2.content = .empty
  · simp [empty, line?_eq_none]
  · simp [empty]

theorem write_filled (s : Sheet) : write s.filled = write s := by
  rw [write, lines_filled, write]

/-- The lines list the cells of a sheet that hold something, each of them once and row by row. -/
def Lists (s : Sheet) (lines : List (List Char)) : Prop :=
  ∃ entries : List (Address × Cell), entries.Pairwise (fun x y => x.1.Before y.1) ∧
    (∀ a cell, (a, cell) ∈ entries ↔ s[a]? = some cell ∧ cell.content ≠ .empty) ∧
    List.Forall₂ (fun entry line => line? entry.1 entry.2 = some line) entries lines

theorem exists_value? {cell : Cell} (h : cell.content ≠ .empty) : ∃ value, value? cell = some value := by
  rw [value?]
  split
  · next empty => exact absurd empty h
  all_goals exact ⟨_, rfl⟩

/-- Cells that hold something have a line each. -/
theorem forall₂_line? {entries : List (Address × Cell)} (h : ∀ entry ∈ entries, entry.2.content ≠ .empty) :
    List.Forall₂ (fun entry line => line? entry.1 entry.2 = some line) entries
      (entries.filterMap fun (a, cell) => line? a cell) := by
  induction entries with
  | nil => exact .nil
  | cons entry entries ih =>
    obtain ⟨a, cell⟩ := entry
    obtain ⟨here, behind⟩ := List.forall_mem_cons.1 h
    obtain ⟨value, eq⟩ := exists_value? here
    have line : line? a cell = some (a.name ++ ':' :: ' ' :: value) := by rw [line?, eq, Option.map_some]
    rw [List.filterMap_cons_some (by exact line)]
    exact .cons line (ih behind)

/-- The lines behind the header list the cells of the sheet. -/
theorem lists_lines (s : Sheet) : Lists s (s.filled.toList.filterMap fun (a, cell) => line? a cell) := by
  have found (a : Address) (cell : Cell) :
      (a, cell) ∈ s.filled.toList ↔ s[a]? = some cell ∧ cell.content ≠ .empty := by
    rw [Std.ExtTreeMap.mem_toList_iff_getElem?_eq_some, Sheet.filled, Std.ExtTreeMap.getElem?_filter',
      Option.filter_eq_some_iff, decide_eq_true_iff]
  refine ⟨s.filled.toList, ?_, found, forall₂_line? fun entry mem => ((found _ _).1 mem).2⟩
  exact Std.ExtTreeMap.ordered_keys_toList.imp Address.compare_eq_lt_iff.1

/-- **What is written for a text that has been read is its normal form.** Whatever text is accepted, however its cells
are spelled and how often they occur: what is written for its cells is accepted and read as the same cells but for the
empty ones, the same is written for these again, and it is a header and a line for each cell that holds something, row
by row. -/
theorem read_write_of_read {text : List Char} {s : Sheet} (h : read options text = .ok s) :
    read options (write s) = .ok s.filled ∧ write s.filled = write s ∧
      ∃ lines, Text.split (· = '\n') (write s) = header :: lines ++ [[]] ∧ Lists s lines := by
  have fits := fits_of_read h
  have kept : ∀ (a : Address) cell, s.filled[a]? = some cell → Fits options a cell := by
    intro a cell found
    rw [Sheet.filled, Std.ExtTreeMap.getElem?_filter', Option.filter_eq_some_iff] at found
    exact fits a cell found.1
  refine ⟨read_write fits, write_filled s, _, ?_, lists_lines s⟩
  rw [← write_filled]
  exact split_write kept

/-- The later of two lines counts, dollar signs and zeros go, and a backslash that stood for itself gets another one. -/
theorem read_write_of_read_spelling :
    ∃ s, read {} "b1:\n $a$01 : \"x\" \r\nA1:\"a\\b\"\"\nc2: 1e1\nB2: = a1\n".toList = .ok s ∧
      write s = "# Sheetlex Sheet\nA1: \"a\\\\b\\\"\"\nB2: = a1\nC2: 10\n".toList ∧
      read {} (write s) = .ok s.filled ∧ write s.filled = write s := by
  have written : (read {} "b1:\n $a$01 : \"x\" \r\nA1:\"a\\b\"\"\nc2: 1e1\nB2: = a1\n".toList).toOption.map write =
      some "# Sheetlex Sheet\nA1: \"a\\\\b\\\"\"\nB2: = a1\nC2: 10\n".toList := by decide +kernel
  obtain ⟨s, ok, eq⟩ := Option.map_eq_some_iff.1 written
  have accepted := Formula.toOption_eq_some_iff.1 ok
  obtain ⟨again, same, -⟩ := read_write_of_read accepted
  exact ⟨s, accepted, eq, again, same⟩

end Grd

end Spreadsheet
