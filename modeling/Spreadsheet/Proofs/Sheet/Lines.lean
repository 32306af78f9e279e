import Spreadsheet.Proofs.Sheet
import Spreadsheet.Proofs.Text
import Spreadsheet.Sheet.Grd

/-!
# What is read from lines

Each cell of a sheet that has been read comes from one line, in which its address has been read from a name and the cell
from a value.

* `readValue_cases` — the four kinds of values.
* `exists_of_readLine?` — the name and the value in a line.
* `forall_of_readLines` — what holds of the cell of each line holds of every cell of the sheet.
-/

namespace Spreadsheet.Grd

variable {options : Formula.Options}

/-- The four kinds of values that are read. -/
theorem readValue_cases {options : Formula.Options} {written : List Char} {cell : Cell}
    (h : readValue options written = .ok cell) :
    cell = .empty ∨ (∃ quoted, Cell.unquoted? (Text.trim written) = some quoted ∧ cell = .text (unescape quoted)) ∨
      (∃ value, cell = .number value) ∨
      ((Text.trim written).head? = some '=' ∧ cell = .formula options (Text.trim written)) := by
  simp only [readValue] at h
  split at h
  · exact .inl (Except.ok.inj h).symm
  · split at h
    · next head => exact .inr (.inr (.inr ⟨head, (Except.ok.inj h).symm⟩))
    · split at h
      · next quoted unquoted => exact .inr (.inl ⟨quoted, unquoted, (Except.ok.inj h).symm⟩)
      · split at h
        · exact .inr (.inr (.inl ⟨_, (Except.ok.inj h).symm⟩))
        · cases h

/-- A line that gives a cell consists of a name and a value. -/
theorem exists_of_readLine? {line : List Char} {a : Address} {cell : Cell}
    (h : readLine? options line = .ok (some (a, cell))) :
    ∃ name value, Address.read? name = some a ∧ (∀ c ∈ value, c ∈ line) ∧ readValue options value = .ok cell := by
  simp only [readLine?] at h
  split at h
  · cases h
  · split at h
    · cases h
    · next colon value behind =>
      split at h
      · cases h
      · next named =>
        have inside (c : Char) (mem : c ∈ value) : c ∈ line :=
          Text.mem_of_mem_trim ((List.dropWhile_sublist _).mem (behind ▸ List.mem_cons_of_mem colon mem))
        cases read : readValue options value with
        | error fault =>
          rw [read] at h
          cases h
        | ok made =>
          rw [read] at h
          cases h
          exact ⟨_, value, named, inside, read⟩

/-- What holds of the cell of each line holds of every cell of the sheet. -/
theorem forall_of_readLines {P : Address → Cell → Prop} {lines : List (List Char)} {number : Nat} {s t : Sheet}
    (line : ∀ line ∈ lines, ∀ a cell, readLine? options line = .ok (some (a, cell)) → P a cell)
    (all : ∀ (a : Address) cell, s[a]? = some cell → P a cell) (h : readLines options number s lines = .ok t) :
    ∀ (a : Address) cell, t[a]? = some cell → P a cell := by
  induction lines generalizing number s with
  | nil =>
    cases h
    exact all
  | cons first lines ih =>
    obtain ⟨here, behind⟩ := List.forall_mem_cons.1 line
    rw [readLines] at h
    split at h
    · cases h
    · exact ih behind all h
    · next a cell read =>
      refine ih behind (fun b other found => ?_) h
      rw [Std.ExtTreeMap.getElem?_insert] at found
      split at found
      · next same =>
        obtain rfl := Address.compare_eq_iff.1 same
        exact Option.some.inj found ▸ here a cell read
      · exact all b other found

end Spreadsheet.Grd
