import Spreadsheet.Proofs.Sheet
import Spreadsheet.Proofs.Text
import Spreadsheet.Sheet.Csv
import Spreadsheet.Sheet.Grd

/-!
# Lines read as a table

Sheets are written as lines, and the first line is a header.  A table may hold anything, so lines can be read as a table
as well: each line is a record, or several of them are if a quote stays open, and the header is the first field.

* `records_line` — a line without marks is a record of one field.
* `getElem?_insertAll_cells` — the first field of a table stands in the corner.
* `getElem?_insertAll_cells_write` — a sheet that is read as a table has its header in the corner.
-/

namespace Spreadsheet.Csv

variable {options : Formula.Options}

/-! ### Records -/

theorem scan_inside (p : Progress) (c : Char) (s : List Char) : scan p true (c :: s) =
    if c ≠ '"' then scan (p.add c) true s
    else
      match s with
      | '"' :: s => scan (p.add '"') true s
      | s => scan p false s := by
  conv_lhs => unfold scan
  rfl

theorem scan_outside (p : Progress) (c : Char) (s : List Char) : scan p false (c :: s) =
    if c = '"' then scan { p with quoted := true } true s
    else if c = ',' then scan p.endField false s
    else if c = '\n' then scan p.endRecord false s
    else if c = '\r' ∧ s.head? = some '\n' then scan p false s
    else scan (p.add c) false s := by
  conv_lhs => unfold scan
  rfl

/-- Reading on adds records and changes none. -/
theorem suffix_scan (p : Progress) (inside : Bool) (s : List Char) : p.records <:+ (scan p inside s).records := by
  -- A doubled quote takes two characters at once, so the induction is on the length.
  induction length : s.length using Nat.strongRecOn generalizing p inside s with
  | ind n ih =>
    cases s with
    | nil => exact List.suffix_rfl
    | cons c s =>
      rw [List.length_cons] at length
      have rest (q : Progress) (inside : Bool) : q.records <:+ (scan q inside s).records :=
        ih s.length (by omega) q inside s rfl
      cases inside with
      | true =>
        rw [scan_inside]
        split
        · exact rest (p.add c) true
        · split
          · next s =>
            rw [List.length_cons] at length
            exact ih s.length (by omega) (p.add '"') true s rfl
          · exact rest p false
      | false =>
        rw [scan_outside]
        split
        · exact rest { p with quoted := true } true
        · split
          · exact rest p.endField false
          · split
            · exact (List.suffix_cons _ _).trans (rest p.endRecord false)
            · split
              · exact rest p false
              · exact rest (p.add c) false

theorem prefix_finish (p : Progress) : p.records.reverse <+: p.finish := by
  unfold Progress.finish
  split
  · exact List.prefix_rfl
  · rw [List.reverse_prefix]
    exact List.suffix_cons _ _

/-- The characters that have a meaning in a table. -/
def marks : List Char := ['"', ',', '\n', '\r']

/-- Whether a text has no marks is decided along the text, and not over all characters. -/
theorem plain_of_all {line : List Char} (h : (line.all fun c => decide (c ∉ marks)) = true) : ∀ c ∈ line, c ∉ marks :=
  fun c mem => of_decide_eq_true (List.all_eq_true.1 h c mem)

/-- All other characters belong to the field. -/
theorem scan_append {line : List Char} (plain : ∀ c ∈ line, c ∉ marks) (p : Progress) (s : List Char) :
    scan p false (line ++ s) = scan { p with current := line.reverse ++ p.current } false s := by
  induction line generalizing p with
  | nil => rfl
  | cons c line ih =>
    obtain ⟨here, behind⟩ := List.forall_mem_cons.1 plain
    obtain ⟨quote, comma, ending, carriage⟩ : c ≠ '"' ∧ c ≠ ',' ∧ c ≠ '\n' ∧ c ≠ '\r' := by simpa [marks] using here
    rw [List.cons_append, scan_outside, if_neg quote, if_neg comma, if_neg ending,
      if_neg (fun h => carriage h.1), ih behind, Progress.add, List.reverse_cons, List.append_assoc,
      List.singleton_append]

/-- A line without marks is a record of one field. -/
theorem records_line {line : List Char} (plain : ∀ c ∈ line, c ∉ marks) (s : List Char) :
    ∃ more, records (line ++ '\n' :: s) = [Text.trim line] :: more := by
  have first : scan .start false (line ++ '\n' :: s) = scan ⟨[[Text.trim line]], [], [], false⟩ false s := by
    rw [scan_append plain, scan_outside, if_neg (by decide), if_neg (by decide), if_pos rfl]
    simp [Progress.endRecord, Progress.endField, Progress.start]
  have kept : [[Text.trim line]] <+: records (line ++ '\n' :: s) := by
    rw [records, first]
    exact (List.reverse_prefix.2 (suffix_scan ⟨[[Text.trim line]], [], [], false⟩ false s)).trans (prefix_finish _)
  obtain ⟨more, eq⟩ := kept
  exact ⟨more, eq.symm⟩

/-! ### The corner -/

/-- The cells of a record are those of its fields, from its first address to the right. -/
theorem mem_recordCells_iff {a b : Address} {fields : List (List Char)} {made : Cell} :
    (b, made) ∈ recordCells options a fields ↔
      ∃ j field, fields[j]? = some field ∧ field ≠ [] ∧ b = ⟨a.row, a.column + j⟩ ∧ made = cell options field := by
  rw [recordCells, List.mem_filterMap]
  constructor
  · rintro ⟨⟨field, column⟩, listed, entry⟩
    obtain ⟨level, found⟩ := List.mk_mem_zipIdx_iff_le_and_getElem?_sub.1 listed
    dsimp only at entry
    split at entry
    · cases entry
    · next ne =>
      cases entry
      exact ⟨column - a.column, field, found, ne, by rw [Nat.add_sub_cancel' level], rfl⟩
  · rintro ⟨j, field, found, ne, rfl, rfl⟩
    refine ⟨(field, a.column + j), List.mk_mem_zipIdx_iff_le_and_getElem?_sub.2 ⟨Nat.le_add_right _ _, ?_⟩, if_neg ne⟩
    rw [Nat.add_sub_cancel_left, found]

/-- The cells of a record stand in its row. -/
theorem row_of_mem_recordCells {a : Address} {fields : List (List Char)} {entry : Address × Cell}
    (h : entry ∈ recordCells options a fields) : entry.1.row = a.row := by
  obtain ⟨_, _, -, -, place, -⟩ := mem_recordCells_iff.1 h
  rw [place]

/-- If the first record is a single field, its cell is the only one in the corner. -/
theorem exists_cells_of_records {corner : Address} {text field : List Char} {more : List (List (List Char))}
    (h : records text = [field] :: more) (ne : field ≠ []) :
    ∃ rest, cells options corner text = (corner, cell options field) :: rest ∧ ∀ entry ∈ rest, entry.1 ≠ corner := by
  have record : recordCells options corner [field] = [(corner, cell options field)] := by simp [recordCells, ne]
  rw [cells, h, List.zipIdx_cons, List.flatMap_cons]
  refine ⟨_, congrArg (· ++ _) record, fun entry mem same => ?_⟩
  obtain ⟨⟨fields, row⟩, listed, here⟩ := List.mem_flatMap.1 mem
  have later := (List.mem_zipIdx listed).1
  have level := row_of_mem_recordCells here
  rw [same] at level
  exact absurd (level ▸ later) (Nat.not_succ_le_self _)

/-- The first field of a table stands in the corner, whatever stood there before. -/
theorem getElem?_insertAll_cells {corner : Address} {text field : List Char} {more : List (List (List Char))}
    (h : records text = [field] :: more) (ne : field ≠ []) (s : Sheet) :
    (s.insertAll (cells options corner text))[corner]? = some (cell options field) := by
  obtain ⟨rest, first, others⟩ := @exists_cells_of_records options corner _ _ _ h ne
  rw [first, Sheet.insertAll_cons, Sheet.getElem?_insertAll_of_ne others, Std.ExtTreeMap.getElem?_insert_self]

theorem cell_header (options : Formula.Options) : cell options Grd.header = .text Grd.header := by
  have ne : Grd.header ≠ [] := by decide
  have blank : hasOuterBlank Grd.header = false := by decide
  have head : Grd.header.head? ≠ some '=' := by decide
  have zero : hasLeadingZero Grd.header = false := by decide
  have read : Number.read? Grd.header = none := by decide +kernel
  simp only [cell, if_neg ne, blank, if_neg head, zero, read]
  rfl

/-- A sheet that has been written and is read as a table has the header in the corner, and not the cell that it had. -/
theorem getElem?_insertAll_cells_write (options : Formula.Options) (corner : Address) (s written : Sheet) :
    (s.insertAll (cells options corner (Grd.write written)))[corner]? = some (.text Grd.header) := by
  have plain : ∀ c ∈ Grd.header, c ∉ marks := plain_of_all (by decide)
  have trimmed : Text.trim Grd.header = Grd.header := by decide
  obtain ⟨rest, whole⟩ : ∃ rest, Grd.write written = Grd.header ++ '\n' :: rest := by
    rw [Grd.write, List.flatMap_cons, List.append_assoc, List.singleton_append]
    exact ⟨_, rfl⟩
  obtain ⟨more, first⟩ := records_line plain rest
  rw [whole, getElem?_insertAll_cells first (by rw [trimmed]; decide), trimmed, cell_header]

end Spreadsheet.Csv
