import Spreadsheet.Proofs.Formula.Cutting
import Spreadsheet.Proofs.Sheet.Csv

/-!
# Tables that are written field by field

A table can be written in many ways: each field bare or between quotes, each record with one of two endings, and the
last record without an ending.  Whichever way is taken, the same fields are read again, and each field that is not
empty has its cell at its own distance from the corner.

* `FieldText`, `RecordText`, `Ending`, `TableText` — the texts of a field, of a record, of a table.
* `FieldText.exists_scan`, `RecordText.exists_scan`, `TableText.finish_scan` — what has been read behind each of them.
* `records_of_tableText` — **a table is read as it was written.**
* `mem_cells_iff`, `pairwise_cells`, `length_cells` — the cells of a text, row by row, one for each field.
-/

namespace Spreadsheet.Csv

open Formula (double double_cons)

/-! ### What is written -/

/-- The texts of a field.  Any field can stand between quotes, and its own quotes are doubled then.  Without quotes it
must have no mark in it and no blank around it. -/
inductive FieldText (field : List Char) : List Char → Prop where
  | bare (plain : ∀ c ∈ field, c ∉ marks) (trimmed : Text.trim field = field) : FieldText field field
  | quoted : FieldText field ('"' :: double '"' field ++ ['"'])

/-- The texts of a record: its fields, at least one, with commas between them. -/
inductive RecordText : List (List Char) → List Char → Prop where
  | single {field text : List Char} (first : FieldText field text) : RecordText [field] text
  | cons {field text : List Char} {fields : List (List Char)} {texts : List Char} (first : FieldText field text)
      (others : RecordText fields texts) : RecordText (field :: fields) (text ++ ',' :: texts)

/-- The endings of a record. -/
inductive Ending : List Char → Prop where
  | lineFeed : Ending ['\n']
  | carriageReturn : Ending ['\r', '\n']

/-- The texts of a table: its records with their endings.  The last record may go without an ending if there is anything
to be seen of it. -/
inductive TableText : List (List (List Char)) → List Char → Prop where
  | nil : TableText [] []
  | last {record : List (List Char)} {text : List Char} (whole : RecordText record text) (visible : text ≠ []) :
      TableText [record] text
  | cons {record : List (List Char)} {text ending texts : List Char} {table : List (List (List Char))}
      (whole : RecordText record text) (ended : Ending ending) (others : TableText table texts) :
      TableText (record :: table) (text ++ ending ++ texts)

/-! ### What is read -/

/-- Between quotes a doubled text is read up to the quote behind it, and without the doubling. -/
theorem scan_double (field : List Char) (p : Progress) {s : List Char} (single : s.head? ≠ some '"') :
    scan p true (double '"' field ++ '"' :: s) = scan { p with current := field.reverse ++ p.current } false s := by
  induction field generalizing p with
  | nil =>
    rw [double, List.flatMap_nil, List.nil_append, scan_inside, if_neg (by decide)]
    split
    · exact absurd rfl single
    · rfl
  | cons c field ih =>
    rw [double_cons, List.reverse_cons, List.append_assoc, List.append_assoc]
    split
    · next quote =>
      subst quote
      exact ih (p.add '"')
    · next other =>
      rw [List.singleton_append, scan_inside, if_pos other]
      exact ih (p.add c)

/-- Behind the text of a field only the field has to be ended.  What has been read of it is empty only if its text is. -/
theorem FieldText.exists_scan {field text : List Char} (h : FieldText field text) (records : List (List (List Char)))
    (fields : List (List Char)) {s : List Char} (single : s.head? ≠ some '"') :
    ∃ current quoted,
      scan ⟨records, fields, [], false⟩ false (text ++ s) = scan ⟨records, fields, current, quoted⟩ false s ∧
      Progress.endField ⟨records, fields, current, quoted⟩ = ⟨records, field :: fields, [], false⟩ ∧
      (current = [] → quoted = false → text = []) := by
  cases h with
  | bare plain trimmed =>
    refine ⟨field.reverse, false, ?_, ?_, fun empty _ => List.reverse_eq_nil_iff.1 empty⟩
    · rw [scan_append plain, List.append_nil]
    · simp [Progress.endField, trimmed]
  | quoted =>
    refine ⟨field.reverse, true, ?_, ?_, fun _ bare => by cases bare⟩
    · rw [List.cons_append, List.cons_append, List.append_assoc, List.singleton_append, scan_outside, if_pos rfl,
        scan_double field _ single, List.append_nil]
    · simp [Progress.endField]

/-- Behind the text of a record only the record has to be ended. -/
theorem RecordText.exists_scan {record : List (List Char)} {text : List Char} (h : RecordText record text)
    (records : List (List (List Char))) (fields : List (List Char)) {s : List Char} (single : s.head? ≠ some '"') :
    ∃ p : Progress, scan ⟨records, fields, [], false⟩ false (text ++ s) = scan p false s ∧
      p.endRecord = ⟨(fields.reverse ++ record) :: records, [], [], false⟩ ∧
      (p.current = [] ∧ p.quoted = false ∧ p.fields = [] → text = [] ∧ fields = []) := by
  induction h generalizing fields with
  | @single field text first =>
    obtain ⟨current, quoted, read, ended, visible⟩ := first.exists_scan records fields single
    refine ⟨_, read, ?_, fun ⟨empty, bare, alone⟩ => ⟨visible empty bare, alone⟩⟩
    rw [Progress.endRecord, ended, List.reverse_cons]
  | @cons field text others texts first _ ih =>
    obtain ⟨current, quoted, read, ended, -⟩ := first.exists_scan records fields
      (show (',' :: (texts ++ s)).head? ≠ some '"' by simp)
    obtain ⟨p, onward, complete, visible⟩ := ih (field :: fields)
    refine ⟨p, ?_, ?_, fun nothing => absurd (visible nothing).2 (List.cons_ne_nil _ _)⟩
    · rw [List.append_assoc, List.cons_append, read, scan_outside, if_neg (by decide), if_pos rfl, ended, onward]
    · rw [complete, List.reverse_cons, List.append_assoc, List.singleton_append]

/-- An ending ends the record. -/
theorem Ending.scan_append {ending : List Char} (h : Ending ending) (p : Progress) (s : List Char) :
    scan p false (ending ++ s) = scan p.endRecord false s := by
  have feed : scan p false ('\n' :: s) = scan p.endRecord false s := by
    rw [scan_outside, if_neg (by decide), if_neg (by decide), if_pos rfl]
  cases h with
  | lineFeed => exact feed
  | carriageReturn =>
    rw [List.cons_append, scan_outside, if_neg (by decide), if_neg (by decide), if_neg (by decide),
      if_pos ⟨rfl, rfl⟩]
    exact feed

theorem Ending.head?_append_ne {ending : List Char} (h : Ending ending) (s : List Char) :
    (ending ++ s).head? ≠ some '"' := by
  cases h <;> simp

/-- Behind the text of a table its records have been added to those in front of it. -/
theorem TableText.finish_scan {table : List (List (List Char))} {text : List Char} (h : TableText table text)
    (records : List (List (List Char))) :
    (scan ⟨records, [], [], false⟩ false text).finish = records.reverse ++ table := by
  induction h generalizing records with
  | nil => simp [scan, Progress.finish]
  | @last record text whole visible =>
    obtain ⟨p, read, complete, empty⟩ := whole.exists_scan records [] (show [].head? ≠ some '"' by simp)
    rw [List.append_nil, scan] at read
    rw [read, Progress.finish, if_neg fun nothing => visible (empty nothing).1, complete]
    exact List.reverse_cons
  | @cons record text ending texts table whole ended _ ih =>
    obtain ⟨p, read, complete, -⟩ := whole.exists_scan records [] (ended.head?_append_ne texts)
    rw [List.append_assoc, read, ended.scan_append, complete, ih, List.reverse_cons, List.append_assoc]
    rfl

/-- **A table is read as it was written.** -/
theorem records_of_tableText {table : List (List (List Char))} {text : List Char} (h : TableText table text) :
    records text = table :=
  h.finish_scan []

/-! ### Where the cells stand -/

variable {options : Formula.Options} {corner : Address} {text : List Char}

/-- A field that is not empty stands at an address when the first field of the table stands in the corner. -/
def Puts (table : List (List (List Char))) (corner : Address) (field : List Char) (a : Address) : Prop :=
  field ≠ [] ∧ ∃ i j record, table[i]? = some record ∧ record[j]? = some field ∧
    a = ⟨corner.row + i, corner.column + j⟩

/-- The cells of a text are those of its fields. -/
theorem mem_cells_iff {a : Address} {made : Cell} :
    (a, made) ∈ cells options corner text ↔
      ∃ field, Puts (records text) corner field a ∧ made = cell options field := by
  constructor
  · intro mem
    obtain ⟨⟨record, row⟩, listed, here⟩ := List.mem_flatMap.1 mem
    obtain ⟨level, found⟩ := List.mk_mem_zipIdx_iff_le_and_getElem?_sub.1 listed
    obtain ⟨j, field, inside, ne, rfl, rfl⟩ := mem_recordCells_iff.1 here
    exact ⟨field, ⟨ne, row - corner.row, j, record, found, inside, by rw [Nat.add_sub_cancel' level]⟩, rfl⟩
  · rintro ⟨field, ⟨ne, i, j, record, found, inside, rfl⟩, rfl⟩
    refine List.mem_flatMap.2 ⟨(record, corner.row + i), ?_, mem_recordCells_iff.2 ⟨j, field, inside, ne, rfl, rfl⟩⟩
    exact List.mk_mem_zipIdx_iff_le_and_getElem?_sub.2 ⟨Nat.le_add_right _ _, by rw [Nat.add_sub_cancel_left, found]⟩

/-- Numbered elements stand in the order of their numbers. -/
theorem pairwise_zipIdx {α : Type} (l : List α) (n : Nat) : (l.zipIdx n).Pairwise fun x y => x.2 < y.2 := by
  rw [← List.pairwise_map, List.zipIdx_map_snd]
  exact List.pairwise_lt_range'

theorem pairwise_recordCells (a : Address) (fields : List (List Char)) :
    (recordCells options a fields).Pairwise fun x y => x.1.Before y.1 := by
  refine (pairwise_zipIdx fields a.column).filterMap _ fun x y less x' madeX y' madeY => ?_
  dsimp only at madeX madeY
  split at madeX
  · cases madeX
  · split at madeY
    · cases madeY
    · cases madeX
      cases madeY
      exact .inr ⟨rfl, less⟩

/-- The cells of a text are listed row by row, and no address twice. -/
theorem pairwise_cells (options : Formula.Options) (corner : Address) (text : List Char) :
    (cells options corner text).Pairwise fun x y => x.1.Before y.1 := by
  rw [cells, List.pairwise_flatMap]
  refine ⟨fun x _ => pairwise_recordCells _ _, (pairwise_zipIdx _ _).imp fun less x memX y memY => .inl ?_⟩
  rw [row_of_mem_recordCells memX, row_of_mem_recordCells memY]
  exact less

theorem length_recordCells (options : Formula.Options) (a : Address) (fields : List (List Char)) :
    (recordCells options a fields).length = fields.countP (· ≠ []) := by
  have made (x : List Char × Nat) :
      (if x.1 = [] then none else some ((⟨a.row, x.2⟩ : Address), cell options x.1)).isSome = decide (x.1 ≠ []) := by
    split <;> simp [*]
  calc (recordCells options a fields).length
      = (fields.zipIdx a.column).countP ((fun field => decide (field ≠ [])) ∘ Prod.fst) := by
        rw [recordCells, List.length_filterMap_eq_countP]
        exact List.countP_congr fun x _ => by rw [made x]; rfl
    _ = fields.countP (· ≠ []) := by rw [← List.countP_map, List.zipIdx_map_fst]

/-- There is one cell for each field that is not empty. -/
theorem length_cells (options : Formula.Options) (corner : Address) (text : List Char) :
    (cells options corner text).length = (records text).flatten.countP (· ≠ []) := by
  calc (cells options corner text).length
      = ((((records text).zipIdx corner.row).map Prod.fst).map (List.countP (· ≠ []))).sum := by
        rw [cells, List.length_flatMap, List.map_map]
        simp only [length_recordCells, Function.comp_def]
    _ = (records text).flatten.countP (· ≠ []) := by rw [List.zipIdx_map_fst, List.countP_flatten]

end Spreadsheet.Csv
