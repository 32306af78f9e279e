import Spreadsheet.Document.Files
import Spreadsheet.Proofs.Disk
import Spreadsheet.Proofs.Sheet.Table

/-!
# Tables that are imported

Importing a table lays its cells over the sheet.  What stood under a field is replaced, but not under an empty one: all
other cells stay as they were.

* `importCsv_of_read` — an import puts in the cells of a file.
* `getElem?_insertAll_of_puts`, `getElem?_insertAll_of_not_puts` — what is found in the sheet afterwards.
* `importCsv_of_tableText` — **what is imported of a table, however it was written.**
-/

namespace Spreadsheet.Document

variable {files : Files} {path : Path} {corner : Address}

/-- An import puts in all cells of a file and gives their number. -/
theorem importCsv_of_read (d : Document) {text : List Char} (read : files.read sheetFileLimit path = .ok text) :
    (d.importCsv files path corner).1 = .ok (Csv.cells d.options corner text).length ∧
      (d.importCsv files path corner).2.sheet = d.sheet.insertAll (Csv.cells d.options corner text) := by
  simp only [importCsv, read]
  split
  · next none => rw [none]; exact ⟨rfl, rfl⟩
  · exact ⟨rfl, rfl⟩

/-! ### What is found in the sheet -/

variable {options : Formula.Options} {text : List Char} {a : Address}

/-- Under a field that is not empty stands its cell. -/
theorem getElem?_insertAll_of_puts (s : Sheet) {field : List Char}
    (put : Csv.Puts (Csv.records text) corner field a) :
    (s.insertAll (Csv.cells options corner text))[a]? = some (Csv.cell options field) := by
  have apart : (Csv.cells options corner text).Pairwise fun x y => x.1 ≠ y.1 :=
    (Csv.pairwise_cells options corner text).imp Address.Before.ne
  exact (Sheet.getElem?_insertAll apart).2 (.inl (Csv.mem_cells_iff.2 ⟨field, put, rfl⟩))

/-- Elsewhere nothing has changed. -/
theorem getElem?_insertAll_of_not_puts (s : Sheet)
    (free : ∀ field, ¬Csv.Puts (Csv.records text) corner field a) :
    (s.insertAll (Csv.cells options corner text))[a]? = s[a]? := by
  refine Sheet.getElem?_insertAll_of_ne fun entry mem same => ?_
  obtain ⟨field, put, -⟩ := Csv.mem_cells_iff.1 mem
  exact free field (same ▸ put)

/-! ### Whole tables -/

/-- **What is imported of a table, however it was written.**  Its records are read again.  Its cells are listed row by
row, one for each field that is not empty, at the distance of that field from the corner.  Importing it gives the number
of these fields, puts their cells into the sheet, and changes no other cell. -/
theorem importCsv_of_tableText {table : List (List (List Char))} {text : List Char} (h : Csv.TableText table text) :
    Csv.records text = table ∧
    (∀ options corner, (Csv.cells options corner text).Pairwise (fun x y => x.1.Before y.1) ∧
      ∀ a cell, (a, cell) ∈ Csv.cells options corner text ↔
        ∃ field, Csv.Puts table corner field a ∧ cell = Csv.cell options field) ∧
    ∀ (d : Document) (files : Files) path corner, files.read sheetFileLimit path = .ok text →
      (d.importCsv files path corner).1 = .ok (table.flatten.countP (· ≠ [])) ∧
      ∀ a,
        (∀ field, Csv.Puts table corner field a →
          (d.importCsv files path corner).2.sheet[a]? = some (Csv.cell d.options field)) ∧
        ((∀ field, ¬Csv.Puts table corner field a) →
          (d.importCsv files path corner).2.sheet[a]? = d.sheet[a]?) := by
  obtain rfl := Csv.records_of_tableText h
  refine ⟨rfl, fun options corner => ⟨Csv.pairwise_cells options corner text, fun a cell => Csv.mem_cells_iff⟩,
    fun d files path corner read => ?_⟩
  obtain ⟨count, sheet⟩ := d.importCsv_of_read read
  rw [count, sheet, Csv.length_cells]
  exact ⟨rfl, fun a => ⟨fun field put => getElem?_insertAll_of_puts d.sheet put,
    fun free => getElem?_insertAll_of_not_puts d.sheet free⟩⟩

/-- Four fields are imported from a text of four records, and a cell in the empty second record stays: a comma, quotes and
a line break stand in fields, a record has nothing but its ending, and the last one goes without. -/
theorem importCsv_of_tableText_quoted :
    let table := [[" a,\"b".toList, "x".toList], [[]], ["1\r\n2".toList, [], "=A1".toList], [[]]]
    let text := "\" a,\"\"b\",x\r\n\n\"1\r\n2\",,=A1\n\"\"".toList
    let files : Files := ⟨fun _ => .ok (.file (String.ofList text).toUTF8)⟩
    let d : Document := { new {} with sheet := (∅ : Sheet).insert ⟨3, 1⟩ (.text "kept".toList) }
    let d' := (d.importCsv files "t.csv".toList ⟨2, 1⟩).2
    Csv.TableText table text ∧ files.read sheetFileLimit "t.csv".toList = .ok text ∧
      Csv.records text = table ∧ (d.importCsv files "t.csv".toList ⟨2, 1⟩).1 = .ok 4 ∧
      d'.sheet[(⟨2, 1⟩ : Address)]? = some (Csv.cell {} " a,\"b".toList) ∧
      d'.sheet[(⟨4, 3⟩ : Address)]? = some (Csv.cell {} "=A1".toList) ∧
      d'.sheet[(⟨3, 1⟩ : Address)]? = some (.text "kept".toList) := by
  intro table text files d d'
  have bare (field : List Char) (plain : (field.all fun c => decide (c ∉ Csv.marks)) = true)
      (trimmed : Text.trim field = field) : Csv.FieldText field field :=
    .bare (Csv.plain_of_all plain) trimmed
  have written : Csv.TableText table text :=
    .cons (.cons .quoted (.single (bare _ (by decide) (by decide)))) .carriageReturn
      (.cons (.single (bare _ (by decide) (by decide))) .lineFeed
        (.cons (.cons .quoted (.cons (bare _ (by decide) (by decide)) (.single (bare _ (by decide) (by decide)))))
          .lineFeed (.last (.single .quoted) (by decide))))
  have read : files.read sheetFileLimit "t.csv".toList = .ok text := Files.read_of_find rfl (by decide +kernel)
  obtain ⟨records, -, imported⟩ := importCsv_of_tableText written
  obtain ⟨count, found⟩ := imported d files "t.csv".toList ⟨2, 1⟩ read
  have first : Csv.Puts table ⟨2, 1⟩ " a,\"b".toList ⟨2, 1⟩ := ⟨by decide, 0, 0, _, rfl, rfl, rfl⟩
  have last : Csv.Puts table ⟨2, 1⟩ "=A1".toList ⟨4, 3⟩ := ⟨by decide, 2, 2, _, rfl, rfl, rfl⟩
  have free : ∀ field, ¬Csv.Puts table ⟨2, 1⟩ field ⟨3, 1⟩ := by
    rintro field ⟨ne, i, j, record, row, column, place⟩
    obtain ⟨rfl, rfl⟩ : i = 1 ∧ j = 0 := by
      simp only [Address.mk.injEq] at place
      omega
    cases row
    cases column
    exact ne rfl
  exact ⟨written, read, records, count, (found ⟨2, 1⟩).1 _ first, (found ⟨4, 3⟩).1 _ last, (found ⟨3, 1⟩).2 free⟩

end Spreadsheet.Document
