import Spreadsheet.Document.Files
import Spreadsheet.Proofs.Disk
import Spreadsheet.Proofs.Sheet.Csv
import Spreadsheet.Proofs.Sheet.NormalForm

/-!
# Saving over the file that was loaded

A document that has been loaded from a file is saved to that file.  How a file is read depends on its extension, how it
is written does not.  Lines are read back as the sheet without its empty cells.  A table is replaced by lines as well,
and these are still read as a table: the sheet that was loaded is lost, and its first cell holds the header.

* `load_eq_of_readSheet`, `exists_of_load`, `exists_of_save` — what loading and saving leave behind.
* `load_of_load_save` — what is loaded from the file after it has been saved.
* `load_of_load_save_table` — a number in a table comes back as the header.
-/

namespace Spreadsheet.Document

variable {d : Document} {files : Files} {disk disk' : Disk} {path : Path}

/-! ### Loading and saving -/

/-- The document with a sheet that has just been loaded from a file. -/
def loaded (d : Document) (path : Path) (s : Sheet) : Document :=
  { d with sheet := s, path := some path, modified := false, dependents := s.dependents }

@[simp] theorem sheet_loaded (d : Document) (path : Path) (s : Sheet) : (d.loaded path s).sheet = s :=
  rfl

theorem load_eq_of_readSheet {s : Sheet} (h : readSheet d.options files path = .ok s) :
    d.load files path = (.ok (), d.loaded path s) := by
  rw [load, h]
  rfl

theorem exists_of_load {d' : Document} (h : d.load files path = (.ok (), d')) :
    ∃ s, readSheet d.options files path = .ok s ∧ d' = d.loaded path s := by
  rw [load] at h
  split at h
  · cases h
  · next s read => exact ⟨s, read, (Prod.mk.inj h).2.symm⟩

theorem exists_of_save {d' : Document} {path : Path} (h : d.save disk = (.ok path, d', disk')) :
    d.path = some path ∧ disk.write path (Grd.write d.sheet) = .ok disk' ∧ d' = { d with modified := false } := by
  rw [save] at h
  split at h
  · cases h
  · next path' belongs =>
    split at h
    · cases h
    · next disk'' written =>
      cases h
      exact ⟨belongs, written, rfl⟩

/-- A document can be saved to the file that it was loaded from, if that file has been written before. -/
theorem exists_save_of_load {before : Disk} {text : List Char} {d' : Document} (keeps : before.Keeps path)
    (written : before.write path text = .ok disk) (h : d.load files path = (.ok (), d')) :
    disk.Keeps path ∧ ∃ disk', d'.save disk = (.ok path, d', disk') := by
  obtain ⟨s, -, rfl⟩ := exists_of_load h
  obtain ⟨still, disk', again⟩ := Disk.exists_write_of_write keeps written (Grd.write s)
  refine ⟨still, disk', ?_⟩
  simp only [save, loaded, again]

/-- A file can be made at a place where nothing stands, and be loaded and saved. -/
theorem exists_load_save {before : Disk} (d : Document) {place : Place} (text : List Char) {s : Sheet}
    (found : before.target path = .ok place) (free : before.node? place = none)
    (small : Text.byteLength text ≤ sheetFileLimit)
    (read : ∀ files : Files, files.read sheetFileLimit path = .ok text → readSheet d.options files path = .ok s) :
    ∃ disk disk', disk.Keeps path ∧ d.load disk.files path = (.ok (), d.loaded path s) ∧
      (d.loaded path s).save disk = (.ok path, d.loaded path s, disk') := by
  obtain ⟨keeps, disk, written⟩ := Disk.exists_write_of_target found free text
  have loads := load_eq_of_readSheet (read disk.files (Disk.read_of_write keeps small written))
  obtain ⟨still, disk', saved⟩ := exists_save_of_load keeps written loads
  exact ⟨disk, disk', still, loads, saved⟩

/-! ### Both formats -/

theorem readSheet_lines (options : Formula.Options) (lines : path.extension = "grd".toList) {text : List Char}
    (read : files.read sheetFileLimit path = .ok text) :
    readSheet options files path = (Grd.read options text).mapError .parse := by
  rw [readSheet, if_pos lines, read]

theorem readSheet_table (options : Formula.Options) (table : path.extension = "csv".toList) {text : List Char}
    (read : files.read sheetFileLimit path = .ok text) :
    readSheet options files path = .ok ((∅ : Sheet).insertAll (Csv.cells options ⟨0, 0⟩ text)) := by
  rw [readSheet, if_neg (by rw [table]; decide), if_pos table, read]

/-- A file that is read into a sheet is a text in one of the two formats. -/
theorem exists_text_of_readSheet {options : Formula.Options} {s : Sheet} (h : readSheet options files path = .ok s) :
    ∃ text, files.read sheetFileLimit path = .ok text ∧
      ((path.extension = "grd".toList ∧ Grd.read options text = .ok s) ∨
        (path.extension = "csv".toList ∧ (∅ : Sheet).insertAll (Csv.cells options ⟨0, 0⟩ text) = s)) := by
  rw [readSheet] at h
  split at h
  · next lines =>
    split at h
    · cases h
    · next text read => exact ⟨text, read, .inl ⟨lines, Formula.mapError_eq_ok_iff.1 h⟩⟩
  · split at h
    · next table =>
      split at h
      · cases h
      · next text read => exact ⟨text, read, .inr ⟨table, Except.ok.inj h⟩⟩
    · cases h

theorem exists_of_readSheet {options : Formula.Options} {s : Sheet} (h : readSheet options files path = .ok s) :
    (path.extension = "grd".toList ∧ ∃ text, Grd.read options text = .ok s) ∨ path.extension = "csv".toList := by
  obtain ⟨text, -, ⟨lines, accepted⟩ | ⟨table, -⟩⟩ := exists_text_of_readSheet h
  · exact .inl ⟨lines, text, accepted⟩
  · exact .inr table

/-- **What is loaded from a file after it has been saved.** A document that has been loaded and not been edited is saved
to the same file, and every document with its options loads that file again.  If it is a file of lines, that gives the
sheet without its empty cells; if it is a table, the first cell holds the header, whatever it held. -/
theorem load_of_load_save {d₁ d₂ : Document} {path' : Path}
    (first : d.load files path = (.ok (), d₁)) (keeps : disk.Keeps path)
    (small : Text.byteLength (Grd.write d₁.sheet) ≤ sheetFileLimit)
    (saved : d₁.save disk = (.ok path', d₂, disk')) :
    path' = path ∧ ∃ s : Sheet,
      (∀ other : Document, other.options = d.options → other.load disk'.files path = (.ok (), other.loaded path s)) ∧
      (path.extension = "grd".toList → s = d₁.sheet.filled) ∧
      (path.extension = "csv".toList → s[(⟨0, 0⟩ : Address)]? = some (.text Grd.header)) := by
  obtain ⟨s, read, rfl⟩ := exists_of_load first
  obtain ⟨belongs, written, -⟩ := exists_of_save saved
  obtain rfl : path = path' := Option.some.inj belongs
  have back := Disk.read_of_write keeps small written
  refine ⟨rfl, ?_⟩
  rcases exists_of_readSheet read with ⟨lines, text, accepted⟩ | table
  · refine ⟨s.filled, fun other same => load_eq_of_readSheet ?_, fun _ => rfl, fun table => ?_⟩
    · rw [readSheet_lines _ lines back, same, loaded, Grd.read_write (Grd.fits_of_read accepted)]
      rfl
    · exact absurd (lines.symm.trans table) (by decide)
  · refine ⟨(∅ : Sheet).insertAll (Csv.cells d.options ⟨0, 0⟩ (Grd.write s)),
      fun other same => load_eq_of_readSheet ?_, fun lines => ?_, fun _ => ?_⟩
    · rw [readSheet_table _ table back, same, loaded]
    · exact absurd (lines.symm.trans table) (by decide)
    · exact Csv.getElem?_insertAll_cells_write d.options ⟨0, 0⟩ ∅ _

/-- Two lines for one cell and a line without a value are one line after saving, with a second backslash. -/
theorem load_of_load_save_lines :
    let path := "t.grd".toList
    let d := new {}
    ∃ disk d₁ disk' s, d.load disk.files path = (.ok (), d₁) ∧ d₁.save disk = (.ok path, d₁, disk') ∧
      d.load disk'.files path = (.ok (), d.loaded path s) ∧ s = d₁.sheet.filled ∧
      s.toList.map (fun (a, cell) => (a, cell.input)) = [(⟨0, 0⟩, "\\x".toList)] := by
  have found : (Disk.standard.target "t.grd".toList).toOption =
      some ["home".toList, "user".toList, "t.grd".toList] := by decide +kernel
  have free : (Disk.standard.node? ["home".toList, "user".toList, "t.grd".toList]).isNone = true := by decide +kernel
  have lines : Path.extension "t.grd".toList = "grd".toList := by decide +kernel
  have accepted : ((Grd.read {} "A1: 1\nb1:\n$a$01: \"\\x\"".toList).toOption.map fun s =>
      (s.filled.toList.map fun (a, cell) => (a, cell.input), decide (Text.byteLength (Grd.write s) ≤ sheetFileLimit))) =
      some ([(⟨0, 0⟩, "\\x".toList)], true) := by decide +kernel
  obtain ⟨s, ok, eq⟩ := Option.map_eq_some_iff.1 accepted
  obtain ⟨cells, short⟩ := Prod.mk.inj eq
  have read (files : Files)
      (text : files.read sheetFileLimit "t.grd".toList = .ok "A1: 1\nb1:\n$a$01: \"\\x\"".toList) :
      readSheet {} files "t.grd".toList = .ok s := by
    rw [readSheet_lines {} lines text, Formula.toOption_eq_some_iff.1 ok]
    rfl
  obtain ⟨disk, disk', keeps, loads, saved⟩ := exists_load_save (new {}) _
    (Formula.toOption_eq_some_iff.1 found) (Option.isNone_iff_eq_none.1 free) (by decide +kernel) read
  obtain ⟨-, s', again, same, -⟩ := load_of_load_save loads keeps (of_decide_eq_true short) saved
  have filled : s' = s.filled := same lines
  exact ⟨disk, _, disk', s', loads, saved, again _ rfl, filled, by rw [filled, cells]⟩

/-- A number in a table comes back as the header, and its line as a text below. -/
theorem load_of_load_save_table :
    let path := "t.csv".toList
    let d := new {}
    ∃ disk d₁ disk' d₂, d.load disk.files path = (.ok (), d₁) ∧
      d₁.sheet.toList.map (fun (a, cell) => (a, cell.input)) = [(⟨0, 0⟩, ['1'])] ∧
      d₁.save disk = (.ok path, d₁, disk') ∧ Text.byteLength (Grd.write d₁.sheet) ≤ sheetFileLimit ∧
      d.load disk'.files path = (.ok (), d₂) ∧
      d₂.sheet.toList.map (fun (a, cell) => (a, cell.input)) = [(⟨0, 0⟩, Grd.header), (⟨1, 0⟩, "A1: 1".toList)] ∧
      d₂.sheet.filled ≠ d₁.sheet.filled := by
  have found : (Disk.standard.target "t.csv".toList).toOption =
      some ["home".toList, "user".toList, "t.csv".toList] := by decide +kernel
  have free : (Disk.standard.node? ["home".toList, "user".toList, "t.csv".toList]).isNone = true := by decide +kernel
  have table : Path.extension "t.csv".toList = "csv".toList := by decide +kernel
  obtain ⟨disk, disk', keeps, loads, saved⟩ := exists_load_save (new {}) "1\n".toList
    (Formula.toOption_eq_some_iff.1 found) (Option.isNone_iff_eq_none.1 free) (by decide +kernel)
    fun files read => readSheet_table {} table read
  have small : Text.byteLength (Grd.write ((∅ : Sheet).insertAll (Csv.cells {} ⟨0, 0⟩ "1\n".toList))) ≤
      sheetFileLimit := by decide +kernel
  have back := Disk.read_of_write keeps small (exists_of_save saved).2.1
  have again := @load_eq_of_readSheet (new {}) _ _ _ (readSheet_table {} table back)
  have differs : (((∅ : Sheet).insertAll (Csv.cells {} ⟨0, 0⟩ (Grd.write
      ((∅ : Sheet).insertAll (Csv.cells {} ⟨0, 0⟩ "1\n".toList))))).filled[(⟨0, 0⟩ : Address)]?.map Cell.input) ≠
      ((∅ : Sheet).insertAll (Csv.cells {} ⟨0, 0⟩ "1\n".toList)).filled[(⟨0, 0⟩ : Address)]?.map Cell.input := by
    decide +kernel
  refine ⟨disk, _, disk', _, loads, ?_, saved, small, again, ?_, fun same => differs ?_⟩
  · decide +kernel
  · decide +kernel
  · rw [sheet_loaded, sheet_loaded] at same
    rw [same]

end Spreadsheet.Document
