import Spreadsheet.Command.Run
import Spreadsheet.Proofs.Document.Overwriting
import Spreadsheet.Proofs.Sheet.Linewise
import Spreadsheet.Proofs.Sheet.Table

/-!
# What the check of a file reports

A file gives each of its cells one value in the end: the one in the last line for the cell, or the one in the field of a
table.  A check lists the cells for which this value is a formula that cannot be split into tokens, row by row, and its
exit code says whether there are any.

* `FinalFormula` — the formulas that a file gives to cells, said without reading the file into a sheet.
* `Sheet.mem_invalidCells`, `Sheet.pairwise_invalidCells` — which cells are listed, and in which order.
* `mem_invalidCells_of_readSheet` — what is listed for a file.
* `exit_reportOn`, `output_reportOn`, `output_reportOn_nil` — the report on a sheet.
* `run_check_exact` — the run of the command from its arguments to its report, whichever formats these have.
-/

namespace Spreadsheet

/-! ### Invalid cells -/

theorem Cell.error?_formula {options : Formula.Options} {source : List Char} {e : Formula.ScanError} :
    (Cell.formula options source).error? = some e ↔ Formula.tokenize options source = .error e := by
  rw [Cell.formula]
  split
  · next split => simp [error?, split]
  · next split => simp [error?, split]

/-- The wording of an error holds the kind, the place and the formula. -/
theorem Formula.ScanError.toList_message (e : Formula.ScanError) :
    e.message.toList = e.fault.message.toList ++ " at position ".toList ++ Text.numeral e.offset ++ " in '".toList ++
      e.formula ++ ['\x27'] := by
  simp [message]

namespace Sheet

variable {s : Sheet}

theorem mem_invalidCells {a : Address} {e : Formula.ScanError} :
    (a, e) ∈ s.invalidCells ↔ ∃ cell, s[a]? = some cell ∧ cell.error? = some e := by
  simp only [invalidCells, List.mem_filterMap, Option.map_eq_some_iff, Prod.mk.injEq, Prod.exists,
    Std.ExtTreeMap.mem_toList_iff_getElem?_eq_some]
  constructor
  · rintro ⟨b, cell, found, e', invalid, rfl, rfl⟩
    exact ⟨cell, found, invalid⟩
  · rintro ⟨cell, found, invalid⟩
    exact ⟨a, cell, found, e, invalid, rfl, rfl⟩

/-- Invalid cells are listed row by row, each of them once. -/
theorem pairwise_invalidCells (s : Sheet) : s.invalidCells.Pairwise fun x y => x.1.Before y.1 := by
  refine List.Pairwise.filterMap _ ?_ Std.ExtTreeMap.ordered_keys_toList
  rintro ⟨a, cell⟩ ⟨b, cell'⟩ order x hx y hy
  obtain ⟨_, -, rfl⟩ := Option.map_eq_some_iff.1 hx
  obtain ⟨_, -, rfl⟩ := Option.map_eq_some_iff.1 hy
  exact Address.compare_eq_lt_iff.1 order

end Sheet

/-! ### Formulas in files -/

/-- The formula that a file gives to a cell in the end: behind the last line for the cell, or in its field of a table. A
field that keeps blanks at its ends is no formula. -/
inductive FinalFormula (files : Files) (file : Path) (a : Address) : List Char → Prop
  | line {text value body : List Char} : file.extension = "grd".toList →
      files.read Document.sheetFileLimit file = .ok text → Grd.LastValue (Text.split (· = '\n') text) a value →
      Text.trim value = '=' :: body → FinalFormula files file a ('=' :: body)
  | field {text body : List Char} : file.extension = "csv".toList →
      files.read Document.sheetFileLimit file = .ok text → Csv.Puts (Csv.records text) ⟨0, 0⟩ ('=' :: body) a →
      Csv.hasOuterBlank ('=' :: body) = false → FinalFormula files file a ('=' :: body)

/-- A value stands for an invalid cell only if it is a formula that is refused. -/
theorem Grd.error?_of_valueText {options : Formula.Options} {value : List Char} {cell : Cell} {e : Formula.ScanError}
    (h : ValueText options value cell) :
    cell.error? = some e ↔ ∃ body, Text.trim value = '=' :: body ∧ Formula.tokenize options ('=' :: body) = .error e := by
  cases h with
  | empty eq => simp [Cell.error?, Cell.empty, eq]
  | formula eq => simp [Cell.error?_formula, eq]
  | text eq => simp [Cell.error?, Cell.text, eq]
  | @number n read =>
    have none (body : List Char) : Text.trim value ≠ '=' :: body := by
      intro eq
      have refused : Number.read? ('=' :: body) = none :=
        Number.read?_eq_none rfl (by decide) List.mem_cons_self (by decide)
      rw [eq, refused] at read
      cases read
    simp [Cell.error?, Cell.number, none]

/-- A field stands for an invalid cell only if it is a formula without blanks at its ends that is refused. -/
theorem Csv.error?_cell {options : Formula.Options} {field : List Char} {e : Formula.ScanError} :
    (Csv.cell options field).error? = some e ↔
      hasOuterBlank field = false ∧ ∃ body, field = '=' :: body ∧ Formula.tokenize options field = .error e := by
  rw [Csv.cell]
  split
  · next empty => simp [Cell.error?, Cell.empty, empty]
  · split
    · next blank => simp [Cell.error?, Cell.text, blank]
    · next blank =>
      split
      · next head =>
        obtain ⟨body, rfl⟩ := List.head?_eq_some_iff.1 head
        simp [Cell.error?_formula, blank]
      · next head =>
        have none (body : List Char) : field ≠ '=' :: body := by
          rintro rfl
          exact head rfl
        split
        · simp [Cell.error?, Cell.text, none]
        · split <;> simp [Cell.error?, Cell.text, Cell.number, none]

/-- The fields of a table are found in its sheet. -/
theorem Csv.getElem?_of_cells {options : Formula.Options} {corner a : Address} {text : List Char} {cell : Cell} :
    ((∅ : Sheet).insertAll (Csv.cells options corner text))[a]? = some cell ↔
      ∃ field, Puts (records text) corner field a ∧ cell = Csv.cell options field := by
  have apart := (pairwise_cells options corner text).imp Address.Before.ne
  rw [Sheet.getElem?_insertAll apart, mem_cells_iff]
  simp

namespace Command

/-- The invalid cells of a file are those to which it gives a formula that is refused. -/
theorem mem_invalidCells_of_readSheet {options : Formula.Options} {files : Files} {file : Path} {sheet : Sheet}
    (h : Document.readSheet options files file = .ok sheet) {a : Address} {e : Formula.ScanError} :
    (a, e) ∈ sheet.invalidCells ↔
      ∃ source, FinalFormula files file a source ∧ Formula.tokenize options source = .error e := by
  have apart : "grd".toList ≠ "csv".toList := by decide
  obtain ⟨text, read, ⟨lines, accepted⟩ | ⟨table, rfl⟩⟩ := Document.exists_text_of_readSheet h
  · rw [Sheet.mem_invalidCells]
    constructor
    · rintro ⟨cell, found, invalid⟩
      obtain ⟨value, last, stands⟩ := (Grd.getElem?_of_read accepted).1 found
      obtain ⟨body, eq, refused⟩ := (Grd.error?_of_valueText stands).1 invalid
      exact ⟨_, .line lines read last eq, refused⟩
    · rintro ⟨_, formula, refused⟩
      cases formula with
      | field table => exact absurd (lines.symm.trans table) apart
      | line _ read' last eq =>
        obtain rfl := Except.ok.inj (read.symm.trans read')
        exact ⟨_, (Grd.getElem?_of_read accepted).2 ⟨_, last, .formula eq⟩, Cell.error?_formula.2 refused⟩
  · rw [Sheet.mem_invalidCells]
    constructor
    · rintro ⟨cell, found, invalid⟩
      obtain ⟨field, put, rfl⟩ := Csv.getElem?_of_cells.1 found
      obtain ⟨trimmed, body, rfl, refused⟩ := Csv.error?_cell.1 invalid
      exact ⟨_, .field table read put trimmed, refused⟩
    · rintro ⟨_, formula, refused⟩
      cases formula with
      | line lines => exact absurd (lines.symm.trans table) apart
      | field _ read' put trimmed =>
        obtain rfl := Except.ok.inj (read.symm.trans read')
        exact ⟨_, Csv.getElem?_of_cells.2 ⟨_, put, rfl⟩, Csv.error?_cell.2 ⟨trimmed, _, rfl, refused⟩⟩

/-! ### The report -/

section Report

variable {f : Formats} {file : Path} {json : Bool} {sheet : Sheet}

theorem exit_reportOn : (f.reportOn file json sheet).exit = if sheet.invalidCells = [] then 0 else 1 := by
  rw [Formats.reportOn]
  simp only [List.isEmpty_iff]

/-- Invalid cells are reported one by one. -/
theorem output_reportOn (some : sheet.invalidCells ≠ []) :
    (f.reportOn file json sheet).output =
      if json then
        Report.lines [f.printRecords (sheet.invalidCells.map fun (a, e) =>
          [("cell".toList, .text a.name), ("error".toList, .text e.fault.message.toList),
            ("offset".toList, .number e.offset)])]
      else
        Report.lines (sheet.invalidCells.map fun (a, e) =>
          a.name ++ ": ".toList ++ e.fault.message.toList ++ " at position ".toList ++ Text.numeral e.offset ++
            " in '".toList ++ e.formula ++ ['\x27']) := by
  rw [Formats.reportOn, List.isEmpty_eq_false_iff.2 some]
  simp only [invalidRecord, Formula.ScanError.toList_message, List.append_assoc]
  rfl

/-- Without invalid cells the report is an array without records or a single line. -/
theorem output_reportOn_nil (none : sheet.invalidCells = []) (empty : f.printRecords [] = "[]".toList) :
    (f.reportOn file json sheet).output =
      if json then "[]\n".toList
      else file ++ ": ".toList ++ Text.numeral sheet.size ++ " cells, all formulas tokenize\n".toList := by
  rw [Formats.reportOn, none]
  cases json
  · simp [Report.lines]
  · simp [Report.lines, empty]

end Report

/-- A run of the command for a file reports on its sheet if it can be read, and else it is a failure. -/
theorem run_of_check {f : Formats} {arguments : List (List Char)} {default : Option Path} {files : Files}
    {i : Invocation} {settings : Settings} {file : Path} {json : Bool} (asked : f.readArguments arguments = .ok i)
    (task : i.task = .check file json) (known : f.settingsFor i default files = .ok settings) :
    (∀ sheet, Document.readSheet (optionsFor i settings) files file = .ok sheet →
      f.run arguments default files = f.reportOn file json sheet) ∧
    ∀ error, Document.readSheet (optionsFor i settings) files file = .error error →
      ∃ message, f.run arguments default files = .failure message := by
  have whole : f.run arguments default files = f.check (optionsFor i settings) file json files := by
    simp only [Formats.run, asked, known, Formats.perform, task]
  constructor
  · intro sheet h
    simp only [whole, Formats.check, Document.load, Document.new, h]
  · intro error h
    simp only [whole, Formats.check, Document.load, Document.new, h]
    exact ⟨_, rfl⟩

/-- **The check reports exactly the formulas that are refused.** The options are those of the settings and the arguments
together, in whichever formats these are read.  If the file is read into a sheet, the exit code is 1 if the file gives
some cell a formula in the end that is refused, and 0 if not.  Each such cell is reported once, row by row, with its
name, the kind and the place of the error; without any, there is an empty array or one line with the number of cells.
If the file is not read, the exit code is 1 and nothing is reported.  Of the format of records it is used that an array
without records is `[]`. -/
theorem run_check_exact {f : Formats} {arguments : List (List Char)} {default : Option Path} {files : Files}
    {i : Invocation} {settings : Settings} {file : Path} {json : Bool} (asked : f.readArguments arguments = .ok i)
    (task : i.task = .check file json) (known : f.settingsFor i default files = .ok settings)
    (empty : f.printRecords [] = "[]".toList) :
    let options := optionsFor i settings
    let report := f.run arguments default files
    let Refused (a : Address) (e : Formula.ScanError) : Prop :=
      ∃ source, FinalFormula files file a source ∧ Formula.tokenize options source = .error e
    (∀ sheet, Document.readSheet options files file = .ok sheet →
      (report.exit = 1 ↔ ∃ a e, Refused a e) ∧ (report.exit = 0 ↔ ∀ a e, ¬Refused a e) ∧
      ∃ found : List (Address × Formula.ScanError),
        found.Pairwise (fun x y => x.1.Before y.1) ∧ (∀ a e, (a, e) ∈ found ↔ Refused a e) ∧
        (found ≠ [] → report.output =
          if json then
            Report.lines [f.printRecords (found.map fun (a, e) =>
              [("cell".toList, .text a.name), ("error".toList, .text e.fault.message.toList),
                ("offset".toList, .number e.offset)])]
          else
            Report.lines (found.map fun (a, e) =>
              a.name ++ ": ".toList ++ e.fault.message.toList ++ " at position ".toList ++ Text.numeral e.offset ++
                " in '".toList ++ e.formula ++ ['\x27'])) ∧
        (found = [] → report.output =
          if json then "[]\n".toList
          else file ++ ": ".toList ++ Text.numeral sheet.size ++ " cells, all formulas tokenize\n".toList)) ∧
    ∀ error, Document.readSheet options files file = .error error → report.exit = 1 ∧ report.output = [] := by
  intro options report Refused
  obtain ⟨reads, fails⟩ := run_of_check asked task known
  refine ⟨fun sheet h => ?_, fun error h => ?_⟩
  · have made : report = f.reportOn file json sheet := reads sheet h
    have members (a : Address) (e : Formula.ScanError) : (a, e) ∈ sheet.invalidCells ↔ Refused a e :=
      mem_invalidCells_of_readSheet h
    have nothing : sheet.invalidCells = [] ↔ ∀ a e, ¬Refused a e := by
      simp only [← members, List.eq_nil_iff_forall_not_mem, Prod.forall]
    have any : sheet.invalidCells ≠ [] ↔ ∃ a e, Refused a e := by
      rw [ne_eq, nothing]
      simp only [not_forall, not_not]
    rw [made]
    refine ⟨?_, ?_, sheet.invalidCells, sheet.pairwise_invalidCells, members, output_reportOn,
      fun none => output_reportOn_nil none empty⟩
    · rw [exit_reportOn, ← any]
      by_cases none : sheet.invalidCells = [] <;> simp [none]
    · rw [exit_reportOn, ← nothing]
      by_cases none : sheet.invalidCells = [] <;> simp [none]
  · obtain ⟨message, failed⟩ := fails error h
    have made : report = .failure message := failed
    rw [made]
    exact ⟨rfl, rfl⟩

/-- A formula that is replaced by a later line is not reported, and one that is nested too deeply for the limit among the
arguments is, though the settings allow it. -/
theorem run_check_exact_nested :
    let text := "b2: =((1))\nA1: =SUM(A2\n$A$1: 5\n".toList
    let files : Files := ⟨fun path =>
      if path = "s.grd".toList then .ok (.file (String.ofList text).toUTF8)
      else .ok (.file (String.ofList "max_depth = 9".toList).toUTF8)⟩
    let report := run ["--max-depth".toList, "1".toList, "check".toList, "s.grd".toList] (some "c".toList) files
    report.exit = 1 ∧
      report.output = "B2: subexpressions nested deeper than 1 levels at position 2 in '=((1))'\n".toList := by
  intro text files report
  have asked : (Formats.usual.readArguments
      ["--max-depth".toList, "1".toList, "check".toList, "s.grd".toList]).toOption =
      some ⟨none, false, false, some 1, .check "s.grd".toList false⟩ := by decide +kernel
  have settings : files.read settingsFileLimit "c".toList = .ok "max_depth = 9".toList :=
    Files.read_of_find rfl (by decide +kernel)
  have known : Formats.usual.settingsFor ⟨none, false, false, some 1, .check "s.grd".toList false⟩ (some "c".toList)
      files = .ok { maxDepth := some 9 } := by
    have parsed : Settings.read? "max_depth = 9".toList = some { maxDepth := some 9 } := by decide +kernel
    have held : files.holds "c".toList = true := rfl
    simp only [Formats.settingsFor, held, Formats.settingsIn, settings, Formats.usual, parsed]
    rfl
  let e : Formula.ScanError := ⟨.nestingTooDeep 1, 2, "=((1))".toList⟩
  have cells : ((Grd.read ⟨false, 1⟩ text).toOption.map Sheet.invalidCells) = some [(⟨1, 1⟩, e)] := by decide +kernel
  obtain ⟨sheet, accepted, invalid⟩ := Option.map_eq_some_iff.1 cells
  have loads : Document.readSheet ⟨false, 1⟩ files "s.grd".toList = .ok sheet := by
    have read : files.read Document.sheetFileLimit "s.grd".toList = .ok text :=
      Files.read_of_find rfl (by decide +kernel)
    rw [Document.readSheet_lines _ (by decide +kernel) read, Formula.toOption_eq_some_iff.1 accepted]
    rfl
  obtain ⟨checked, -⟩ := run_check_exact (Formula.toOption_eq_some_iff.1 asked) rfl known rfl
  obtain ⟨refuses, -, found, ordered, members, output, -⟩ := checked sheet loads
  have only (a : Address) (e' : Formula.ScanError) : (a, e') ∈ found ↔ (a, e') = (⟨1, 1⟩, e) := by
    rw [members, ← List.mem_singleton, ← invalid]
    exact (mem_invalidCells_of_readSheet loads).symm
  have here : (⟨1, 1⟩, e) ∈ found := (only _ _).2 rfl
  have single : found = [(⟨1, 1⟩, e)] :=
    List.perm_singleton.1 ((List.perm_ext_iff_of_nodup (ordered.imp fun before same => before.ne (congrArg _ same))
      (List.nodup_singleton _)).2 fun x => (only x.1 x.2).trans List.mem_singleton.symm)
  refine ⟨refuses.2 ⟨_, _, (members _ _).1 here⟩, (output (List.ne_nil_of_mem here)).trans ?_⟩
  rw [single]
  decide +kernel

end Command

end Spreadsheet
