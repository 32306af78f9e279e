import Spreadsheet.Document.Edit
import Spreadsheet.Document.Files
import Spreadsheet.Proofs.Sheet.Lines

/-!
# Runs of a document

A document is opened and then goes through operations, each of which leaves a document behind whether it succeeds
or fails.  What holds of every document that can be reached is proved here in these ways:

* `Reachable.invariant` — what holds at the beginning and is kept by each operation.
* `Reachable.holds` — what holds of every cell that an operation makes and of every moved cell, holds of
  all cells of the sheet.
* `Reachable.holds_under` — the same under options that stay, of which the property may speak.
* `Reachable.dependents_eq` — the map of dependents is always the one of the sheet.
-/

namespace Spreadsheet

/-! ### Cells that are made -/

/-- The cells that the constructors make. -/
inductive Cell.Built : Cell → Prop
  | empty : Built .empty
  | text (value : List Char) : Built (.text value)
  | number (value : Number) : Built (.number value)
  | formula (options : Formula.Options) (source : List Char) : Built (.formula options source)
  | ofInput (options : Formula.Options) (entered : List Char) : Built (.ofInput options entered)

/-- What a user enters is one of the other cells. -/
theorem Cell.ofInput_cases (options : Formula.Options) (entered : List Char) :
    Cell.ofInput options entered = .empty ∨ (∃ value, Cell.ofInput options entered = .text value) ∨
      (∃ value, Cell.ofInput options entered = .number value) ∨
        Cell.ofInput options entered = .formula options (Text.trim entered) := by
  simp only [Cell.ofInput]
  split
  · exact .inl rfl
  · split
    · exact .inr (.inr (.inr rfl))
    · split
      · exact .inr (.inl ⟨_, rfl⟩)
      · split
        · exact .inr (.inr (.inl ⟨_, rfl⟩))
        · exact .inr (.inl ⟨_, rfl⟩)

/-- What holds of the four kinds of cells holds of every cell that a constructor makes. -/
theorem Cell.holds_of_built {P : Cell → Prop} (empty : P .empty) (text : ∀ value, P (.text value))
    (number : ∀ value, P (.number value)) (formula : ∀ options source, P (.formula options source))
    {cell : Cell} (h : cell.Built) : P cell := by
  cases h with
  | empty => exact empty
  | text value => exact text value
  | number value => exact number value
  | formula options source => exact formula options source
  | ofInput options entered =>
    rcases Cell.ofInput_cases options entered with eq | ⟨value, eq⟩ | ⟨value, eq⟩ | eq
    · rw [eq]
      exact empty
    · rw [eq]
      exact text value
    · rw [eq]
      exact number value
    · rw [eq]
      exact formula options _

theorem Csv.built_cell (options : Formula.Options) (field : List Char) : (Csv.cell options field).Built := by
  simp only [Csv.cell]
  split
  · exact .empty
  · split
    · exact .text _
    · split
      · exact .formula _ _
      · split
        · exact .text _
        · split
          · exact .number _
          · exact .text _

theorem Grd.built_of_readValue {options : Formula.Options} {written : List Char} {cell : Cell}
    (h : Grd.readValue options written = .ok cell) : cell.Built := by
  rcases Grd.readValue_cases h with rfl | ⟨_, _, rfl⟩ | ⟨_, rfl⟩ | ⟨_, rfl⟩
  · exact .empty
  · exact .text _
  · exact .number _
  · exact .formula _ _

namespace Document

/-! ### Operations -/

/-- What a user can do with a document. -/
inductive Operation where
  | setCell (a : Address) (cell : Cell)
  | setInput (a : Address) (entered : List Char)
  | clear (a : Address)
  | copy (source target : Address)
  | editLine (e : LineEdit)
  | load (files : Files) (path : Path)
  | importCsv (files : Files) (path : Path) (corner : Address)
  | save (disk : Disk)
  | saveAs (disk : Disk) (path : Path)
  | setOptions (options : Formula.Options)

/-- The document that an operation leaves behind. -/
def perform (d : Document) : Operation → Document
  | .setCell a cell => (d.setCell a cell).2
  | .setInput a entered => (d.setInput a entered).2
  | .clear a => d.clear a
  | .copy source target => (d.copy source target).2
  | .editLine e => d.editLine e
  | .load files path => (d.load files path).2
  | .importCsv files path corner => (d.importCsv files path corner).2
  | .save disk => (d.save disk).2.1
  | .saveAs disk path => (d.saveAs disk path).2.1
  | .setOptions options => d.setOptions options

/-- The operations of a user: a cell that is set is one that a constructor has made. -/
def Operation.Proper : Operation → Prop
  | .setCell _ cell => cell.Built
  | _ => True

/-- The documents that allowed operations lead to from the first ones. -/
inductive Reachable (first : Document → Prop) (allowed : Operation → Prop) : Document → Prop
  | start {d : Document} : first d → Reachable first allowed d
  | step {d : Document} {op : Operation} : Reachable first allowed d → allowed op →
      Reachable first allowed (d.perform op)

/-- A document that has just been opened: a new one, or the one of a file. -/
def Opened (d : Document) : Prop :=
  ∃ options, d = new options ∨ ∃ files path, ofFile options files path = .ok d

variable {first : Document → Prop} {allowed : Operation → Prop}

/-- What holds at the beginning and is kept by every operation holds throughout. -/
theorem Reachable.invariant {I : Document → Prop} (initial : ∀ d, first d → I d)
    (kept : ∀ d op, I d → allowed op → I (d.perform op)) {d : Document}
    (h : Reachable first allowed d) : I d := by
  induction h with
  | start opened => exact initial _ opened
  | step _ admitted ih => exact kept _ _ ih admitted

/-! ### What an operation does to the sheet -/

/-- The cell that an operation puts at an address unless it closes a cycle. -/
inductive Puts (d : Document) : Operation → Address → Cell → Prop
  | given (a : Address) (cell : Cell) : Puts d (.setCell a cell) a cell
  | entered (a : Address) (text : List Char) : Puts d (.setInput a text) a (.ofInput d.options text)
  | moved {source target : Address} {cell : Cell} {text moved : List Char} {tokens : List Token} :
      d.sheet[source]? = some cell → cell.content = .formula text tokens →
      Formula.offset d.options (distance source.column target.column)
        (distance source.row target.row) text = .ok moved →
      Puts d (.copy source target) target (.ofInput d.options moved)
  | copied {source target : Address} {cell : Cell} :
      d.sheet[source]? = some cell → Puts d (.copy source target) target cell

/-- What an operation does to a document. -/
inductive Change (d : Document) : Operation → Document → Prop
  /-- The operation has failed, or it does not concern the cells. -/
  | kept {op : Operation} {d' : Document} :
      d'.sheet = d.sheet → d'.dependents = d.dependents → Change d op d'
  | removed {op : Operation} (a : Address) : Change d op (d.edited (d.sheet.erase a))
  | put {op : Operation} {a : Address} {cell : Cell} : Puts d op a cell →
      (cell.dependsOn = [] ∨ Sheet.findCycle (d.sheet.insert a cell) a = none) →
      Change d op (d.edited (d.sheet.insert a cell))
  | shifted (e : LineEdit) : Change d (.editLine e) (d.edited (shiftSheet d.options e d.sheet))
  | loaded {files : Files} {path : Path} {sheet : Sheet} : readSheet d.options files path = .ok sheet →
      Change d (.load files path)
        { d with sheet, path := some path, modified := false, dependents := sheet.dependents }
  | imported {files : Files} {path : Path} {text : List Char} (corner : Address) :
      files.read sheetFileLimit path = .ok text →
      Change d (.importCsv files path corner)
        (d.edited (d.sheet.insertAll (Csv.cells d.options corner text)))

theorem change_clear (d : Document) (op : Operation) (a : Address) : Change d op (d.clear a) := by
  rw [clear]
  split
  · exact .removed a
  · exact .kept rfl rfl

/-- An empty cell removes what is there. Another one is refused without a trace if a cycle is found from it, and is put
in if it depends on nothing or no cycle is found. -/
theorem setCell_cases (d : Document) (a : Address) (cell : Cell) :
    cell.content = .empty ∧ d.setCell a cell = (.ok (), d.clear a) ∨
      cell.content ≠ .empty ∧
        ((∃ path, Sheet.findCycle (d.sheet.insert a cell) a = some path ∧
            d.setCell a cell = (.error (.circularDependency path), d)) ∨
          (cell.dependsOn = [] ∨ Sheet.findCycle (d.sheet.insert a cell) a = none) ∧
            d.setCell a cell = (.ok (), d.edited (d.sheet.insert a cell))) := by
  rw [setCell]
  split
  · next empty => exact .inl ⟨empty, rfl⟩
  · next filled =>
    refine .inr ⟨filled, ?_⟩
    simp only [Sheet.restore_insert]
    cases depends : cell.dependsOn with
    | nil => exact .inr ⟨.inl rfl, rfl⟩
    | cons first rest =>
      simp only [List.isEmpty_cons, Bool.false_eq_true, if_false]
      cases found : Sheet.findCycle (d.sheet.insert a cell) a with
      | none => exact .inr ⟨.inr rfl, rfl⟩
      | some path => exact .inl ⟨path, rfl, rfl⟩

theorem change_setCell (d : Document) {op : Operation} {a : Address} {cell : Cell}
    (puts : Puts d op a cell) : Change d op (d.setCell a cell).2 := by
  rcases d.setCell_cases a cell with ⟨-, cleared⟩ | ⟨-, ⟨path, -, refused⟩ | ⟨free, set⟩⟩
  · rw [cleared]
    exact change_clear d op a
  · rw [refused]
    exact .kept rfl rfl
  · rw [set]
    exact .put puts free

/-- Every operation is one of the kinds of change. -/
theorem change_perform (d : Document) (op : Operation) : Change d op (d.perform op) := by
  cases op with
  | setCell a cell => exact change_setCell d (.given a cell)
  | setInput a entered => exact change_setCell d (.entered a entered)
  | clear a => exact change_clear d _ a
  | copy source target =>
    rw [perform, copy]
    split
    · exact change_clear d _ target
    · next cell found =>
      split
      · next text tokens content =>
        split
        · exact .kept rfl rfl
        · next moved offset => exact change_setCell d (.moved found content offset)
      · exact change_setCell d (.copied found)
  | editLine e => exact .shifted e
  | load files path =>
    rw [perform, load]
    split
    · exact .kept rfl rfl
    · next sheet read => exact .loaded read
  | importCsv files path corner =>
    rw [perform, importCsv]
    split
    · exact .kept rfl rfl
    · next text read =>
      split
      · exact .kept rfl rfl
      · exact .imported corner read
  | save disk =>
    rw [perform, save]
    split
    · exact .kept rfl rfl
    · split <;> exact .kept rfl rfl
  | saveAs disk path =>
    rw [perform, saveAs, save]
    split
    · exact .kept rfl rfl
    · split <;> exact .kept rfl rfl
  | setOptions options => exact .kept rfl rfl

/-- The document of a file holds nothing yet, or what was loaded into a new document. -/
theorem change_opened {d : Document} (h : Opened d) :
    ∃ options, (d.sheet = ∅ ∧ d.dependents = ∅) ∨
      ∃ files path, Change (new options) (.load files path) d := by
  obtain ⟨options, rfl | ⟨files, path, opened⟩⟩ := h
  · exact ⟨options, .inl ⟨rfl, rfl⟩⟩
  · refine ⟨options, ?_⟩
    rw [ofFile] at opened
    split at opened
    · split at opened
      · next d' loaded =>
        cases opened
        have := change_perform (new options) (.load files path)
        rw [perform, loaded] at this
        exact .inr ⟨_, _, this⟩
      · simp at opened
    · cases opened
      exact .inl ⟨rfl, rfl⟩

/-! ### The map of dependents -/

theorem dependents_eq_of_change {d d' : Document} {op : Operation} (change : Change d op d')
    (current : d.dependents = d.sheet.dependents) : d'.dependents = d'.sheet.dependents := by
  cases change with
  | kept sheet dependents => rw [sheet, dependents, current]
  | removed | put | shifted | loaded | imported => rfl

theorem dependents_eq_of_opened {d : Document} (h : Opened d) : d.dependents = d.sheet.dependents := by
  obtain ⟨options, ⟨sheet, dependents⟩ | ⟨files, path, change⟩⟩ := change_opened h
  · rw [sheet, dependents]
    rfl
  · exact dependents_eq_of_change change rfl

/-- The map of dependents is always the one of the sheet. -/
theorem Reachable.dependents_eq {d : Document} (h : Reachable Opened allowed d) :
    d.dependents = d.sheet.dependents :=
  h.invariant (fun _ opened => dependents_eq_of_opened opened)
    fun d op current _ => dependents_eq_of_change (change_perform d op) current

/-! ### Cells -/

/-- What holds of the cells that are made from text under some options. -/
structure MadeUnder (options : Formula.Options) (P : Cell → Prop) : Prop where
  ofInput : ∀ entered, P (.ofInput options entered)
  field : ∀ field, P (Csv.cell options field)
  value : ∀ written cell, Grd.readValue options written = .ok cell → P cell

/-- What holds of the cells that are made from text under some options, and stays when a line is inserted or
deleted. -/
structure InheritedUnder (options : Formula.Options) (P : Cell → Prop) : Prop where
  ofInput : ∀ entered, P (.ofInput options entered)
  field : ∀ field, P (Csv.cell options field)
  value : ∀ written cell, Grd.readValue options written = .ok cell → P cell
  shifted : ∀ e cell, P cell → P (shiftCell options e cell)

theorem InheritedUnder.made {options : Formula.Options} {P : Cell → Prop} (h : InheritedUnder options P) :
    MadeUnder options P :=
  ⟨h.ofInput, h.field, h.value⟩

/-- What is inherited whatever the options are. -/
def Inherited (P : Cell → Prop) : Prop :=
  ∀ options, InheritedUnder options P

/-- It is enough to look at the cells that constructors make. -/
theorem Inherited.of_built {P : Cell → Prop} (built : ∀ cell : Cell, cell.Built → P cell)
    (shifted : ∀ options e cell, P cell → P (shiftCell options e cell)) : Inherited P :=
  fun options =>
    { ofInput := fun entered => built _ (.ofInput options entered)
      field := fun field => built _ (Csv.built_cell options field)
      value := fun _ _ read => built _ (Grd.built_of_readValue read)
      shifted := shifted options }

/-- All cells of a sheet have a property. -/
def Holds (P : Cell → Prop) (s : Sheet) : Prop :=
  ∀ (a : Address) cell, s[a]? = some cell → P cell

theorem holds_insert {P : Cell → Prop} {s : Sheet} (all : Holds P s) (a : Address) {cell : Cell}
    (h : P cell) : Holds P (s.insert a cell) := by
  intro b other found
  rw [Std.ExtTreeMap.getElem?_insert] at found
  split at found
  · cases found
    exact h
  · exact all b other found

theorem holds_insertAll {P : Cell → Prop} {s : Sheet} (all : Holds P s) {cells : List (Address × Cell)}
    (h : ∀ entry ∈ cells, P entry.2) : Holds P (s.insertAll cells) := by
  intro a cell found
  rcases Sheet.mem_of_getElem?_insertAll found with found | mem
  · exact all a cell found
  · exact h _ mem

theorem holds_empty (P : Cell → Prop) : Holds P ∅ := by
  intro a cell found
  simp at found

section Inherited

variable {options : Formula.Options} {P : Cell → Prop}

theorem MadeUnder.csv (h : MadeUnder options P) (corner : Address) (text : List Char) :
    ∀ entry ∈ Csv.cells options corner text, P entry.2 := by
  rintro ⟨a, cell⟩ mem
  obtain ⟨⟨fields, row⟩, -, mem⟩ := List.mem_flatMap.1 mem
  obtain ⟨⟨field, column⟩, -, made⟩ := List.mem_filterMap.1 mem
  obtain ⟨-, same⟩ := Option.ite_none_left_eq_some.1 made
  cases same
  exact h.field field

theorem MadeUnder.grd (h : MadeUnder options P) {text : List Char} {s : Sheet}
    (read : Grd.read options text = .ok s) : Holds P s := by
  refine Grd.forall_of_readLines (fun line _ a cell read => ?_) (holds_empty P) read
  obtain ⟨-, value, -, -, read⟩ := Grd.exists_of_readLine? read
  exact h.value value cell read

theorem MadeUnder.readSheet (h : MadeUnder options P) {files : Files} {path : Path} {sheet : Sheet}
    (read : Document.readSheet options files path = .ok sheet) : Holds P sheet := by
  rw [Document.readSheet] at read
  split at read
  · split at read
    · simp at read
    · next text _ =>
      cases readText : Grd.read options text with
      | error fault =>
        rw [readText] at read
        cases read
      | ok made =>
        rw [readText] at read
        cases read
        exact h.grd readText
  · split at read
    · split at read
      · simp at read
      · cases read
        exact holds_insertAll (holds_empty P) (h.csv _ _)
    · simp at read

/-- Whatever is put into the sheet has the property. -/
theorem MadeUnder.puts {d : Document} (h : MadeUnder d.options P) {op : Operation} {a : Address}
    {cell : Cell} (puts : Puts d op a cell) (given : ∀ a cell, op = .setCell a cell → P cell)
    (all : Holds P d.sheet) : P cell := by
  cases puts with
  | given => exact given _ _ rfl
  | entered => exact h.ofInput _
  | moved => exact h.ofInput _
  | copied found => exact all _ _ found

/-- After an operation all cells have the property if the old ones and those that are made have it; the cells that
come from an edit of a line are left to be looked at. -/
theorem MadeUnder.change {d d' : Document} (h : MadeUnder d.options P) {op : Operation} (change : Change d op d')
    (given : ∀ a cell, op = .setCell a cell → P cell)
    (shifted : ∀ e, op = .editLine e → ∀ (a : Address) cell, d.sheet[a]? = some cell → P (shiftCell d.options e cell))
    (all : Holds P d.sheet) : Holds P d'.sheet := by
  cases change with
  | kept sheet => rwa [sheet]
  | removed a =>
    intro b cell found
    rw [edited, Std.ExtTreeMap.getElem?_erase] at found
    exact all b cell (Option.ite_none_left_eq_some.1 found).2
  | put puts => exact holds_insert all _ (h.puts puts given all)
  | shifted e =>
    refine holds_insertAll (holds_empty P) fun entry mem => ?_
    obtain ⟨⟨a, cell⟩, listed, moved⟩ := List.mem_filterMap.1 mem
    obtain ⟨a', -, rfl⟩ := Option.map_eq_some_iff.1 moved
    exact shifted e rfl a cell (Std.ExtTreeMap.mem_toList_iff_getElem?_eq_some.1 listed)
  | loaded read => exact h.readSheet read
  | imported corner read => exact holds_insertAll all (h.csv _ _)

theorem InheritedUnder.change {d d' : Document} (h : InheritedUnder d.options P) {op : Operation}
    (change : Change d op d') (given : ∀ a cell, op = .setCell a cell → P cell)
    (all : Holds P d.sheet) : Holds P d'.sheet :=
  h.made.change change given (fun e _ a cell found => h.shifted e cell (all a cell found)) all

end Inherited

/-- A property that is inherited, and that every given cell has, holds of all cells at any time. -/
theorem Reachable.holds {P : Cell → Prop} (h : Inherited P)
    (given : ∀ a cell, allowed (.setCell a cell) → P cell) {d : Document}
    (reachable : Reachable Opened allowed d) : Holds P d.sheet := by
  refine reachable.invariant (I := fun d => Holds P d.sheet) (fun d opened => ?_) ?_
  · obtain ⟨options, ⟨sheet, -⟩ | ⟨files, path, change⟩⟩ := change_opened opened
    · rw [sheet]
      exact holds_empty P
    · exact (h _).change change (by simp) (holds_empty P)
  · intro d op all admitted
    exact (h _).change (change_perform d op) (fun a cell is => given a cell (is ▸ admitted)) all

/-! ### Fixed options -/

/-- The operation does not change how formulas are read. -/
def Operation.KeepsOptions : Operation → Prop
  | .setOptions _ => False
  | _ => True

theorem options_setCell (d : Document) (a : Address) (cell : Cell) : (d.setCell a cell).2.options = d.options := by
  rcases d.setCell_cases a cell with ⟨-, cleared⟩ | ⟨-, ⟨path, -, refused⟩ | ⟨-, set⟩⟩
  · rw [cleared, clear]
    split <;> rfl
  · rw [refused]
  · rw [set, edited]

theorem options_perform (d : Document) {op : Operation} (h : op.KeepsOptions) :
    (d.perform op).options = d.options := by
  cases op with
  | setCell a cell => exact options_setCell d a cell
  | setInput a entered => exact options_setCell d a _
  | clear a =>
    rw [perform, clear]
    split <;> rfl
  | copy source target =>
    rw [perform, copy]
    split
    · rw [clear]
      split <;> rfl
    · split
      · split
        · rfl
        · exact options_setCell d target _
      · exact options_setCell d target _
  | editLine e => rfl
  | load files path =>
    rw [perform, load]
    split <;> rfl
  | importCsv files path corner =>
    rw [perform, importCsv]
    split
    · rfl
    · split <;> rfl
  | save disk =>
    rw [perform, save]
    split
    · rfl
    · split <;> rfl
  | saveAs disk path =>
    rw [perform, saveAs, save]
    split
    · rfl
    · split <;> rfl
  | setOptions options => exact absurd h not_false

/-- The same for a new document whose options stay: the property may hang on the options. -/
theorem Reachable.holds_under {options : Formula.Options} {P : Cell → Prop} (h : InheritedUnder options P)
    (keeps : ∀ op, allowed op → op.KeepsOptions) (given : ∀ a cell, allowed (.setCell a cell) → P cell)
    {d : Document} (reachable : Reachable (· = new options) allowed d) : d.options = options ∧ Holds P d.sheet := by
  refine reachable.invariant (I := fun d => d.options = options ∧ Holds P d.sheet) (fun d first => ?_) ?_
  · rw [first]
    exact ⟨rfl, holds_empty P⟩
  · rintro d op ⟨rfl, all⟩ admitted
    exact ⟨options_perform d (keeps op admitted),
      h.change (change_perform d op) (fun a cell is => given a cell (is ▸ admitted)) all⟩

end Document

end Spreadsheet
