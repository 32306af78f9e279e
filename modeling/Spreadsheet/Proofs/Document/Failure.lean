import Spreadsheet.Proofs.Document.Coherence

/-!
# Operations that fail

An operation that fails leaves the document as it was, whatever the reason and however far it has got: a cell whose
formula closes a cycle is put in and taken out again, and a file is read to its end before anything is replaced.  Only
saving to another file has an effect when it fails, for the document belongs to that file from then on.

* `setCell_of_error`, `copy_of_error`, `load_of_error`, `importCsv_of_error`, `save_of_error` — operation by operation.
* `perform_of_failure` — what a failed operation leaves behind.
* `foldl_perform_effective` — so a run leads to the same document without its failed operations.
-/

namespace Spreadsheet.Document

variable {d : Document} {error : Error}

/-! ### Operation by operation -/

/-- A cell that closes a cycle is taken out again, and what was there before, a cell or nothing, is put back. -/
theorem setCell_of_error {a : Address} {cell : Cell} (h : (d.setCell a cell).1 = .error error) :
    (d.setCell a cell).2 = d := by
  rcases d.setCell_cases a cell with ⟨-, cleared⟩ | ⟨-, ⟨path, -, refused⟩ | ⟨-, set⟩⟩
  · rw [cleared] at h
    cases h
  · rw [refused]
  · rw [set] at h
    cases h

/-- Copying fails before the cell is made, or like setting it. -/
theorem copy_of_error {source target : Address} (h : (d.copy source target).1 = .error error) :
    (d.copy source target).2 = d := by
  rw [copy] at h ⊢
  cases found : d.sheet[source]? with
  | none =>
    rw [found] at h
    cases h
  | some cell =>
    simp only [found] at h ⊢
    split
    · next text tokens content =>
      simp only [content] at h
      split
      · rfl
      · next moved offset =>
        simp only [offset] at h
        exact setCell_of_error h
    · next other =>
      split at h
      · next text tokens content => exact absurd content (other text tokens)
      · exact setCell_of_error h

/-- Nothing is replaced before the whole file has been read. -/
theorem load_of_error {files : Files} {path : Path} (h : (d.load files path).1 = .error error) :
    (d.load files path).2 = d := by
  rw [load] at h ⊢
  split at h
  · rfl
  · cases h

theorem importCsv_of_error {files : Files} {path : Path} {corner : Address}
    (h : (d.importCsv files path corner).1 = .error error) : (d.importCsv files path corner).2 = d := by
  rw [importCsv] at h ⊢
  split at h
  · rfl
  · split at h <;> cases h

/-- The document still counts as modified if its file cannot be written. -/
theorem save_of_error {disk : Disk} (h : (d.save disk).1 = .error error) : (d.save disk).2 = (d, disk) := by
  rw [save] at h ⊢
  split at h
  · rfl
  · split at h
    · rfl
    · cases h

/-! ### All operations -/

/-- The error of a result, if it is one. -/
def error? {α : Type} : Except Error α → Option Error
  | .error error => some error
  | .ok _ => none

theorem error?_eq_some_iff {α : Type} {result : Except Error α} :
    error? result = some error ↔ result = .error error := by
  cases result <;> simp [error?]

/-- The error that an operation gives, if it fails. -/
def failure? (d : Document) : Operation → Option Error
  | .setCell a cell => error? (d.setCell a cell).1
  | .setInput a entered => error? (d.setInput a entered).1
  | .copy source target => error? (d.copy source target).1
  | .load files path => error? (d.load files path).1
  | .importCsv files path corner => error? (d.importCsv files path corner).1
  | .save disk => error? (d.save disk).1
  | .saveAs disk path => error? (d.saveAs disk path).1
  | .clear _ | .editLine _ | .setOptions _ => none

/-- Whether an operation gives the document another file even if it fails. -/
def Operation.renames : Operation → Bool
  | .saveAs _ _ => true
  | _ => false

theorem perform_eq_of_failure {op : Operation} (h : d.failure? op = some error) (keeps : op.renames = false) :
    d.perform op = d := by
  cases op with
  | setCell a cell => exact setCell_of_error (error?_eq_some_iff.1 h)
  | setInput a entered => exact setCell_of_error (error?_eq_some_iff.1 h)
  | copy source target => exact copy_of_error (error?_eq_some_iff.1 h)
  | load files path => exact load_of_error (error?_eq_some_iff.1 h)
  | importCsv files path corner => exact importCsv_of_error (error?_eq_some_iff.1 h)
  | save disk => exact congrArg Prod.fst (save_of_error (error?_eq_some_iff.1 h))
  | saveAs => cases keeps
  | clear | editLine | setOptions => cases h

/-- The document that an operation leaves behind when it fails. -/
def abandoned (d : Document) : Operation → Document
  | .saveAs _ path => { d with path := some path }
  | _ => d

/-- **A failed operation leaves no trace.** Whatever the error, the cells, the map of dependents, the options, the file
of the document and whether it counts as modified are what they were; only after a failed attempt to save to another
file the document belongs to that file. -/
theorem perform_of_failure {op : Operation} (h : d.failure? op = some error) : d.perform op = d.abandoned op := by
  cases op with
  | saveAs disk path =>
    have failed : (save { d with path := some path } disk).1 = .error error := error?_eq_some_iff.1 h
    exact congrArg Prod.fst (save_of_error failed)
  | _ => exact perform_eq_of_failure h rfl

/-- A cell that depends on itself closes a cycle. -/
theorem findCycle_of_self {s : Sheet} {a : Address} {cell : Cell} {rest : List Address}
    (h : cell.dependsOn = a :: rest) : Sheet.findCycle (s.insert a cell) a = some [a, a] := by
  have on : Sheet.dependsOn (s.insert a cell) a = a :: rest := by
    rw [Sheet.dependsOn, Std.ExtTreeMap.getElem?_insert_self]
    exact h
  refine Sheet.Moment.run_of_inl ?_
  simp only [Sheet.Moment.turn, Sheet.Moment.start, on, Std.ExtTreeSet.mem_insert_self, if_true]
  rfl

/-- A number stays where a formula that names its own cell is refused. -/
theorem perform_of_failure_cycle :
    let d := (new {}).perform (.setInput ⟨0, 0⟩ ['5'])
    let op := Operation.setInput ⟨0, 0⟩ "=A1".toList
    d.failure? op = some (.circularDependency [⟨0, 0⟩, ⟨0, 0⟩]) ∧ d.perform op = d ∧
      (d.perform op).sheet[(⟨0, 0⟩ : Address)]?.map Cell.input = some ['5'] := by
  intro d op
  have refused : d.failure? op = some (.circularDependency [⟨0, 0⟩, ⟨0, 0⟩]) := by
    have depends : (Cell.ofInput d.options "=A1".toList).dependsOn = [⟨0, 0⟩] := by decide +kernel
    have filled : (Cell.ofInput d.options "=A1".toList).content ≠ .empty := by decide +kernel
    simp only [op, failure?, setInput, setCell, if_neg filled, findCycle_of_self depends, depends]
    rfl
  have same : d.perform op = d := perform_of_failure refused
  refine ⟨refused, same, ?_⟩
  rw [same]
  decide +kernel

/-! ### Runs -/

/-- The operations of a run that have an effect: those that succeed, and attempts to save to another file. -/
def effective (d : Document) : List Operation → List Operation
  | [] => []
  | op :: ops =>
    if (d.failure? op).isSome && !op.renames then effective d ops else op :: effective (d.perform op) ops

/-- **Failed operations leave no trace in a run**: without them it leads to the same document. -/
theorem foldl_perform_effective (d : Document) (ops : List Operation) :
    (d.effective ops).foldl perform d = ops.foldl perform d := by
  induction ops generalizing d with
  | nil => rfl
  | cons op ops ih =>
    rw [effective]
    split
    · next dropped =>
      obtain ⟨failed, keeps⟩ := Bool.and_eq_true_iff.1 dropped
      obtain ⟨error, failed⟩ := Option.isSome_iff_exists.1 failed
      rw [List.foldl_cons, perform_eq_of_failure failed (by simpa using keeps), ih]
    · rw [List.foldl_cons, List.foldl_cons, ih]

end Spreadsheet.Document
