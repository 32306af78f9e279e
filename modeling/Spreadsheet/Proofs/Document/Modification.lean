import Spreadsheet.Proofs.Document.Failure

/-!
# Whether a document is modified

A document that does not count as modified can be closed without loss: its sheet is the one that was last loaded or
saved.  Clearing a cell that is not there, importing an empty table, setting a cell that is refused and saving in vain
do not change the sheet, and they do not make a modified document look unmodified either.

* `marks_perform` — an operation that does not bring sheet and file together marks every change of the sheet.
* `modified_of_synced` — one that does leaves the document unmodified.
* `sheet_of_unmodified` — the sheet of an unmodified document, at any time in a run.
-/

namespace Spreadsheet.Document

variable {d d' : Document}

/-! ### Changes are marked -/

/-- From the first document to the second one the sheet has only changed if the second one counts as modified, and the
mark has not been taken away. -/
def Marks (d d' : Document) : Prop :=
  d'.modified = true ∨ d'.sheet = d.sheet ∧ d'.modified = d.modified

theorem Marks.refl (d : Document) : Marks d d :=
  .inr ⟨rfl, rfl⟩

theorem marks_edited (d : Document) (s : Sheet) : Marks d (d.edited s) :=
  .inl rfl

theorem marks_clear (d : Document) (a : Address) : Marks d (d.clear a) := by
  rw [clear]
  split
  · exact marks_edited d _
  · exact .refl d

theorem marks_setCell (d : Document) (a : Address) (cell : Cell) : Marks d (d.setCell a cell).2 := by
  rcases d.setCell_cases a cell with ⟨-, cleared⟩ | ⟨-, ⟨path, -, refused⟩ | ⟨-, set⟩⟩
  · rw [cleared]
    exact marks_clear d a
  · rw [refused]
    exact .refl d
  · rw [set]
    exact marks_edited d _

theorem marks_copy (d : Document) (source target : Address) : Marks d (d.copy source target).2 := by
  rw [copy]
  split
  · exact marks_clear d target
  · split
    · split
      · exact .refl d
      · exact marks_setCell d target _
    · exact marks_setCell d target _

theorem marks_importCsv (d : Document) (files : Files) (path : Path) (corner : Address) :
    Marks d (d.importCsv files path corner).2 := by
  rw [importCsv]
  split
  · exact .refl d
  · split
    · exact .refl d
    · exact marks_edited d _

theorem marks_abandoned (d : Document) (op : Operation) : Marks d (d.abandoned op) := by
  cases op with
  | saveAs disk path => exact .inr ⟨rfl, rfl⟩
  | _ => exact .refl d

/-! ### Loading and saving -/

/-- Whether an operation, if it succeeds, brings the sheet and a file together. -/
def Operation.syncs : Operation → Bool
  | .load _ _ | .save _ | .saveAs _ _ => true
  | _ => false

/-- An operation brings the sheet and a file together. -/
def Syncs (d : Document) (op : Operation) : Prop :=
  op.syncs = true ∧ d.failure? op = none

instance (d : Document) (op : Operation) : Decidable (d.Syncs op) :=
  inferInstanceAs (Decidable (_ ∧ _))

/-- **Every change of the sheet is marked**, and a mark stays until the sheet is loaded or saved. -/
theorem marks_perform {op : Operation} (h : ¬d.Syncs op) : Marks d (d.perform op) := by
  cases failed : d.failure? op with
  | some error =>
    rw [perform_of_failure failed]
    exact marks_abandoned d op
  | none =>
    cases op with
    | setCell a cell => exact marks_setCell d a cell
    | setInput a entered => exact marks_setCell d a _
    | clear a => exact marks_clear d a
    | copy source target => exact marks_copy d source target
    | editLine e => exact marks_edited d _
    | importCsv files path corner => exact marks_importCsv d files path corner
    | setOptions options => exact .inr ⟨rfl, rfl⟩
    | load | save | saveAs => exact absurd ⟨rfl, failed⟩ h

theorem error?_eq_none_iff {α : Type} {result : Except Error α} : error? result = none ↔ ∃ a, result = .ok a := by
  cases result <;> simp [error?]

theorem modified_of_load {files : Files} {path : Path} (h : (d.load files path).1 = .ok ()) :
    (d.load files path).2.modified = false := by
  rw [load] at h ⊢
  split at h
  · cases h
  · rfl

theorem modified_of_save {disk : Disk} {path : Path} (h : (d.save disk).1 = .ok path) :
    (d.save disk).2.1.modified = false := by
  rw [save] at h ⊢
  split at h
  · cases h
  · split at h
    · cases h
    · rfl

/-- **The mark is taken away by loading and saving**: when either of them succeeds, the document does not count as
modified. -/
theorem modified_of_synced {op : Operation} (h : d.Syncs op) : (d.perform op).modified = false := by
  obtain ⟨syncs, succeeds⟩ := h
  cases op with
  | load files path =>
    obtain ⟨_, loads⟩ := error?_eq_none_iff.1 succeeds
    exact modified_of_load loads
  | save disk =>
    obtain ⟨path, saves⟩ := error?_eq_none_iff.1 succeeds
    exact modified_of_save saves
  | saveAs disk path =>
    obtain ⟨path, saves⟩ := error?_eq_none_iff.1 succeeds
    exact modified_of_save saves
  | _ => cases syncs

/-! ### Runs -/

/-- The sheets of a run, each right after it has been loaded or saved. -/
def synced (d : Document) : List Operation → List Sheet
  | [] => []
  | op :: ops =>
    if d.Syncs op then (d.perform op).sheet :: synced (d.perform op) ops else synced (d.perform op) ops

/-- A document that has just been opened, and the sheets that have been loaded so far: none into a new document, nor
into that of a file that is not there yet. -/
inductive OpenedWith : Document → List Sheet → Prop
  | blank (options : Formula.Options) : OpenedWith (new options) []
  | absent {options : Formula.Options} {files : Files} {path : Path} {d : Document} :
      files.holds path = false → ofFile options files path = .ok d → OpenedWith d []
  | loaded {options : Formula.Options} {files : Files} {path : Path} {d : Document} :
      files.holds path = true → ofFile options files path = .ok d → OpenedWith d [d.sheet]

/-- Unless the document is modified, its sheet is the last one of those in the files, and empty if there is none. -/
def Current (files : List Sheet) (d : Document) : Prop :=
  d.modified = false → d.sheet = files.getLastD ∅

theorem Marks.current {files : List Sheet} (marks : Marks d d') (h : Current files d) : Current files d' := by
  intro unmodified
  rcases marks with modified | ⟨sheet, flag⟩
  · rw [modified] at unmodified
    cases unmodified
  · rw [sheet]
    exact h (flag.symm.trans unmodified)

theorem OpenedWith.current {files : List Sheet} (h : OpenedWith d files) : Current files d := by
  intro _
  cases h with
  | blank options => rfl
  | absent missing opened =>
    rw [ofFile, missing] at opened
    cases opened
    rfl
  | loaded found opened => rfl

/-- Operations keep the sheet of an unmodified document the last one that was loaded or saved. -/
theorem Current.foldl_perform {files : List Sheet} (h : Current files d) (ops : List Operation) :
    Current (files ++ d.synced ops) (ops.foldl perform d) := by
  induction ops generalizing d files with
  | nil => rwa [synced, List.append_nil]
  | cons op ops ih =>
    rw [synced, List.foldl_cons]
    split
    · have now : Current (files ++ [(d.perform op).sheet]) (d.perform op) := by
        intro _
        rw [List.getLastD_concat]
      rw [List.append_cons]
      exact ih now
    · next kept => exact ih ((marks_perform kept).current h)

/-- **An unmodified document is as it was last loaded or saved.** At any time in a run, if the document does not count
as modified, then its sheet is the one right after the last time that it was loaded or saved with success, and empty if
that has not happened yet. -/
theorem sheet_of_unmodified {first : Document} {files : List Sheet} (opened : OpenedWith first files)
    (ops : List Operation) (unmodified : (ops.foldl perform first).modified = false) :
    (ops.foldl perform first).sheet = (files ++ first.synced ops).getLastD ∅ :=
  opened.current.foldl_perform ops unmodified

/-- A number is entered, saved in vain and then to a file; clearing a cell that is not there changes nothing. -/
theorem sheet_of_unmodified_saved :
    let ops : List Operation := [.setInput ⟨0, 0⟩ ['5'], .save Disk.standard, .saveAs Disk.standard "t.grd".toList,
      .clear ⟨3, 3⟩, .saveAs Disk.standard "no/t.grd".toList]
    let d := ops.foldl perform (new {})
    d.modified = false ∧ d.sheet = (synced (new {}) ops).getLastD ∅ ∧
      d.sheet.toList.map (fun (a, cell) => (a, cell.input)) = [(⟨0, 0⟩, ['5'])] := by
  intro ops d
  have unmodified : d.modified = false := by decide +kernel
  refine ⟨unmodified, sheet_of_unmodified (.blank {}) ops unmodified, ?_⟩
  decide +kernel

end Spreadsheet.Document
