import Spreadsheet.Disk
import Spreadsheet.Proofs.Text

/-!
# What is written to a file is read from it

The way to a place goes through directories, and nothing is written where a directory stands.  So every path leads to
the same place before and after a file has been written, and a file is written at the place to which its path leads.

* `components_of_splitLast?` — the components of a path that ends with a name.
* `Files.read_of_find` — a file with the bytes of a text is read as that text.
* `locate_of_target`, `target_put` — where a path leads, and that writing does not change it.
* `read_of_write` — what has been written to a file is read from it.
* `exists_write_of_target`, `exists_write_of_write` — when a file can be written.
-/

namespace Spreadsheet

/-! ### The last component -/

/-- A path that ends with a component has it as its last one. -/
theorem Path.components_of_splitLast? {p : Path} {before : List (List Char)} {last : List Char}
    (h : p.splitLast? = some (before, last, false)) : p.components = before ++ [last] := by
  rw [splitLast?] at h
  split at h
  · cases h
  · next last' front cut =>
    simp only [Option.some.injEq, Prod.mk.injEq, decide_eq_false_iff_not] at h
    obtain ⟨rfl, rfl, plain⟩ := h
    have ends : ∀ part ∈ p.components.reverse.head?, decide (part = []) = false := by
      refine fun part mem => decide_eq_false fun empty => ?_
      rw [List.head?_reverse, empty] at mem
      rcases Text.of_getLast?_split mem with rfl | ⟨c, mem, slash⟩
      · simp [components] at cut
      · exact plain (of_decide_eq_true slash ▸ mem)
    have whole : p.components.reverse = last' :: front := by
      rw [← cut]
      exact (Text.dropWhile_of_head ends).symm
    rw [← List.reverse_reverse p.components, whole, List.reverse_cons]

/-! ### The text of a file -/

/-- The bytes of a text are read as that text, if there are not too many of them. -/
theorem Files.read_of_find {files : Files} {p : Path} {text : List Char} {limit : Nat}
    (found : files.find p = .ok (.file (String.ofList text).toUTF8)) (small : Text.byteLength text ≤ limit) :
    files.read limit p = .ok text := by
  have size : ¬limit < (String.ofList text).toUTF8.size := by
    rw [String.toUTF8_eq_toByteArray, String.size_toByteArray, ← Text.byteLength_eq_utf8ByteSize_ofList]
    omega
  have decoded : String.fromUTF8? (String.ofList text).toUTF8 = some (String.ofList text) := by
    rw [String.fromUTF8?, String.toUTF8_eq_toByteArray, dif_pos (String.ofList text).isValidUTF8]
    rfl
  simp only [read, found, if_neg size, decoded, String.toList_ofList]

namespace Disk

variable {d d' : Disk} {p : Path} {place : Place}

/-! ### Where a path leads -/

theorem isDirectory_of_step {q r : Place} {component : List Char} (h : d.step q component = .ok r) :
    d.isDirectory q = true := by
  rw [step] at h
  split at h
  · assumption
  · split at h <;> cases h

/-- A file is written at the place to which its path leads. -/
theorem locate_of_target (h : d.target p = .ok place) : d.locate p = .ok place := by
  rw [target] at h
  split at h
  · cases h
  · cases h
  · next start before last slash started cut =>
    split at h
    · cases h
    · next parent walked =>
      split at h
      · cases h
      · next plain =>
        have unended : slash = false := by
          have := isDirectory_of_step h
          simp_all
        subst unended
        rw [locate, started, Path.components_of_splitLast? cut]
        simp only [List.foldlM_append, walked, List.foldlM_cons, List.foldlM_nil]
        exact (bind_pure _).trans h

/-- A step from a directory does not depend on what stands elsewhere. -/
theorem step_put {q r : Place} {component : List Char} (entry : Entry) (file : d.isDirectory place = false)
    (h : d.step q component = .ok r) : (d.put place entry).step q component = .ok r := by
  have directory := isDirectory_of_step h
  have apart : q ≠ place := by
    rintro rfl
    rw [directory] at file
    cases file
  have still : (d.put place entry).isDirectory q = true := by
    rw [isDirectory, occupant?_put_ne d entry apart]
    exact directory
  rw [step, if_pos directory] at h
  rw [step, if_pos still, h]

theorem foldlM_step_put {components : List (List Char)} {q r : Place} (entry : Entry)
    (file : d.isDirectory place = false) (h : components.foldlM d.step q = .ok r) :
    components.foldlM (d.put place entry).step q = .ok r := by
  induction components generalizing q with
  | nil => exact h
  | cons component components ih =>
    rw [List.foldlM_cons] at h ⊢
    cases first : d.step q component with
    | error fault =>
      rw [first] at h
      cases h
    | ok next =>
      rw [first] at h
      rw [step_put entry file first]
      exact ih h

/-- A file is still written at the same place when something has been put where no directory stands. -/
theorem target_put {q : Place} (entry : Entry) (file : d.isDirectory place = false) (h : d.target p = .ok q) :
    (d.put place entry).target p = .ok q := by
  have same : (d.put place entry).start p = d.start p := rfl
  rw [target] at h ⊢
  rw [same]
  split at h
  · cases h
  · cases h
  · next start before last slash started cut =>
    split at h
    · cases h
    · next parent walked =>
      simp only [foldlM_step_put entry file walked]
      split at h
      · cases h
      · next plain =>
        have step := step_put entry file h
        rw [isDirectory_of_step h] at plain
        rw [isDirectory_of_step step, if_neg plain, step]

/-! ### Writing and reading -/

/-- A path that does not name a device that drops what is written to it. -/
def Keeps (d : Disk) (p : Path) : Prop :=
  ∀ place, d.target p = .ok place → d.occupant? place ≠ some .nullDevice

/-- What writing does to a disk. -/
theorem exists_of_write {text : List Char} (keeps : d.Keeps p) (h : d.write p text = .ok d') :
    ∃ place, d.target p = .ok place ∧ d.isDirectory place = false ∧
      d' = d.put place (.file (String.ofList text).toUTF8) := by
  rw [write] at h
  split at h
  · cases h
  · next place found =>
    split at h
    · cases h
    · next file =>
      refine ⟨place, found, Bool.eq_false_iff.2 file, ?_⟩
      split at h
      · next null => exact absurd null (keeps place found)
      · cases h
      · exact (Except.ok.inj h).symm

/-- The bytes of a text are found under the path to which it has been written. -/
theorem find_of_write {text : List Char} (keeps : d.Keeps p) (h : d.write p text = .ok d') :
    d'.files.find p = .ok (.file (String.ofList text).toUTF8) := by
  obtain ⟨place, found, file, rfl⟩ := exists_of_write keeps h
  have below : place.isEmpty = false := (Bool.or_eq_false_iff.1 file).1
  have node : (d.put place (.file (String.ofList text).toUTF8)).node? place =
      some (.file (String.ofList text).toUTF8) := by
    rw [node?, isDirectory, below, occupant?_put]
    rfl
  simp only [files, locate_of_target (target_put _ file found), node]

/-- **What has been written to a file is read from it**, as long as it is not too large. -/
theorem read_of_write {text : List Char} {limit : Nat} (keeps : d.Keeps p) (small : Text.byteLength text ≤ limit)
    (h : d.write p text = .ok d') : d'.files.read limit p = .ok text :=
  Files.read_of_find (find_of_write keeps h) small

/-- A file can be written where a path leads to a place at which nothing stands. -/
theorem exists_write_of_target (found : d.target p = .ok place) (free : d.node? place = none) (text : List Char) :
    d.Keeps p ∧ ∃ d', d.write p text = .ok d' := by
  rw [node?] at free
  split at free
  · cases free
  · next file =>
    have nothing := Option.map_eq_none_iff.1 free
    constructor
    · intro place' found' null
      obtain rfl : place = place' := Except.ok.inj (found.symm.trans found')
      rw [nothing] at null
      cases null
    · refine ⟨d.put place (.file (String.ofList text).toUTF8), ?_⟩
      simp only [write, found, if_neg file, nothing]

/-- A file that has been written can be written again. -/
theorem exists_write_of_write {text : List Char} (keeps : d.Keeps p) (h : d.write p text = .ok d') (text' : List Char) :
    d'.Keeps p ∧ ∃ d'', d'.write p text' = .ok d'' := by
  obtain ⟨place, found, file, rfl⟩ := exists_of_write keeps h
  have again := target_put (.file (String.ofList text).toUTF8) file found
  have below : place.isEmpty = false := (Bool.or_eq_false_iff.1 file).1
  constructor
  · intro place' found' null
    obtain rfl : place = place' := Except.ok.inj (again.symm.trans found')
    simp at null
  · refine ⟨(d.put place (.file (String.ofList text).toUTF8)).put place (.file (String.ofList text').toUTF8), ?_⟩
    rw [write, again]
    simp only [isDirectory, below, occupant?_put]
    rfl

end Disk

end Spreadsheet
