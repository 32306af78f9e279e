import Mathlib.Data.List.Forall2
import Spreadsheet.Reference

/-!
# The spelling of references

What is written for a column, a row, a cell, an area or a reference is read back as the same thing, as long as
its indices are below the bound.  Reading accepts more spellings than are written, but no other characters.

* `lettersValue_columnName` — the letters of a column denote its place, counted from one.
* `Address.lt_of_read?` / `Reference.below_of_read?` — whatever has been read is below the bound.
* `Area.columnCoordinates` / `Area.rowCoordinates` — the coordinates that an area names; `Area.below_iff`.
* `isPlain_of_read?` / `Area.isPlain_of_read?` — the characters of whatever is read as a part or as an area.
* `ReferencePart.read?_text`, `Area.read?_text`, `Reference.read?_text` — the round trips.
* `Reference.eq_of_read?_text` — with the last index among its indices, the text is not read as anything else.
* `Reference.split_of_read?` — a reference is the name of a sheet, up to its mark, and an area without a mark.
-/

namespace Spreadsheet

/-! ### Letters of columns and digits of rows -/

namespace Address

theorem isAlpha_letter : ∀ digit < 26, (letter digit).isAlpha = true := by
  decide

theorem letterValue_letter : ∀ digit < 26, letterValue (letter digit) = digit + 1 := by
  decide

theorem isAlpha_lettersOf (n : Nat) (behind : List Char) (h : ∀ c ∈ behind, c.isAlpha = true) :
    ∀ c ∈ lettersOf n behind, c.isAlpha = true := by
  fun_induction lettersOf n behind with
  | case1 behind => exact h
  | case2 behind n ih =>
    refine ih (List.forall_mem_cons.2 ⟨?_, h⟩)
    exact isAlpha_letter _ (Nat.mod_lt _ (by decide))

theorem lettersOf_ne_nil (n : Nat) (behind : List Char) (h : n ≠ 0 ∨ behind ≠ []) :
    lettersOf n behind ≠ [] := by
  fun_induction lettersOf n behind with
  | case1 behind => simpa using h
  | case2 behind n ih => exact ih (.inr (by simp))

theorem foldl_lettersOf (n : Nat) (behind : List Char) :
    (lettersOf n behind).foldl (fun n c => 26 * n + letterValue c) 0 =
      behind.foldl (fun n c => 26 * n + letterValue c) n := by
  fun_induction lettersOf n behind with
  | case1 behind => rfl
  | case2 behind n ih =>
    rw [ih, List.foldl_cons, letterValue_letter _ (Nat.mod_lt _ (by decide))]
    congr 1
    omega

theorem isAlpha_columnName (column : Nat) : ∀ c ∈ columnName column, c.isAlpha = true :=
  isAlpha_lettersOf _ _ (by simp)

theorem columnName_ne_nil (column : Nat) : columnName column ≠ [] :=
  lettersOf_ne_nil _ _ (.inl (by simp))

/-- The letters of a column denote its place, counted from one. -/
theorem lettersValue_columnName (column : Nat) : lettersValue (columnName column) = column + 1 :=
  foldl_lettersOf _ _

theorem readColumn?_columnName {column : Nat} (h : column + 1 < indexBound) :
    readColumn? (columnName column) = some column := by
  have letters : (columnName column).all Char.isAlpha = true :=
    List.all_eq_true.2 (isAlpha_columnName column)
  rw [readColumn?, lettersValue_columnName, if_pos ⟨columnName_ne_nil column, letters, h⟩]
  rfl

/-- The name of a column beyond the bound is not read. -/
theorem eq_of_readColumn?_columnName {column column' : Nat} (h : readColumn? (columnName column) = some column') :
    column' = column := by
  obtain ⟨-, eq⟩ := Option.ite_none_right_eq_some.1 h
  rw [lettersValue_columnName] at eq
  exact (Option.some.inj eq).symm

/-- The name of the row with the last index is not read. -/
theorem eq_of_readRow?_rowName {row row' : Nat} (below : row < indexBound) (h : readRow? (rowName row) = some row') :
    row' = row := by
  by_cases last : row + 1 = indexBound
  · have none : readRow? (Text.numeral 0) = none := by decide
    rw [rowName, last, Nat.mod_self, none] at h
    cases h
  · rw [readRow?_rowName (by omega)] at h
    exact (Option.some.inj h).symm

theorem isDigit_rowName (row : Nat) : ∀ c ∈ rowName row, c.isDigit = true :=
  fun _ h => Nat.isDigit_of_mem_toDigits (by decide) (by decide) h

theorem rowName_ne_nil (row : Nat) : rowName row ≠ [] :=
  Nat.toDigits_ne_nil

theorem of_readColumn?_eq_some {s : List Char} {column : Nat} (h : readColumn? s = some column) :
    s ≠ [] ∧ ∀ c ∈ s, c.isAlpha = true := by
  obtain ⟨⟨ne, letters, -⟩, -⟩ := Option.ite_none_right_eq_some.1 h
  exact ⟨ne, List.all_eq_true.1 letters⟩

/-- Columns that are read have names that are read. -/
theorem lt_of_readColumn? {s : List Char} {column : Nat} (h : readColumn? s = some column) :
    column + 1 < indexBound := by
  obtain ⟨⟨-, -, below⟩, eq⟩ := Option.ite_none_right_eq_some.1 h
  have one : 1 < indexBound := by decide
  have := Option.some.inj eq
  omega

theorem lt_of_readRow? {s : List Char} {row : Nat} (h : readRow? s = some row) : row + 1 < indexBound := by
  simp only [readRow?] at h
  split at h
  · obtain ⟨below, eq⟩ := Option.ite_none_right_eq_some.1 h
    exact Option.some.inj eq ▸ below
  · simp at h

theorem of_readRow?_eq_some {s : List Char} {row : Nat} (h : readRow? s = some row) :
    s ≠ [] ∧ ∀ c ∈ s, c.isDigit = true := by
  simp only [readRow?] at h
  split at h
  · next read =>
    obtain ⟨⟨ne, digits⟩, -⟩ := Option.ite_none_right_eq_some.1 read
    exact ⟨ne, List.all_eq_true.1 digits⟩
  · simp at h

end Address

/-! ### Coordinates -/

theorem isAlpha_of_isDigit {c : Char} (h : c.isDigit = true) : c.isAlpha = false := by
  simp only [Char.isDigit, Bool.and_eq_true, decide_eq_true_eq, ge_iff_le, UInt32.le_iff_toNat_le] at h
  show (decide (c.val ≥ 'A'.val ∧ c.val ≤ 'Z'.val) || (c.val ≥ 'a'.val && c.val ≤ 'z'.val)) = false
  simp only [Bool.or_eq_false_iff, Bool.and_eq_false_iff, decide_eq_false_iff_not, ge_iff_le,
    UInt32.le_iff_toNat_le]
  have zero : '0'.val.toNat = 48 := rfl
  have nine : '9'.val.toNat = 57 := rfl
  have upper : 'A'.val.toNat = 65 := rfl
  have lower : 'a'.val.toNat = 97 := rfl
  omega

/-- The characters of columns and rows. -/
def isPlain (c : Char) : Bool :=
  c.isAlphanum || c = '$'

theorem isPlain_of_isAlpha {c : Char} (h : c.isAlpha = true) : isPlain c = true := by
  simp [isPlain, Char.isAlphanum, h]

theorem isPlain_of_isDigit {c : Char} (h : c.isDigit = true) : isPlain c = true := by
  simp [isPlain, Char.isAlphanum, h]

namespace Coordinate

theorem isPlain_mark (c : Coordinate) : ∀ d ∈ c.mark, isPlain d = true := by
  cases anchored : c.anchored <;> simp [mark, anchored, isPlain]

theorem isPlain_columnText (c : Coordinate) : ∀ d ∈ c.columnText, isPlain d = true := by
  refine List.forall_mem_append.2 ⟨c.isPlain_mark, fun d hd => ?_⟩
  exact isPlain_of_isAlpha (Address.isAlpha_columnName c.index d hd)

theorem isPlain_rowText (c : Coordinate) : ∀ d ∈ c.rowText, isPlain d = true := by
  refine List.forall_mem_append.2 ⟨c.isPlain_mark, fun d hd => ?_⟩
  exact isPlain_of_isDigit (Address.isDigit_rowName c.index d hd)

theorem splitAnchor_mark (c : Coordinate) {s : List Char} (h : s.head? ≠ some '$') :
    splitAnchor (c.mark ++ s) = (c.anchored, s) := by
  cases anchored : c.anchored with
  | true => simp [mark, anchored, splitAnchor]
  | false =>
    simp only [mark, anchored, Bool.false_eq_true, if_false, List.nil_append]
    unfold splitAnchor
    split
    · simp at h
    · rfl

theorem isPlain_of_splitAnchor {s : List Char} (h : ∀ c ∈ (splitAnchor s).2, isPlain c = true) :
    ∀ c ∈ s, isPlain c = true := by
  unfold splitAnchor at h
  split at h
  · exact List.forall_mem_cons.2 ⟨rfl, h⟩
  · exact h

theorem head?_columnName_ne (column : Nat) (s : List Char) :
    (Address.columnName column ++ s).head? ≠ some '$' := by
  obtain ⟨c, t, eq⟩ := List.exists_cons_of_ne_nil (Address.columnName_ne_nil column)
  have letter := Address.isAlpha_columnName column c (by simp [eq])
  rw [eq]
  rintro ⟨⟩
  exact absurd letter (by decide)

theorem head?_rowName_ne (row : Nat) : (Address.rowName row).head? ≠ some '$' := by
  obtain ⟨c, t, eq⟩ := List.exists_cons_of_ne_nil (Address.rowName_ne_nil row)
  have digit := Address.isDigit_rowName row c (by simp [eq])
  rw [eq]
  rintro ⟨⟩
  exact absurd digit (by decide)

theorem readColumn?_columnText {c : Coordinate} (h : c.index + 1 < indexBound) :
    readColumn? c.columnText = some c := by
  have head := head?_columnName_ne c.index []
  rw [List.append_nil] at head
  simp only [readColumn?, columnText, splitAnchor_mark c head, Address.readColumn?_columnName h]
  rfl

theorem readRow?_rowText {c : Coordinate} (h : c.index + 1 < indexBound) :
    readRow? c.rowText = some c := by
  simp only [readRow?, rowText, splitAnchor_mark c (head?_rowName_ne c.index),
    Address.readRow?_rowName h]
  rfl

theorem eq_of_readColumn?_columnText {c c' : Coordinate} (h : readColumn? c.columnText = some c') : c' = c := by
  have head := head?_columnName_ne c.index []
  rw [List.append_nil] at head
  simp only [readColumn?, columnText, splitAnchor_mark c head] at h
  obtain ⟨column, read, rfl⟩ := Option.map_eq_some_iff.1 h
  rw [Address.eq_of_readColumn?_columnName read]

theorem eq_of_readRow?_rowText {c c' : Coordinate} (below : c.index < indexBound)
    (h : readRow? c.rowText = some c') : c' = c := by
  simp only [readRow?, rowText, splitAnchor_mark c (head?_rowName_ne c.index)] at h
  obtain ⟨row, read, rfl⟩ := Option.map_eq_some_iff.1 h
  rw [Address.eq_of_readRow?_rowName below read]

theorem isPlain_of_readColumn? {s : List Char} {c : Coordinate} (h : readColumn? s = some c) :
    ∀ d ∈ s, isPlain d = true := by
  obtain ⟨column, read, -⟩ := Option.map_eq_some_iff.1 h
  refine isPlain_of_splitAnchor fun d hd => ?_
  exact isPlain_of_isAlpha ((Address.of_readColumn?_eq_some read).2 d hd)

theorem isPlain_of_readRow? {s : List Char} {c : Coordinate} (h : readRow? s = some c) :
    ∀ d ∈ s, isPlain d = true := by
  obtain ⟨row, read, -⟩ := Option.map_eq_some_iff.1 h
  refine isPlain_of_splitAnchor fun d hd => ?_
  exact isPlain_of_isDigit ((Address.of_readRow?_eq_some read).2 d hd)

end Coordinate

/-! ### Parts -/

namespace CellReference

theorem isPlain_text (r : CellReference) : ∀ d ∈ r.text, isPlain d = true :=
  List.forall_mem_append.2 ⟨r.column.isPlain_columnText, r.row.isPlain_rowText⟩

/-- The letters of a column end where the row begins. -/
theorem isAlpha_head?_rowText (c : Coordinate) : ∀ d ∈ c.rowText.head?, d.isAlpha = false := by
  intro d hd
  cases anchored : c.anchored with
  | true =>
    obtain rfl : '$' = d := by simpa [Coordinate.rowText, Coordinate.mark, anchored] using hd
    decide
  | false =>
    have row : c.rowText = Address.rowName c.index := by
      simp [Coordinate.rowText, Coordinate.mark, anchored]
    exact isAlpha_of_isDigit (Address.isDigit_rowName c.index d (List.mem_of_mem_head? (row ▸ hd)))

theorem takeWhile_columnName (column : Nat) (row : Coordinate) :
    (Address.columnName column ++ row.rowText).takeWhile Char.isAlpha = Address.columnName column ∧
      (Address.columnName column ++ row.rowText).dropWhile Char.isAlpha = row.rowText := by
  have letters := Address.isAlpha_columnName column
  rw [List.takeWhile_append_of_pos letters, List.dropWhile_append_of_pos letters]
  cases eq : row.rowText with
  | nil => simp
  | cons d s =>
    have other : d.isAlpha = false := isAlpha_head?_rowText row d (by simp [eq])
    simp [other]

theorem splitAnchor_text (r : CellReference) : Coordinate.splitAnchor r.text =
    (r.column.anchored, Address.columnName r.column.index ++ r.row.rowText) := by
  rw [text, Coordinate.columnText, List.append_assoc]
  exact Coordinate.splitAnchor_mark _ (Coordinate.head?_columnName_ne _ _)

theorem read?_text {r : CellReference} (column : r.column.index + 1 < indexBound)
    (row : r.row.index + 1 < indexBound) : read? r.text = some r := by
  have ⟨letters, behind⟩ := takeWhile_columnName r.column.index r.row
  simp only [read?, splitAnchor_text, letters, behind, Address.readColumn?_columnName column,
    Coordinate.readRow?_rowText row]

/-- If the text of a cell is read as a cell, it is that cell; its column or its row may have the last index, and then it
is not read. -/
theorem eq_of_read?_text {r r' : CellReference} (below : r.row.index < indexBound) (h : read? r.text = some r') :
    r' = r := by
  have ⟨letters, behind⟩ := takeWhile_columnName r.column.index r.row
  simp only [read?, splitAnchor_text, letters, behind] at h
  split at h
  · next column row readColumn readRow =>
    cases h
    rw [Address.eq_of_readColumn?_columnName readColumn, Coordinate.eq_of_readRow?_rowText below readRow]
  · simp at h

theorem isPlain_of_read? {s : List Char} {r : CellReference} (h : read? s = some r) :
    ∀ d ∈ s, isPlain d = true := by
  simp only [read?] at h
  split at h
  · next column row readColumn readRow =>
    refine Coordinate.isPlain_of_splitAnchor fun d hd => ?_
    rw [← @List.takeWhile_append_dropWhile _ Char.isAlpha (Coordinate.splitAnchor s).2] at hd
    rcases List.mem_append.1 hd with letter | behind
    · exact isPlain_of_isAlpha ((Address.of_readColumn?_eq_some readColumn).2 d letter)
    · exact Coordinate.isPlain_of_readRow? readRow d behind
  · simp at h

/-- Neither a column nor a row alone is a cell. -/
theorem read?_columnText (c : Coordinate) : read? c.columnText = none := by
  have head := Coordinate.head?_columnName_ne c.index []
  rw [List.append_nil] at head
  have nothing : (Address.columnName c.index).dropWhile Char.isAlpha = [] := by
    have := @List.dropWhile_append_of_pos _ Char.isAlpha _ [] (Address.isAlpha_columnName c.index)
    rwa [List.append_nil] at this
  simp only [read?, Coordinate.columnText, Coordinate.splitAnchor_mark c head, nothing]
  rw [show Coordinate.readRow? [] = none from rfl]
  cases Address.readColumn? _ <;> rfl

theorem read?_rowText (c : Coordinate) : read? c.rowText = none := by
  have nothing : (Address.rowName c.index).takeWhile Char.isAlpha = [] := by
    have digits := Address.isDigit_rowName c.index
    cases eq : Address.rowName c.index with
    | nil => rfl
    | cons d s =>
      have digit : d.isDigit = true := digits d (by simp [eq])
      simp [isAlpha_of_isDigit digit]
  simp only [read?, Coordinate.rowText, Coordinate.splitAnchor_mark c (Coordinate.head?_rowName_ne _),
    nothing]
  rw [show Address.readColumn? [] = none from rfl]

end CellReference

/-! ### Names of cells, and bounds -/

theorem Address.name_ne_nil (a : Address) : a.name ≠ [] :=
  List.append_ne_nil_of_left_ne_nil (columnName_ne_nil a.column) _

theorem Address.isAlphanum_name (a : Address) : ∀ c ∈ a.name, c.isAlpha = true ∨ c.isDigit = true := by
  intro c mem
  rcases List.mem_append.1 mem with letter | digit
  · exact .inl (isAlpha_columnName _ c letter)
  · exact .inr (isDigit_rowName _ c digit)

theorem Address.not_mem_name {c : Char} (h : c.isAlpha = false ∧ c.isDigit = false) (a : Address) : c ∉ a.name := by
  intro mem
  rcases a.isAlphanum_name c mem with letter | digit
  · rw [h.1] at letter
    cases letter
  · rw [h.2] at digit
    cases digit

/-- The name of a cell is read back. -/
theorem Address.read?_name {a : Address} (row : a.row + 1 < indexBound) (column : a.column + 1 < indexBound) :
    Address.read? a.name = some a := by
  have text : a.name = CellReference.text ⟨⟨a.column, false⟩, ⟨a.row, false⟩⟩ := rfl
  rw [Address.read?, text, CellReference.read?_text column row]
  rfl

theorem Coordinate.lt_of_readColumn? {s : List Char} {c : Coordinate} (h : readColumn? s = some c) :
    c.index + 1 < indexBound := by
  obtain ⟨column, read, rfl⟩ := Option.map_eq_some_iff.1 h
  exact Address.lt_of_readColumn? read

theorem Coordinate.lt_of_readRow? {s : List Char} {c : Coordinate} (h : readRow? s = some c) :
    c.index + 1 < indexBound := by
  obtain ⟨row, read, rfl⟩ := Option.map_eq_some_iff.1 h
  exact Address.lt_of_readRow? read

theorem CellReference.lt_of_read? {s : List Char} {r : CellReference} (h : read? s = some r) :
    r.column.index + 1 < indexBound ∧ r.row.index + 1 < indexBound := by
  simp only [read?] at h
  split at h
  · next column row readColumn readRow =>
    cases h
    exact ⟨Address.lt_of_readColumn? readColumn, Coordinate.lt_of_readRow? readRow⟩
  · simp at h

/-- However a cell has been spelled, it has a name that is read. -/
theorem Address.lt_of_read? {s : List Char} {a : Address} (h : Address.read? s = some a) :
    a.row + 1 < indexBound ∧ a.column + 1 < indexBound := by
  obtain ⟨r, read, rfl⟩ := Option.map_eq_some_iff.1 h
  exact (CellReference.lt_of_read? read).symm

namespace ReferencePart

/-- The coordinates of a part are below a bound. -/
def Below (bound : Nat) : ReferencePart → Prop
  | .cell c => c.column.index < bound ∧ c.row.index < bound
  | .column c | .row c => c.index < bound

/-- Whatever is read as a part has a text that is read. -/
theorem below_of_read? {s : List Char} {part : ReferencePart} (h : read? s = some part) :
    part.Below (indexBound - 1) := by
  rw [read?, Option.or_eq_some_iff] at h
  rcases h with cell | ⟨-, h⟩
  · obtain ⟨c, read, rfl⟩ := Option.map_eq_some_iff.1 cell
    obtain ⟨column, row⟩ := CellReference.lt_of_read? read
    exact ⟨Nat.lt_sub_of_add_lt column, Nat.lt_sub_of_add_lt row⟩
  · rcases Option.or_eq_some_iff.1 h with column | ⟨-, row⟩
    · obtain ⟨c, read, rfl⟩ := Option.map_eq_some_iff.1 column
      exact Nat.lt_sub_of_add_lt (Coordinate.lt_of_readColumn? read)
    · obtain ⟨c, read, rfl⟩ := Option.map_eq_some_iff.1 row
      exact Nat.lt_sub_of_add_lt (Coordinate.lt_of_readRow? read)

/-- The columns that a part names. -/
def columnCoordinates : ReferencePart → List Coordinate
  | .cell c => [c.column]
  | .column c => [c]
  | .row _ => []

/-- The rows that a part names. -/
def rowCoordinates : ReferencePart → List Coordinate
  | .cell c => [c.row]
  | .column _ => []
  | .row c => [c]

theorem below_iff {part : ReferencePart} {bound : Nat} :
    part.Below bound ↔
      (∀ c ∈ part.columnCoordinates, c.index < bound) ∧ ∀ c ∈ part.rowCoordinates, c.index < bound := by
  cases part <;> simp [Below, columnCoordinates, rowCoordinates]

theorem isPlain_text (part : ReferencePart) : ∀ d ∈ part.text, isPlain d = true := by
  cases part with
  | cell c => exact c.isPlain_text
  | column c => exact c.isPlain_columnText
  | row c => exact c.isPlain_rowText

theorem isPlain_of_read? {s : List Char} {part : ReferencePart} (h : read? s = some part) :
    ∀ d ∈ s, isPlain d = true := by
  rw [read?, Option.or_eq_some_iff] at h
  rcases h with cell | ⟨-, h⟩
  · obtain ⟨c, read, -⟩ := Option.map_eq_some_iff.1 cell
    exact CellReference.isPlain_of_read? read
  · rcases Option.or_eq_some_iff.1 h with column | ⟨-, row⟩
    · obtain ⟨c, read, -⟩ := Option.map_eq_some_iff.1 column
      exact Coordinate.isPlain_of_readColumn? read
    · obtain ⟨c, read, -⟩ := Option.map_eq_some_iff.1 row
      exact Coordinate.isPlain_of_readRow? read

theorem read?_eq_cell_iff {s : List Char} {c : CellReference} :
    read? s = some (.cell c) ↔ CellReference.read? s = some c := by
  rw [read?, Option.or_eq_some_iff]
  constructor
  · rintro (h | ⟨-, h⟩)
    · simpa using h
    · rcases Option.or_eq_some_iff.1 h with h | ⟨-, h⟩
      · simp at h
      · simp at h
  · intro h
    exact .inl (by rw [h]; rfl)

/-- No row is read as a column. -/
theorem readColumn?_rowText (c : Coordinate) : Coordinate.readColumn? c.rowText = none := by
  have none : Address.readColumn? (Address.rowName c.index) = none := by
    rw [Address.readColumn?, if_neg]
    rintro ⟨ne, letters, -⟩
    obtain ⟨d, s, eq⟩ := List.exists_cons_of_ne_nil ne
    have digit : d.isDigit = true := Address.isDigit_rowName c.index d (by simp [eq])
    have letter : d.isAlpha = true := List.all_eq_true.1 letters d (by simp [eq])
    rw [isAlpha_of_isDigit digit] at letter
    exact Bool.false_ne_true letter
  simp only [Coordinate.readColumn?, Coordinate.rowText,
    Coordinate.splitAnchor_mark c (Coordinate.head?_rowName_ne _), none, Option.map_none]

/-- What is written for a part is read back. -/
theorem read?_text {part : ReferencePart} {bound : Nat} (below : part.Below bound)
    (h : bound < indexBound) : read? part.text = some part := by
  cases part with
  | cell c =>
    have back := @CellReference.read?_text c (by have := below.1; omega) (by have := below.2; omega)
    simp [read?, text, back]
  | column c =>
    have back := @Coordinate.readColumn?_columnText c (by have : c.index < bound := below; omega)
    simp [read?, text, CellReference.read?_columnText, back]
  | row c =>
    have back := @Coordinate.readRow?_rowText c (by have : c.index < bound := below; omega)
    simp [read?, text, CellReference.read?_rowText, readColumn?_rowText, back]

/-- No column is read as a row. -/
theorem readRow?_columnText (c : Coordinate) (s : List Char) :
    Coordinate.readRow? (c.columnText ++ s) = none := by
  refine Option.eq_none_iff_forall_ne_some.2 fun c' h => ?_
  rw [Coordinate.columnText, List.append_assoc, Coordinate.readRow?] at h
  simp only [Coordinate.splitAnchor_mark c (Coordinate.head?_columnName_ne c.index s)] at h
  obtain ⟨row, read, -⟩ := Option.map_eq_some_iff.1 h
  obtain ⟨d, t, eq⟩ := List.exists_cons_of_ne_nil (Address.columnName_ne_nil c.index)
  have letter : d.isAlpha = true := Address.isAlpha_columnName c.index d (by simp [eq])
  rw [isAlpha_of_isDigit ((Address.of_readRow?_eq_some read).2 d (by simp [eq]))] at letter
  exact Bool.false_ne_true letter

/-- No cell is read as a column. -/
theorem readColumn?_cellText (r : CellReference) : Coordinate.readColumn? r.text = none := by
  refine Option.eq_none_iff_forall_ne_some.2 fun c h => ?_
  simp only [Coordinate.readColumn?, CellReference.splitAnchor_text] at h
  obtain ⟨column, read, -⟩ := Option.map_eq_some_iff.1 h
  obtain ⟨d, t, eq⟩ := List.exists_cons_of_ne_nil (Address.rowName_ne_nil r.row.index)
  have digit : d.isDigit = true := Address.isDigit_rowName r.row.index d (by simp [eq])
  have letter : d.isAlpha = true :=
    (Address.of_readColumn?_eq_some read).2 d (by simp [Coordinate.rowText, eq])
  rw [isAlpha_of_isDigit digit] at letter
  exact Bool.false_ne_true letter

/-- If what is written for a part is read at all, it is that part. -/
theorem eq_of_read?_text {part part' : ReferencePart} (below : part.Below indexBound)
    (h : read? part.text = some part') : part' = part := by
  rw [read?, Option.or_eq_some_iff] at h
  cases part with
  | cell c =>
    rw [text, readColumn?_cellText, CellReference.text, readRow?_columnText, ← CellReference.text] at h
    obtain ⟨c', read, rfl⟩ := Option.map_eq_some_iff.1 (by simpa using h)
    rw [CellReference.eq_of_read?_text below.2 read]
  | column c =>
    have row := readRow?_columnText c []
    rw [List.append_nil] at row
    rw [text, CellReference.read?_columnText, row] at h
    obtain ⟨c', read, rfl⟩ := Option.map_eq_some_iff.1 (by simpa using h)
    rw [Coordinate.eq_of_readColumn?_columnText read]
  | row c =>
    rw [text, CellReference.read?_rowText, readColumn?_rowText] at h
    obtain ⟨c', read, rfl⟩ := Option.map_eq_some_iff.1 (by simpa using h)
    rw [Coordinate.eq_of_readRow?_rowText below read]

end ReferencePart

/-! ### Areas -/

theorem mapM_eq_some_iff {α β : Type} {f : α → Option β} {as : List α} {bs : List β} :
    as.mapM f = some bs ↔ List.Forall₂ (fun a b => f a = some b) as bs := by
  induction as generalizing bs with
  | nil => simp [eq_comm]
  | cons a as ih =>
    rw [List.mapM_cons, List.forall₂_cons_left_iff]
    simp only [Option.bind_eq_bind, Option.pure_def, Option.bind_eq_some_iff, Option.some.injEq]
    constructor
    · rintro ⟨b, first, rest, behind, rfl⟩
      exact ⟨b, rest, first, ih.1 behind, rfl⟩
    · rintro ⟨b, rest, first, behind, rfl⟩
      exact ⟨b, first, rest, ih.2 behind, rfl⟩

theorem mapM_congr {α β : Type} {f g : α → Option β} {as : List α} (same : ∀ a ∈ as, f a = g a) :
    as.mapM f = as.mapM g := by
  induction as with
  | nil => rfl
  | cons a as ih =>
    obtain ⟨first, rest⟩ := List.forall_mem_cons.1 same
    rw [List.mapM_cons, List.mapM_cons, first, ih rest]

theorem exists_of_forall₂ {α β : Type} {R : α → β → Prop} {as : List α} {bs : List β} {a : α}
    (h : List.Forall₂ R as bs) (mem : a ∈ as) : ∃ b ∈ bs, R a b := by
  induction h with
  | nil => simp at mem
  | cons first _ ih =>
    rcases List.mem_cons.1 mem with rfl | mem
    · exact ⟨_, by simp, first⟩
    · obtain ⟨b, hb, related⟩ := ih mem
      exact ⟨b, List.mem_cons_of_mem _ hb, related⟩

namespace Text

/-- Parts without a dividing character are found again between dividing characters. -/
theorem split_intercalate {p : Char → Bool} {divider : Char} (divides : p divider = true) {parts : List (List Char)}
    (ne : parts ≠ []) (other : ∀ part ∈ parts, ∀ c ∈ part, p c = false) :
    split p ([divider].intercalate parts) = parts := by
  induction parts with
  | nil => exact absurd rfl ne
  | cons part parts ih =>
    obtain ⟨here, behind⟩ := List.forall_mem_cons.1 other
    cases parts with
    | nil => rw [List.intercalate_singleton, split_of_forall here]
    | cons next parts =>
      rw [List.intercalate_cons_cons, List.append_assoc, List.singleton_append,
        split_append_cons _ here divides, ih (by simp) behind]

/-- Every character of a text divides it or belongs to a part. -/
theorem mem_of_split {p : Char → Bool} {s : List Char} {c : Char} (h : c ∈ s) :
    p c = true ∨ ∃ part ∈ split p s, c ∈ part := by
  induction s with
  | nil => simp at h
  | cons d s ih =>
    rw [split_cons]
    by_cases divides : p d = true
    · rw [if_pos divides]
      rcases List.mem_cons.1 h with rfl | h
      · exact .inl divides
      · exact (ih h).imp_right fun ⟨part, mem, hc⟩ => ⟨part, List.mem_cons_of_mem _ mem, hc⟩
    · rw [if_neg divides]
      cases eq : split p s with
      | nil => exact absurd eq (split_ne_nil p s)
      | cons first rest =>
        rw [eq] at ih
        rcases List.mem_cons.1 h with rfl | h
        · exact .inr ⟨c :: first, by simp, by simp⟩
        · rcases ih h with divider | ⟨part, mem, hc⟩
          · exact .inl divider
          · rcases List.mem_cons.1 mem with rfl | mem
            · exact .inr ⟨d :: part, by simp, List.mem_cons_of_mem _ hc⟩
            · exact .inr ⟨part, List.mem_cons_of_mem _ mem, hc⟩

theorem mem_of_mem_intercalate {divider c : Char} {parts : List (List Char)}
    (h : c ∈ [divider].intercalate parts) : c = divider ∨ ∃ part ∈ parts, c ∈ part := by
  induction parts with
  | nil => simp at h
  | cons part parts ih =>
    cases parts with
    | nil =>
      rw [List.intercalate_singleton] at h
      exact .inr ⟨part, by simp, h⟩
    | cons next parts =>
      rw [List.intercalate_cons_cons, List.append_assoc, List.mem_append, List.singleton_append,
        List.mem_cons] at h
      rcases h with h | h | h
      · exact .inr ⟨part, by simp, h⟩
      · exact .inl h
      · exact (ih h).imp_right fun ⟨q, mem, hc⟩ => ⟨q, List.mem_cons_of_mem _ mem, hc⟩

end Text

namespace Area

/-- The coordinates of an area are below a bound. -/
def Below (bound : Nat) (a : Area) : Prop :=
  ∀ part ∈ a.parts, part.Below bound

/-- The columns that an area names. -/
def columnCoordinates (a : Area) : List Coordinate :=
  a.parts.flatMap ReferencePart.columnCoordinates

/-- The rows that an area names. -/
def rowCoordinates (a : Area) : List Coordinate :=
  a.parts.flatMap ReferencePart.rowCoordinates

theorem below_iff {a : Area} {bound : Nat} :
    a.Below bound ↔ (∀ c ∈ a.columnCoordinates, c.index < bound) ∧ ∀ c ∈ a.rowCoordinates, c.index < bound := by
  simp only [Below, ReferencePart.below_iff, columnCoordinates, rowCoordinates, List.forall_mem_flatMap,
    forall_and]

theorem parts_ne_nil (a : Area) : a.parts ≠ [] := by
  cases a <;> simp [parts]

/-- An area is read part by part. -/
theorem read?_eq_some_iff {s : List Char} {a : Area} :
    read? s = some a ↔
      List.Forall₂ (fun text part => ReferencePart.read? text = some part)
        (Text.split (· = ':') s) a.parts := by
  rw [read?, Option.bind_eq_some_iff, ← mapM_eq_some_iff]
  constructor
  · rintro ⟨parts, read, made⟩
    rwa [← ofParts?_eq_some_iff.1 made]
  · intro read
    exact ⟨a.parts, read, ofParts?_parts a⟩

/-- Whatever is read as an area has a text that is read. -/
theorem below_of_read? {s : List Char} {a : Area} (h : read? s = some a) : a.Below (indexBound - 1) := by
  intro part mem
  obtain ⟨text, -, read⟩ := exists_of_forall₂ (read?_eq_some_iff.1 h).flip mem
  exact ReferencePart.below_of_read? read

theorem isPlain_of_read? {s : List Char} {a : Area} (h : read? s = some a) :
    ∀ d ∈ s, isPlain d = true ∨ d = ':' := by
  intro d hd
  rcases @Text.mem_of_split (· = ':') s d hd with colon | ⟨text, mem, hd⟩
  · exact .inr (by simpa using colon)
  · obtain ⟨part, -, read⟩ := exists_of_forall₂ (read?_eq_some_iff.1 h) mem
    exact .inl (ReferencePart.isPlain_of_read? read d hd)

theorem isPlain_text (a : Area) : ∀ d ∈ a.text, isPlain d = true ∨ d = ':' := by
  intro d hd
  rcases Text.mem_of_mem_intercalate hd with colon | ⟨text, mem, hd⟩
  · exact .inr colon
  · obtain ⟨part, -, rfl⟩ := List.mem_map.1 mem
    exact .inl (part.isPlain_text d hd)

theorem split_text (a : Area) : Text.split (· = ':') a.text = a.parts.map ReferencePart.text := by
  refine Text.split_intercalate (by decide) (by simpa using a.parts_ne_nil) ?_
  intro text mem c hc
  obtain ⟨part, -, rfl⟩ := List.mem_map.1 mem
  refine decide_eq_false fun colon => ?_
  have plain := part.isPlain_text c hc
  rw [colon] at plain
  exact absurd plain (by decide)

/-- What is written for an area is read back. -/
theorem read?_text {a : Area} {bound : Nat} (below : a.Below bound) (h : bound < indexBound) :
    read? a.text = some a := by
  rw [read?_eq_some_iff, split_text, List.forall₂_map_left_iff, List.forall₂_same]
  intro part mem
  exact ReferencePart.read?_text (below part mem) h

/-- If what is written for an area is read at all, it is that area. -/
theorem eq_of_read?_text {a a' : Area} (below : a.Below indexBound) (h : read? a.text = some a') : a' = a := by
  rw [read?_eq_some_iff, split_text, List.forall₂_map_left_iff] at h
  have parts : a.parts = a'.parts := by
    refine List.forall₂_eq_eq_eq ▸ ((List.forall₂_and_left _ _).2 ⟨below, h⟩).imp fun part part' read => ?_
    exact (ReferencePart.eq_of_read?_text read.1 read.2).symm
  have same := ofParts?_parts a'
  rw [← parts, ofParts?_parts] at same
  exact (Option.some.inj same).symm

end Area

/-! ### References -/

namespace Reference

/-- Cutting a text behind its last mark cuts it in two. -/
theorem splitSheet_append {sheet area : List Char} (mark : ∀ c ∈ sheet.getLast?, c = '!')
    (plain : '!' ∉ area) : splitSheet (sheet ++ area) = (sheet, area) := by
  have all : ∀ c ∈ area.reverse, decide (c ≠ '!') = true := by
    intro c hc
    rw [List.mem_reverse] at hc
    exact decide_eq_true fun same => plain (same ▸ hc)
  have stop : sheet.reverse.takeWhile (· ≠ '!') = [] := by
    cases eq : sheet.reverse with
    | nil => rfl
    | cons c s =>
      have last : sheet.getLast? = some c := by rw [List.getLast?_eq_head?_reverse, eq]; rfl
      simp [mark c last]
  have found : ((sheet ++ area).reverse.takeWhile (· ≠ '!')).reverse = area := by
    rw [List.reverse_append, List.takeWhile_append_of_pos all, stop, List.append_nil,
      List.reverse_reverse]
  simp only [splitSheet, found]
  simp

theorem of_splitSheet {s sheet area : List Char} (h : splitSheet s = (sheet, area)) :
    s = sheet ++ area ∧ (∀ c ∈ sheet.getLast?, c = '!') ∧ '!' ∉ area := by
  have whole : s = (s.reverse.dropWhile (· ≠ '!')).reverse ++ (s.reverse.takeWhile (· ≠ '!')).reverse := by
    rw [← List.reverse_append, List.takeWhile_append_dropWhile, List.reverse_reverse]
  have mark : ∀ c ∈ (s.reverse.dropWhile (· ≠ '!')).reverse.getLast?, c = '!' := by
    intro c hc
    rw [List.getLast?_reverse] at hc
    have := List.head?_dropWhile_not (· ≠ '!') s.reverse
    rw [hc] at this
    simpa using this
  have plain : '!' ∉ (s.reverse.takeWhile (· ≠ '!')).reverse := by
    intro mem
    rw [List.mem_reverse] at mem
    simpa using List.all_eq_true.1 List.all_takeWhile _ mem
  have same := splitSheet_append mark plain
  rw [← whole, h] at same
  obtain ⟨rfl, rfl⟩ := Prod.mk.inj same
  exact ⟨whole, mark, plain⟩

/-- A reference is the name of a sheet, up to its mark, and the text of an area. -/
theorem split_of_read? {s : List Char} {r : Reference} (h : read? s = some r) :
    ∃ area, s = r.sheet ++ area ∧ Area.read? area = some r.area ∧
      (∀ c ∈ r.sheet.getLast?, c = '!') ∧ '!' ∉ area := by
  obtain ⟨a, read, rfl⟩ := Option.map_eq_some_iff.1 h
  have ⟨whole, mark, plain⟩ := of_splitSheet (show splitSheet s = (_, _) from rfl)
  exact ⟨_, whole, read, mark, plain⟩

theorem below_of_read? {s : List Char} {r : Reference} (h : read? s = some r) : r.area.Below (indexBound - 1) := by
  obtain ⟨area, -, read, -, -⟩ := split_of_read? h
  exact Area.below_of_read? read

theorem not_mem_areaText (a : Area) : '!' ∉ a.text := by
  intro mem
  rcases a.isPlain_text _ mem with is | is
  · exact absurd is (by decide)
  · exact absurd is (by decide)

/-- What is written for a reference is read back. -/
theorem read?_text {r : Reference} {bound : Nat} (mark : ∀ c ∈ r.sheet.getLast?, c = '!')
    (below : r.area.Below bound) (h : bound < indexBound) : read? r.text = some r := by
  simp only [read?, text, splitSheet_append mark (not_mem_areaText r.area), Area.read?_text below h,
    Option.map_some]

/-- If what is written for a reference is read at all, it is that reference. -/
theorem eq_of_read?_text {r r' : Reference} (mark : ∀ c ∈ r.sheet.getLast?, c = '!')
    (below : r.area.Below indexBound) (h : read? r.text = some r') : r' = r := by
  simp only [read?, text, splitSheet_append mark (not_mem_areaText r.area)] at h
  obtain ⟨a, read, rfl⟩ := Option.map_eq_some_iff.1 h
  rw [Area.eq_of_read?_text below read]

end Reference

end Spreadsheet
