import Spreadsheet.Proofs.Formula.References

/-!
# How an edit of a line moves cells and blocks

Inserting or deleting a line moves indices without changing their order.  So it moves a block of cells to a block,
and which cells lie in it is decided as before, except that a new line may come to lie inside of a block.

* `moveIndex?_le_iff` — the order of indices stays.
* `moveAddress?_eq_some_iff` — a cell keeps its place in the other direction.
* `mem_cells_moveBlock?` — a moved cell lies in the moved block if and only if it lay in the block.
* `block?_moveReference?` — the block of a moved reference is the moved block.
-/

namespace Spreadsheet.LineEdit

variable {e : LineEdit}

/-! ### Indices -/

theorem moveIndex?_insert (h : e.change = .insert) (index : Nat) :
    e.moveIndex? index = some (if e.line ≤ index then index + 1 else index) := by
  rw [moveIndex?, h]

theorem moveIndex?_delete (h : e.change = .delete) (index : Nat) :
    e.moveIndex? index =
      if index = e.line then none else some (if e.line < index then index - 1 else index) := by
  rw [moveIndex?, h]

/-- The order of indices stays. -/
theorem moveIndex?_le_iff {i j i' j' : Nat} (hi : e.moveIndex? i = some i') (hj : e.moveIndex? j = some j') :
    i' ≤ j' ↔ i ≤ j := by
  cases change : e.change with
  | insert =>
    rw [moveIndex?_insert change, Option.some.injEq] at hi hj
    split at hi <;> split at hj <;> omega
  | delete =>
    rw [moveIndex?_delete change, Option.ite_none_left_eq_some, Option.some.injEq] at hi hj
    obtain ⟨hi, eqi⟩ := hi
    obtain ⟨hj, eqj⟩ := hj
    split at eqi <;> split at eqj <;> omega

theorem eq_of_moveIndex? {i j k : Nat} (hi : e.moveIndex? i = some k) (hj : e.moveIndex? j = some k) :
    i = j := by
  have le := (moveIndex?_le_iff hi hj).1 (Nat.le_refl k)
  have ge := (moveIndex?_le_iff hj hi).1 (Nat.le_refl k)
  omega

/-- No index grows by more than one. -/
theorem moveIndex?_le {i i' : Nat} (h : e.moveIndex? i = some i') : i' ≤ i + 1 := by
  cases change : e.change with
  | insert =>
    rw [moveIndex?_insert change, Option.some.injEq] at h
    split at h <;> omega
  | delete =>
    rw [moveIndex?_delete change, Option.ite_none_left_eq_some, Option.some.injEq] at h
    obtain ⟨-, eq⟩ := h
    split at eq <;> omega

/-- Nothing is moved to the index of a new line. -/
theorem moveIndex?_ne_of_insert (h : e.change = .insert) {i i' : Nat} (move : e.moveIndex? i = some i') :
    i' ≠ e.line := by
  rw [moveIndex?_insert h, Option.some.injEq] at move
  split at move <;> omega

/-- After an insertion every index but that of the new line has been moved there. -/
theorem exists_moveIndex?_of_insert (h : e.change = .insert) {k : Nat} (old : k ≠ e.line) :
    ∃ i, e.moveIndex? i = some k := by
  rcases Nat.lt_or_gt_of_ne old with before | behind
  · refine ⟨k, ?_⟩
    rw [moveIndex?_insert h, if_neg (by omega)]
  · refine ⟨k - 1, ?_⟩
    rw [moveIndex?_insert h, if_pos (by omega)]
    congr 1
    omega

/-- After a deletion every index has been moved there. -/
theorem exists_moveIndex?_of_delete (h : e.change = .delete) (k : Nat) : ∃ i, e.moveIndex? i = some k := by
  by_cases before : k < e.line
  · refine ⟨k, ?_⟩
    rw [moveIndex?_delete h, if_neg (by omega), if_neg (by omega)]
  · refine ⟨k + 1, ?_⟩
    rw [moveIndex?_delete h, if_neg (by omega), if_pos (by omega)]
    rfl

/-! ### Addresses -/

/-- The index of a cell in the direction of the edit. -/
def lineOf (e : LineEdit) (a : Address) : Nat :=
  match e.axis with
  | .row => a.row
  | .column => a.column

/-- The index of a cell in the other direction. -/
def crossOf (e : LineEdit) (a : Address) : Nat :=
  match e.axis with
  | .row => a.column
  | .column => a.row

/-- The cell on another line in the same place. -/
def withLine (e : LineEdit) (a : Address) (line : Nat) : Address :=
  match e.axis with
  | .row => { a with row := line }
  | .column => { a with column := line }

@[simp] theorem lineOf_withLine (e : LineEdit) (a : Address) (line : Nat) :
    e.lineOf (e.withLine a line) = line := by
  cases axis : e.axis <;> simp [lineOf, withLine, axis]

@[simp] theorem crossOf_withLine (e : LineEdit) (a : Address) (line : Nat) :
    e.crossOf (e.withLine a line) = e.crossOf a := by
  cases axis : e.axis <;> simp [crossOf, withLine, axis]

theorem address_ext {a b : Address} (line : e.lineOf a = e.lineOf b) (cross : e.crossOf a = e.crossOf b) :
    a = b := by
  obtain ⟨axis, change, at_⟩ := e
  cases a
  cases b
  cases axis <;> simp_all [lineOf, crossOf]

/-- A cell is moved along its line and keeps its place in the other direction. -/
theorem moveAddress?_eq_some_iff {a a' : Address} :
    e.moveAddress? a = some a' ↔
      e.moveIndex? (e.lineOf a) = some (e.lineOf a') ∧ e.crossOf a = e.crossOf a' := by
  obtain ⟨row, column⟩ := a
  obtain ⟨row', column'⟩ := a'
  cases axis : e.axis with
  | row => simp [moveAddress?, lineOf, crossOf, axis]
  | column => simp [moveAddress?, lineOf, crossOf, axis, and_comm]

theorem moveAddress?_eq_none_iff {a : Address} :
    e.moveAddress? a = none ↔ e.moveIndex? (e.lineOf a) = none := by
  cases axis : e.axis <;> simp [moveAddress?, lineOf, axis]

/-- Two cells are not moved to the same place. -/
theorem eq_of_moveAddress? {a b c : Address} (ha : e.moveAddress? a = some c)
    (hb : e.moveAddress? b = some c) : a = b := by
  rw [moveAddress?_eq_some_iff] at ha hb
  exact address_ext (eq_of_moveIndex? ha.1 hb.1) (ha.2.trans hb.2.symm)

/-- No coordinate of a cell grows by more than one. -/
theorem moveAddress?_le {a a' : Address} (h : e.moveAddress? a = some a') :
    a'.row ≤ a.row + 1 ∧ a'.column ≤ a.column + 1 := by
  obtain ⟨line, cross⟩ := moveAddress?_eq_some_iff.1 h
  have le := moveIndex?_le line
  cases axis : e.axis <;> simp only [lineOf, crossOf, axis] at le cross <;> omega

/-- No cell is moved to a new line. -/
theorem lineOf_ne_of_insert (h : e.change = .insert) {a a' : Address} (move : e.moveAddress? a = some a') :
    e.lineOf a' ≠ e.line :=
  moveIndex?_ne_of_insert h (moveAddress?_eq_some_iff.1 move).1

/-- The edit does not take away the line of a cell. -/
def Keeps (e : LineEdit) (a : Address) : Prop :=
  e.change = .delete → e.lineOf a ≠ e.line

/-- A cell has a new place unless its line is deleted. -/
theorem exists_moveAddress?_iff {a : Address} : (∃ a', e.moveAddress? a = some a') ↔ e.Keeps a := by
  rw [← Option.isSome_iff_exists, Option.isSome_iff_ne_none, ne_eq, moveAddress?_eq_none_iff, Keeps]
  cases change : e.change with
  | insert => simp [moveIndex?_insert change]
  | delete => simp [moveIndex?_delete change]

theorem exists_moveAddress?_of_insert (h : e.change = .insert) {x : Address} (old : e.lineOf x ≠ e.line) :
    ∃ a, e.moveAddress? a = some x := by
  obtain ⟨i, moved⟩ := exists_moveIndex?_of_insert h old
  exact ⟨e.withLine x i, moveAddress?_eq_some_iff.2 (by simpa using moved)⟩

theorem exists_moveAddress?_of_delete (h : e.change = .delete) (x : Address) :
    ∃ a, e.moveAddress? a = some x := by
  obtain ⟨i, moved⟩ := exists_moveIndex?_of_delete h (e.lineOf x)
  exact ⟨e.withLine x i, moveAddress?_eq_some_iff.2 (by simpa using moved)⟩

/-! ### Blocks -/

theorem mem_cells_iff (e : LineEdit) {b : Range} {a : Address} :
    a ∈ b.cells ↔
      (min (e.lineOf b.first) (e.lineOf b.last) ≤ e.lineOf a ∧
        e.lineOf a ≤ max (e.lineOf b.first) (e.lineOf b.last)) ∧
      min (e.crossOf b.first) (e.crossOf b.last) ≤ e.crossOf a ∧
        e.crossOf a ≤ max (e.crossOf b.first) (e.crossOf b.last) := by
  rw [Range.mem_cells]
  cases axis : e.axis with
  | row => simp [lineOf, crossOf, axis]
  | column =>
    simp only [lineOf, crossOf, axis]
    exact and_comm

/-- The block between the moved corners. -/
def moveBlock? (e : LineEdit) (b : Range) : Option Range :=
  Relocation.moveBoth? e.moveAddress? Range.mk b.first b.last

/-- A moved cell lies in the moved block if and only if it lay in the block. -/
theorem mem_cells_moveBlock? {b b' : Range} {q q' : Address} (block : e.moveBlock? b = some b')
    (cell : e.moveAddress? q = some q') : q' ∈ b'.cells ↔ q ∈ b.cells := by
  obtain ⟨first, last, moveFirst, moveLast, rfl⟩ := Relocation.moveBoth?_eq_some block
  rw [moveAddress?_eq_some_iff] at moveFirst moveLast cell
  have first_le := moveIndex?_le_iff moveFirst.1 cell.1
  have le_first := moveIndex?_le_iff cell.1 moveFirst.1
  have last_le := moveIndex?_le_iff moveLast.1 cell.1
  have le_last := moveIndex?_le_iff cell.1 moveLast.1
  rw [e.mem_cells_iff, e.mem_cells_iff, ← moveFirst.2, ← moveLast.2, ← cell.2]
  dsimp only
  omega

/-- A new line is put between the lines of a block, and a cell of it lies inside of the block. -/
def Spans (e : LineEdit) (b : Range) (x : Address) : Prop :=
  (min (e.lineOf b.first) (e.lineOf b.last) < e.line ∧
    e.line ≤ max (e.lineOf b.first) (e.lineOf b.last)) ∧
  min (e.crossOf b.first) (e.crossOf b.last) ≤ e.crossOf x ∧
    e.crossOf x ≤ max (e.crossOf b.first) (e.crossOf b.last)

/-- A cell of a new line lies in a moved block only if the line has come to lie inside of the block. -/
theorem spans_of_mem_cells (h : e.change = .insert) {b b' : Range} {x : Address}
    (block : e.moveBlock? b = some b') (new : e.lineOf x = e.line) (mem : x ∈ b'.cells) :
    e.Spans b x := by
  obtain ⟨first, last, moveFirst, moveLast, rfl⟩ := Relocation.moveBoth?_eq_some block
  rw [moveAddress?_eq_some_iff, moveIndex?_insert h, Option.some.injEq] at moveFirst moveLast
  rw [e.mem_cells_iff, ← moveFirst.2, ← moveLast.2, new] at mem
  obtain ⟨line, cross⟩ := mem
  dsimp only at line
  refine ⟨?_, cross⟩
  have moveFirst := moveFirst.1
  have moveLast := moveLast.1
  split at moveFirst <;> split at moveLast <;> omega

/-- An insertion leaves every block. -/
theorem exists_moveBlock?_of_insert (e : LineEdit) (h : e.change = .insert) (b : Range) :
    ∃ b', e.moveBlock? b = some b' := by
  have keeps (a : Address) : e.Keeps a := fun delete => by simp [h] at delete
  obtain ⟨first, moveFirst⟩ := exists_moveAddress?_iff.2 (keeps b.first)
  obtain ⟨last, moveLast⟩ := exists_moveAddress?_iff.2 (keeps b.last)
  exact ⟨⟨first, last⟩, by simp only [moveBlock?, Relocation.moveBoth?, moveFirst, moveLast]⟩

theorem small_iff (e : LineEdit) {b : Range} :
    b.Small ↔
      (max (e.lineOf b.first) (e.lineOf b.last) - min (e.lineOf b.first) (e.lineOf b.last) + 1) *
        (max (e.crossOf b.first) (e.crossOf b.last) - min (e.crossOf b.first) (e.crossOf b.last) + 1) ≤
        expansionLimit := by
  rw [Range.small_iff, Range.size]
  cases axis : e.axis with
  | row => simp only [lineOf, crossOf, axis]
  | column =>
    simp only [lineOf, crossOf, axis]
    rw [Nat.mul_comm]

/-- An insertion makes no block smaller. -/
theorem small_of_insert (h : e.change = .insert) {b b' : Range} (block : e.moveBlock? b = some b')
    (small : b'.Small) : b.Small := by
  obtain ⟨first, last, moveFirst, moveLast, rfl⟩ := Relocation.moveBoth?_eq_some block
  rw [moveAddress?_eq_some_iff, moveIndex?_insert h, Option.some.injEq] at moveFirst moveLast
  rw [e.small_iff] at small ⊢
  rw [moveFirst.2, moveLast.2]
  refine Nat.le_trans (Nat.mul_le_mul_right _ ?_) small
  have moveFirst := moveFirst.1
  have moveLast := moveLast.1
  dsimp only
  split at moveFirst <;> split at moveLast <;> omega

/-- A deletion leaves a block only if neither corner lies on the deleted line. -/
theorem moveBlock?_delete (h : e.change = .delete) {b : Range} :
    (∃ b', e.moveBlock? b = some b') ↔ e.lineOf b.first ≠ e.line ∧ e.lineOf b.last ≠ e.line := by
  constructor
  · rintro ⟨b', block⟩
    obtain ⟨first, last, moveFirst, moveLast, rfl⟩ := Relocation.moveBoth?_eq_some block
    exact ⟨exists_moveAddress?_iff.1 ⟨first, moveFirst⟩ h, exists_moveAddress?_iff.1 ⟨last, moveLast⟩ h⟩
  · rintro ⟨first, last⟩
    obtain ⟨first', moveFirst⟩ := exists_moveAddress?_iff.2 fun _ => first
    obtain ⟨last', moveLast⟩ := exists_moveAddress?_iff.2 fun _ => last
    exact ⟨⟨first', last'⟩, by simp only [moveBlock?, Relocation.moveBoth?, moveFirst, moveLast]⟩

/-! ### References -/

/-- A line that is inserted behind a coordinate does not move it. -/
theorem moveCoordinate?_of_lt (h : e.change = .insert) {c : Coordinate} (before : c.index < e.line) :
    e.moveCoordinate? c = some c := by
  rw [moveCoordinate?, moveIndex?_insert h, if_neg (by omega)]
  rfl

/-- No coordinate grows by more than one. -/
theorem moveCoordinate?_le {c c' : Coordinate} (h : e.moveCoordinate? c = some c') : c'.index ≤ c.index + 1 := by
  obtain ⟨i, moved, rfl⟩ := Option.map_eq_some_iff.1 h
  exact moveIndex?_le moved

theorem bounds_relocation (e : LineEdit) (bound : Nat) : e.relocation.Bounds bound (bound + 1) := by
  intro c c' below moved
  cases axis : e.axis with
  | row =>
    simp only [relocation, axis, Option.some.injEq] at moved
    rcases moved with rfl | moved
    · omega
    · have := moveCoordinate?_le moved
      omega
  | column =>
    simp only [relocation, axis, Option.some.injEq] at moved
    rcases moved with moved | rfl
    · have := moveCoordinate?_le moved
      omega
    · omega

theorem map_address_moveCell? (e : LineEdit) (c : CellReference) :
    (e.relocation.moveCell? c).map CellReference.address = e.moveAddress? c.address := by
  obtain ⟨⟨column, _⟩, ⟨row, _⟩⟩ := c
  cases axis : e.axis with
  | row =>
    simp only [Relocation.moveCell?, relocation, axis, moveCoordinate?, moveAddress?,
      CellReference.address]
    cases e.moveIndex? row <;> rfl
  | column =>
    simp only [Relocation.moveCell?, relocation, axis, moveCoordinate?, moveAddress?,
      CellReference.address]
    cases e.moveIndex? column <;> rfl

/-- The block of a moved reference is the moved block. -/
theorem block?_moveReference? (e : LineEdit) (r : Reference) :
    (e.relocation.moveReference? r).bind Reference.block? = r.block?.bind e.moveBlock? := by
  obtain ⟨sheet, area⟩ := r
  by_cases own : sheet = []
  · subst own
    cases area with
    | cell c =>
      have moved := e.map_address_moveCell? c
      simp only [Relocation.moveReference?, Relocation.moveArea?, Reference.block?, moveBlock?,
        Relocation.moveBoth?, Option.bind_some, if_true, ← moved]
      cases e.relocation.moveCell? c <;> rfl
    | cells a b =>
      have first := e.map_address_moveCell? a
      have last := e.map_address_moveCell? b
      simp only [Relocation.moveReference?, Relocation.moveArea?, Reference.block?, moveBlock?,
        Relocation.moveBoth?, Option.bind_some, if_true, ← first, ← last]
      cases e.relocation.moveCell? a <;> cases e.relocation.moveCell? b <;> rfl
    | columns a b =>
      simp only [Relocation.moveReference?, Relocation.moveArea?, Relocation.moveBoth?]
      cases e.relocation.column a <;> cases e.relocation.column b <;> rfl
    | rows a b =>
      simp only [Relocation.moveReference?, Relocation.moveArea?, Relocation.moveBoth?]
      cases e.relocation.row a <;> cases e.relocation.row b <;> rfl
  · simp only [Relocation.moveReference?, Reference.block?, if_neg own, Option.bind_none]
    cases e.relocation.moveArea? area with
    | none => rfl
    | some a => exact if_neg own

/-- The blocks of a moved formula are the moved blocks. -/
theorem blocks_map_moveToken (e : LineEdit) {bound : Nat} (h : bound + 1 < indexBound)
    {options : Formula.Options} {formula : List Char} {tokens : List Token}
    (split : Formula.tokenize options formula = .ok tokens)
    (below : ∀ r ∈ Formula.references tokens, r.area.Below bound) :
    Formula.blocks (tokens.map e.relocation.moveToken) =
      (Formula.blocks tokens).filterMap e.moveBlock? := by
  have lands : ∀ r ∈ Formula.references tokens, e.relocation.Lands (bound + 1) r.area := fun r mem =>
    (e.bounds_relocation bound).lands (below r mem)
  rw [Formula.blocks, Formula.references_map_moveToken h split lands, Formula.blocks, List.filterMap_filterMap,
    List.filterMap_filterMap]
  exact List.filterMap_congr fun r _ => e.block?_moveReference? r

/-- A moved formula names no blocks but moved ones. -/
theorem exists_of_mem_blocks_moveToken (e : LineEdit) {options : Formula.Options} {formula : List Char}
    {tokens : List Token} (split : Formula.tokenize options formula = .ok tokens) {b' : Range}
    (h : b' ∈ Formula.blocks (tokens.map e.relocation.moveToken)) :
    ∃ b ∈ Formula.blocks tokens, e.moveBlock? b = some b' := by
  obtain ⟨r', mem', block'⟩ := List.mem_filterMap.1 h
  obtain ⟨r, mem, moved⟩ := Formula.exists_of_mem_references_moveToken (e.bounds_relocation (indexBound - 1)) split mem'
  have same := e.block?_moveReference? r
  rw [moved, Option.bind_some, block'] at same
  obtain ⟨b, block, move⟩ := Option.bind_eq_some_iff.1 same.symm
  exact ⟨b, List.mem_filterMap.2 ⟨r, mem, block⟩, move⟩

end Spreadsheet.LineEdit
