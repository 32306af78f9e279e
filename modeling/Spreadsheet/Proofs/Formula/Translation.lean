import Spreadsheet.Proofs.Formula.Offset

/-!
# The cells that a copied formula names

When the references of a formula move by a distance, its dependencies move by the same distance, one by one and in the
same order.  A block between two corners keeps its height and its width, so that it has as many cells as before and is
listed or left out as before; and nothing becomes a reference to cells of its own sheet that was none.

* `Address.Moved` / `Range.Moved` — a cell and a block that lie a distance away.
* `Range.Moved.listed` — the cells of the moved block are the moved cells.
* `Area.Free` — an area without anchors.  `forall₂_blocks_moveToken`: the blocks of a formula with free references move.
* `exists_tokenize_offset` — what a copied formula depends on.
-/

namespace Spreadsheet

/-! ### Cells and blocks -/

/-- The second cell lies some columns and rows behind the first one. -/
def Address.Moved (columns rows : Int) (a b : Address) : Prop :=
  b.column = a.column + columns ∧ b.row = a.row + rows

/-- The corners of the second block lie some columns and rows behind those of the first one. -/
def Range.Moved (columns rows : Int) (b b' : Range) : Prop :=
  b.first.Moved columns rows b'.first ∧ b.last.Moved columns rows b'.last

theorem Address.Moved.eq {columns rows : Int} {a b : Address} (h : a.Moved columns rows b) :
    b = ⟨(a.row + rows).toNat, (a.column + columns).toNat⟩ := by
  rw [← h.1, ← h.2, Int.toNat_natCast, Int.toNat_natCast]

theorem Address.eq_map_of_moved {columns rows : Int} {as bs : List Address}
    (h : List.Forall₂ (Address.Moved columns rows) as bs) :
    bs = as.map fun a => ⟨(a.row + rows).toNat, (a.column + columns).toNat⟩ := by
  induction h with
  | nil => rfl
  | cons first _ ih => rw [List.map_cons, ← first.eq, ← ih]

theorem forall₂_range' {k : Int} {s s' : Nat} (h : (s' : Int) = s + k) (n : Nat) :
    List.Forall₂ (fun i j : Nat => (j : Int) = i + k) (List.range' s n) (List.range' s' n) := by
  induction n generalizing s s' with
  | zero => exact .nil
  | succ n ih =>
    rw [List.range'_succ, List.range'_succ]
    exact .cons h (ih (by omega))

namespace Range

theorem forall₂_between {k : Int} {i j i' j' : Nat} (hi : (i' : Int) = i + k) (hj : (j' : Int) = j + k) :
    List.Forall₂ (fun i j : Nat => (j : Int) = i + k) (between i j) (between i' j') := by
  have length : max i' j' - min i' j' = max i j - min i j := by omega
  rw [between, between, length]
  exact forall₂_range' (by omega) _

variable {columns rows : Int} {b b' : Range}

theorem Moved.cells (h : b.Moved columns rows b') : List.Forall₂ (Address.Moved columns rows) b.cells b'.cells :=
  List.rel_flatMap (forall₂_between h.1.2 h.2.2) fun _ _ row =>
    List.rel_map (fun _ _ column => ⟨column, row⟩) (forall₂_between h.1.1 h.2.1)

theorem Moved.count? (h : b.Moved columns rows b') : b'.count? = b.count? := by
  rw [count?_eq, count?_eq, h.cells.length_eq]

/-- A moved block is as small as before, and its cells have moved. -/
theorem Moved.listed (h : b.Moved columns rows b') : List.Forall₂ (Address.Moved columns rows) b.listed b'.listed := by
  rw [Range.listed, Range.listed, h.count?]
  split
  · split
    · exact h.cells
    · exact .nil
  · exact .nil

end Range

/-- No coordinate of an area is anchored. -/
def Area.Free (a : Area) : Prop :=
  (∀ c ∈ a.columnCoordinates, c.anchored = false) ∧ ∀ c ∈ a.rowCoordinates, c.anchored = false

instance (a : Area) : Decidable a.Free :=
  inferInstanceAs (Decidable (_ ∧ _))

/-! ### References -/

namespace Relocation

variable {columns rows : Int}

theorem exists_moveCell?_offset {c : CellReference} (column : c.column.anchored = false ∧ c.column.Reaches columns)
    (row : c.row.anchored = false ∧ c.row.Reaches rows) :
    ∃ c', (offset columns rows).moveCell? c = some c' ∧ c.address.Moved columns rows c'.address := by
  refine ⟨⟨⟨(c.column.index + columns).toNat, false⟩, ⟨(c.row.index + rows).toNat, false⟩⟩, ?_, ?_, ?_⟩
  · simp only [moveCell?, offset, offsetCoordinate?_of_reaches column.1 column.2,
      offsetCoordinate?_of_reaches row.1 row.2]
  · exact Int.toNat_of_nonneg (column.2 column.1).1
  · exact Int.toNat_of_nonneg (row.2 row.1).1

/-- The block of a free reference moves. -/
theorem exists_block?_offset {r : Reference} {b : Range} (block : r.block? = some b) (free : r.area.Free)
    (reaches : r.area.Reaches columns rows) :
    ∃ r' b', (offset columns rows).moveReference? r = some r' ∧ r'.block? = some b' ∧ b.Moved columns rows b' := by
  obtain ⟨sheet, area⟩ := r
  obtain ⟨rfl, block⟩ := Option.ite_none_right_eq_some.1 block
  have corner {c : CellReference} (mem : .cell c ∈ area.parts) :
      ∃ c', (offset columns rows).moveCell? c = some c' ∧ c.address.Moved columns rows c'.address := by
    have column : c.column ∈ area.columnCoordinates := List.mem_flatMap.2 ⟨_, mem, List.mem_cons_self⟩
    have row : c.row ∈ area.rowCoordinates := List.mem_flatMap.2 ⟨_, mem, List.mem_cons_self⟩
    exact exists_moveCell?_offset ⟨free.1 _ column, reaches.1 _ column⟩ ⟨free.2 _ row, reaches.2 _ row⟩
  cases area with
  | cell c =>
    cases block
    obtain ⟨c', move, moved⟩ := corner List.mem_cons_self
    refine ⟨⟨[], .cell c'⟩, ⟨c'.address, c'.address⟩, ?_, rfl, moved, moved⟩
    rw [moveReference?, moveArea?, move]
    rfl
  | cells x y =>
    cases block
    obtain ⟨x', first, movedFirst⟩ := corner List.mem_cons_self
    obtain ⟨y', last, movedLast⟩ := corner (List.mem_cons_of_mem _ List.mem_cons_self)
    refine ⟨⟨[], .cells x' y'⟩, ⟨x'.address, y'.address⟩, ?_, rfl, movedFirst, movedLast⟩
    rw [moveReference?, moveArea?, moveBoth?, first, last]
    rfl
  | columns x y | rows x y => cases block

/-- Moving makes no block where there was none. -/
theorem exists_block?_of_moveReference? {m : Relocation} {r r' : Reference} {b' : Range}
    (h : m.moveReference? r = some r') (block : r'.block? = some b') : ∃ b, r.block? = some b := by
  obtain ⟨sheet, area⟩ := r
  obtain ⟨area', move, rfl⟩ := Option.map_eq_some_iff.1 h
  obtain ⟨own, block⟩ := Option.ite_none_right_eq_some.1 block
  simp only [Reference.block?, if_pos own]
  cases area with
  | cell c => exact ⟨_, rfl⟩
  | cells x y => exact ⟨_, rfl⟩
  | columns x y | rows x y =>
    obtain ⟨x', y', -, -, rfl⟩ := moveBoth?_eq_some move
    cases block

end Relocation

namespace Formula

/-! ### Tokens -/

variable {columns rows : Int} {options : Options} {tokens : List Token}

/-- References to cells of the own sheet have no anchors and reach their new places. -/
def Movable (columns rows : Int) (tokens : List Token) : Prop :=
  ∀ r ∈ references tokens, r.sheet = [] → r.area.Free ∧ r.area.Reaches columns rows

instance (columns rows : Int) (tokens : List Token) : Decidable (Movable columns rows tokens) :=
  inferInstanceAs (Decidable (∀ r ∈ references tokens, _ → _))

/-- A token covers a block if and only if the moved token does, and then the block has moved. -/
theorem blockOf?_moveToken {t : Token} (kinds : (∃ v, t = .operand v) ∨ ∀ kind, t.kind ≠ .operand kind)
    (movable : ∀ r, referenceOf? t = some r → r.sheet = [] → r.area.Free ∧ r.area.Reaches columns rows) :
    Option.Rel (Range.Moved columns rows) (blockOf? t) (blockOf? ((Relocation.offset columns rows).moveToken t)) := by
  rcases kinds with ⟨v, rfl⟩ | other
  · rw [Relocation.moveToken_operand, blockOf?, blockOf?]
    cases block : (referenceOf? (.operand v)).bind Reference.block? with
    | some b =>
      obtain ⟨r, read, block⟩ := Option.bind_eq_some_iff.1 block
      obtain ⟨free, reaches⟩ := movable r read (Option.ite_none_right_eq_some.1 block).1
      obtain ⟨r', b', move, block', moved⟩ := Relocation.exists_block?_offset block free reaches
      have lands : ∀ s, referenceOf? (.operand v) = some s →
          (Relocation.offset columns rows).Lands (indexBound - 1) s.area := by
        intro s same
        obtain rfl := Option.some.inj (read.symm.trans same)
        have below := Reference.below_of_read? (Option.ite_none_right_eq_some.1 read).2
        exact Relocation.lands_offset below reaches
      rw [referenceOf?_moveOperand (by decide) lands, read, Option.bind_some, move, Option.bind_some, block']
      exact .some moved
    | none =>
      cases block' : (referenceOf? (.operand ((Relocation.offset columns rows).moveOperand v))).bind Reference.block? with
      | none => exact .none
      | some b' =>
        obtain ⟨r', read', block'⟩ := Option.bind_eq_some_iff.1 block'
        obtain ⟨r, read, move⟩ :=
          exists_of_referenceOf?_moveOperand (Relocation.bounds_offset columns rows (by decide)) read'
        obtain ⟨b, old⟩ := Relocation.exists_block?_of_moveReference? move block'
        rw [read, Option.bind_some, old] at block
        cases block
  · have none : blockOf? t = none := by rw [blockOf?, referenceOf?, if_neg (other .range), Option.bind_none]
    rw [Relocation.moveToken_of_ne _ other, none]
    exact .none

/-- The dependencies of moved tokens are the moved dependencies. -/
theorem forall₂_dependencies_moveToken {formula : List Char} (split : tokenize options formula = .ok tokens)
    (movable : Movable columns rows tokens) :
    List.Forall₂ (Address.Moved columns rows) (dependencies tokens)
      (dependencies (tokens.map (Relocation.offset columns rows).moveToken)) := by
  have one : ∀ t ∈ tokens, Option.Rel (Range.Moved columns rows) (blockOf? t)
      (blockOf? ((Relocation.offset columns rows).moveToken t)) := fun t mem =>
    blockOf?_moveToken (operand_or_of_tokenize split t mem) fun r read => movable r (mem_references mem read)
  have all : List.Forall₂ (fun t t' => Option.Rel (Range.Moved columns rows) (blockOf? t) (blockOf? t')) tokens
      (tokens.map (Relocation.offset columns rows).moveToken) :=
    List.forall₂_map_right_iff.2 (List.forall₂_same.2 one)
  have blocks := List.rel_filterMap (fun _ _ block => block) all
  rw [← blocks_eq, ← blocks_eq] at blocks
  rw [dependencies_eq, dependencies_eq]
  exact List.rel_flatMap blocks fun _ _ moved => moved.listed

/-! ### Formulas -/

theorem dependencies_congr {tokens' : List Token} (same : references tokens = references tokens') :
    dependencies tokens = dependencies tokens' := by
  rw [dependencies_eq, dependencies_eq, blocks, blocks, same]

/-- A formula that is copied depends on the cells that lie as far away; its tokens may have been read under other
options. -/
theorem exists_tokenize_offset {options' : Options} {text : List Char} {ts : List Token}
    (split : tokenize options text = .ok tokens) (scanned : tokenize options' text = .ok ts)
    (movable : Movable columns rows ts) :
    ∃ moved tokens', offset options columns rows text = .ok moved ∧ tokenize options moved = .ok tokens' ∧
      List.Forall₂ (Address.Moved columns rows) (dependencies ts) (dependencies tokens') := by
  by_cases still : columns = 0 ∧ rows = 0
  · obtain ⟨rfl, rfl⟩ := still
    refine ⟨text, tokens, offset_zero options text, split, ?_⟩
    rw [dependencies_congr (references_of_tokenize scanned split)]
    exact List.forall₂_same.2 fun a _ => ⟨(Int.add_zero _).symm, (Int.add_zero _).symm⟩
  · obtain ⟨spaced, preserving⟩ := exists_tokenize_preserving_iff.2 ⟨tokens, split⟩
    obtain ⟨moved, move, again⟩ := tokenize_relocate preserving (.offset columns rows)
    obtain ⟨tokens', split'⟩ := exists_tokenize_of_relocate move
    have same := references_of_tokenize scanned preserving
    rw [Movable, same] at movable
    refine ⟨moved, tokens', by rw [offset_of_ne still, move], split', ?_⟩
    rw [dependencies_congr same, dependencies_congr (references_of_tokenize split' again)]
    exact forall₂_dependencies_moveToken preserving movable

end Formula

end Spreadsheet
