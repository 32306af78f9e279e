import Spreadsheet.Proofs.Formula.Composition
import Spreadsheet.Proofs.LineEdit

/-!
# Offsets of a formula add up

Copying a formula by one distance and then by another one gives what copying it by the sum gives, as long as no
reference leaves the sheet on the way: a reference that is lost is an error, and an error is moved nowhere.  The last
step may lose references, in both ways the same ones.  A distance of nothing leaves the text as it is, while any other
one writes every reference in its one spelling and every run of spaces as one space.  So copying there and back gives
the formula again if it was written like that, which inserting a row behind all others tells.

* `Coordinate.Reaches` / `Area.Reaches` — a coordinate has a place with a name after a distance, or it is anchored.
* `offsetCoordinate?_bind` — distances of one coordinate add up.
* `lands_offset` / `moveArea?_offset_offset` — an area that reaches its new place is read there, and moves on from it.
* `offset_offset` — what this means for a formula.
-/

namespace Spreadsheet

/-! ### Coordinates -/

/-- A coordinate has a place with a name after this distance, unless it is anchored and does not move. -/
def Coordinate.Reaches (distance : Int) (c : Coordinate) : Prop :=
  c.anchored = false → 0 ≤ c.index + distance ∧ c.index + distance + 1 < indexBound

instance (distance : Int) (c : Coordinate) : Decidable (c.Reaches distance) :=
  inferInstanceAs (Decidable (_ → _))

/-- All coordinates of an area have places after these distances. -/
def Area.Reaches (columns rows : Int) (a : Area) : Prop :=
  (∀ c ∈ a.columnCoordinates, c.Reaches columns) ∧ ∀ c ∈ a.rowCoordinates, c.Reaches rows

instance (columns rows : Int) (a : Area) : Decidable (a.Reaches columns rows) :=
  inferInstanceAs (Decidable (_ ∧ _))

namespace Relocation

theorem offsetCoordinate?_of_anchored {c : Coordinate} (anchored : c.anchored = true) (distance : Int) :
    offsetCoordinate? distance c = some c :=
  if_pos anchored

theorem offsetCoordinate?_of_not_anchored {c : Coordinate} (free : c.anchored = false) (distance : Int) :
    offsetCoordinate? distance c =
      if 0 ≤ c.index + distance ∧ c.index + distance < indexBound then some ⟨(c.index + distance).toNat, false⟩
      else none := by
  rw [offsetCoordinate?, free]
  rfl

/-- A coordinate that does not leave the sheet moves by its distance. -/
theorem offsetCoordinate?_of_reaches {c : Coordinate} (free : c.anchored = false) {distance : Int}
    (reaches : c.Reaches distance) :
    offsetCoordinate? distance c = some ⟨(c.index + distance).toNat, false⟩ := by
  obtain ⟨low, high⟩ := reaches free
  rw [offsetCoordinate?_of_not_anchored free, if_pos ⟨low, by omega⟩]

/-- Distances of one coordinate add up. -/
theorem offsetCoordinate?_bind {c : Coordinate} {distance : Int} (reaches : c.Reaches distance) (distance' : Int) :
    (offsetCoordinate? distance c).bind (offsetCoordinate? distance') = offsetCoordinate? (distance + distance') c := by
  cases anchored : c.anchored with
  | true => simp only [offsetCoordinate?_of_anchored anchored, Option.bind_some]
  | false =>
    have sum : ((c.index + distance).toNat : Int) + distance' = c.index + (distance + distance') := by
      have := (reaches anchored).1
      omega
    rw [offsetCoordinate?_of_reaches anchored reaches, Option.bind_some, offsetCoordinate?_of_not_anchored rfl,
      offsetCoordinate?_of_not_anchored anchored, sum]

theorem offsetCoordinate?_zero {c : Coordinate} (below : c.index < indexBound) : offsetCoordinate? 0 c = some c := by
  rcases c with ⟨index, _ | _⟩
  · rw [offsetCoordinate?_of_not_anchored rfl, if_pos ⟨by omega, by simpa using below⟩]
    simp
  · rfl

theorem lt_of_offsetCoordinate? {c c' : Coordinate} {distance : Int} (reaches : c.Reaches distance)
    (below : c.index < indexBound - 1) (h : offsetCoordinate? distance c = some c') : c'.index < indexBound - 1 := by
  cases anchored : c.anchored with
  | true =>
    rw [offsetCoordinate?_of_anchored anchored] at h
    cases h
    exact below
  | false =>
    obtain ⟨low, high⟩ := reaches anchored
    rw [offsetCoordinate?_of_reaches anchored reaches] at h
    cases h
    dsimp only
    omega

/-- Whatever a distance makes of a coordinate has an index with 64 bits. -/
theorem bounds_offset (columns rows : Int) {bound : Nat} (h : bound ≤ indexBound) :
    (offset columns rows).Bounds bound indexBound := by
  have one {c c' : Coordinate} {distance : Int} (below : c.index < bound)
      (moved : offsetCoordinate? distance c = some c') : c'.index < indexBound := by
    cases anchored : c.anchored with
    | true =>
      rw [offsetCoordinate?_of_anchored anchored] at moved
      cases moved
      exact Nat.lt_of_lt_of_le below h
    | false =>
      rw [offsetCoordinate?_of_not_anchored anchored] at moved
      obtain ⟨⟨low, high⟩, eq⟩ := Option.ite_none_right_eq_some.1 moved
      cases eq
      exact (Int.toNat_lt low).2 high
  exact fun c c' below moved => moved.elim (one below) (one below)

/-! ### Areas -/

section

variable {a : Area} {columns rows : Int}

/-- An area that reaches its new place is read there. -/
theorem lands_offset (below : a.Below (indexBound - 1)) (reaches : a.Reaches columns rows) :
    (offset columns rows).Lands (indexBound - 1) a := by
  obtain ⟨belowColumns, belowRows⟩ := Area.below_iff.1 below
  exact lands_of_coordinates
    (fun c mem _ moved => lt_of_offsetCoordinate? (reaches.1 c mem) (belowColumns c mem) moved)
    fun c mem _ moved => lt_of_offsetCoordinate? (reaches.2 c mem) (belowRows c mem) moved

/-- An area that reaches its new place moves on from there. -/
theorem moveArea?_offset_offset (reaches : a.Reaches columns rows) (columns' rows' : Int) :
    ((offset columns rows).andThen (offset columns' rows')).moveArea? a =
      (offset (columns + columns') (rows + rows')).moveArea? a :=
  moveArea?_congr (fun c mem => offsetCoordinate?_bind (reaches.1 c mem) columns')
    fun c mem => offsetCoordinate?_bind (reaches.2 c mem) rows'

/-- There and back moves a reference as little as inserting a row behind everything. -/
theorem moveArea?_offset_neg (below : a.Below (indexBound - 1)) (reaches : a.Reaches columns rows) :
    ((offset columns rows).andThen (offset (-columns) (-rows))).moveArea? a =
      (LineEdit.mk .row .insert (indexBound - 1)).relocation.moveArea? a := by
  obtain ⟨belowColumns, belowRows⟩ := Area.below_iff.1 below
  have zero {c : Coordinate} (below : c.index < indexBound - 1) (distance : Int) :
      offsetCoordinate? (distance + -distance) c = some c := by
    rw [Int.add_right_neg]
    exact offsetCoordinate?_zero (Nat.lt_of_lt_of_le below (Nat.sub_le _ _))
  rw [moveArea?_offset_offset reaches]
  refine moveArea?_congr (fun c mem => zero (belowColumns c mem) columns) fun c mem => ?_
  have stays : (LineEdit.mk .row .insert (indexBound - 1)).moveCoordinate? c = some c :=
    LineEdit.moveCoordinate?_of_lt rfl (belowRows c mem)
  exact (zero (belowRows c mem) rows).trans stays.symm

end

end Relocation

namespace Formula

/-! ### Formulas -/

variable {options : Options} {formula : List Char} {tokens : List Token} {columns rows : Int}

theorem below_of_mem_references {r : Reference} (h : r ∈ references tokens) : r.area.Below (indexBound - 1) := by
  obtain ⟨t, -, read⟩ := List.mem_filterMap.1 h
  exact Reference.below_of_read? (Option.ite_none_right_eq_some.1 read).2

@[simp] theorem offset_zero (options : Options) (formula : List Char) : offset options 0 0 formula = .ok formula :=
  if_pos ⟨rfl, rfl⟩

theorem offset_of_ne (h : ¬(columns = 0 ∧ rows = 0)) :
    offset options columns rows formula = relocate options (.offset columns rows) formula :=
  if_neg h

/-- **Offsets add up**, as long as no reference leaves the sheet with the first one; the second one may lose references.
The sum must not be nothing, for then the formula is left as it is. There and back again gives the same formula if it has
the spelling that rewriting gives. -/
theorem offset_offset (split : tokenize options formula = .ok tokens)
    (reaches : ∀ r ∈ references tokens, r.area.Reaches columns rows) :
    (∀ columns' rows' : Int, ¬(columns + columns' = 0 ∧ rows + rows' = 0) →
      ∃ middle last, offset options columns rows formula = .ok middle ∧
        offset options columns' rows' middle = .ok last ∧
        offset options (columns + columns') (rows + rows') formula = .ok last) ∧
    (shift options ⟨.row, .insert, indexBound - 1⟩ formula = .ok formula →
      ∃ middle, offset options columns rows formula = .ok middle ∧
        offset options (-columns) (-rows) middle = .ok formula) := by
  obtain ⟨spaced, preserving⟩ := exists_tokenize_preserving_iff.2 ⟨tokens, split⟩
  rw [references_of_tokenize split preserving] at reaches
  by_cases still : columns = 0 ∧ rows = 0
  · obtain ⟨rfl, rfl⟩ := still
    refine ⟨fun columns' rows' moves => ?_, fun _ => ⟨formula, by simp, by simp⟩⟩
    rw [Int.zero_add, Int.zero_add] at moves ⊢
    obtain ⟨last, moved, -⟩ := tokenize_relocate preserving (.offset columns' rows')
    rw [← offset_of_ne moves] at moved
    exact ⟨formula, last, by simp, moved, moved⟩
  · have lands : ∀ r ∈ references spaced, (Relocation.offset columns rows).Lands (indexBound - 1) r.area :=
      fun r mem => Relocation.lands_offset (below_of_mem_references mem) (reaches r mem)
    constructor
    · intro columns' rows' moves
      obtain ⟨middle, first, twice⟩ :=
        relocate_relocate (by decide) preserving lands (.offset columns' rows')
      obtain ⟨last, sum, -⟩ := tokenize_relocate preserving (.offset (columns + columns') (rows + rows'))
      refine ⟨middle, last, by rw [offset_of_ne still, first], ?_, by rw [offset_of_ne moves, sum]⟩
      by_cases stays : columns' = 0 ∧ rows' = 0
      · obtain ⟨rfl, rfl⟩ := stays
        rw [Int.add_zero, Int.add_zero, first] at sum
        rw [offset_zero, sum]
      · rw [offset_of_ne stays, twice, ← sum]
        exact relocate_congr preserving fun r mem => Relocation.moveArea?_offset_offset (reaches r mem) columns' rows'
    · intro canonical
      obtain ⟨middle, first, twice⟩ :=
        relocate_relocate (by decide) preserving lands (.offset (-columns) (-rows))
      refine ⟨middle, by rw [offset_of_ne still, first], ?_⟩
      rw [offset_of_ne (by omega), twice, ← canonical]
      exact relocate_congr preserving fun r mem =>
        Relocation.moveArea?_offset_neg (below_of_mem_references mem) (reaches r mem)

/-- Anchors, a sheet and whole columns and rows: the columns are lost with the second step, and come back from the
first one. -/
theorem offset_offset_lost :
    let formula := "=$B2 +Tab!C$3*(B:D,4:5)".toList
    ∃ tokens middle, tokenize {} formula = .ok tokens ∧ (∀ r ∈ references tokens, r.area.Reaches 1 1) ∧
      offset {} 1 1 formula = .ok middle ∧
      offset {} (-3) (-2) middle = .ok "=$B1 +Tab!A$3*(#REF!,3:4)".toList ∧
      offset {} (-1) (-1) middle = .ok formula := by
  intro formula
  let tokens : List Token :=
    [.operand "$B2".toList, ⟨['+'], .infixOperator⟩, .operand "Tab!C$3".toList, ⟨['*'], .infixOperator⟩,
      ⟨['('], .subexpression .paren .opening⟩, .operand "B:D".toList, ⟨[','], .infixOperator⟩,
      .operand "4:5".toList, ⟨[')'], .subexpression .paren .closing⟩]
  have split : tokenize {} formula = .ok tokens := toOption_eq_some_iff.1 (by decide +kernel)
  have reaches : ∀ r ∈ references tokens, r.area.Reaches 1 1 := by decide +kernel
  obtain ⟨composed, back⟩ := offset_offset split reaches
  obtain ⟨middle, last, first, second, sum⟩ := composed (-3) (-2) (by decide)
  have written : offset {} (-2) (-1) formula = .ok "=$B1 +Tab!A$3*(#REF!,3:4)".toList :=
    toOption_eq_some_iff.1 (by decide +kernel)
  have canonical : shift {} ⟨.row, .insert, indexBound - 1⟩ formula = .ok formula :=
    toOption_eq_some_iff.1 (by decide +kernel)
  obtain ⟨middle', again, returned⟩ := back canonical
  obtain rfl : middle = middle' := Except.ok.inj (first.symm.trans again)
  exact ⟨_, middle, split, reaches, first, second.trans (sum.symm.trans written), returned⟩

end Formula

end Spreadsheet
