import Spreadsheet.Proofs.Formula.Offset

/-!
# Rewriting at the edge of the grid

Rewriting moves the coordinates of references.  Here it is said with whole numbers how far each of them goes, and
compared with what rewriting makes of it when indices have only 64 bits.  They agree on all indices: a coordinate that
goes below the first index or above the last one is lost, and any other one lands exactly where it should.  But a column
or a row is written with its number, which is the index and one more, and read only if the number has 64 bits as well.
So a coordinate that lands on the last index is written as a text that is no reference any longer: the letters of a
column go on, and the number of a row, to which one is added without a look at overflow, is zero.  With overflow checks
the program stops there.

* `Displacement` — how far columns and rows go; `LineEdit.displacement`, `Displacement.offset`.
* `Goes` — what becomes of a coordinate that has to go this far.
* `Displacement.Rewrites` — what becomes of a token.
* `Relocation.Realizes` — a relocation does this with the coordinates of a reference; `Relocation.rewrites_of_moves`: then
  it does it with the token.
* `rewrite_exact` — what this means for a formula.
* `offset_past_last` — references that are moved to the last column and to the last row.
-/

namespace Spreadsheet

/-! ### How far coordinates go -/

/-- How far the columns and the rows of references go; nowhere if they are taken out of the sheet. -/
structure Displacement where
  column : Coordinate → Option Int
  row : Coordinate → Option Int

/-- Copying moves what is not anchored. -/
def Displacement.offset (columns rows : Int) : Displacement :=
  ⟨fun c => some (if c.anchored then 0 else columns), fun c => some (if c.anchored then 0 else rows)⟩

namespace LineEdit

/-- A new line moves the lines behind its place, and itself takes the place of the first of them.  A deleted line is
gone, and the lines behind it come closer. -/
def distance? (e : LineEdit) (c : Coordinate) : Option Int :=
  match e.change with
  | .insert => some (if e.line ≤ c.index then 1 else 0)
  | .delete => if c.index = e.line then none else some (if e.line < c.index then -1 else 0)

/-- An edit moves nothing in the other direction. -/
def displacement (e : LineEdit) : Displacement :=
  match e.axis with
  | .row => ⟨fun _ => some 0, e.distance?⟩
  | .column => ⟨e.distance?, fun _ => some 0⟩

end LineEdit

/-- What becomes of a coordinate that has to go this far, with indices below a bound. -/
inductive Goes (bound : Nat) : Option Int → Coordinate → Option Coordinate → Prop
  /-- It lands exactly there and keeps its anchor. -/
  | lands {distance : Int} {c c' : Coordinate} : (c'.index : Int) = c.index + distance → c'.anchored = c.anchored →
      c'.index < bound → Goes bound (some distance) c (some c')
  /-- There is no such index. -/
  | leaves {distance : Int} {c : Coordinate} : c.index + distance < 0 ∨ (bound : Int) ≤ c.index + distance →
      Goes bound (some distance) c none
  /-- Its line is taken out. -/
  | removed {c : Coordinate} : Goes bound none c none

/-- A coordinate that does not move. -/
theorem Goes.stays {bound : Nat} {c : Coordinate} (below : c.index < bound) : Goes bound (some 0) c (some c) :=
  .lands (Int.add_zero _).symm rfl below

/-- Without the last index nothing else is lost than what would have landed there. -/
theorem Goes.tighten {bound : Nat} {distance : Option Int} {c : Coordinate} {found : Option Coordinate}
    (h : Goes (bound + 1) distance c found) (misses : ∀ d ∈ distance, (c.index : Int) + d ≠ bound) :
    Goes bound distance c found := by
  cases h with
  | lands exact anchor below =>
    have := misses _ rfl
    exact .lands exact anchor (by omega)
  | leaves out =>
    refine .leaves ?_
    omega
  | removed => exact .removed

namespace Relocation

/-- A relocation does with the coordinates of an end what a displacement says. -/
structure Realizes (m : Relocation) (D : Displacement) (bound : Nat) (part : ReferencePart) : Prop where
  columns : ∀ c ∈ part.columnCoordinates, Goes bound (D.column c) c (m.column c)
  rows : ∀ c ∈ part.rowCoordinates, Goes bound (D.row c) c (m.row c)

end Relocation

namespace Displacement

variable (D : Displacement) (bound : Nat)

/-- The coordinates of one end land on those of another one. -/
def Places : ReferencePart → ReferencePart → Prop
  | .cell c, .cell c' =>
    Goes bound (D.column c.column) c.column (some c'.column) ∧ Goes bound (D.row c.row) c.row (some c'.row)
  | .column c, .column c' => Goes bound (D.column c) c (some c')
  | .row c, .row c' => Goes bound (D.row c) c (some c')
  | _, _ => False

/-- A coordinate of the end has no place to go. -/
def Loses : ReferencePart → Prop
  | .cell c => Goes bound (D.column c.column) c.column none ∨ Goes bound (D.row c.row) c.row none
  | .column c => Goes bound (D.column c) c none
  | .row c => Goes bound (D.row c) c none

/-- No coordinate of the end has to go to this index. -/
def Misses (index : Nat) (part : ReferencePart) : Prop :=
  (∀ c ∈ part.columnCoordinates, ∀ distance ∈ D.column c, (c.index : Int) + distance ≠ index) ∧
    ∀ c ∈ part.rowCoordinates, ∀ distance ∈ D.row c, (c.index : Int) + distance ≠ index

instance (index : Nat) (part : ReferencePart) : Decidable (D.Misses index part) :=
  inferInstanceAs (Decidable (_ ∧ _))

/-- What becomes of a token when references go this far. -/
inductive Rewrites : Token → Token → Prop
  /-- What is no reference stays. -/
  | kept {t : Token} : (t.kind = .operand .range → Reference.read? t.value = none) → Rewrites t t
  /-- A reference with an end that has no place to go is an error. -/
  | lost {v : List Char} {r : Reference} {part : ReferencePart} :
    Reference.read? v = some r → part ∈ r.area.parts → D.Loses bound part →
      Rewrites ⟨v, .operand .range⟩ ⟨"#REF!".toList, .operand .error⟩
  /-- Otherwise the ends are written anew behind the same sheet, and they are read as what they are unless they lie on
  the last index. -/
  | moved {v : List Char} {r : Reference} {parts : List ReferencePart} :
    Reference.read? v = some r → List.Forall₂ (D.Places bound) r.area.parts parts →
    (∀ part ∈ parts, ReferencePart.read? part.text = some part ↔ part.Below (indexBound - 1)) →
      Rewrites ⟨v, .operand .range⟩
        ⟨r.sheet ++ [':'].intercalate (parts.map ReferencePart.text), .operand .range⟩

end Displacement

/-- The text of a part is read as this part exactly if its numbers have 64 bits. -/
theorem ReferencePart.read?_text_iff (part : ReferencePart) :
    read? part.text = some part ↔ part.Below (indexBound - 1) :=
  ⟨below_of_read?, fun below => read?_text below (by decide)⟩

namespace Relocation

variable {m : Relocation} {D : Displacement} {bound : Nat} {part part' : ReferencePart}

/-- A moved end lies where it should. -/
theorem Realizes.places (realizes : m.Realizes D bound part) (h : m.movePart? part = some part') :
    D.Places bound part part' := by
  cases part with
  | cell c =>
    obtain ⟨c', moved, rfl⟩ := Option.map_eq_some_iff.1 h
    have column := realizes.columns c.column List.mem_cons_self
    have row := realizes.rows c.row List.mem_cons_self
    simp only [moveCell?] at moved
    split at moved
    · next column' row' moveColumn moveRow =>
      cases moved
      rw [moveColumn] at column
      rw [moveRow] at row
      exact ⟨column, row⟩
    · cases moved
  | column c =>
    obtain ⟨c', moved, rfl⟩ := Option.map_eq_some_iff.1 h
    have column := realizes.columns c List.mem_cons_self
    rw [moved] at column
    exact column
  | row c =>
    obtain ⟨c', moved, rfl⟩ := Option.map_eq_some_iff.1 h
    have row := realizes.rows c List.mem_cons_self
    rw [moved] at row
    exact row

/-- An end that is lost has no place to go. -/
theorem Realizes.loses (realizes : m.Realizes D bound part) (h : m.movePart? part = none) : D.Loses bound part := by
  cases part with
  | cell c =>
    have lost : m.moveCell? c = none := by simpa [movePart?] using h
    have column := realizes.columns c.column List.mem_cons_self
    have row := realizes.rows c.row List.mem_cons_self
    simp only [moveCell?] at lost
    split at lost
    · cases lost
    · next none =>
      cases moveColumn : m.column c.column with
      | none =>
        rw [moveColumn] at column
        exact .inl column
      | some column' =>
        cases moveRow : m.row c.row with
        | none =>
          rw [moveRow] at row
          exact .inr row
        | some row' => exact absurd moveRow (none column' row' moveColumn)
  | column c =>
    have lost : m.column c = none := by simpa [movePart?] using h
    have column := realizes.columns c List.mem_cons_self
    rw [lost] at column
    exact column
  | row c =>
    have lost : m.row c = none := by simpa [movePart?] using h
    have row := realizes.rows c List.mem_cons_self
    rw [lost] at row
    exact row

/-- A token is rewritten as the displacement says if the coordinates of its reference are moved so. -/
theorem rewrites_of_moves {t t' : Token} (h : m.Moves t t')
    (realizes : ∀ r, t.kind = .operand .range → Reference.read? t.value = some r →
      ∀ part ∈ r.area.parts, m.Realizes D bound part) : D.Rewrites bound t t' := by
  cases h with
  | kept other => exact .kept other
  | lost read mem none => exact .lost read mem ((realizes _ rfl read _ mem).loses none)
  | moved read parts =>
    have moved := (List.forall₂_and_left _ _).2 ⟨realizes _ rfl read, parts⟩
    exact .moved read (moved.imp fun part part' h => h.1.places h.2) fun part _ => part.read?_text_iff

/-- Without the last index nothing else is lost, if nothing would land there. -/
theorem Realizes.tighten (realizes : m.Realizes D (bound + 1) part) (misses : D.Misses bound part) :
    m.Realizes D bound part :=
  ⟨fun c mem => (realizes.columns c mem).tighten (misses.1 c mem),
    fun c mem => (realizes.rows c mem).tighten (misses.2 c mem)⟩

/-! ### Line edits and offsets -/

/-- A line edit moves everything that can be written as far as it should. -/
theorem realizes_lineEdit (e : LineEdit) (below : part.Below (indexBound - 1)) :
    e.relocation.Realizes e.displacement indexBound part := by
  obtain ⟨columns, rows⟩ := ReferencePart.below_iff.1 below
  have stays {c : Coordinate} (below : c.index < indexBound - 1) : Goes indexBound (some 0) c (some c) :=
    .stays (Nat.lt_of_lt_of_le below (Nat.sub_le _ _))
  have along {c : Coordinate} (below : c.index < indexBound - 1) :
      Goes indexBound (e.distance? c) c (e.moveCoordinate? c) := by
    simp only [LineEdit.distance?, LineEdit.moveCoordinate?, LineEdit.moveIndex?]
    cases e.change with
    | insert =>
      by_cases behind : e.line ≤ c.index
      · simp only [if_pos behind]
        show Goes indexBound (some 1) c (some ⟨c.index + 1, c.anchored⟩)
        exact .lands rfl rfl (Nat.add_lt_of_lt_sub below)
      · simp only [if_neg behind]
        exact stays below
    | delete =>
      by_cases here : c.index = e.line
      · simp only [if_pos here]
        exact .removed
      · by_cases behind : e.line < c.index
        · simp only [if_neg here, if_pos behind]
          show Goes indexBound (some (-1)) c (some ⟨c.index - 1, c.anchored⟩)
          have closer : ((c.index - 1 : Nat) : Int) = c.index + -1 := by omega
          exact .lands closer rfl (by dsimp only; omega)
        · simp only [if_neg here, if_neg behind]
          exact stays below
  cases axis : e.axis with
  | row =>
    rw [LineEdit.relocation, LineEdit.displacement, axis]
    exact ⟨fun c mem => stays (columns c mem), fun c mem => along (rows c mem)⟩
  | column =>
    rw [LineEdit.relocation, LineEdit.displacement, axis]
    exact ⟨fun c mem => along (columns c mem), fun c mem => stays (rows c mem)⟩

/-- A distance moves everything that has an index as far as it should. -/
theorem goes_offsetCoordinate? {c : Coordinate} (below : c.index < indexBound) (distance : Int) :
    Goes indexBound (some (if c.anchored then 0 else distance)) c (offsetCoordinate? distance c) := by
  cases anchored : c.anchored with
  | true =>
    rw [offsetCoordinate?_of_anchored anchored]
    exact .stays below
  | false =>
    show Goes indexBound (some distance) c (offsetCoordinate? distance c)
    rw [offsetCoordinate?_of_not_anchored anchored]
    by_cases fits : 0 ≤ c.index + distance ∧ c.index + distance < indexBound
    · rw [if_pos fits]
      have new : ((c.index + distance).toNat : Int) = c.index + distance := Int.toNat_of_nonneg fits.1
      exact .lands new anchored.symm (by dsimp only; omega)
    · rw [if_neg fits]
      exact .leaves (by omega)

theorem realizes_offset (columns rows : Int) (below : part.Below (indexBound - 1)) :
    (offset columns rows).Realizes (.offset columns rows) indexBound part := by
  obtain ⟨belowColumns, belowRows⟩ := ReferencePart.below_iff.1 below
  exact ⟨fun c mem => goes_offsetCoordinate? (Nat.lt_of_lt_of_le (belowColumns c mem) (Nat.sub_le _ _)) columns,
    fun c mem => goes_offsetCoordinate? (Nat.lt_of_lt_of_le (belowRows c mem) (Nat.sub_le _ _)) rows⟩

end Relocation

namespace Formula

/-! ### Formulas -/

variable {options : Options} {formula : List Char} {tokens : List Token}

/-- A formula is rewritten token by token, and put together from what comes out. -/
theorem exists_rewrites {m : Relocation} {D : Displacement} {bound : Nat}
    (h : tokenize { options with preserveWhitespace := true } formula = .ok tokens)
    (realizes : ∀ r ∈ references tokens, ∀ part ∈ r.area.parts, m.Realizes D bound part) :
    ∃ tokens', relocate options m formula = .ok (render tokens') ∧
      tokenize { options with preserveWhitespace := true } (render tokens') = .ok tokens' ∧
      List.Forall₂ (D.Rewrites bound) tokens tokens' := by
  have rewritten : relocate options m formula = .ok (render (tokens.map m.moveToken)) := by
    rw [relocate, h]
    rfl
  obtain ⟨text, moved, again⟩ := tokenize_relocate h m
  obtain rfl : text = _ := Except.ok.inj (moved.symm.trans rewritten)
  refine ⟨_, rewritten, again, ?_⟩
  rw [List.forall₂_map_right_iff, List.forall₂_same]
  intro t mem
  refine Relocation.rewrites_of_moves (m.moves_moveToken (operand_or_of_tokenize h t mem)) fun r range read => ?_
  exact realizes r (List.mem_filterMap.2 ⟨t, mem, by rw [referenceOf?, if_pos range, read]⟩)

theorem below_of_mem_parts {r : Reference} (mem : r ∈ references tokens) {part : ReferencePart}
    (listed : part ∈ r.area.parts) : part.Below (indexBound - 1) :=
  below_of_mem_references mem part listed

/-- **Rewriting is exact.** When lines are inserted or deleted, or a formula is copied by a distance, each coordinate of
a reference lands exactly where it has to go, and the reference is an error exactly if one of its coordinates has no
index to go to.  The new ends are read as what they are, unless they lie on the last index, where a row is written as
zero; no end that was read does, so its number and the index behind it have 64 bits. -/
theorem rewrite_exact (h : tokenize { options with preserveWhitespace := true } formula = .ok tokens) :
    (∀ e : LineEdit, ∃ tokens', shift options e formula = .ok (render tokens') ∧
      tokenize { options with preserveWhitespace := true } (render tokens') = .ok tokens' ∧
      List.Forall₂ (e.displacement.Rewrites indexBound) tokens tokens') ∧
    (∀ columns rows : Int, ¬(columns = 0 ∧ rows = 0) → ∃ tokens',
      offset options columns rows formula = .ok (render tokens') ∧
      tokenize { options with preserveWhitespace := true } (render tokens') = .ok tokens' ∧
      List.Forall₂ ((Displacement.offset columns rows).Rewrites indexBound) tokens tokens') ∧
    ∀ (s : List Char) (part : ReferencePart), ReferencePart.read? s = some part → part.Below (indexBound - 1) := by
  refine ⟨fun e => ?_, fun columns rows distance => ?_, fun s part read => ReferencePart.below_of_read? read⟩
  · exact exists_rewrites h fun r mem part listed => Relocation.realizes_lineEdit e (below_of_mem_parts mem listed)
  · rw [offset_of_ne distance]
    exact exists_rewrites h fun r mem part listed =>
      Relocation.realizes_offset columns rows (below_of_mem_parts mem listed)

/-- The last column and the last row that can be read are reached, and the row in front of the first one is not. -/
theorem rewrite_exact_last :
    let tokens := [⟨"GKGWBYLWRXTLPN$18446744073709551615".toList, .operand .range⟩, ⟨['+'], .infixOperator⟩,
      ⟨"Tab!A1".toList, .operand .range⟩]
    let moved := [⟨"GKGWBYLWRXTLPO$18446744073709551615".toList, .operand .range⟩, ⟨['+'], .infixOperator⟩,
      ⟨"#REF!".toList, .operand .error⟩]
    tokenize { preserveWhitespace := true } (render tokens) = .ok tokens ∧
      offset {} 1 (-1) (render tokens) = .ok (render moved) ∧
      List.Forall₂ ((Displacement.offset 1 (-1)).Rewrites indexBound) tokens moved := by
  intro tokens moved
  have split : tokenize { ({} : Options) with preserveWhitespace := true } (render tokens) = .ok tokens :=
    toOption_eq_some_iff.1 (by decide +kernel)
  have written : offset {} 1 (-1) (render tokens) = .ok (render moved) := toOption_eq_some_iff.1 (by decide +kernel)
  have again : tokenize { ({} : Options) with preserveWhitespace := true } (render moved) = .ok moved :=
    toOption_eq_some_iff.1 (by decide +kernel)
  obtain ⟨tokens', rewritten, read, related⟩ := (rewrite_exact split).2.1 1 (-1) (by decide)
  have same : render moved = render tokens' := Except.ok.inj (written.symm.trans rewritten)
  rw [← same, again] at read
  cases read
  exact ⟨split, written, related⟩

/-- A reference that is moved to the last column or to the last row is no error, and it is no reference any longer. -/
theorem offset_past_last :
    tokenize { preserveWhitespace := true } "=GKGWBYLWRXTLPO1".toList =
        .ok [⟨"GKGWBYLWRXTLPO1".toList, .operand .range⟩] ∧
      (Reference.read? "GKGWBYLWRXTLPO1".toList).isSome ∧
      offset {} 1 0 "=GKGWBYLWRXTLPO1".toList = .ok "=GKGWBYLWRXTLPP1".toList ∧
      shift {} ⟨.column, .insert, 0⟩ "=GKGWBYLWRXTLPO1".toList = .ok "=GKGWBYLWRXTLPP1".toList ∧
      ReferencePart.read? "GKGWBYLWRXTLPP1".toList = none ∧
      offset {} 0 1 "=A18446744073709551615".toList = .ok "=A0".toList ∧
      shift {} ⟨.row, .insert, 0⟩ "=A18446744073709551615".toList = .ok "=A0".toList ∧
      ReferencePart.read? "A0".toList = none :=
  ⟨toOption_eq_some_iff.1 (by decide +kernel), by decide +kernel, toOption_eq_some_iff.1 (by decide +kernel),
    toOption_eq_some_iff.1 (by decide +kernel), by decide +kernel, toOption_eq_some_iff.1 (by decide +kernel),
    toOption_eq_some_iff.1 (by decide +kernel), by decide +kernel⟩

end Formula

end Spreadsheet
