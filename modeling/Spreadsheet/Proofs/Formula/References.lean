import Spreadsheet.Formula.Dependencies
import Spreadsheet.Proofs.Formula.Agreement
import Spreadsheet.Proofs.Formula.Relocation

/-!
# The references of a formula and the cells it depends on

What a formula depends on is found in the texts of its operands.  Here the operands are first read as references;
a reference to cells of the formula's own sheet covers a block of cells, and the dependencies are the cells of the
blocks that are not too large.

* `references` and `blocks` — the references of tokens, and the blocks of cells that they cover.
* `dependencies_eq` — the dependencies of tokens are the cells of their small blocks, one block after the other.
* `references_of_tokenize` — the references of a formula do not depend on the options it is read under.
* `references_map_moveToken` — the references of a moved formula are the moved references.
-/

namespace Spreadsheet

/-! ### Blocks -/

/-- The block of cells that a reference covers on its own sheet; whole columns and rows have no corners. -/
def Reference.block? (r : Reference) : Option Range :=
  if r.sheet = [] then
    match r.area with
    | .cell c => some ⟨c.address, c.address⟩
    | .cells a b => some ⟨a.address, b.address⟩
    | _ => none
  else none

/-- Whether a block is small enough to be listed. -/
def Range.Small (b : Range) : Prop :=
  ∃ n, b.count? = some n ∧ n ≤ expansionLimit

/-- A block is small enough if it has at most as many cells as the limit. -/
theorem Range.small_iff {b : Range} : b.Small ↔ b.size ≤ expansionLimit := by
  have limit : expansionLimit < indexBound := by decide
  simp only [Small, count?_eq, length_cells, Option.ite_none_right_eq_some, Option.some.injEq]
  constructor
  · rintro ⟨n, ⟨-, rfl⟩, le⟩
    exact le
  · intro le
    exact ⟨_, ⟨Nat.lt_of_le_of_lt le limit, rfl⟩, le⟩

/-- The cells of a block that is small enough, and no cells of another one. -/
def Range.listed (b : Range) : List Address :=
  match b.count? with
  | some n => if n ≤ expansionLimit then b.cells else []
  | none => []

theorem Range.mem_listed_iff {b : Range} {q : Address} : q ∈ b.listed ↔ b.Small ∧ q ∈ b.cells := by
  rw [listed, Small]
  cases b.count? with
  | none => simp
  | some n => simp

theorem Range.listed_single (a : Address) : (Range.mk a a).listed = [a] := by
  have one : (Range.mk a a).count? = some 1 := by simp [count?, indexBound]
  rw [listed, one]
  simp [cells, between, expansionLimit]

namespace Area

/-- A text with a dividing character has more than one part. -/
theorem of_split_eq_singleton {s t : List Char} (h : Text.split (· = ':') s = [t]) :
    ':' ∉ s ∧ s = t := by
  by_cases mem : ':' ∈ s
  · obtain ⟨before, behind, rfl, first⟩ := List.eq_append_cons_of_mem mem
    have plain : ∀ d ∈ before, decide (d = ':') = false := fun d hd =>
      decide_eq_false fun same => first (same ▸ hd)
    rw [Text.split_append_cons _ plain (by decide)] at h
    exact absurd (List.cons.inj h).2 (Text.split_ne_nil _ _)
  · have plain : ∀ d ∈ s, decide (d = ':') = false := fun d hd =>
      decide_eq_false fun same => mem (same ▸ hd)
    rw [Text.split_of_forall plain] at h
    exact ⟨mem, (List.cons.inj h).1⟩

theorem split_eq_singleton {s : List Char} (h : ':' ∉ s) : Text.split (· = ':') s = [s] :=
  Text.split_of_forall fun _ hd => decide_eq_false fun same => h (same ▸ hd)

theorem read?_eq_cell_iff {s : List Char} {c : CellReference} :
    read? s = some (.cell c) ↔ ':' ∉ s ∧ CellReference.read? s = some c := by
  rw [read?_eq_some_iff, parts]
  constructor
  · intro h
    obtain ⟨text, rest, head, tail, eq⟩ := List.forall₂_cons_right_iff.1 h
    obtain rfl := List.forall₂_nil_right_iff.1 tail
    obtain ⟨plain, rfl⟩ := of_split_eq_singleton eq
    exact ⟨plain, ReferencePart.read?_eq_cell_iff.1 head⟩
  · rintro ⟨plain, read⟩
    rw [split_eq_singleton plain]
    exact .cons (ReferencePart.read?_eq_cell_iff.2 read) .nil

theorem read?_eq_cells_iff {s : List Char} {a b : CellReference} :
    read? s = some (.cells a b) ↔
      ∃ first last, Text.split (· = ':') s = [first, last] ∧
        CellReference.read? first = some a ∧ CellReference.read? last = some b := by
  rw [read?_eq_some_iff, parts]
  constructor
  · intro h
    obtain ⟨first, rest, head, tail, eq⟩ := List.forall₂_cons_right_iff.1 h
    obtain ⟨last, rest', head', tail', eq'⟩ := List.forall₂_cons_right_iff.1 tail
    obtain rfl := List.forall₂_nil_right_iff.1 tail'
    rw [eq'] at eq
    exact ⟨first, last, eq, ReferencePart.read?_eq_cell_iff.1 head, ReferencePart.read?_eq_cell_iff.1 head'⟩
  · rintro ⟨first, last, eq, head, head'⟩
    rw [eq]
    exact .cons (ReferencePart.read?_eq_cell_iff.2 head)
      (.cons (ReferencePart.read?_eq_cell_iff.2 head') .nil)

end Area

/-- A range is read where an area between two cells is read. -/
theorem Range.read?_eq_some_iff {s : List Char} {range : Range} :
    Range.read? s = some range ↔
      ∃ a b, Area.read? s = some (.cells a b) ∧ range = ⟨a.address, b.address⟩ := by
  constructor
  · intro h
    simp only [read?, Address.read?] at h
    split at h
    · next first last eq =>
      split at h
      · next readFirst readLast =>
        obtain ⟨a, ha, rfl⟩ := Option.map_eq_some_iff.1 readFirst
        obtain ⟨b, hb, rfl⟩ := Option.map_eq_some_iff.1 readLast
        cases h
        exact ⟨a, b, Area.read?_eq_cells_iff.2 ⟨first, last, eq, ha, hb⟩, rfl⟩
      · simp at h
    · simp at h
  · rintro ⟨a, b, read, rfl⟩
    obtain ⟨first, last, eq, ha, hb⟩ := Area.read?_eq_cells_iff.1 read
    simp only [read?, Address.read?, eq, ha, hb, Option.map_some]

namespace Reference

/-- A text without a mark is a reference to the sheet of the formula. -/
theorem read?_of_not_mem {v : List Char} (plain : '!' ∉ v) :
    read? v = (Area.read? v).map (⟨[], ·⟩) := by
  have split : splitSheet v = ([], v) := by
    have := @splitSheet_append [] v (by simp) plain
    rwa [List.nil_append] at this
  simp only [read?, split]

theorem sheet_ne_nil_of_mem {v : List Char} {r : Reference} (h : read? v = some r) (mem : '!' ∈ v) :
    r.sheet ≠ [] := by
  obtain ⟨area, rfl, -, -, plain⟩ := split_of_read? h
  intro empty
  rw [empty, List.nil_append] at mem
  exact plain mem

end Reference

namespace Formula

/-- The block of an operand without a mark that is no range is its cell. -/
theorem block_of_cell {v : List Char} (plain : '!' ∉ v) (colon : ':' ∉ v) :
    (Reference.read? v).bind Reference.block? = (Address.read? v).map fun a => ⟨a, a⟩ := by
  rw [Reference.read?_of_not_mem plain]
  refine Option.ext fun b => ?_
  constructor
  · intro h
    obtain ⟨r, read, block⟩ := Option.bind_eq_some_iff.1 h
    obtain ⟨area, readArea, rfl⟩ := Option.map_eq_some_iff.1 read
    cases area with
    | cell c =>
      cases block
      rw [Address.read?, (Area.read?_eq_cell_iff.1 readArea).2]
      rfl
    | cells x y =>
      obtain ⟨first, last, eq, -⟩ := Area.read?_eq_cells_iff.1 readArea
      rw [Area.split_eq_singleton colon] at eq
      simp at eq
    | columns x y | rows x y => cases block
  · intro h
    obtain ⟨a, read, rfl⟩ := Option.map_eq_some_iff.1 h
    obtain ⟨c, readCell, rfl⟩ := Option.map_eq_some_iff.1 read
    rw [Area.read?_eq_cell_iff.2 ⟨colon, readCell⟩]
    rfl

/-- The block of an operand with a colon and without a mark is its range. -/
theorem block_of_range {v : List Char} (plain : '!' ∉ v) (colon : ':' ∈ v) :
    (Reference.read? v).bind Reference.block? = Range.read? v := by
  rw [Reference.read?_of_not_mem plain]
  refine Option.ext fun b => ?_
  rw [Range.read?_eq_some_iff]
  constructor
  · intro h
    obtain ⟨r, read, block⟩ := Option.bind_eq_some_iff.1 h
    obtain ⟨area, readArea, rfl⟩ := Option.map_eq_some_iff.1 read
    cases area with
    | cell c => exact absurd colon (Area.read?_eq_cell_iff.1 readArea).1
    | cells x y => exact ⟨x, y, readArea, (Option.some.inj block).symm⟩
    | columns x y | rows x y => cases block
  · rintro ⟨x, y, readArea, rfl⟩
    rw [readArea]
    rfl

/-- The cells that an operand names are those of its block, unless it is too large. -/
theorem cellsNamed_eq (v : List Char) :
    cellsNamed v = ((Reference.read? v).bind Reference.block?).toList.flatMap Range.listed := by
  by_cases mark : '!' ∈ v
  · have other : (Reference.read? v).bind Reference.block? = none := by
      refine Option.bind_eq_none_iff.2 fun r read => ?_
      rw [Reference.block?, if_neg (Reference.sheet_ne_nil_of_mem read mark)]
    rw [cellsNamed, if_pos (.inl mark), other]
    rfl
  · by_cases bracket : '[' ∈ v
    · have none : Area.read? v = none := Option.eq_none_iff_forall_ne_some.2 fun area read =>
        absurd (Area.isPlain_of_read? read _ bracket) (by decide)
      rw [cellsNamed, if_pos (.inr bracket), Reference.read?_of_not_mem mark, none]
      rfl
    · rw [cellsNamed, if_neg (by simp [mark, bracket])]
      by_cases colon : ':' ∈ v
      · rw [if_pos colon, block_of_range mark colon]
        cases Range.read? v with
        | none => rfl
        | some b => exact (List.append_nil _).symm
      · rw [if_neg colon, block_of_cell mark colon]
        cases Address.read? v with
        | none => rfl
        | some a => simp [Range.listed_single]

/-! ### References of tokens -/

/-- The reference that a token is, if it is one. -/
def referenceOf? (t : Token) : Option Reference :=
  if t.kind = .operand .range then Reference.read? t.value else none

/-- The references of tokens. -/
def references (tokens : List Token) : List Reference :=
  tokens.filterMap referenceOf?

/-- The blocks of cells that the references of tokens cover. -/
def blocks (tokens : List Token) : List Range :=
  (references tokens).filterMap Reference.block?

/-- The block that a token covers, if it covers one. -/
def blockOf? (t : Token) : Option Range :=
  (referenceOf? t).bind Reference.block?

theorem blocks_eq (tokens : List Token) : blocks tokens = tokens.filterMap blockOf? :=
  List.filterMap_filterMap

theorem cellsOfToken_eq (t : Token) : cellsOfToken t = (blockOf? t).toList.flatMap Range.listed := by
  rw [cellsOfToken, blockOf?, referenceOf?]
  split
  · exact cellsNamed_eq t.value
  · rfl

/-- The dependencies of tokens are the cells of their small blocks, in the same order. -/
theorem dependencies_eq (tokens : List Token) : dependencies tokens = (blocks tokens).flatMap Range.listed := by
  induction tokens with
  | nil => rfl
  | cons t tokens ih =>
    rw [dependencies, List.flatMap_cons, ← dependencies, ih, cellsOfToken_eq, blocks_eq, blocks_eq,
      List.filterMap_cons]
    cases blockOf? t <;> simp

theorem mem_dependencies_iff {tokens : List Token} {q : Address} :
    q ∈ dependencies tokens ↔ ∃ b ∈ blocks tokens, b.Small ∧ q ∈ b.cells := by
  simp only [dependencies_eq, List.mem_flatMap, Range.mem_listed_iff]

/-! ### Reading the same formula under other options -/

/-- The reference that a lexeme is, if it is one. -/
def Lexeme.reference? : Lexeme → Option Reference
  | .operand v => referenceOf? (.operand v)
  | _ => none

theorem referenceOf?_of_makes {l : Lexeme} {t : Token} (h : l.Makes t) :
    referenceOf? t = l.reference? := by
  rcases h.operand_or with ⟨v, rfl, rfl⟩ | ⟨other, kinds, -⟩
  · rfl
  · rw [referenceOf?, if_neg (kinds .range)]
    cases l with
    | operand v => exact absurd rfl (other v)
    | _ => rfl

/-- The references of tokens are those of the lexemes that made them; spaces are no references. -/
theorem references_of_makes {options : Options} {ls : List Lexeme} {tokens : List Token}
    (h : List.Forall₂ Lexeme.Makes (ls.filter options.keeps) tokens) :
    references tokens = ls.filterMap Lexeme.reference? := by
  induction ls generalizing tokens with
  | nil =>
    cases h
    rfl
  | cons l ls ih =>
    by_cases keep : options.keeps l = true
    · rw [List.filter_cons_of_pos keep] at h
      cases h with
      | cons makes behind =>
        rw [references, List.filterMap_cons, List.filterMap_cons, referenceOf?_of_makes makes]
        rw [← ih behind, references]
    · rw [List.filter_cons_of_neg keep] at h
      obtain ⟨-, rfl⟩ : options.preserveWhitespace = false ∧ l = .space := by
        simpa [Options.keeps] using keep
      rw [ih h]
      rfl

/-- A formula can be read with its spaces kept if and only if it can be read. -/
theorem exists_tokenize_preserving_iff {options : Options} {formula : List Char} :
    (∃ tokens, tokenize { options with preserveWhitespace := true } formula = .ok tokens) ↔
      ∃ tokens, tokenize options formula = .ok tokens :=
  (@tokenize_agree { options with preserveWhitespace := true } options rfl formula).exists_ok_iff

/-- What a formula is rewritten to can be read. -/
theorem exists_tokenize_of_relocate {options : Options} {m : Relocation} {formula text : List Char}
    (h : relocate options m formula = .ok text) : ∃ tokens, tokenize options text = .ok tokens := by
  cases split : tokenize { options with preserveWhitespace := true } formula with
  | error fault =>
    rw [relocate, split] at h
    exact absurd h (by simp [Except.map])
  | ok tokens =>
    obtain ⟨text', moved, again⟩ := tokenize_relocate split m
    obtain rfl : text = text' := Except.ok.inj (h.symm.trans moved)
    exact exists_tokenize_preserving_iff.1 ⟨_, again⟩

/-- The references of a formula do not depend on the options it is read under. -/
theorem references_of_tokenize {options options' : Options} {formula : List Char}
    {tokens tokens' : List Token} (h : tokenize options formula = .ok tokens)
    (h' : tokenize options' formula = .ok tokens') : references tokens = references tokens' := by
  cases tokenized h with
  | nothing =>
    cases h'
    rfl
  | literal plain =>
    rw [tokenize_literal plain] at h'
    cases h'
    rfl
  | formula =>
    obtain ⟨ls, -, gathered, made⟩ := forall₂_makes_of_tokenize h
    obtain ⟨ls', -, gathered', made'⟩ := forall₂_makes_of_tokenize h'
    obtain rfl : ls = ls' := Option.some.inj (gathered.symm.trans gathered')
    rw [references_of_makes made, references_of_makes made']

end Formula

/-! ### References of a moved formula -/

namespace Relocation

/-- The moved reference; its sheet stays. -/
def moveReference? (m : Relocation) (r : Reference) : Option Reference :=
  (m.moveArea? r.area).map (⟨r.sheet, ·⟩)

/-- The new place of an area, if it has one, is below a bound. -/
def Lands (m : Relocation) (bound : Nat) (a : Area) : Prop :=
  ∀ b, m.moveArea? a = some b → b.Below bound

/-- An area lands below a bound if each of its coordinates does. -/
theorem lands_of_coordinates {m : Relocation} {bound : Nat} {a : Area}
    (columns : ∀ c ∈ a.columnCoordinates, ∀ c', m.column c = some c' → c'.index < bound)
    (rows : ∀ c ∈ a.rowCoordinates, ∀ c', m.row c = some c' → c'.index < bound) : m.Lands bound a := by
  intro b h part' mem
  obtain ⟨part, listed, move⟩ := exists_of_forall₂ (parts_of_moveArea? h).flip mem
  have columns : ∀ c ∈ part.columnCoordinates, ∀ c', m.column c = some c' → c'.index < bound := fun c hc =>
    columns c (List.mem_flatMap.2 ⟨part, listed, hc⟩)
  have rows : ∀ c ∈ part.rowCoordinates, ∀ c', m.row c = some c' → c'.index < bound := fun c hc =>
    rows c (List.mem_flatMap.2 ⟨part, listed, hc⟩)
  cases part with
  | cell c =>
    obtain ⟨c', moved, rfl⟩ := Option.map_eq_some_iff.1 move
    simp only [moveCell?] at moved
    split at moved
    · next column row moveColumn moveRow =>
      cases moved
      exact ⟨columns c.column List.mem_cons_self column moveColumn, rows c.row List.mem_cons_self row moveRow⟩
    · simp at moved
  | column c =>
    obtain ⟨c', moved, rfl⟩ := Option.map_eq_some_iff.1 move
    exact columns c List.mem_cons_self c' moved
  | row c =>
    obtain ⟨c', moved, rfl⟩ := Option.map_eq_some_iff.1 move
    exact rows c List.mem_cons_self c' moved

/-- Coordinates below one bound are moved below another one. -/
def Bounds (m : Relocation) (bound bound' : Nat) : Prop :=
  ∀ c c' : Coordinate, c.index < bound → m.column c = some c' ∨ m.row c = some c' → c'.index < bound'

theorem Bounds.lands {m : Relocation} {bound bound' : Nat} (bounds : m.Bounds bound bound') {a : Area}
    (below : a.Below bound) : m.Lands bound' a := by
  obtain ⟨columns, rows⟩ := Area.below_iff.1 below
  exact lands_of_coordinates (fun c mem c' moved => bounds c c' (columns c mem) (.inl moved))
    fun c mem c' moved => bounds c c' (rows c mem) (.inr moved)

end Relocation

namespace Formula

theorem referenceOf?_operand (v : List Char) :
    referenceOf? (.operand v) =
      if Token.operandKind v = .range then Reference.read? v else none := by
  simp [referenceOf?, Token.operand]

/-- A moved token is the moved reference. -/
theorem referenceOf?_moveOperand {m : Relocation} {bound : Nat} (h : bound < indexBound) {v : List Char}
    (lands : ∀ r, referenceOf? (.operand v) = some r → m.Lands bound r.area) :
    referenceOf? (.operand (m.moveOperand v)) =
      (referenceOf? (.operand v)).bind m.moveReference? := by
  rcases m.moveOperand_cases v with ⟨other, same⟩ | ⟨r, range, read, moved⟩
  · have none : referenceOf? (.operand v) = none := by
      rw [referenceOf?_operand]
      split
      · next range => exact other range
      · rfl
    rw [same, none, Option.bind_none]
  · have old : referenceOf? (.operand v) = some r := by
      rw [referenceOf?_operand, if_pos range, read]
    rw [moved, old, Option.bind_some, Relocation.moveText, Relocation.moveReference?]
    cases area : m.moveArea? r.area with
    | none =>
      have lost : referenceOf? (.operand "#REF!".toList) = none := by decide +kernel
      exact lost
    | some a =>
      obtain ⟨s, -, -, mark, -⟩ := Reference.split_of_read? read
      have again := @Reference.read?_text ⟨r.sheet, a⟩ bound mark (lands r old a area) h
      rw [referenceOf?_operand, if_pos (Relocation.operandKind_moved range read a), again]
      rfl

/-- The references of moved tokens are the moved references. -/
theorem references_map_moveToken {m : Relocation} {bound : Nat} (h : bound < indexBound) {options : Options}
    {formula : List Char} {tokens : List Token} (split : tokenize options formula = .ok tokens)
    (lands : ∀ r ∈ references tokens, m.Lands bound r.area) :
    references (tokens.map m.moveToken) = (references tokens).filterMap m.moveReference? := by
  rw [references, references, List.filterMap_map, List.filterMap_filterMap]
  refine List.filterMap_congr fun t mem => ?_
  rcases operand_or_of_tokenize split t mem with ⟨v, rfl⟩ | other
  · rw [Function.comp_apply, m.moveToken_operand]
    refine referenceOf?_moveOperand h fun r read => lands r ?_
    exact List.mem_filterMap.2 ⟨_, mem, read⟩
  · rw [Function.comp_apply, m.moveToken_of_ne other, referenceOf?, if_neg (other .range)]
    rfl

/-- If a moved token is a reference, it is a moved reference, even if a coordinate has gone to the last index. -/
theorem exists_of_referenceOf?_moveOperand {m : Relocation} (bounds : m.Bounds (indexBound - 1) indexBound)
    {v : List Char} {r' : Reference} (h : referenceOf? (.operand (m.moveOperand v)) = some r') :
    ∃ r, referenceOf? (.operand v) = some r ∧ m.moveReference? r = some r' := by
  rcases m.moveOperand_cases v with ⟨other, same⟩ | ⟨r, range, read, moved⟩
  · rw [same, referenceOf?_operand, Option.ite_none_right_eq_some] at h
    rw [other h.1] at h
    simp at h
  · refine ⟨r, by rw [referenceOf?_operand, if_pos range, read], ?_⟩
    rw [moved, Relocation.moveText] at h
    split at h
    · next area found =>
      obtain ⟨s, -, -, mark, -⟩ := Reference.split_of_read? read
      rw [referenceOf?_operand, if_pos (Relocation.operandKind_moved range read area)] at h
      have below : area.Below indexBound := bounds.lands (Reference.below_of_read? read) area found
      rw [Relocation.moveReference?, found, Reference.eq_of_read?_text (r := ⟨r.sheet, area⟩) mark below h]
      rfl
    · have lost : referenceOf? (.operand "#REF!".toList) = none := by decide +kernel
      rw [lost] at h
      simp at h

/-- Moved tokens have no references but moved ones. -/
theorem exists_of_mem_references_moveToken {m : Relocation} (bounds : m.Bounds (indexBound - 1) indexBound)
    {options : Options} {formula : List Char} {tokens : List Token} (split : tokenize options formula = .ok tokens)
    {r' : Reference} (h : r' ∈ references (tokens.map m.moveToken)) :
    ∃ r ∈ references tokens, m.moveReference? r = some r' := by
  obtain ⟨t', mem', read⟩ := List.mem_filterMap.1 h
  obtain ⟨t, mem, rfl⟩ := List.mem_map.1 mem'
  rcases operand_or_of_tokenize split t mem with ⟨v, rfl⟩ | other
  · rw [m.moveToken_operand] at read
    obtain ⟨r, old, moved⟩ := exists_of_referenceOf?_moveOperand bounds read
    exact ⟨r, List.mem_filterMap.2 ⟨_, mem, old⟩, moved⟩
  · rw [m.moveToken_of_ne other, referenceOf?, if_neg (other .range)] at read
    simp at read

end Formula

end Spreadsheet
