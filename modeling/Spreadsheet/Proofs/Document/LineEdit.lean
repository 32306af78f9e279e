import Spreadsheet.Proofs.Document.Coherence
import Spreadsheet.Proofs.LineEdit

/-!
# Dependencies after a line has been inserted or deleted

Inserting or deleting a line moves the cells of a sheet and rewrites the texts of its formulas.  The two are done
apart from each other, and yet the dependencies of the resulting sheet are those of the old one in their new
places: a formula that is moved names the moved blocks of the old formula.

* `Cell.Scanned` — the tokens of a formula come from its source under some options.
* `blocks_shiftCell` — a rewritten formula names the moved blocks.
* `getElem?_shiftSheet` — the cells of the new sheet are the moved cells of the old one.
* `dependsOn_editLine` — which dependencies stay, which are new, and which are gone.
-/

namespace Spreadsheet

/-! ### Formulas and their tokens -/

namespace Cell

/-- The tokens of a formula come from its source under some options. -/
def Scanned (cell : Cell) : Prop :=
  ∀ source tokens, cell.content = .formula source tokens →
    ∃ options, Formula.tokenize options source = .ok tokens

theorem tokenize_of_formula {options : Formula.Options} {source s : List Char} {tokens : List Token}
    (h : (formula options source).content = .formula s tokens) : Formula.tokenize options s = .ok tokens := by
  rw [formula] at h
  split at h
  · next ts split =>
    cases h
    exact split
  · simp at h

theorem scanned_formula (options : Formula.Options) (source : List Char) :
    (Cell.formula options source).Scanned :=
  fun _ _ content => ⟨options, tokenize_of_formula content⟩

theorem Built.scanned {cell : Cell} (h : cell.Built) : cell.Scanned :=
  Cell.holds_of_built (P := Scanned) (fun _ _ none => nomatch none) (fun _ _ _ none => nomatch none)
    (fun _ _ _ none => nomatch none) scanned_formula h

/-- A coherent cell depends on the cells that its tokens name. -/
theorem Coherent.dependsOn_eq {cell : Cell} (h : cell.Coherent) :
    cell.dependsOn = Formula.dependencies cell.tokens := by
  cases content : cell.content with
  | formula source ts =>
    rw [Coherent, content] at h
    rw [tokens_of_content content]
    exact h
  | _ =>
    rw [Coherent, content] at h
    rw [tokens_of_ne (by simp [content])]
    exact h

end Cell

namespace Document

theorem scanned_shiftCell (options : Formula.Options) (e : LineEdit) {cell : Cell} (h : cell.Scanned) :
    (shiftCell options e cell).Scanned := by
  rcases shiftCell_cases options e cell with same | ⟨source, ts, -, ⟨shifted, -, anew⟩ | ⟨error, -, given⟩⟩
  · rw [same]
    exact h
  · rw [anew]
    exact Cell.scanned_formula _ _
  · rw [given]
    simp [Cell.Scanned]

theorem inherited_scanned : Inherited Cell.Scanned :=
  .of_built (fun _ built => built.scanned) fun options e _ h => scanned_shiftCell options e h

/-! ### A rewritten formula -/

/-- A formula that an edit leaves as it is keeps its tokens. -/
theorem shiftCell_of_shift_eq_self {options : Formula.Options} {e : LineEdit} {cell : Cell} {source : List Char}
    {ts : List Token} (content : cell.content = .formula source ts)
    (stays : Formula.shift options e source = .ok source) : shiftCell options e cell = cell := by
  simp [shiftCell, content, stays]

/-- A formula that an edit changes is made anew. -/
theorem shiftCell_of_shift_ne {options : Formula.Options} {e : LineEdit} {cell : Cell}
    {source shifted : List Char} {ts : List Token}
    (content : cell.content = .formula source ts) (shift : Formula.shift options e source = .ok shifted)
    (changed : shifted ≠ source) : shiftCell options e cell = .formula options shifted := by
  simp [shiftCell, content, shift, changed]

theorem shift_of_error {options : Formula.Options} {e : LineEdit} {source : List Char} {fault : Formula.ScanError}
    (unreadable : Formula.tokenize { options with preserveWhitespace := true } source = .error fault) :
    Formula.shift options e source = .error fault := by
  rw [Formula.shift, Formula.relocate, unreadable]
  rfl

/-- A formula that can no longer be read is given up, whatever the edit is. -/
theorem shiftCell_of_error {options : Formula.Options} {e : LineEdit} {cell : Cell} {source : List Char}
    {ts : List Token} {fault : Formula.ScanError}
    (content : cell.content = .formula source ts)
    (unreadable : Formula.tokenize { options with preserveWhitespace := true } source = .error fault) :
    shiftCell options e cell = ⟨.invalid source fault, []⟩ := by
  simp [shiftCell, content, shift_of_error unreadable]

/-- Rewriting a formula makes a cell of the new source, also if the source has not changed. -/
theorem shiftCell_formula {options : Formula.Options} {e : LineEdit} {source shifted : List Char}
    {ts : List Token} (split : Formula.tokenize options source = .ok ts)
    (shift : Formula.shift options e source = .ok shifted) :
    shiftCell options e (.formula options source) = .formula options shifted := by
  have content : (Cell.formula options source).content = .formula source ts := by
    rw [Cell.formula, split]
  by_cases kept : shifted = source
  · subst kept
    exact shiftCell_of_shift_eq_self content shift
  · exact shiftCell_of_shift_ne content shift kept

/-- A rewritten formula names the blocks of its moved tokens. -/
theorem blocks_shiftCell_eq {options : Formula.Options} {cell : Cell} {source : List Char}
    {ts tokens : List Token} (scanned : cell.Scanned) (content : cell.content = .formula source ts)
    (preserving : Formula.tokenize { options with preserveWhitespace := true } source = .ok tokens)
    (e : LineEdit) :
    Formula.references ts = Formula.references tokens ∧
      Formula.blocks (shiftCell options e cell).tokens = Formula.blocks (tokens.map e.relocation.moveToken) := by
  obtain ⟨before, split⟩ := scanned source ts content
  obtain ⟨shifted, moved, again⟩ := Formula.tokenize_relocate preserving e.relocation
  have shift : Formula.shift options e source = .ok shifted := moved
  -- the references are the same, whatever options the tokens were made under
  refine ⟨Formula.references_of_tokenize split preserving, ?_⟩
  by_cases kept : shifted = source
  · subst kept
    rw [shiftCell_of_shift_eq_self content shift, Cell.tokens_of_content content, Formula.blocks, Formula.blocks,
      Formula.references_of_tokenize split again]
  · obtain ⟨ts', split'⟩ := Formula.exists_tokenize_of_relocate moved
    rw [shiftCell_of_shift_ne content shift kept, Cell.tokens_formula split', Formula.blocks, Formula.blocks,
      Formula.references_of_tokenize split' again]

/-- A formula that can be read under the options of the document names the moved blocks after the edit. -/
theorem blocks_shiftCell {options : Formula.Options} {e : LineEdit} {bound : Nat}
    (h : bound + 1 < indexBound) {cell : Cell} (scanned : cell.Scanned)
    (splits : ∀ source ts, cell.content = .formula source ts →
      ∃ ts', Formula.tokenize options source = .ok ts')
    (below : ∀ r ∈ Formula.references cell.tokens, r.area.Below bound) :
    Formula.blocks (shiftCell options e cell).tokens =
      (Formula.blocks cell.tokens).filterMap e.moveBlock? := by
  cases content : cell.content with
  | formula source ts =>
    obtain ⟨ts', split'⟩ := splits source ts content
    obtain ⟨tokens, preserving⟩ := Formula.exists_tokenize_preserving_iff.2 ⟨ts', split'⟩
    obtain ⟨same, moved⟩ := blocks_shiftCell_eq scanned content preserving e
    rw [Cell.tokens_of_content content] at below ⊢
    rw [moved, e.blocks_map_moveToken h preserving (same ▸ below), Formula.blocks, Formula.blocks, same]
  | _ =>
    have none : cell.tokens = [] := Cell.tokens_of_ne (by simp [content])
    have kept : shiftCell options e cell = cell := by simp only [shiftCell, content]
    rw [kept, none]
    rfl

/-- Whatever block a rewritten formula names is a moved one. A formula that can no longer be read names none. -/
theorem exists_of_mem_blocks_shiftCell {options : Formula.Options} {e : LineEdit} {cell : Cell}
    (scanned : cell.Scanned) {b' : Range} (h : b' ∈ Formula.blocks (shiftCell options e cell).tokens) :
    ∃ b ∈ Formula.blocks cell.tokens, e.moveBlock? b = some b' := by
  cases content : cell.content with
  | formula source ts =>
    cases preserving : Formula.tokenize { options with preserveWhitespace := true } source with
    | error fault =>
      rw [shiftCell_of_error content preserving] at h
      simp [Cell.tokens, Cell.tokens?, Formula.blocks, Formula.references] at h
    | ok tokens =>
      obtain ⟨same, moved⟩ := blocks_shiftCell_eq scanned content preserving e
      rw [moved] at h
      obtain ⟨b, mem, move⟩ := e.exists_of_mem_blocks_moveToken preserving h
      refine ⟨b, ?_, move⟩
      rw [Cell.tokens_of_content content, Formula.blocks, same]
      exact mem
  | _ =>
    have none : cell.tokens = [] := Cell.tokens_of_ne (by simp [content])
    have kept : shiftCell options e cell = cell := by simp only [shiftCell, content]
    rw [kept, none] at h
    simp [Formula.blocks, Formula.references] at h

/-! ### The cells of the new sheet -/

/-- The moved cells, put in one after the other in the order in which the old ones are listed. -/
def shiftEntries (options : Formula.Options) (e : LineEdit) (entries : List (Address × Cell)) : Sheet :=
  (∅ : Sheet).insertAll <| entries.filterMap fun (a, cell) =>
    (e.moveAddress? a).map fun a => (a, shiftCell options e cell)

/-- If no address is listed twice, each moved cell is found in its new place, and no other cell is. -/
theorem getElem?_shiftEntries {options : Formula.Options} {e : LineEdit} {entries : List (Address × Cell)}
    (apart : entries.Pairwise fun x y => x.1 ≠ y.1) {p' : Address} {cell' : Cell} :
    (shiftEntries options e entries)[p']? = some cell' ↔
      ∃ p cell, (p, cell) ∈ entries ∧ e.moveAddress? p = some p' ∧ shiftCell options e cell = cell' := by
  rw [shiftEntries, Sheet.getElem?_insertAll]
  · simp only [Std.ExtTreeMap.getElem?_empty, reduceCtorEq, and_false, or_false, List.mem_filterMap]
    constructor
    · rintro ⟨⟨p, cell⟩, listed, moved⟩
      obtain ⟨_, move, eq⟩ := Option.map_eq_some_iff.1 moved
      cases eq
      exact ⟨p, cell, listed, move, rfl⟩
    · rintro ⟨p, cell, listed, move, rfl⟩
      exact ⟨(p, cell), listed, by simp [move]⟩
  · -- no two cells are moved to the same place
    refine List.Pairwise.filterMap _ ?_ apart
    rintro ⟨a, x⟩ ⟨b, y⟩ distinct ⟨a', x'⟩ ha ⟨b', y'⟩ hb
    obtain ⟨_, moveA, eqA⟩ := Option.map_eq_some_iff.1 ha
    obtain ⟨_, moveB, eqB⟩ := Option.map_eq_some_iff.1 hb
    cases eqA
    cases eqB
    rintro rfl
    exact distinct (LineEdit.eq_of_moveAddress? moveA moveB)

/-- The cells of the new sheet are the moved cells of the old one. -/
theorem getElem?_shiftSheet {options : Formula.Options} {e : LineEdit} {s : Sheet} {p' : Address}
    {cell' : Cell} :
    (shiftSheet options e s)[p']? = some cell' ↔
      ∃ p cell, s[p]? = some cell ∧ e.moveAddress? p = some p' ∧ shiftCell options e cell = cell' := by
  have listed : shiftSheet options e s = shiftEntries options e s.toList := rfl
  simp only [listed, getElem?_shiftEntries (Sheet.pairwise_toList s), Std.ExtTreeMap.mem_toList_iff_getElem?_eq_some]

/-! ### Dependencies of the new sheet -/

/-- The documents in which an edit of a line is looked at: all formulas can be read under the current options,
the coordinates of references leave room for another line, and no range has too many cells, neither before the
edit nor after it. -/
structure Editable (d : Document) (e : LineEdit) : Prop where
  reachable : Reachable Opened Operation.Proper d
  splits : ∀ (p : Address) cell source ts, d.sheet[p]? = some cell → cell.content = .formula source ts →
    ∃ ts', Formula.tokenize d.options source = .ok ts'
  below : ∀ p, ∀ r ∈ Formula.references (d.sheet.tokensAt p), r.area.Below (indexBound - 2)
  small : ∀ p, ∀ b ∈ Formula.blocks (d.sheet.tokensAt p), b.Small
  small' : ∀ p, ∀ b ∈ Formula.blocks ((d.editLine e).sheet.tokensAt p), b.Small

theorem exists_of_mem_references {s : Sheet} {p : Address} {r : Reference}
    (h : r ∈ Formula.references (s.tokensAt p)) :
    ∃ cell, s[p]? = some cell ∧ r ∈ Formula.references cell.tokens := by
  rw [Sheet.tokensAt] at h
  cases found : s[p]? with
  | none => simp [found, Formula.references] at h
  | some cell =>
    rw [found] at h
    exact ⟨cell, rfl, h⟩

theorem exists_of_mem_blocks {s : Sheet} {p : Address} {b : Range}
    (h : b ∈ Formula.blocks (s.tokensAt p)) :
    ∃ cell, s[p]? = some cell ∧ b ∈ Formula.blocks cell.tokens := by
  obtain ⟨r, mem, block⟩ := List.mem_filterMap.1 h
  obtain ⟨cell, found, mem⟩ := exists_of_mem_references mem
  exact ⟨cell, found, List.mem_filterMap.2 ⟨r, mem, block⟩⟩

/-- A cell depends on the cells of the small blocks that its formula names. -/
theorem mem_dependsOn_iff_small {s : Sheet} (coherent : Holds Cell.Coherent s) {p q : Address} :
    q ∈ s.dependsOn p ↔ ∃ b ∈ Formula.blocks (s.tokensAt p), b.Small ∧ q ∈ b.cells := by
  have named : s.dependsOn p = Formula.dependencies (s.tokensAt p) := by
    rw [Sheet.dependsOn, Sheet.tokensAt]
    cases found : s[p]? with
    | none => rfl
    | some cell => exact (coherent p cell found).dependsOn_eq
  rw [named, Formula.mem_dependencies_iff]

/-- If no block is too large, a cell depends on the cells of all blocks that its formula names. -/
theorem mem_dependsOn_iff {s : Sheet} (coherent : Holds Cell.Coherent s) {p q : Address}
    (small : ∀ b ∈ Formula.blocks (s.tokensAt p), b.Small) :
    q ∈ s.dependsOn p ↔ ∃ b ∈ Formula.blocks (s.tokensAt p), q ∈ b.cells := by
  rw [mem_dependsOn_iff_small coherent]
  constructor
  · rintro ⟨b, mem, -, hq⟩
    exact ⟨b, mem, hq⟩
  · rintro ⟨b, mem, hq⟩
    exact ⟨b, mem, small b mem, hq⟩

variable {d : Document} {e : LineEdit}

/-- The formula in the new place of a cell names the moved blocks. -/
theorem Editable.blocks_tokensAt (h : d.Editable e) {p p' : Address} (move : e.moveAddress? p = some p') :
    Formula.blocks ((d.editLine e).sheet.tokensAt p') =
      (Formula.blocks (d.sheet.tokensAt p)).filterMap e.moveBlock? := by
  have scanned := h.reachable.holds inherited_scanned fun a cell built => Cell.Built.scanned built
  cases found : d.sheet[p]? with
  | none =>
    have absent : (d.editLine e).sheet[p']? = none := by
      refine Option.eq_none_iff_forall_ne_some.2 fun cell' found' => ?_
      obtain ⟨q, cell, foundQ, moveQ, -⟩ := getElem?_shiftSheet.1 found'
      rw [LineEdit.eq_of_moveAddress? moveQ move, found] at foundQ
      simp at foundQ
    simp only [Sheet.tokensAt, found, absent]
    rfl
  | some cell =>
    have found' : (d.editLine e).sheet[p']? = some (shiftCell d.options e cell) :=
      getElem?_shiftSheet.2 ⟨p, cell, found, move, rfl⟩
    have below := h.below p
    simp only [Sheet.tokensAt, found, found'] at below ⊢
    exact blocks_shiftCell (by decide) (scanned p cell found) (fun source ts => h.splits p cell source ts found)
      below

/-- A cell of the new sheet depends on the cells of the moved blocks of the old formula, and on no others. -/
theorem Editable.mem_dependsOn (h : d.Editable e) {p' x : Address} :
    x ∈ (d.editLine e).sheet.dependsOn p' ↔
      ∃ p, e.moveAddress? p = some p' ∧ ∃ b ∈ Formula.blocks (d.sheet.tokensAt p),
        ∃ b', e.moveBlock? b = some b' ∧ x ∈ b'.cells := by
  have reachable : Reachable Opened Operation.Proper (d.editLine e) :=
    @Reachable.step _ _ _ (.editLine e) h.reachable trivial
  have coherent := reachable.holds inherited_coherent fun a cell built => Cell.Built.coherent built
  rw [mem_dependsOn_iff coherent (h.small' p')]
  constructor
  · rintro ⟨b', mem, hx⟩
    obtain ⟨cell', found, -⟩ := exists_of_mem_blocks mem
    obtain ⟨p, cell, -, move, -⟩ := getElem?_shiftSheet.1 found
    rw [h.blocks_tokensAt move] at mem
    obtain ⟨b, listed, block⟩ := List.mem_filterMap.1 mem
    exact ⟨p, move, b, listed, b', block, hx⟩
  · rintro ⟨p, move, b, listed, b', block, hx⟩
    rw [h.blocks_tokensAt move]
    exact ⟨b', List.mem_filterMap.2 ⟨b, listed, block⟩, hx⟩

/-- How the dependencies of a sheet `s'` with a new line come from those of the old sheet `s`. -/
structure AfterInsertion (e : LineEdit) (s s' : Sheet) : Prop where
  /-- The moved cells depend on each other as before. -/
  transported : ∀ p q p' q', e.moveAddress? p = some p' → e.moveAddress? q = some q' →
    (q' ∈ s'.dependsOn p' ↔ q ∈ s.dependsOn p)
  /-- A further dependency is on a cell of the new line, inside of a range that the line has been put into. -/
  further : ∀ p' x, x ∈ s'.dependsOn p' → ∃ p, e.moveAddress? p = some p' ∧
    ((∃ q, e.moveAddress? q = some x ∧ q ∈ s.dependsOn p) ∨
      e.lineOf x = e.line ∧ ∃ b ∈ Formula.blocks (s.tokensAt p), e.Spans b x)

/-- How the dependencies of a sheet `s'` without a line come from those of the old sheet `s`. -/
structure AfterDeletion (e : LineEdit) (s s' : Sheet) : Prop where
  /-- A moved cell depends on a moved cell if and only if its formula named a block that held that cell and had no
  corner on the deleted line. -/
  transported : ∀ p q p' q', e.moveAddress? p = some p' → e.moveAddress? q = some q' →
    (q' ∈ s'.dependsOn p' ↔ ∃ b ∈ Formula.blocks (s.tokensAt p),
      q ∈ b.cells ∧ e.lineOf b.first ≠ e.line ∧ e.lineOf b.last ≠ e.line)
  /-- There are no dependencies of other cells or on other cells. -/
  further : ∀ p' x, x ∈ s'.dependsOn p' → ∃ p q, e.moveAddress? p = some p' ∧ e.moveAddress? q = some x

theorem Editable.afterInsertion (h : d.Editable e) (insert : e.change = .insert) :
    AfterInsertion e d.sheet (d.editLine e).sheet := by
  have coherent := h.reachable.holds inherited_coherent fun a cell built => Cell.Built.coherent built
  have transported (p q p' q' : Address) (moveP : e.moveAddress? p = some p')
      (moveQ : e.moveAddress? q = some q') :
      q' ∈ (d.editLine e).sheet.dependsOn p' ↔ q ∈ d.sheet.dependsOn p := by
    rw [h.mem_dependsOn, mem_dependsOn_iff coherent (h.small p)]
    constructor
    · rintro ⟨p₀, moveP₀, b, listed, b', block, mem⟩
      obtain rfl := LineEdit.eq_of_moveAddress? moveP₀ moveP
      exact ⟨b, listed, (LineEdit.mem_cells_moveBlock? block moveQ).1 mem⟩
    · rintro ⟨b, listed, mem⟩
      obtain ⟨b', block⟩ := e.exists_moveBlock?_of_insert insert b
      exact ⟨p, moveP, b, listed, b', block, (LineEdit.mem_cells_moveBlock? block moveQ).2 mem⟩
  refine ⟨transported, fun p' x mem => ?_⟩
  obtain ⟨p, moveP, b, listed, b', block, inside⟩ := h.mem_dependsOn.1 mem
  refine ⟨p, moveP, ?_⟩
  by_cases new : e.lineOf x = e.line
  · exact .inr ⟨new, b, listed, LineEdit.spans_of_mem_cells insert block new inside⟩
  · obtain ⟨q, moveQ⟩ := LineEdit.exists_moveAddress?_of_insert insert new
    exact .inl ⟨q, moveQ, (transported p q p' x moveP moveQ).1 mem⟩

theorem Editable.afterDeletion (h : d.Editable e) (delete : e.change = .delete) :
    AfterDeletion e d.sheet (d.editLine e).sheet := by
  refine ⟨fun p q p' q' moveP moveQ => ?_, fun p' x mem => ?_⟩
  · rw [h.mem_dependsOn]
    constructor
    · rintro ⟨p₀, moveP₀, b, listed, b', block, mem⟩
      obtain rfl := LineEdit.eq_of_moveAddress? moveP₀ moveP
      exact ⟨b, listed, (LineEdit.mem_cells_moveBlock? block moveQ).1 mem,
        (LineEdit.moveBlock?_delete delete).1 ⟨b', block⟩⟩
    · rintro ⟨b, listed, mem, corners⟩
      obtain ⟨b', block⟩ := (LineEdit.moveBlock?_delete delete).2 corners
      exact ⟨p, moveP, b, listed, b', block, (LineEdit.mem_cells_moveBlock? block moveQ).2 mem⟩
  · obtain ⟨p, moveP, -⟩ := h.mem_dependsOn.1 mem
    obtain ⟨q, moveQ⟩ := LineEdit.exists_moveAddress?_of_delete delete x
    exact ⟨p, q, moveP, moveQ⟩

/-- **An edit of a line transports the dependencies.** They are those of the old sheet in their new places, apart
from what a new line adds to ranges and a deleted line takes away; and the map of dependents says the same. -/
theorem dependsOn_editLine (h : d.Editable e) :
    (e.change = .insert → AfterInsertion e d.sheet (d.editLine e).sheet) ∧
    (e.change = .delete → AfterDeletion e d.sheet (d.editLine e).sheet) ∧
    ∀ p q, q ∈ (d.editLine e).dependents.listAt p ↔ p ∈ (d.editLine e).sheet.dependsOn q := by
  refine ⟨h.afterInsertion, h.afterDeletion, fun p q => ?_⟩
  have rebuilt : (d.editLine e).dependents = (d.editLine e).sheet.dependents := rfl
  rw [Dependents.mem_listAt, rebuilt, Sheet.has_dependents_iff, Sheet.dependsOn]
  cases (d.editLine e).sheet[q]? <;> simp

/-- A formula that names a range depends on the moved cells of it after a row has been inserted into the range. -/
theorem dependsOn_editLine_inserted :
    let d := (new {}).perform (.setInput ⟨0, 0⟩ "=B1:B3".toList)
    let e : LineEdit := ⟨.row, .insert, 1⟩
    d.Editable e ∧ ⟨2, 1⟩ ∈ (d.editLine e).sheet.dependsOn ⟨0, 0⟩ := by
  intro d e
  let cell := Cell.formula {} "=B1:B3".toList
  have entered : d = (new {}).edited ((∅ : Sheet).insert ⟨0, 0⟩ cell) :=
    perform_setInput_new (by decide +kernel) (by decide +kernel)
  have options : d.options = {} := by rw [entered]; rfl
  have only {p : Address} {c : Cell} (found : d.sheet[p]? = some c) : c = cell := by
    rw [entered, edited, Std.ExtTreeMap.getElem?_insert] at found
    split at found
    · exact (Option.some.inj found).symm
    · simp at found
  have named : Formula.references cell.tokens = [⟨[], .cells ⟨⟨1, false⟩, ⟨0, false⟩⟩ ⟨⟨1, false⟩, ⟨2, false⟩⟩⟩] := by
    decide +kernel
  have covered : Formula.blocks cell.tokens = [⟨⟨0, 1⟩, ⟨2, 1⟩⟩] := by decide +kernel
  have moved : Formula.blocks (shiftCell {} e cell).tokens = [⟨⟨0, 1⟩, ⟨3, 1⟩⟩] := by decide +kernel
  have editable : d.Editable e := by
    refine ⟨.step (.start ⟨{}, .inl rfl⟩) trivial, fun p c source ts found content => ?_, fun p r mem => ?_,
      fun p b mem => ?_, fun p b mem => ?_⟩
    · rw [only found] at content
      exact ⟨ts, options ▸ Cell.tokenize_of_formula content⟩
    · obtain ⟨c, found, mem⟩ := exists_of_mem_references mem
      rw [only found, named, List.mem_singleton] at mem
      subst mem
      simp [Area.Below, Area.parts, ReferencePart.Below, indexBound]
    · obtain ⟨c, found, mem⟩ := exists_of_mem_blocks mem
      rw [only found, covered, List.mem_singleton] at mem
      exact mem ▸ ⟨3, by decide, by decide⟩
    · obtain ⟨c', found, mem⟩ := exists_of_mem_blocks mem
      obtain ⟨q, c, old, -, rfl⟩ := getElem?_shiftSheet.1 found
      rw [only old, options, moved, List.mem_singleton] at mem
      exact mem ▸ ⟨4, by decide, by decide⟩
  exact ⟨editable, (((dependsOn_editLine editable).1 rfl).transported ⟨0, 0⟩ ⟨1, 1⟩ ⟨0, 0⟩ ⟨2, 1⟩ rfl rfl).2
    (by rw [entered]; decide +kernel)⟩

end Document

end Spreadsheet
