import Spreadsheet.Proofs.Document.Acceptance
import Spreadsheet.Proofs.Document.Erasure
import Spreadsheet.Proofs.Formula.Translation

/-!
# What a copied cell depends on

Copying a formula rewrites its text and makes a cell of it as if the text had been entered.  So the dependencies of the
copy are found anew, from other text and perhaps under other options than those of the cell that was copied.  They are
the old ones moved by the distance of the two cells, one by one and in order, if the references have no anchors and do
not leave the sheet.  A cell of another kind is copied as it is, and copying no cell takes away what is at the target.

* `distance_eq` — the distance of two cells is exact as long as they are not too far away.
* `Portable` — the formulas of which this is said.  `ofInput_of_portable`: the cell that their copy makes.
* `Copied` — what a document looks like after it.
* `copy_moves_dependencies` — the whole statement.
-/

namespace Spreadsheet

open Text

namespace Formula

variable {options : Options}

/-- The sign alone has no tokens. -/
theorem eq_nil_of_tokenize_sign {tokens : List Token} (h : tokenize options ['='] = .ok tokens) : tokens = [] := by
  obtain ⟨q, run, -, rfl⟩ := tokenize_eq_ok_iff_acceptAll.1 h
  rw [pieces_nil, acceptAll] at run
  cases run
  rfl

/-- A formula with tokens is copied to a text that is entered as a formula. -/
theorem whole_of_offset {options' : Options} {columns rows : Int} {text moved : List Char} {ts : List Token}
    (h : offset options columns rows text = .ok moved) (scanned : tokenize options' text = .ok ts) (ne : ts ≠ [])
    (head : text.head? = some '=') (trimmed : Trimmed text) : moved.head? = some '=' ∧ Trimmed moved := by
  by_cases still : columns = 0 ∧ rows = 0
  · obtain ⟨rfl, rfl⟩ := still
    rw [offset_zero] at h
    cases h
    exact ⟨head, trimmed⟩
  · rw [offset_of_ne still] at h
    rcases whole_of_relocate h head trimmed with rfl | whole
    · rw [source_eq_of_relocate h head] at scanned
      exact absurd (eq_nil_of_tokenize_sign scanned) ne
    · exact whole

end Formula

namespace Cell

/-- A trimmed text that begins with the sign is entered as a formula. -/
theorem ofInput_eq_formula {options : Formula.Options} {text : List Char} (head : text.head? = some '=')
    (trimmed : Trimmed text) : ofInput options text = formula options text := by
  have ne : text ≠ [] := by
    rintro rfl
    cases head
  simp only [ofInput, trim_of_trimmed trimmed, if_neg ne, if_pos head]

theorem formula_of_tokenize {options : Formula.Options} {source : List Char} {tokens : List Token}
    (h : Formula.tokenize options source = .ok tokens) :
    formula options source = ⟨.formula source tokens, Formula.dependencies tokens⟩ := by
  rw [formula, h]

end Cell

namespace Document

/-- The way between two indices is exact as long as they are less than half of the bound. -/
theorem distance_eq {source target : Nat} (hs : source < 2 ^ 63) (ht : target < 2 ^ 63) :
    distance source target = target - source := by
  have bound : indexBound = 2 ^ 64 := rfl
  rw [distance, bound]
  exact Int.bmod_eq_of_le (by omega) (by omega)

variable {d d' : Document} {source target : Address} {text : List Char} {ts : List Token}

/-- A cell with a formula that is entered as it is written, can be read, and moves to the target with all references to
its own sheet. -/
structure Portable (d : Document) (source target : Address) (text : List Char) (ts : List Token) : Prop where
  found : ∃ cell, d.sheet[source]? = some cell ∧ cell.content = .formula text ts
  ne : ts ≠ []
  head : text.head? = some '='
  trimmed : Trimmed text
  readable : ∃ tokens, Formula.tokenize d.options text = .ok tokens
  near : ∀ a ∈ [source, target], a.column < 2 ^ 63 - 1 ∧ a.row < 2 ^ 63 - 1
  movable : Formula.Movable (target.column - source.column) (target.row - source.row) ts

/-- The target holds a formula that depends on the moved cells, nothing else in the sheet has changed, and the map of
dependents says what the cells say. -/
structure Copied (d : Document) (source target : Address) (d' : Document) : Prop where
  formula : ∃ cell text ts, d'.sheet[target]? = some cell ∧ cell.content = .formula text ts
  dependsOn : List.Forall₂ (Address.Moved (target.column - source.column) (target.row - source.row))
    (d.sheet.dependsOn source) (d'.sheet.dependsOn target)
  others : ∀ a, a ≠ target → d'.sheet[a]? = d.sheet[a]?
  dependents : ∀ p q, q ∈ d'.dependents.listAt p ↔ p ∈ d'.sheet.dependsOn q

theorem Portable.distances (h : d.Portable source target text ts) :
    distance source.column target.column = target.column - source.column ∧
      distance source.row target.row = target.row - source.row := by
  obtain ⟨sourceColumn, sourceRow⟩ := h.near source (by simp)
  obtain ⟨targetColumn, targetRow⟩ := h.near target (by simp)
  exact ⟨distance_eq (by omega) (by omega), distance_eq (by omega) (by omega)⟩

/-- The copy is made of a text that is read under the options of the document. -/
theorem exists_copy_eq_setCell (h : Reachable Opened Operation.Proper d) (portable : d.Portable source target text ts) :
    ∃ moved tokens, d.copy source target = d.setCell target ⟨.formula moved tokens, Formula.dependencies tokens⟩ ∧
      List.Forall₂ (Address.Moved (target.column - source.column) (target.row - source.row))
        (d.sheet.dependsOn source) (Formula.dependencies tokens) := by
  obtain ⟨cell, found, content⟩ := portable.found
  obtain ⟨readable, split⟩ := portable.readable
  obtain ⟨before, scanned⟩ :=
    h.holds inherited_scanned (fun _ _ built => built.scanned) source cell found text ts content
  have coherent := (h.holds inherited_coherent (fun _ _ built => built.coherent) source cell found).dependsOn_eq
  rw [Cell.tokens_of_content content] at coherent
  obtain ⟨moved, tokens, offset, split', dependsOn⟩ := Formula.exists_tokenize_offset split scanned portable.movable
  obtain ⟨head, trimmed⟩ := Formula.whole_of_offset offset scanned portable.ne portable.head portable.trimmed
  refine ⟨moved, tokens, ?_, ?_⟩
  · rw [← portable.distances.1, ← portable.distances.2] at offset
    simp only [copy, found, content, offset]
    rw [setInput, Cell.ofInput_eq_formula head trimmed, Cell.formula_of_tokenize split']
  · simp only [Sheet.dependsOn, found, coherent]
    exact dependsOn

/-- The document with a cell put in that depends on the moved cells. -/
theorem copied_insert {cell : Cell} {moved : List Char} {tokens : List Token}
    (content : cell.content = .formula moved tokens)
    (dependsOn : List.Forall₂ (Address.Moved (target.column - source.column) (target.row - source.row))
      (d.sheet.dependsOn source) cell.dependsOn) :
    Copied d source target (d.edited (d.sheet.insert target cell)) := by
  have placed : (d.sheet.insert target cell)[target]? = some cell := Std.ExtTreeMap.getElem?_insert_self
  refine ⟨⟨cell, moved, tokens, placed, content⟩, ?_, fun a other => ?_, fun p q => ?_⟩
  · simp only [edited, Sheet.dependsOn] at dependsOn ⊢
    rwa [placed]
  · exact Std.ExtTreeMap.getElem?_insert.trans (if_neg fun same => other (Address.compare_eq_iff.1 same).symm)
  · rw [edited, Dependents.mem_listAt, Sheet.has_dependents_iff, Sheet.dependsOn]
    cases (d.sheet.insert target cell)[q]? with
    | none => simp
    | some c => simp

/-- **Copying moves dependencies along.** The copy of a formula is refused only with a cycle that could be reached from
it; otherwise it depends on the cells that lie as far from the target as the old ones lie from the source, in the same
order, and no other cell changes.  Copying no cell takes away what is at the target, and a cell that is no formula is
copied as it is. -/
theorem copy_moves_dependencies (h : Reachable Opened Operation.Proper d) (source target : Address) :
    (∀ text ts, d.Portable source target text ts →
      (∃ path, d.copy source target = (.error (.circularDependency path), d)) ∨
        ∃ d', d.copy source target = (.ok (), d') ∧ Copied d source target d') ∧
    (d.sheet[source]? = none →
      ∃ d', d.copy source target = (.ok (), d') ∧ d'.sheet = d.sheet.erase target) ∧
    ∀ cell, d.sheet[source]? = some cell → cell.content ≠ .empty → (∀ text ts, cell.content ≠ .formula text ts) →
      ∃ d', d.copy source target = (.ok (), d') ∧ d'.sheet = d.sheet.insert target cell := by
  refine ⟨fun text ts portable => ?_, fun absent => ?_, fun cell found filled other => ?_⟩
  · obtain ⟨moved, tokens, copied, dependsOn⟩ := exists_copy_eq_setCell h portable
    rw [copied]
    rcases d.setCell_cases target ⟨.formula moved tokens, Formula.dependencies tokens⟩ with
      ⟨empty, -⟩ | ⟨-, ⟨path, -, refused⟩ | ⟨-, set⟩⟩
    · cases empty
    · exact .inl ⟨path, refused⟩
    · exact .inr ⟨_, set, copied_insert rfl dependsOn⟩
  · refine ⟨d.clear target, ?_, d.sheet_clear target⟩
    simp only [copy, absent]
  · have coherent := (h.holds inherited_coherent (fun _ _ built => built.coherent) source cell found).dependsOn_eq
    rw [Cell.tokens_of_ne other] at coherent
    refine ⟨d.edited (d.sheet.insert target cell), ?_, rfl⟩
    simp only [copy, found]
    refine d.setCell_of_absent filled fun p mem => ?_
    rw [coherent] at mem
    cases mem

/-- A block whose corners are given crosswise, a cell in small letters and an anchored cell of another sheet: the first
five dependencies move, and the other sheet stays out of it. -/
theorem copy_moves_dependencies_block :
    let text := "=SUM(c3:B4,d2)*Tab!$A$1".toList
    let d := (new {}).perform (.setInput ⟨1, 1⟩ text)
    (∃ ts, d.Portable ⟨1, 1⟩ ⟨2, 0⟩ text ts) ∧
      ∃ d', d.copy ⟨1, 1⟩ ⟨2, 0⟩ = (.ok (), d') ∧ Copied d ⟨1, 1⟩ ⟨2, 0⟩ d' ∧
        d'.sheet.dependsOn ⟨2, 0⟩ = [⟨3, 0⟩, ⟨3, 1⟩, ⟨4, 0⟩, ⟨4, 1⟩, ⟨2, 2⟩] := by
  intro text d
  have entered : d = (new {}).edited ((∅ : Sheet).insert ⟨1, 1⟩ (.ofInput {} text)) :=
    perform_setInput_new (by decide +kernel) (by decide +kernel)
  let ts : List Token :=
    [⟨"SUM(".toList, .subexpression .function .opening⟩, .operand "c3:B4".toList, ⟨[','], .separator .argument⟩,
      .operand "d2".toList, ⟨[')'], .subexpression .function .closing⟩, ⟨['*'], .infixOperator⟩,
      .operand "Tab!$A$1".toList]
  have split : Formula.tokenize {} text = .ok ts := Formula.toOption_eq_some_iff.1 (by decide +kernel)
  have made : Cell.ofInput {} text = ⟨.formula text ts, Formula.dependencies ts⟩ := by decide +kernel
  have found : d.sheet[(⟨1, 1⟩ : Address)]? = some (Cell.ofInput {} text) := by
    rw [entered]
    exact Std.ExtTreeMap.getElem?_insert_self
  have options : d.options = {} := by rw [entered]; rfl
  have plain : text.all (fun c => !isBlank c) = true := by decide +kernel
  have portable : d.Portable ⟨1, 1⟩ ⟨2, 0⟩ text ts :=
    { found := ⟨_, found, by rw [made]⟩
      ne := by simp [ts]
      head := rfl
      trimmed := trimmed_of_forall fun c mem => by simpa using List.all_eq_true.1 plain c mem
      readable := ⟨ts, options ▸ split⟩
      near := by decide
      movable := by decide +kernel }
  have reachable : Reachable Opened Operation.Proper d := .step (.start ⟨{}, .inl rfl⟩) trivial
  have old : d.sheet.dependsOn ⟨1, 1⟩ = [⟨2, 1⟩, ⟨2, 2⟩, ⟨3, 1⟩, ⟨3, 2⟩, ⟨1, 3⟩] := by
    rw [Sheet.dependsOn, found]
    decide +kernel
  have moves {named : List Address} (h : List.Forall₂ (Address.Moved (-1) 1) (d.sheet.dependsOn ⟨1, 1⟩) named) :
      named = [⟨3, 0⟩, ⟨3, 1⟩, ⟨4, 0⟩, ⟨4, 1⟩, ⟨2, 2⟩] := by
    rw [Address.eq_map_of_moved h, old]
    rfl
  -- the formula is accepted, for it names no place that is taken
  obtain ⟨moved, tokens, copied, dependsOn⟩ := exists_copy_eq_setCell reachable portable
  have absent : ∀ p ∈ Formula.dependencies tokens, p ≠ ⟨2, 0⟩ ∧ p ∉ d.sheet := by
    rw [moves dependsOn, entered]
    simp [edited]
  rcases (copy_moves_dependencies reachable ⟨1, 1⟩ ⟨2, 0⟩).1 text ts portable with ⟨path, refused⟩ | ⟨d', copy, result⟩
  · rw [copied, d.setCell_of_absent (by simp) absent] at refused
    cases refused
  · exact ⟨⟨ts, portable⟩, d', copy, result, moves result.dependsOn⟩

end Document

end Spreadsheet
