import Spreadsheet.Proofs.Document.LineEdit
import Spreadsheet.Proofs.Formula.Composition
import Spreadsheet.Proofs.Text

/-!
# What formulas in a document look like

Whatever a user enters or a file holds, a formula is made only of a trimmed text that begins with `=`.  Moving its
references keeps that: a reference ends with a letter or a digit, an error with an exclamation mark, and everything
else stays.  There is one exception, for a formula of nothing but the sign is put together again without it.

* `Cell.Entered` — the cells that a text makes.
* `whole_of_relocate` — a moved formula begins with `=` and ends with no blank.
* `Cell.Sourced` — what holds of the sources of formulas in every document.
* `Cell.Fresh` — under options that stay, a formula is what its source gives.
-/

namespace Spreadsheet

open Text

/-! ### Cells that a text makes -/

/-- The cells that a text makes under some options: what a user enters, a field of a table or the value of a line. -/
inductive Cell.Entered (options : Formula.Options) : Cell → Prop
  | empty : Entered options .empty
  | text (value : List Char) : Entered options (.text value)
  | number (value : Number) : Entered options (.number value)
  | formula {source : List Char} : source.head? = some '=' → Trimmed source → Entered options (.formula options source)

variable {options : Formula.Options}

theorem Cell.entered_ofInput (entered : List Char) : (Cell.ofInput options entered).Entered options := by
  simp only [ofInput]
  split
  · exact .empty
  · split
    · next head => exact .formula head (trimmed_trim entered)
    · split
      · exact .text _
      · split
        · exact .number _
        · exact .text _

theorem Csv.trimmed_of_hasOuterBlank {field : List Char} (h : ¬hasOuterBlank field = true) : Trimmed field := by
  simp only [hasOuterBlank, Bool.or_eq_true, not_or, Option.any_eq_true, not_exists, not_and,
    Bool.not_eq_true] at h
  exact ⟨h.1, h.2⟩

theorem Csv.entered_cell (field : List Char) : (Csv.cell options field).Entered options := by
  simp only [Csv.cell]
  split
  · exact .empty
  · split
    · exact .text _
    · next outer =>
      split
      · next head => exact .formula head (trimmed_of_hasOuterBlank outer)
      · split
        · exact .text _
        · split
          · exact .number _
          · exact .text _

theorem Grd.entered_of_readValue {written : List Char} {cell : Cell}
    (h : Grd.readValue options written = .ok cell) : cell.Entered options := by
  rcases Grd.readValue_cases h with rfl | ⟨_, _, rfl⟩ | ⟨_, rfl⟩ | ⟨head, rfl⟩
  · exact .empty
  · exact .text _
  · exact .number _
  · exact .formula head (trimmed_trim written)

/-- It is enough to look at the cells that a text makes. -/
theorem Document.InheritedUnder.of_entered {P : Cell → Prop} (entered : ∀ cell : Cell, cell.Entered options → P cell)
    (shifted : ∀ e cell, P cell → P (Document.shiftCell options e cell)) : Document.InheritedUnder options P where
  ofInput := fun text => entered _ (Cell.entered_ofInput text)
  field := fun field => entered _ (Csv.entered_cell field)
  value := fun _ _ read => entered _ (Grd.entered_of_readValue read)
  shifted := shifted

/-! ### The ends of a moved formula -/

theorem isBlank_of_isPlain {c : Char} (h : isPlain c = true) : isBlank c = false := by
  simp only [isPlain, Char.isAlphanum, Bool.or_eq_true, decide_eq_true_eq] at h
  rcases h with (letter | digit) | rfl
  · exact isBlank_of_isAlpha letter
  · exact isBlank_of_isDigit digit
  · decide

/-- What is written for a moved reference ends with no blank. -/
theorem Relocation.moveText_last (m : Relocation) (r : Reference) :
    m.moveText r ≠ [] ∧ ∀ c ∈ (m.moveText r).getLast?, isBlank c = false := by
  rw [moveText]
  split
  · next area _ =>
    have ne : area.text ≠ [] := Area.text_ne_nil area
    refine ⟨List.append_ne_nil_of_right_ne_nil _ ne, fun c mem => ?_⟩
    rw [Reference.text, List.getLast?_append_of_ne_nil _ ne] at mem
    rcases area.isPlain_text c (List.mem_of_mem_getLast? mem) with plain | rfl
    · exact isBlank_of_isPlain plain
    · decide
  · refine ⟨by decide, fun c mem => ?_⟩
    obtain rfl : '!' = c := by simpa using mem
    decide

/-- Moving tokens puts no blank at the end of their texts. -/
theorem Relocation.last_flatMap_moveToken (m : Relocation) {tokens : List Token}
    (h : ∀ c ∈ (tokens.flatMap Token.value).getLast?, isBlank c = false) :
    ∀ c ∈ ((tokens.map m.moveToken).flatMap Token.value).getLast?, isBlank c = false := by
  induction tokens using List.reverseRecOn with
  | nil => exact h
  | append_singleton tokens t ih =>
    simp only [List.map_append, List.map_cons, List.map_nil, List.flatMap_append, List.flatMap_cons,
      List.flatMap_nil, List.append_nil] at h ⊢
    have moved : m.moveToken t = t ∨ (m.moveToken t).value ≠ [] ∧
        ∀ c ∈ (m.moveToken t).value.getLast?, isBlank c = false := by
      rw [moveToken_eq]
      split
      · exact .inr (m.moveText_last _)
      · exact .inl rfl
    rcases moved with same | ⟨ne, last⟩
    · rw [same]
      by_cases empty : t.value = []
      · rw [empty, List.append_nil] at h ⊢
        exact ih h
      · rw [List.getLast?_append_of_ne_nil _ empty] at h ⊢
        exact h
    · rw [List.getLast?_append_of_ne_nil _ ne]
      exact last

namespace Formula

/-- Another spacing keeps the last character unless it is a space. -/
theorem getLast?_respace {gap s : List Char} (region : Region) (h : s.getLast? ≠ some ' ') :
    (respace gap region s).getLast? = s.getLast? := by
  induction s generalizing region with
  | nil => cases region <;> rfl
  | cons c s ih =>
    have step : ∃ front region', respace gap region (c :: s) = front ++ respace gap region' s ∧
        (c ≠ ' ' → front = [c]) := by
      cases region with
      | inside close => exact ⟨[c], _, rfl, fun _ => rfl⟩
      | outside inRun =>
        rw [respace]
        split
        · next space => exact ⟨_, _, rfl, fun other => absurd space other⟩
        · exact ⟨[c], _, rfl, fun _ => rfl⟩
    obtain ⟨front, region', eq, plain⟩ := step
    rw [eq]
    cases s with
    | nil =>
      have other : c ≠ ' ' := fun same => h (by simp [same])
      cases region' <;> simp [respace, plain other]
    | cons d s =>
      rw [List.getLast?_cons_cons] at h ⊢
      have last := ih region' h
      have ne : respace gap region' (d :: s) ≠ [] := by
        intro empty
        rw [empty] at last
        simp [List.getLast?_cons] at last
      rw [List.getLast?_append_of_ne_nil _ ne, last]

/-- The texts of the tokens of a formula are its body with other spacing. -/
theorem flatMap_value_of_tokenize {body : List Char} {tokens : List Token}
    (h : tokenize options ('=' :: body) = .ok tokens) :
    tokens.flatMap Token.value = respace options.gap (.outside false) body := by
  obtain ⟨ls, apart, gathered, made⟩ := forall₂_makes_of_tokenize h
  rw [flatMap_value_of_makes made, flatMap_text_of_gather options.gap gathered, List.reverse_nil,
    List.nil_append, ← respace_flatMap_text options.gap apart, text_pieces]

/-- A moved formula is put together behind its sign, if there is a token to put there. -/
theorem render_map_moveToken {body : List Char} {tokens : List Token}
    (h : tokenize options ('=' :: body) = .ok tokens) (ne : tokens ≠ []) (m : Relocation) :
    render (tokens.map m.moveToken) = '=' :: (tokens.map m.moveToken).flatMap Token.value := by
  obtain ⟨ls, -, -, made⟩ := forall₂_makes_of_tokenize h
  refine render_of_ne_literal (by simpa using ne) fun t mem => ?_
  obtain ⟨old, listed, rfl⟩ := List.mem_map.1 mem
  rw [m.moveToken_eq]
  split
  · simp [Token.operand]
  · exact kind_ne_literal_of_makes made old listed

/-- A moved formula begins as a formula and has no blanks at its ends, if something is left of it. -/
theorem whole_of_relocate {m : Relocation} {source moved : List Char} (h : relocate options m source = .ok moved)
    (head : source.head? = some '=') (trimmed : Trimmed source) :
    moved = [] ∨ moved.head? = some '=' ∧ Trimmed moved := by
  obtain ⟨body, rfl⟩ := List.head?_eq_some_iff.1 head
  rw [relocate] at h
  cases split : tokenize { options with preserveWhitespace := true } ('=' :: body) with
  | error fault =>
    rw [split] at h
    cases h
  | ok tokens =>
    rw [split] at h
    cases h
    by_cases empty : tokens = []
    · exact .inl (by rw [empty]; rfl)
    · have last : ∀ c ∈ (tokens.flatMap Token.value).getLast?, isBlank c = false := by
        intro c mem
        have space : body.getLast? ≠ some ' ' := fun space =>
          absurd (trimmed.last ' ' (by rw [List.getLast?_cons, space]; rfl)) (by decide)
        rw [flatMap_value_of_tokenize split, getLast?_respace _ space] at mem
        exact trimmed.last c (by rw [List.getLast?_cons, Option.mem_def.1 mem]; rfl)
      have moved := m.last_flatMap_moveToken last
      dsimp only
      rw [render_map_moveToken split empty m]
      refine .inr ⟨rfl, fun c mem => ?_, fun c mem => ?_⟩
      · obtain rfl : '=' = c := by simpa using mem
        decide
      · cases final : ((tokens.map m.moveToken).flatMap Token.value).getLast? with
        | none =>
          rw [List.getLast?_cons, final] at mem
          obtain rfl : '=' = c := by simpa using mem
          decide
        | some d =>
          rw [List.getLast?_cons, final] at mem
          obtain rfl : d = c := by simpa using mem
          exact moved d final

end Formula

/-! ### Sources in a document -/

namespace Cell

/-- The source of a formula, valid or not. -/
def source? (cell : Cell) : Option (List Char) :=
  match cell.content with
  | .formula source _ | .invalid source _ => some source
  | _ => none

theorem source?_formula (options : Formula.Options) (source : List Char) :
    (Cell.formula options source).source? = some source := by
  cases split : Formula.tokenize options source <;> simp only [source?, formula, split]

/-- What is shown of a formula is its source. -/
theorem input_formula (options : Formula.Options) (source : List Char) :
    (Cell.formula options source).input = source := by
  cases split : Formula.tokenize options source <;> simp only [input, formula, split]

/-- The source of a formula begins as a formula and has no blanks at its ends, unless nothing is left of it. -/
def Sourced (cell : Cell) : Prop :=
  ∀ source ∈ cell.source?, source = [] ∨ source.head? = some '=' ∧ Trimmed source

theorem Entered.sourced {cell : Cell} (h : cell.Entered options) : cell.Sourced := by
  cases h with
  | empty | text | number => exact fun _ none => nomatch none
  | @formula source head trimmed =>
    intro s mem
    rw [source?_formula] at mem
    obtain rfl := Option.some.inj mem
    exact .inr ⟨head, trimmed⟩

/-- The cell holds a value, or a formula with what its source gives under the options. -/
inductive Fresh (options : Formula.Options) : Cell → Prop
  | empty : Fresh options .empty
  | text (value : List Char) : Fresh options (.text value)
  | number (value : Number) : Fresh options (.number value)
  | formula (source : List Char) : Fresh options (.formula options source)

theorem Entered.fresh {cell : Cell} (h : cell.Entered options) : cell.Fresh options := by
  cases h with
  | empty => exact .empty
  | text value => exact .text value
  | number value => exact .number value
  | formula => exact .formula _

end Cell

namespace Document

theorem sourced_shiftCell (e : LineEdit) {cell : Cell} (h : cell.Sourced) : (shiftCell options e cell).Sourced := by
  rcases shiftCell_cases options e cell with same | ⟨source, ts, content, rewritten⟩
  · rw [same]
    exact h
  · have old : cell.source? = some source := by rw [Cell.source?, content]
    intro s mem
    rcases rewritten with ⟨shifted, moved, anew⟩ | ⟨error, -, given⟩
    · rw [anew, Cell.source?_formula] at mem
      obtain rfl := Option.some.inj mem
      rcases h source old with rfl | ⟨head, trimmed⟩
      · cases moved
        exact .inl rfl
      · exact Formula.whole_of_relocate moved head trimmed
    · rw [given] at mem
      obtain rfl := Option.some.inj mem
      exact h _ old

theorem inherited_sourced : Inherited Cell.Sourced :=
  fun _ => .of_entered (fun _ entered => entered.sourced) fun e _ h => sourced_shiftCell e h

/-- A formula that has been read under the options is rewritten under them, so no formula becomes invalid. -/
theorem fresh_shiftCell (e : LineEdit) {cell : Cell} (h : cell.Fresh options) :
    (shiftCell options e cell).Fresh options := by
  cases h with
  | empty => exact .empty
  | text value => exact .text value
  | number value => exact .number value
  | formula source =>
    cases split : Formula.tokenize options source with
    | ok ts =>
      obtain ⟨tokens, preserving⟩ := Formula.exists_tokenize_preserving_iff.2 ⟨ts, split⟩
      obtain ⟨shifted, shift, -⟩ := Formula.tokenize_relocate preserving e.relocation
      rw [shiftCell_formula split shift]
      exact .formula shifted
    | error fault =>
      have invalid : (Cell.formula options source).content = .invalid source fault := by rw [Cell.formula, split]
      have stays : shiftCell options e (.formula options source) = .formula options source := by
        simp only [shiftCell, invalid]
      rw [stays]
      exact .formula source

theorem inherited_fresh (options : Formula.Options) : InheritedUnder options (Cell.Fresh options) :=
  .of_entered (fun _ entered => entered.fresh) fun e _ h => fresh_shiftCell e h

end Document

end Spreadsheet
