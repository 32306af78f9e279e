import Mathlib
import Spreadsheet.Formula.Scan
import Spreadsheet.Proofs.Reference

/-!
# The written form of a reference as an operand

The kind of an operand is found from its text alone, and so is whether a sign behind it belongs to an exponent.
A number has none of the characters that tell a reference from other text:

* `Number.chars_of_read?` — the characters of a number.
* `Reference.text_cases` — the written form of a reference has a mark or a colon, or it names one cell.
* `operandKind_text` / `awaitsExponent_text` — it is read as a range, and a sign behind it is an operator.
-/

namespace Spreadsheet

/-! ### Characters of numbers -/

namespace Number

/-- The characters of numbers. -/
def chars (c : Char) : Prop :=
  c.isAlphanum = true ∨ c ∈ ['+', '-', '.']

theorem mem_splitSign {s : List Char} {c : Char} (h : c ∈ s) :
    c ∈ ['+', '-', '.'] ∨ c ∈ (Text.splitSign s).2 := by
  unfold Text.splitSign
  split
  · rcases List.mem_cons.1 h with rfl | h
    · exact .inl (by decide)
    · exact .inr h
  · rcases List.mem_cons.1 h with rfl | h
    · exact .inl (by decide)
    · exact .inr h
  · exact .inr h

/-- A number in words has letters only. -/
theorem isAlpha_of_readWord? {negative : Bool} {s : List Char} {n : Number}
    (h : readWord? negative s = some n) : ∀ c ∈ s, c.isAlpha = true := by
  have word : s.map Char.toLower ∈ ["nan".toList, "inf".toList, "infinity".toList] := by
    simp only [readWord?] at h
    split at h
    · next eq => simp [eq]
    · split at h
      · next eq => rcases eq with eq | eq <;> simp [eq]
      · simp at h
  have letters : ∀ w ∈ ["nan".toList, "inf".toList, "infinity".toList], w.all Char.isAlpha = true := by
    decide
  intro c hc
  rw [← Char.isAlpha_toLower_eq_isAlpha]
  exact List.all_eq_true.1 (letters _ word) _ (List.mem_map_of_mem hc)

theorem chars_of_isDigit {c : Char} (h : c.isDigit = true) : chars c :=
  .inl (by simp [Char.isAlphanum, h])

theorem chars_of_readExponent? {s : List Char} {exponent : Int} (h : readExponent? s = some exponent) :
    ∀ c ∈ s, chars c := by
  cases s with
  | nil => simp
  | cons mark s =>
    obtain ⟨⟨letter, -, digits⟩, -⟩ := Option.ite_none_right_eq_some.1 h
    refine List.forall_mem_cons.2 ⟨?_, fun c hc => ?_⟩
    · rcases letter with rfl | rfl
      · exact .inl rfl
      · exact .inl rfl
    · rcases mem_splitSign hc with sign | digit
      · exact .inr sign
      · exact chars_of_isDigit (List.all_eq_true.1 digits c digit)

theorem chars_of_dropWhile {s : List Char} (h : ∀ c ∈ s.dropWhile Char.isDigit, chars c) :
    ∀ c ∈ s, chars c := by
  intro c hc
  rw [← @List.takeWhile_append_dropWhile _ Char.isDigit s] at hc
  rcases List.mem_append.1 hc with digit | rest
  · exact chars_of_isDigit (List.all_eq_true.1 List.all_takeWhile c digit)
  · exact h c rest

theorem chars_of_splitFraction {s : List Char} (h : ∀ c ∈ (splitFraction s).2, chars c) :
    ∀ c ∈ s, chars c := by
  unfold splitFraction at h
  split at h
  · exact List.forall_mem_cons.2 ⟨.inr (by decide), chars_of_dropWhile h⟩
  · exact h

/-- The characters of a text that is a number. -/
theorem chars_of_read? {s : List Char} {n : Number} (h : read? s = some n) : ∀ c ∈ s, chars c := by
  have unsigned : ∀ c ∈ (Text.splitSign s).2, chars c := by
    rcases Option.or_eq_some_iff.1 h with decimal | ⟨-, word⟩
    · obtain ⟨-, exponent⟩ := Option.ite_none_left_eq_some.1 decimal
      obtain ⟨value, read, -⟩ := Option.map_eq_some_iff.1 exponent
      exact chars_of_dropWhile (chars_of_splitFraction (chars_of_readExponent? read))
    · intro c hc
      exact .inl (by simp [Char.isAlphanum, isAlpha_of_readWord? word c hc])
  intro c hc
  rcases mem_splitSign hc with sign | rest
  · exact .inr sign
  · exact unsigned c rest

/-- A number begins with a sign, a digit or a point unless it is a word. -/
theorem read?_eq_none {s : List Char} {c : Char} (head : s.head? = some c)
    (other : c.isDigit = false ∧ c ∉ ['+', '-', '.']) {d : Char} (mem : d ∈ s) (letter : d.isAlpha = false) :
    read? s = none := by
  obtain ⟨t, rfl⟩ : ∃ t, s = c :: t := by
    cases s with
    | nil => simp at head
    | cons e t => exact ⟨t, by rw [Option.some.inj head]⟩
  simp only [List.mem_cons, List.not_mem_nil, or_false, not_or] at other
  obtain ⟨digit, plus, minus, point⟩ := other
  have unsigned : Text.splitSign (c :: t) = (false, c :: t) := by
    unfold Text.splitSign
    split <;> simp_all
  have fraction : splitFraction (c :: t) = ([], c :: t) := by
    unfold splitFraction
    split <;> simp_all
  have decimal : readDecimal? false (c :: t) = none := by
    simp [readDecimal?, splitDigits, digit, fraction]
  have word : readWord? false (c :: t) = none := by
    refine Option.eq_none_iff_forall_ne_some.2 fun n read => ?_
    have := isAlpha_of_readWord? read d mem
    rw [letter] at this
    exact Bool.false_ne_true this
  simp only [read?, unsigned, decimal, word, Option.or_none]

end Number

/-! ### Written references -/

namespace Reference

/-- The written form of a reference has a mark or a colon, or it names one cell. -/
theorem text_cases (r : Reference) (mark : ∀ c ∈ r.sheet.getLast?, c = '!') :
    '!' ∈ r.text ∨ ':' ∈ r.text ∨ ∃ c : CellReference, r.text = c.text := by
  by_cases empty : r.sheet = []
  · right
    cases area : r.area with
    | cell c =>
      refine .inr ⟨c, ?_⟩
      simp [text, empty, area, Area.text, Area.parts, ReferencePart.text]
    | cells a b | columns a b | rows a b =>
      refine .inl ?_
      simp [text, area, Area.text, Area.parts, List.intercalate_cons_cons]
  · left
    obtain ⟨s, c, eq⟩ : ∃ s c, r.sheet = s ++ [c] := List.eq_nil_or_concat'  _ |>.resolve_left empty
    obtain rfl : c = '!' := mark c (by simp [eq])
    simp [text, eq]

end Reference

/-- The name of a cell begins like no number in digits. -/
theorem CellReference.head?_text (c : CellReference) :
    ∃ d, c.text.head? = some d ∧ d.isDigit = false ∧ d ∉ ['+', '-', '.'] := by
  cases anchored : c.column.anchored with
  | true =>
    refine ⟨'$', ?_, by decide⟩
    simp [text, Coordinate.columnText, Coordinate.mark, anchored]
  | false =>
    obtain ⟨d, t, eq⟩ := List.exists_cons_of_ne_nil (Address.columnName_ne_nil c.column.index)
    have letter : d.isAlpha = true := Address.isAlpha_columnName c.column.index d (by simp [eq])
    refine ⟨d, by simp [text, Coordinate.columnText, Coordinate.mark, anchored, eq], ?_, ?_⟩
    · refine Bool.eq_false_iff.2 fun digit => ?_
      rw [isAlpha_of_isDigit digit] at letter
      exact Bool.false_ne_true letter
    · have all : ∀ d ∈ ['+', '-', '.'], d.isAlpha = false := List.all_iff_forall_prop.1 (by decide)
      intro mem
      rw [all d mem] at letter
      exact Bool.false_ne_true letter

/-- The name of a cell ends with a digit. -/
theorem CellReference.getLast?_text (c : CellReference) :
    ∃ d, c.text.getLast? = some d ∧ d.isDigit = true := by
  have ne := Address.rowName_ne_nil c.row.index
  refine ⟨(Address.rowName c.row.index).getLast ne, ?_, ?_⟩
  · rw [text, Coordinate.rowText, ← List.append_assoc, List.getLast?_append_of_ne_nil _ ne]
    exact List.getLast?_eq_getLast_of_ne_nil ne
  · exact Address.isDigit_rowName _ _ (List.getLast_mem ne)

theorem Area.text_ne_nil (a : Area) : a.text ≠ [] := by
  cases a with
  | cell c =>
    obtain ⟨d, head, -⟩ := c.head?_text
    rw [text, parts, List.map_singleton, List.intercalate_singleton]
    intro empty
    rw [show c.text = [] from empty] at head
    simp at head
  | cells | columns | rows => simp [text, parts, List.intercalate_cons_cons]

namespace Formula

/-- A number that lacks its exponent ends with the mark of the exponent behind digits and a point. -/
theorem of_awaitsExponent {s : List Char} (h : awaitsExponent s = true) :
    (∀ c ∈ s, c.isDigit = true ∨ c = '.' ∨ c = 'E') ∧ s.getLast? = some 'E' := by
  unfold awaitsExponent at h
  split at h
  · simp at h
  · next lead s =>
    rw [Bool.and_eq_true, Bool.and_eq_true] at h
    obtain ⟨⟨digit, -⟩, behind⟩ := h
    split at behind
    · exact ⟨List.forall_mem_cons.2 ⟨.inl digit, by simp⟩, rfl⟩
    · next t =>
      obtain ⟨-, rest⟩ := by simpa using behind
      have whole : t = t.takeWhile Char.isDigit ++ ['E'] := by
        rw [← rest, List.takeWhile_append_dropWhile]
      rw [whole]
      refine ⟨List.forall_mem_cons.2 ⟨.inl digit, List.forall_mem_cons.2 ⟨by simp, ?_⟩⟩,
        by simp [List.getLast?_cons]⟩
      refine List.forall_mem_append.2 ⟨fun c hc => ?_, by simp⟩
      exact .inl (List.all_eq_true.1 List.all_takeWhile c hc)
    · simp at behind

/-- A sign behind a written reference is an operator. -/
theorem awaitsExponent_text {r : Reference} (mark : ∀ c ∈ r.sheet.getLast?, c = '!') :
    awaitsExponent r.text = false := by
  refine Bool.eq_false_iff.2 fun h => ?_
  obtain ⟨all, last⟩ := of_awaitsExponent h
  rcases r.text_cases mark with mem | mem | ⟨c, eq⟩
  · exact absurd (all _ mem) (by decide)
  · exact absurd (all _ mem) (by decide)
  · obtain ⟨d, last', digit⟩ := c.getLast?_text
    rw [eq, last'] at last
    obtain rfl := Option.some.inj last
    exact absurd digit (by decide)

/-- A written reference is read as a range, as long as what stands in front of it is no quoted text. -/
theorem operandKind_text {r : Reference} (mark : ∀ c ∈ r.sheet.getLast?, c = '!')
    (head : r.text.head? ≠ some '"' ∧ r.text.head? ≠ some '#') :
    Token.operandKind r.text = .range := by
  have word : ¬(r.text = "TRUE".toList ∨ r.text = "FALSE".toList) := by
    intro h
    rcases r.text_cases mark with mem | mem | ⟨c, eq⟩
    · rcases h with h | h <;> rw [h] at mem <;> exact absurd mem (by decide)
    · rcases h with h | h <;> rw [h] at mem <;> exact absurd mem (by decide)
    · obtain ⟨d, last, digit⟩ := c.getLast?_text
      rw [← eq] at last
      rcases h with h | h <;> rw [h] at last <;> obtain rfl := Option.some.inj last <;>
        exact absurd digit (by decide)
  have number : Number.read? r.text = none := by
    refine Option.eq_none_iff_forall_ne_some.2 fun n read => ?_
    rcases r.text_cases mark with mem | mem | ⟨c, eq⟩
    · exact absurd (Number.chars_of_read? read _ mem) (by unfold Number.chars; decide)
    · exact absurd (Number.chars_of_read? read _ mem) (by unfold Number.chars; decide)
    · obtain ⟨d, first, other⟩ := c.head?_text
      obtain ⟨e, last, digit⟩ := c.getLast?_text
      have none := Number.read?_eq_none first other (List.mem_of_getLast? last) (isAlpha_of_isDigit digit)
      rw [eq, none] at read
      simp at read
  rw [Token.operandKind, if_neg head.1, if_neg head.2, if_neg word, number]
  rfl

end Formula

end Spreadsheet
