import Mathlib.Data.List.Induction
import Mathlib.Data.Nat.Digits.Defs
import Spreadsheet.Proofs.Reference

/-!
# Which texts spell a part of a reference

A part of a reference is written in letters, in digits or in both, with a dollar sign in front of what is anchored.
The letters are a numeral in base 26 whose digits are 1 to 26, the digits are one in base ten, and both numbers are
below the bound and not zero.  That is all: there is a reading for each such text and for no other.

* `Address.SpellsColumn`, `Address.SpellsRow` — the values of letters and digits; `readColumn?_eq_some_iff` and
  `readRow?_eq_some_iff`: these are what is read.
* `ReferencePart.Spelling` — the three forms of a part; `ReferencePart.read?_eq_some_iff`.
* `canonical` — capitals, and no zero in front of a number; `ReferencePart.text_of_spelling`: what is written again.
* `ReferencePart.read?_exact` — reading and writing together.
* `Address.NamedBy` — the texts that name a cell; `Address.read?_eq_some_iff`.
-/

namespace Spreadsheet

/-- A numeral that is evaluated from its first digit to its last has the value of its digits in the base. -/
theorem foldl_eq_ofDigits (base : Nat) (value : Char → Nat) (s : List Char) :
    s.foldl (fun n c => base * n + value c) 0 = Nat.ofDigits base (s.reverse.map value) := by
  induction s using List.reverseRecOn with
  | nil => rfl
  | append_singleton s c ih =>
    rw [List.foldl_append, ih, List.reverse_append, List.reverse_singleton, List.singleton_append, List.map_cons,
      Nat.ofDigits_cons, Nat.add_comm]
    rfl

namespace Address

/-! ### Letters -/

/-- Letters with the value of a column, counted from one, and below the bound. -/
structure SpellsColumn (s : List Char) (column : Nat) : Prop where
  letters : ∀ c ∈ s, c.isAlpha = true
  value : Nat.ofDigits 26 (s.reverse.map letterValue) = column + 1
  below : column + 1 < indexBound

theorem lettersValue_eq (s : List Char) : lettersValue s = Nat.ofDigits 26 (s.reverse.map letterValue) :=
  foldl_eq_ofDigits 26 letterValue s

variable {s : List Char} {column row : Nat}

theorem SpellsColumn.ne_nil (h : SpellsColumn s column) : s ≠ [] := by
  rintro rfl
  exact absurd h.value (by simp)

/-- A letter has a value from 1 to 26, and the letter with this value is the capital one. -/
theorem letterValue_of_isAlpha {c : Char} (h : c.isAlpha = true) :
    ∃ digit < 26, letterValue c = digit + 1 ∧ letter digit = c.toUpper := by
  have all : ∀ n < 123, (Char.ofNat n).isAlpha = true → letterValue (Char.ofNat n) - 1 < 26 ∧
      letterValue (Char.ofNat n) = letterValue (Char.ofNat n) - 1 + 1 ∧
      letter (letterValue (Char.ofNat n) - 1) = (Char.ofNat n).toUpper := by decide
  have below : c.toNat < 123 := by
    have code : (decide (c.val ≥ 'A'.val ∧ c.val ≤ 'Z'.val) || (c.val ≥ 'a'.val && c.val ≤ 'z'.val)) = true := h
    simp only [Bool.or_eq_true, Bool.and_eq_true, decide_eq_true_eq, ge_iff_le, UInt32.le_iff_toNat_le] at code
    have upper : 'Z'.val.toNat = 90 := rfl
    have lower : 'z'.val.toNat = 122 := rfl
    show c.val.toNat < 123
    omega
  have here := all c.toNat below
  rw [Char.ofNat_toNat] at here
  exact ⟨_, here h⟩

theorem lettersValue_pos (ne : s ≠ []) : 0 < lettersValue s := by
  obtain ⟨front, c, rfl⟩ := (List.eq_nil_or_concat s).resolve_left ne
  rw [List.concat_eq_append, lettersValue, List.foldl_append]
  show 0 < _ + (_ + 1)
  omega

/-- A column is read from the letters that spell it. -/
theorem readColumn?_eq_some_iff : readColumn? s = some column ↔ SpellsColumn s column := by
  constructor
  · intro h
    obtain ⟨ne, letters⟩ := of_readColumn?_eq_some h
    obtain ⟨-, same⟩ := Option.ite_none_right_eq_some.1 h
    have positive := lettersValue_pos ne
    have same := Option.some.inj same
    exact ⟨letters, by rw [← lettersValue_eq]; omega, lt_of_readColumn? h⟩
  · intro h
    have value := (lettersValue_eq s).trans h.value
    rw [readColumn?, value, if_pos ⟨h.ne_nil, List.all_eq_true.2 h.letters, h.below⟩]
    rfl

/-- The letters of a number are the capitals of any letters with this value. -/
theorem lettersOf_lettersValue (letters : ∀ c ∈ s, c.isAlpha = true) (behind : List Char) :
    lettersOf (lettersValue s) behind = s.map Char.toUpper ++ behind := by
  induction s using List.reverseRecOn generalizing behind with
  | nil => rw [show lettersValue [] = 0 from rfl, lettersOf, List.map_nil, List.nil_append]
  | append_singleton s c ih =>
    obtain ⟨front, last⟩ := List.forall_mem_append.1 letters
    obtain ⟨digit, small, value, capital⟩ := letterValue_of_isAlpha (last c List.mem_cons_self)
    have whole : lettersValue (s ++ [c]) = 26 * lettersValue s + digit + 1 := by
      rw [lettersValue, List.foldl_append, List.foldl_cons, value]
      rfl
    have quotient : (26 * lettersValue s + digit) / 26 = lettersValue s := by omega
    have remainder : (26 * lettersValue s + digit) % 26 = digit := by omega
    rw [whole, lettersOf, quotient, remainder, capital, ih front]
    simp

/-- Writing a column gives the letters that spell it in capitals. -/
theorem SpellsColumn.columnName_eq (h : SpellsColumn s column) : columnName column = s.map Char.toUpper := by
  rw [columnName, ← h.value, ← lettersValue_eq, lettersOf_lettersValue h.letters, List.append_nil]

/-! ### Digits -/

/-- The value of a decimal digit. -/
def digitValue (c : Char) : Nat :=
  c.toNat - '0'.toNat

/-- Digits with the value of a row, counted from one, and below the bound. -/
structure SpellsRow (s : List Char) (row : Nat) : Prop where
  digits : ∀ c ∈ s, c.isDigit = true
  value : Nat.ofDigits 10 (s.reverse.map digitValue) = row + 1
  below : row + 1 < indexBound

theorem ofDigitChars_eq (s : List Char) :
    Nat.ofDigitChars 10 s 0 = Nat.ofDigits 10 (s.reverse.map digitValue) := by
  rw [Nat.ofDigitChars_eq_foldl]
  exact foldl_eq_ofDigits 10 digitValue s

theorem SpellsRow.ne_nil (h : SpellsRow s row) : s ≠ [] := by
  rintro rfl
  exact absurd h.value (by simp)

/-- A row is read from the digits that spell it. -/
theorem readRow?_eq_some_iff : readRow? s = some row ↔ SpellsRow s row := by
  constructor
  · intro h
    refine ⟨(of_readRow?_eq_some h).2, ?_, lt_of_readRow? h⟩
    simp only [readRow?] at h
    split at h
    · next read =>
      obtain ⟨-, value⟩ := Option.ite_none_right_eq_some.1 read
      obtain ⟨-, same⟩ := Option.ite_none_right_eq_some.1 h
      rw [← ofDigitChars_eq, Option.some.inj value, Option.some.inj same]
    · cases h
  · intro h
    have read : Text.readNumeral? s = some (row + 1) := by
      rw [Text.readNumeral?, if_pos ⟨h.ne_nil, List.all_eq_true.2 h.digits⟩, ofDigitChars_eq, h.value]
    simp only [readRow?, read, if_pos h.below]

theorem digitChar_digitValue {c : Char} (h : c.isDigit = true) : digitValue c < 10 ∧ (digitValue c).digitChar = c := by
  have all : ∀ n < 58, (Char.ofNat n).isDigit = true →
      digitValue (Char.ofNat n) < 10 ∧ (digitValue (Char.ofNat n)).digitChar = Char.ofNat n := by decide
  have below : c.toNat < 58 := Nat.lt_succ_of_le (Char.isDigit_iff_toNat.1 h).2
  have here := all c.toNat below
  rw [Char.ofNat_toNat] at here
  exact here h

/-- The numeral of a number is any numeral with this value, without the zeros in front. -/
theorem numeral_ofDigitChars (digits : ∀ c ∈ s, c.isDigit = true) :
    (Nat.ofDigitChars 10 s 0 = 0 → s.dropWhile (· = '0') = []) ∧
      (0 < Nat.ofDigitChars 10 s 0 → Text.numeral (Nat.ofDigitChars 10 s 0) = s.dropWhile (· = '0')) := by
  induction s using List.reverseRecOn with
  | nil => exact ⟨fun _ => rfl, fun positive => absurd positive (by simp)⟩
  | append_singleton s c ih =>
    obtain ⟨front, last⟩ := List.forall_mem_append.1 digits
    obtain ⟨small, char⟩ := digitChar_digitValue (last c List.mem_cons_self)
    obtain ⟨nothing, written⟩ := ih front
    have whole : Nat.ofDigitChars 10 (s ++ [c]) 0 = 10 * Nat.ofDigitChars 10 s 0 + digitValue c := by
      rw [Nat.ofDigitChars_append]
      rfl
    rw [whole, List.dropWhile_append]
    rcases Nat.eq_zero_or_pos (Nat.ofDigitChars 10 s 0) with zero | positive
    · -- the digits in front are zeros, so the last one is the whole numeral unless it is a zero as well
      rw [zero, nothing zero, Nat.mul_zero, Nat.zero_add]
      constructor
      · intro last
        rw [last] at char
        subst char
        rfl
      · intro positive
        have other : c ≠ '0' := by
          rintro rfl
          exact absurd positive (by decide)
        rw [Text.numeral, Nat.toDigits_of_lt_base small, char]
        simp [other]
    · have ne : s.dropWhile (· = '0') ≠ [] := by
        rw [← written positive]
        exact Nat.toDigits_ne_nil
      refine ⟨fun zero => absurd zero (by omega), fun _ => ?_⟩
      rw [Text.numeral, ← Nat.toDigits_append_toDigits (by decide) positive small, Nat.toDigits_of_lt_base small, char,
        ← Text.numeral, written positive]
      simp [ne]

/-- Writing a row gives the digits that spell it, without the zeros in front. -/
theorem SpellsRow.rowName_eq (h : SpellsRow s row) : rowName row = s.dropWhile (· = '0') := by
  have value := (ofDigitChars_eq s).trans h.value
  rw [rowName_of_lt h.below, ← value]
  exact (numeral_ofDigitChars h.digits).2 (by omega)

end Address

/-! ### Coordinates -/

namespace Coordinate

variable {s : List Char} {c : Coordinate}

/-- The dollar sign that is taken off and the rest make up the text. -/
theorem mark_append_splitAnchor (s : List Char) (index : Nat) :
    mark ⟨index, (splitAnchor s).1⟩ ++ (splitAnchor s).2 = s := by
  unfold splitAnchor
  split
  · rfl
  · rfl

/-- A text of characters of a class begins with no dollar sign if that is none of the class. -/
theorem head?_ne_of_forall {p : Char → Bool} (other : p '$' = false) (h : ∀ d ∈ s, p d = true) (t : List Char)
    (ne : s ≠ []) : (s ++ t).head? ≠ some '$' := by
  obtain ⟨d, u, rfl⟩ := List.exists_cons_of_ne_nil ne
  rintro ⟨⟩
  exact absurd (h '$' List.mem_cons_self) (by simp [other])

theorem eq_of_mem_mark {d : Char} (h : d ∈ c.mark) : d = '$' := by
  rw [mark] at h
  split at h
  · exact List.mem_singleton.1 h
  · cases h

theorem map_toUpper_mark (c : Coordinate) : c.mark.map Char.toUpper = c.mark := by
  rw [mark]
  split
  · rfl
  · rfl

theorem readColumn?_eq_some_iff :
    readColumn? s = some c ↔ ∃ letters, s = c.mark ++ letters ∧ Address.SpellsColumn letters c.index := by
  constructor
  · intro h
    obtain ⟨column, read, rfl⟩ := Option.map_eq_some_iff.1 h
    exact ⟨_, (mark_append_splitAnchor s column).symm, Address.readColumn?_eq_some_iff.1 read⟩
  · rintro ⟨letters, rfl, spells⟩
    have head := head?_ne_of_forall (by decide) spells.letters [] spells.ne_nil
    rw [List.append_nil] at head
    simp only [readColumn?, splitAnchor_mark c head, Address.readColumn?_eq_some_iff.2 spells, Option.map_some]

theorem readRow?_eq_some_iff :
    readRow? s = some c ↔ ∃ digits, s = c.mark ++ digits ∧ Address.SpellsRow digits c.index := by
  constructor
  · intro h
    obtain ⟨row, read, rfl⟩ := Option.map_eq_some_iff.1 h
    exact ⟨_, (mark_append_splitAnchor s row).symm, Address.readRow?_eq_some_iff.1 read⟩
  · rintro ⟨digits, rfl, spells⟩
    have head := head?_ne_of_forall (by decide) spells.digits [] spells.ne_nil
    rw [List.append_nil] at head
    simp only [readRow?, splitAnchor_mark c head, Address.readRow?_eq_some_iff.2 spells, Option.map_some]

end Coordinate

/-! ### Parts -/

/-- Letters are taken off up to the first other character. -/
theorem span_letters {letters t : List Char} (all : ∀ c ∈ letters, c.isAlpha = true)
    (other : ∀ c ∈ t.head?, c.isAlpha = false) :
    (letters ++ t).takeWhile Char.isAlpha = letters ∧ (letters ++ t).dropWhile Char.isAlpha = t := by
  rw [List.takeWhile_append_of_pos all, List.dropWhile_append_of_pos all]
  cases t with
  | nil => simp
  | cons c t =>
    have stop : c.isAlpha = false := other c rfl
    simp [stop]

/-- A cell is read from letters and digits, each perhaps behind a dollar sign. -/
theorem CellReference.read?_eq_some_iff {s : List Char} {r : CellReference} :
    read? s = some r ↔ ∃ letters digits, s = r.column.mark ++ letters ++ (r.row.mark ++ digits) ∧
      Address.SpellsColumn letters r.column.index ∧ Address.SpellsRow digits r.row.index := by
  constructor
  · intro h
    simp only [read?] at h
    split at h
    · next column row readColumn readRow =>
      cases h
      obtain ⟨digits, rest, spellsRow⟩ := Coordinate.readRow?_eq_some_iff.1 readRow
      refine ⟨_, digits, ?_, Address.readColumn?_eq_some_iff.1 readColumn, spellsRow⟩
      rw [← rest, List.append_assoc, List.takeWhile_append_dropWhile, Coordinate.mark_append_splitAnchor]
    · cases h
  · rintro ⟨letters, digits, rfl, spellsColumn, spellsRow⟩
    have head := Coordinate.head?_ne_of_forall (by decide) spellsColumn.letters (r.row.mark ++ digits)
      spellsColumn.ne_nil
    have stop : ∀ c ∈ (r.row.mark ++ digits).head?, c.isAlpha = false := by
      intro c hc
      rcases List.mem_append.1 (List.mem_of_mem_head? hc) with mark | digit
      · rw [Coordinate.eq_of_mem_mark mark]
        rfl
      · exact isAlpha_of_isDigit (spellsRow.digits c digit)
    obtain ⟨front, behind⟩ := span_letters spellsColumn.letters stop
    have readRow : Coordinate.readRow? (r.row.mark ++ digits) = some r.row :=
      Coordinate.readRow?_eq_some_iff.2 ⟨digits, rfl, spellsRow⟩
    simp only [read?, List.append_assoc, Coordinate.splitAnchor_mark r.column head, front, behind, readRow,
      Address.readColumn?_eq_some_iff.2 spellsColumn]

/-- There is a letter in a cell, and a digit. -/
theorem CellReference.exists_mem_of_read? {s : List Char} {r : CellReference} (h : read? s = some r) :
    (∃ c ∈ s, c.isAlpha = true) ∧ ∃ c ∈ s, c.isDigit = true := by
  obtain ⟨letters, digits, rfl, spellsColumn, spellsRow⟩ := read?_eq_some_iff.1 h
  obtain ⟨c, hc⟩ := List.exists_mem_of_ne_nil _ spellsColumn.ne_nil
  obtain ⟨d, hd⟩ := List.exists_mem_of_ne_nil _ spellsRow.ne_nil
  exact ⟨⟨c, by simp [hc], spellsColumn.letters c hc⟩, d, by simp [hd], spellsRow.digits d hd⟩

/-- The texts of a part: letters for a column, digits for a row, and both for a cell, each perhaps behind a dollar
sign. -/
inductive ReferencePart.Spelling : List Char → ReferencePart → Prop
  | cell {letters digits : List Char} {column row : Coordinate} :
      Address.SpellsColumn letters column.index → Address.SpellsRow digits row.index →
      Spelling (column.mark ++ letters ++ (row.mark ++ digits)) (.cell ⟨column, row⟩)
  | column {letters : List Char} {column : Coordinate} :
      Address.SpellsColumn letters column.index → Spelling (column.mark ++ letters) (.column column)
  | row {digits : List Char} {row : Coordinate} :
      Address.SpellsRow digits row.index → Spelling (row.mark ++ digits) (.row row)

/-- A text with its letters in capitals and without the zeros in front of its number. -/
def canonical (s : List Char) : List Char :=
  (s.takeWhile (!·.isDigit)).map Char.toUpper ++ (s.dropWhile (!·.isDigit)).dropWhile (· = '0')

theorem canonical_append {front digits : List Char} (other : ∀ c ∈ front, c.isDigit = false)
    (all : ∀ c ∈ digits, c.isDigit = true) :
    canonical (front ++ digits) = front.map Char.toUpper ++ digits.dropWhile (· = '0') := by
  have stop : digits.takeWhile (!·.isDigit) = [] ∧ digits.dropWhile (!·.isDigit) = digits := by
    cases digits with
    | nil => simp
    | cons d digits => simp [all d List.mem_cons_self]
  rw [canonical, List.takeWhile_append_of_pos (by simpa using other),
    List.dropWhile_append_of_pos (by simpa using other), stop.1, stop.2, List.append_nil]

namespace ReferencePart

variable {s : List Char} {part : ReferencePart}

/-- A part is read from the texts that spell it and from no others. -/
theorem read?_eq_some_iff : read? s = some part ↔ Spelling s part := by
  constructor
  · intro h
    rw [read?, Option.or_eq_some_iff] at h
    rcases h with cell | ⟨-, h⟩
    · obtain ⟨r, read, rfl⟩ := Option.map_eq_some_iff.1 cell
      obtain ⟨letters, digits, rfl, spellsColumn, spellsRow⟩ := CellReference.read?_eq_some_iff.1 read
      exact .cell spellsColumn spellsRow
    · rcases Option.or_eq_some_iff.1 h with column | ⟨-, row⟩
      · obtain ⟨c, read, rfl⟩ := Option.map_eq_some_iff.1 column
        obtain ⟨letters, rfl, spells⟩ := Coordinate.readColumn?_eq_some_iff.1 read
        exact .column spells
      · obtain ⟨c, read, rfl⟩ := Option.map_eq_some_iff.1 row
        obtain ⟨digits, rfl, spells⟩ := Coordinate.readRow?_eq_some_iff.1 read
        exact .row spells
  · intro h
    cases h with
    | cell spellsColumn spellsRow =>
      exact read?_eq_cell_iff.2 (CellReference.read?_eq_some_iff.2 ⟨_, _, rfl, spellsColumn, spellsRow⟩)
    | @column letters c spells =>
      -- a cell would have a digit
      have noCell : CellReference.read? (c.mark ++ letters) = none := by
        refine Option.eq_none_iff_forall_ne_some.2 fun r read => ?_
        obtain ⟨-, d, mem, digit⟩ := CellReference.exists_mem_of_read? read
        rcases List.mem_append.1 mem with mark | letter
        · rw [Coordinate.eq_of_mem_mark mark] at digit
          cases digit
        · exact absurd (spells.letters d letter) (by simp [isAlpha_of_isDigit digit])
      rw [read?, noCell, Coordinate.readColumn?_eq_some_iff.2 ⟨_, rfl, spells⟩]
      rfl
    | @row digits c spells =>
      -- a cell or a column would have a letter
      have noLetter : ∀ d ∈ c.mark ++ digits, d.isAlpha = false := by
        intro d mem
        rcases List.mem_append.1 mem with mark | digit
        · rw [Coordinate.eq_of_mem_mark mark]
          rfl
        · exact isAlpha_of_isDigit (spells.digits d digit)
      have noCell : CellReference.read? (c.mark ++ digits) = none := by
        refine Option.eq_none_iff_forall_ne_some.2 fun r read => ?_
        obtain ⟨⟨d, mem, letter⟩, -⟩ := CellReference.exists_mem_of_read? read
        exact absurd letter (by simp [noLetter d mem])
      have noColumn : Coordinate.readColumn? (c.mark ++ digits) = none := by
        refine Option.eq_none_iff_forall_ne_some.2 fun c' read => ?_
        obtain ⟨letters, same, spells'⟩ := Coordinate.readColumn?_eq_some_iff.1 read
        obtain ⟨d, mem⟩ := List.exists_mem_of_ne_nil _ spells'.ne_nil
        have none := noLetter d (by rw [same]; exact List.mem_append_right _ mem)
        exact absurd (spells'.letters d mem) (by simp [none])
      rw [read?, noCell, noColumn, Coordinate.readRow?_eq_some_iff.2 ⟨_, rfl, spells⟩]
      rfl

/-- What is written for a part is the text that spells it in its canonical form. -/
theorem text_of_spelling (h : Spelling s part) : part.text = canonical s := by
  have marks (c : Coordinate) : ∀ d ∈ c.mark, d.isDigit = false := by
    intro d mem
    rw [Coordinate.eq_of_mem_mark mem]
    rfl
  have others {letters : List Char} (all : ∀ d ∈ letters, d.isAlpha = true) : ∀ d ∈ letters, d.isDigit = false := by
    intro d mem
    refine Bool.eq_false_iff.2 fun digit => ?_
    exact absurd (all d mem) (by simp [isAlpha_of_isDigit digit])
  cases h with
  | @cell letters digits column row spellsColumn spellsRow =>
    have front : ∀ d ∈ column.mark ++ letters ++ row.mark, d.isDigit = false :=
      List.forall_mem_append.2
        ⟨List.forall_mem_append.2 ⟨marks column, others spellsColumn.letters⟩, marks row⟩
    rw [← List.append_assoc, canonical_append front spellsRow.digits]
    simp only [text, CellReference.text, Coordinate.columnText, Coordinate.rowText, spellsColumn.columnName_eq,
      spellsRow.rowName_eq, List.map_append, Coordinate.map_toUpper_mark, List.append_assoc]
  | @column letters column spells =>
    have front : ∀ d ∈ column.mark ++ letters, d.isDigit = false :=
      List.forall_mem_append.2 ⟨marks column, others spells.letters⟩
    have whole := @canonical_append _ [] front (by simp)
    rw [List.append_nil, List.dropWhile_nil, List.append_nil] at whole
    rw [whole, text, Coordinate.columnText, spells.columnName_eq, List.map_append, Coordinate.map_toUpper_mark]
  | @row digits row spells =>
    rw [canonical_append (marks row) spells.digits, text, Coordinate.rowText, spells.rowName_eq,
      Coordinate.map_toUpper_mark]

/-- **Reading and writing a part.** A part is read from exactly the texts that spell it, and what is written for it
then is such a text with its letters in capitals and no zero in front of its number.  A part with indices below the
bound is read from what is written for it.  A name of a cell is a text of the form of a cell, and denotes the place
that is read from it. -/
theorem read?_exact (s : List Char) :
    (∀ part, read? s = some part ↔ Spelling s part) ∧
    (∀ part, read? s = some part → part.text = canonical s) ∧
    (∀ part : ReferencePart, part.Below (indexBound - 1) → read? part.text = some part) ∧
    (∀ a, Address.read? s = some a ↔ ∃ c, read? s = some (.cell c) ∧ c.address = a) := by
  refine ⟨fun part => read?_eq_some_iff, fun part read => ?_, fun part below => ?_, fun a => ?_⟩
  · exact text_of_spelling (read?_eq_some_iff.1 read)
  · exact read?_text below (by decide)
  · rw [Address.read?, Option.map_eq_some_iff]
    simp only [read?_eq_cell_iff]

/-- A cell with an anchored column, a small letter and zeros in front of its row. -/
theorem read?_exact_anchored :
    let part : ReferencePart := .cell ⟨⟨51, true⟩, ⟨6, false⟩⟩
    read? "$aZ007".toList = some part ∧ Spelling "$aZ007".toList part ∧ part.text = "$AZ7".toList ∧
      part.Below (indexBound - 1) ∧ read? "$AZ7".toList = some part ∧
      Address.read? "$aZ007".toList = some ⟨6, 51⟩ := by
  intro part
  obtain ⟨spelt, written, back, place⟩ := read?_exact "$aZ007".toList
  have read : read? "$aZ007".toList = some part := by decide +kernel
  have below : part.Below (indexBound - 1) := ⟨by decide, by decide⟩
  have text : part.text = "$AZ7".toList := (written part read).trans (by decide +kernel)
  exact ⟨read, (spelt part).1 read, text, below, text ▸ back part below, (place _).2 ⟨_, read, rfl⟩⟩

end ReferencePart

/-! ### Names of cells -/

/-- The texts that name a cell: letters and digits, each perhaps behind a dollar sign. -/
def Address.NamedBy (a : Address) (s : List Char) : Prop :=
  ∃ r : CellReference, ReferencePart.Spelling s (.cell r) ∧ r.address = a

theorem Address.read?_eq_some_iff {s : List Char} {a : Address} : Address.read? s = some a ↔ a.NamedBy s := by
  rw [Address.read?, Option.map_eq_some_iff, NamedBy]
  simp only [← ReferencePart.read?_eq_some_iff, ReferencePart.read?_eq_cell_iff]

/-- No colon is part of a name. -/
theorem Address.NamedBy.colon_not_mem {s : List Char} {a : Address} (h : a.NamedBy s) : ':' ∉ s := by
  obtain ⟨r, read, -⟩ := Option.map_eq_some_iff.1 (Address.read?_eq_some_iff.2 h)
  intro mem
  exact absurd (CellReference.isPlain_of_read? read ':' mem) (by decide)

end Spreadsheet
