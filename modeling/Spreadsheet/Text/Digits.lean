/-!
# Decimal digits

A numeral is a nonempty run of the digits `0` to `9`. Reading one gives its value, whatever zeros stand in
front, and `numeral` writes the one without a superfluous zero. `splitSign` takes an optional sign off.
-/

namespace Spreadsheet.Text

/-- The value of a numeral, if the text is one. -/
def readNumeral? (s : List Char) : Option Nat :=
  if s ≠ [] ∧ s.all Char.isDigit then some (Nat.ofDigitChars 10 s 0) else none

/-- The numeral of a number, without a zero in front. -/
def numeral (n : Nat) : List Char :=
  Nat.toDigits 10 n

theorem readNumeral?_numeral (n : Nat) : readNumeral? (numeral n) = some n := by
  have digits : (Nat.toDigits 10 n).all Char.isDigit = true :=
    List.all_eq_true.2 fun _ h => Nat.isDigit_of_mem_toDigits (by decide) (by decide) h
  simp [readNumeral?, numeral, digits, Nat.ofDigitChars_toDigits]

/-- A text without its optional sign, and whether that sign is a minus. -/
def splitSign : List Char → Bool × List Char
  | '-' :: s => (true, s)
  | '+' :: s => (false, s)
  | s => (false, s)

/-- The value of a numeral with an optional sign. -/
def readInteger? (s : List Char) : Option Int :=
  let (negative, digits) := splitSign s
  (readNumeral? digits).map fun n => if negative then -(n : Int) else n

example : readInteger? "+05".toList = some 5 := by decide +kernel

/-- A sign alone is no numeral. -/
example : readInteger? ['-'] = none ∧ readNumeral? [] = none := by decide +kernel

end Spreadsheet.Text
