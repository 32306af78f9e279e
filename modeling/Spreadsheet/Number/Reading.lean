import Spreadsheet.Number.Basic
import Spreadsheet.Text.Digits

/-!
# Number text

A number is written as an optional sign, digits with at most one point among or beside them, and an optional
exponent: `e` or `E`, an optional sign and digits. In any letter case the words `inf`, `infinity` and `nan`
are numbers too. The value is the nearest number to the decimal that is written, so that a large decimal
gives an infinite number and a small one zero.
-/

namespace Spreadsheet.Number

open Text

/-- The number with this sign nearest to a decimal, `digits · 10 ^ scale`. -/
def ofDecimal (negative : Bool) (digits : Nat) (scale : Int) : Number :=
  (Magnitude.nearest? (digits * Nat.pow 10 scale.toNat * smallestPerOne) (Nat.pow 10 (-scale).toNat)).elim
    (.infinite negative) (.finite negative)

/-- The number with this sign nearest to a decimal in digits, the last of which counts `10 ^ scale`. The
arithmetic is bounded however many digits there are: a decimal of `10 ^ 309` or more is infinite, one below
`10 ^ -324` is zero, and a digit 1 stands for all the digits behind place 1075, unless they are zeros. The
numbers, and the middles between two of them, are multiples of `10 ^ -1075`, so that it does not matter how
far between two such multiples a decimal lies. -/
def ofDigits (negative : Bool) (digits : List Char) (scale : Int) : Number :=
  let digits := digits.dropWhile (· = '0')
  let top := digits.length + scale
  if digits = [] ∨ top < -323 then .finite negative .zero
  else if 309 < top then .infinite negative
  else
    let kept := Nat.ofDigitChars 10 (digits.take (top + 1075).toNat) 0
    let behind := digits.drop (top + 1075).toNat
    if behind.all (· = '0') then ofDecimal negative kept (scale + behind.length)
    else ofDecimal negative (10 * kept + 1) (scale + behind.length - 1)

/-- The value of the digits of an exponent. It grows until it has reached 65536, and digits behind that do
not count. -/
def exponentValue (digits : List Char) : Nat :=
  digits.foldl (fun n c => if n < 65536 then 10 * n + (c.toNat - '0'.toNat) else n) 0

/-- The exponent that may end a number; zero if nothing is left. -/
def readExponent? : List Char → Option Int
  | [] => some 0
  | mark :: s =>
    let (negative, digits) := splitSign s
    if (mark = 'e' ∨ mark = 'E') ∧ digits ≠ [] ∧ digits.all Char.isDigit then
      some (if negative then -exponentValue digits else exponentValue digits)
    else none

/-- A text cut at the end of its leading digits. -/
def splitDigits (s : List Char) : List Char × List Char :=
  (s.takeWhile Char.isDigit, s.dropWhile Char.isDigit)

/-- The digits behind a point, and what follows them; no digits if there is no point. -/
def splitFraction : List Char → List Char × List Char
  | '.' :: s => splitDigits s
  | s => ([], s)

/-- Reads digits with an optional point and an optional exponent. -/
def readDecimal? (negative : Bool) (s : List Char) : Option Number :=
  let (whole, s) := splitDigits s
  let (fraction, s) := splitFraction s
  let digits := whole ++ fraction
  if digits = [] then none
  else (readExponent? s).map fun exponent =>
    ofDigits negative digits (exponent - fraction.length)

/-- Reads a word for a number. -/
def readWord? (negative : Bool) (s : List Char) : Option Number :=
  let word := s.map Char.toLower
  if word = "nan".toList then some .nan
  else if word = "inf".toList ∨ word = "infinity".toList then some (.infinite negative)
  else none

/-- The number that a text is, if it is one. -/
def read? (s : List Char) : Option Number :=
  let (negative, s) := splitSign s
  (readDecimal? negative s).or (readWord? negative s)

/-- Digits may stand on either side of the point, and one of the sides may be empty. -/
example : read? "5.".toList = read? "+05".toList ∧ read? ".5e1".toList = read? "5".toList ∧
    read? ".".toList = none := by decide +kernel

/-- The words are read in any letter case. -/
example : read? "-iNf".toList = some (.infinite true) ∧ read? "+NAN".toList = some .nan := by
  decide +kernel

/-- Half of the smallest positive number is zero, and the least digit behind it makes the difference. -/
example :
    let half := "0.".toList ++ List.replicate 323 '0' ++ Nat.toDigits 10 (Nat.pow 5 1075)
    read? half = some (.finite false .zero) ∧
      read? (half ++ "01".toList) = read? "5e-324".toList := by decide +kernel

/-- A decimal too large is infinite, one too small is zero and keeps its sign. -/
example : read? "1e400".toList = some (.infinite false) ∧
    read? "-1e-400".toList = some (.finite true .zero) := by decide +kernel

end Spreadsheet.Number
