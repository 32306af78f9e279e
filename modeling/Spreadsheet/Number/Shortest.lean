import Spreadsheet.Number.Reading

/-!
# The shortest text of a number

A finite number is written with the fewest significant digits that read back as the same number, and of two
such decimals the nearer one, in a tie the larger. The layout is positional whatever the size, without an
exponent and without zeros at the end of a fraction. The candidates with `n` digits are the two neighbours of
the number on the grid of decimals with `n` digits; a number that none of them hits would be written in full.
-/

namespace Spreadsheet.Number

open Text

/-- A decimal, `digits · 10 ^ scale`. -/
structure Decimal where
  digits : Nat
  scale : Int
deriving DecidableEq

namespace Decimal

/-- The positional text of a decimal. -/
def text (d : Decimal) : List Char :=
  let places := (-d.scale).toNat
  let digits := numeral (d.digits * Nat.pow 10 d.scale.toNat)
  let padded := List.replicate (places + 1 - digits.length) '0' ++ digits
  let whole := padded.take (padded.length - places)
  let fraction := (padded.drop (padded.length - places)).reverse.dropWhile (· = '0')
  if fraction = [] then whole else whole ++ '.' :: fraction.reverse

example : text ⟨12, 3⟩ = "12000".toList ∧ text ⟨12, -3⟩ = "0.012".toList ∧
    text ⟨1200, -2⟩ = "12".toList := by decide +kernel

end Decimal

/-- A magnitude in units of `10 ^ scale`, as a quotient. -/
def inUnits (m : Magnitude) (scale : Int) : Nat × Nat :=
  (m.mantissa * Nat.pow 2 m.exponent * Nat.pow 10 (-scale).toNat,
    smallestPerOne * Nat.pow 10 scale.toNat)

/-- The power of ten that is the first above a magnitude: the magnitude has its leading digit one place
below. The leading binary digit gives it or the one before it, for 0.30103 is the decimal logarithm of 2. -/
def leadingPower (m : Magnitude) : Int :=
  let binary : Int := (m.mantissa * Nat.pow 2 m.exponent).log2 - 1074
  let power := binary * 30103 / 100000 + 1
  let (num, den) := inUnits m power
  if num < den then power else power + 1

/-- The neighbours of a magnitude on the grid of step `10 ^ scale`, the nearer one first. -/
def neighbours (m : Magnitude) (scale : Int) : List Decimal :=
  let (num, den) := inUnits m scale
  let below : Decimal := ⟨num / den, scale⟩
  let above : Decimal := ⟨num / den + 1, scale⟩
  if 2 * (num % den) < den then [below, above] else [above, below]

/-- A magnitude with all its digits. -/
def exact (m : Magnitude) : Decimal :=
  ⟨m.mantissa * Nat.pow 2 m.exponent * Nat.pow 5 1074, -1074⟩

/-- Whether a magnitude is the nearest one to a decimal. -/
def isNearest (m : Magnitude) (d : Decimal) : Bool :=
  ofDecimal false d.digits d.scale = .finite false m

/-- The decimal that is written for a magnitude: of its neighbours on the grids with 1, 2, … 17 digits the
first that reads back. -/
def shortest (m : Magnitude) : Decimal :=
  let top := leadingPower m
  let found := (List.range 17).findSome? fun n =>
    (neighbours m (top - (n + 1 : Nat))).find? (isNearest m)
  found.getD (exact m)

/-- The text of a number. -/
def text : Number → List Char
  | .nan => "NaN".toList
  | .infinite negative => if negative then "-inf".toList else "inf".toList
  | .finite negative m => if negative then '-' :: (shortest m).text else (shortest m).text

/-- No exponent is written, and zeros at the end of a fraction are not written either. -/
example : (read? "1e21".toList).map text = some "1000000000000000000000".toList ∧
    (read? "1.50E-7".toList).map text = some "0.00000015".toList := by decide +kernel

/-- The smallest positive number has the single digit 5; zero keeps its sign. -/
example : ((read? "4e-324".toList).map text).map (·.getLast?) = some (some '5') ∧
    (read? "-0".toList).map text = some "-0".toList := by decide +kernel

end Spreadsheet.Number
