/-!
# Numbers

Cells hold binary floating-point numbers of 64 bits. A finite one is a sign and a magnitude, the multiple
`mantissa · 2 ^ exponent` of the smallest positive number `2 ^ -1074`; the bounds in the type make the
mantissa unique, so that equal numbers are equal values. There is one value that is not a number.

`roundQuotient` rounds a quotient to the nearest whole number, a half to the even neighbour, and
`Magnitude.nearest?` rounds a positive rational in the same way to the nearest magnitude.
-/

namespace Spreadsheet

/-- A finite magnitude, `mantissa · 2 ^ exponent` times the smallest positive number. -/
structure Magnitude where
  mantissa : Nat
  exponent : Nat
  /-- The mantissa has at most 53 bits. -/
  mantissa_lt : mantissa < Nat.pow 2 53
  /-- The magnitude is below `2 ^ 1024`. -/
  exponent_le : exponent ≤ 2045
  /-- Above the smallest exponent all 53 bits are used. -/
  normal : exponent = 0 ∨ Nat.pow 2 52 ≤ mantissa
deriving DecidableEq

/-- A floating-point number of 64 bits. -/
inductive Number where
  | nan
  | infinite (negative : Bool)
  | finite (negative : Bool) (magnitude : Magnitude)
deriving DecidableEq

namespace Number

/-- How many times the smallest positive number makes 1. -/
def smallestPerOne : Nat := Nat.pow 2 1074

/-- The quotient rounded to the nearest whole number, a half to the even neighbour. -/
def roundQuotient (num den : Nat) : Nat :=
  let floor := num / den
  let twice := 2 * (num % den)
  if twice < den then floor
  else if den < twice then floor + 1
  else if floor % 2 = 0 then floor
  else floor + 1

theorem le_roundQuotient (num den : Nat) : num / den ≤ roundQuotient num den := by
  simp only [roundQuotient]
  split
  · exact Nat.le_refl _
  · split
    · exact Nat.le_succ _
    · split
      · exact Nat.le_refl _
      · exact Nat.le_succ _

theorem roundQuotient_le (num den : Nat) : roundQuotient num den ≤ num / den + 1 := by
  simp only [roundQuotient]
  split
  · exact Nat.le_succ _
  · split
    · exact Nat.le_refl _
    · split
      · exact Nat.le_succ _
      · exact Nat.le_refl _

/-- A whole quotient is its own rounding. -/
theorem roundQuotient_mul_left (n : Nat) {den : Nat} (h : 0 < den) :
    roundQuotient (den * n) den = n := by
  simp [roundQuotient, Nat.mul_div_cancel_left n h, h]

end Number

namespace Magnitude

/-- Zero. -/
def zero : Magnitude := ⟨0, 0, by decide, by decide, by decide⟩

/-- The exponent under which a rational with this whole part has a mantissa of 53 bits, 0 for a small one. -/
def exponentOf (whole : Nat) : Nat :=
  whole.log2 - 52

theorem div_exponentOf_lt (whole : Nat) :
    whole / Nat.pow 2 (exponentOf whole) < Nat.pow 2 53 := by
  simp only [Nat.pow_eq]
  rw [Nat.div_lt_iff_lt_mul (Nat.two_pow_pos _), ← Nat.pow_add]
  refine Nat.lt_of_lt_of_le Nat.lt_log2_self (Nat.pow_le_pow_right (by decide) ?_)
  simp only [exponentOf]
  omega

theorem le_div_exponentOf {whole : Nat} (h : exponentOf whole ≠ 0) :
    Nat.pow 2 52 ≤ whole / Nat.pow 2 (exponentOf whole) := by
  have log : whole.log2 = 52 + exponentOf whole := by
    simp only [exponentOf] at h ⊢
    omega
  have positive : whole ≠ 0 := by
    rintro rfl
    simp [exponentOf] at h
  simp only [Nat.pow_eq]
  rw [Nat.le_div_iff_mul_le (Nat.two_pow_pos _), ← Nat.pow_add, ← log]
  exact Nat.log2_self_le positive

/-- The magnitude nearest to the rational `num / den` of smallest positive numbers, a half to the even
neighbour; none if that is `2 ^ 1024` or more. -/
def nearest? (num den : Nat) : Option Magnitude :=
  let exponent := exponentOf (num / den)
  let mantissa := Number.roundQuotient num (den * Nat.pow 2 exponent)
  if carry : mantissa = Nat.pow 2 53 then
    if h : exponent + 1 ≤ 2045 then
      some ⟨Nat.pow 2 52, exponent + 1, by decide, h, .inr (Nat.le_refl _)⟩
    else none
  else if h : exponent ≤ 2045 then
    some
      { mantissa, exponent
        mantissa_lt := by
          have floor : num / (den * Nat.pow 2 exponent) < Nat.pow 2 53 := by
            rw [← Nat.div_div_eq_div_mul]
            exact div_exponentOf_lt _
          have above := Number.roundQuotient_le num (den * Nat.pow 2 exponent)
          exact Nat.lt_of_le_of_ne (Nat.le_trans above floor) carry
        exponent_le := h
        normal := by
          by_cases zero : exponent = 0
          · exact .inl zero
          · refine .inr (Nat.le_trans ?_ (Number.le_roundQuotient _ _))
            rw [← Nat.div_div_eq_div_mul]
            exact le_div_exponentOf zero }
  else none

/-- Half of the smallest positive number goes down to zero, three halves go up to two. -/
example : nearest? 1 2 = some zero ∧ (nearest? 3 2).map mantissa = some 2 := by decide +kernel

end Magnitude

end Spreadsheet
