import Mathlib.Algebra.Group.Nat.Defs
import Spreadsheet.Number.Reading

/-!
# The number nearest to a decimal

A decimal is rounded to the nearest number by exact arithmetic on its digits and its scale.  The result
depends only on the value of the decimal, so the same value may be written with other digits and another scale; and
the bounds that the reader sets on digits and scale change nothing.

* `nearest?_congr` — the nearest magnitude to a quotient depends only on its value.
* `nearest?_of_lt`, `nearest?_of_le`, `nearest?_self` — what is too small, too large, or a magnitude itself.
* `ofDecimal_congr` — the number nearest to a decimal depends only on its value.
* `ofDigits_eq_ofDecimal` — digits are read as the decimal that they are.
-/

namespace Spreadsheet

open Text

/-! ### The nearest magnitude -/

namespace Number

theorem roundQuotient_mul {k : Nat} (h : 0 < k) (num den : Nat) :
    roundQuotient (k * num) (k * den) = roundQuotient num den := by
  have twice : 2 * (k * (num % den)) = k * (2 * (num % den)) := Nat.mul_left_comm 2 k _
  simp only [roundQuotient, Nat.mul_div_mul_left num den h, Nat.mul_mod_mul_left, twice, Nat.mul_lt_mul_left h]

end Number

namespace Magnitude

theorem nearest?_mul {k : Nat} (h : 0 < k) (num den : Nat) : nearest? (k * num) (k * den) = nearest? num den := by
  simp only [nearest?, Nat.mul_div_mul_left num den h, Nat.mul_assoc, Number.roundQuotient_mul h]

/-- The nearest magnitude to a quotient depends only on its value. -/
theorem nearest?_congr {a b a' b' : Nat} (hb : 0 < b) (hb' : 0 < b') (h : a * b' = a' * b) :
    nearest? a b = nearest? a' b' := by
  rw [← nearest?_mul hb' a b, ← nearest?_mul hb a' b', Nat.mul_comm b' a, h, Nat.mul_comm a' b, Nat.mul_comm b' b]

/-- Less than half of the smallest positive number goes down to zero. -/
theorem nearest?_of_lt {num den : Nat} (h : 2 * num < den) : nearest? num den = some zero := by
  have whole : num / den = 0 := Nat.div_eq_of_lt (by omega)
  have rest : num % den = num := Nat.mod_eq_of_lt (by omega)
  have exponent : exponentOf (num / den) = 0 := by rw [whole]; rfl
  have mantissa : Number.roundQuotient num (den * Nat.pow 2 0) = 0 := by
    rw [Nat.pow_eq, Nat.pow_zero, Nat.mul_one, Number.roundQuotient]
    simp only [rest, if_pos h, whole]
  simp only [nearest?, exponent, mantissa]
  rfl

/-- From two to the power 1025 on, quotients of smallest positive numbers are too large. -/
theorem nearest?_of_le {num den power : Nat} (hd : 0 < den) (hp : 2099 ≤ power) (h : 2 ^ power * den ≤ num) :
    nearest? num den = none := by
  have whole : 2 ^ power ≤ num / den := (Nat.le_div_iff_mul_le hd).2 h
  have positive : num / den ≠ 0 := Nat.ne_of_gt (Nat.lt_of_lt_of_le (Nat.two_pow_pos power) whole)
  have log : power ≤ (num / den).log2 := (Nat.le_log2 positive).2 whole
  have exponent : 2047 ≤ exponentOf (num / den) := by
    rw [exponentOf]
    omega
  simp only [nearest?]
  split
  · rw [dif_neg (by omega)]
  · rw [dif_neg (by omega)]

/-- A magnitude is the nearest one to itself. -/
theorem nearest?_self (m : Magnitude) : nearest? (m.mantissa * Nat.pow 2 m.exponent) 1 = some m := by
  obtain ⟨mantissa, exponent, lt, le, normal⟩ := m
  simp only [Nat.pow_eq] at lt normal ⊢
  have same : exponentOf (mantissa * 2 ^ exponent) = exponent := by
    rw [exponentOf]
    rcases normal with rfl | ge
    · rw [Nat.pow_zero, Nat.mul_one]
      by_cases zero : mantissa = 0
      · subst zero
        rfl
      · have := (Nat.log2_lt zero).2 lt
        omega
    · have positive : mantissa ≠ 0 := Nat.ne_of_gt (Nat.lt_of_lt_of_le (Nat.two_pow_pos 52) ge)
      have product : mantissa * 2 ^ exponent ≠ 0 := Nat.mul_ne_zero positive (Nat.ne_of_gt (Nat.two_pow_pos _))
      have log : (mantissa * 2 ^ exponent).log2 = 52 + exponent := by
        rw [Nat.log2_eq_iff product, Nat.add_right_comm, Nat.pow_add, Nat.pow_add]
        exact ⟨Nat.mul_le_mul_right _ ge, Nat.mul_lt_mul_of_pos_right lt (Nat.two_pow_pos _)⟩
      omega
  have rounded : Number.roundQuotient (mantissa * 2 ^ exponent) (1 * Nat.pow 2 exponent) = mantissa := by
    rw [Nat.pow_eq, Nat.one_mul, Nat.mul_comm]
    exact Number.roundQuotient_mul_left mantissa (Nat.two_pow_pos exponent)
  have carry : mantissa ≠ Nat.pow 2 53 := Nat.ne_of_lt lt
  simp only [nearest?, Nat.div_one, same, rounded, dif_neg carry, dif_pos le]

end Magnitude

namespace Number

/-! ### Decimals -/

theorem ofDecimal_eq (negative : Bool) (digits : Nat) (scale : Int) :
    ofDecimal negative digits scale =
      (Magnitude.nearest? (digits * 10 ^ scale.toNat * smallestPerOne) (10 ^ (-scale).toNat)).elim
        (.infinite negative) (.finite negative) := by
  simp only [ofDecimal, Nat.pow_eq]

/-- The number nearest to a decimal depends only on its value. -/
theorem ofDecimal_congr {d d' : Nat} {s s' : Int}
    (h : d * 10 ^ s.toNat * 10 ^ (-s').toNat = d' * 10 ^ s'.toNat * 10 ^ (-s).toNat) (negative : Bool) :
    ofDecimal negative d s = ofDecimal negative d' s' := by
  have positive (n : Nat) : 0 < 10 ^ n := Nat.pow_pos (by decide)
  have cross : d * 10 ^ s.toNat * smallestPerOne * 10 ^ (-s').toNat =
      d' * 10 ^ s'.toNat * smallestPerOne * 10 ^ (-s).toNat := by
    rw [Nat.mul_right_comm, h, Nat.mul_right_comm]
  rw [ofDecimal_eq, ofDecimal_eq, Magnitude.nearest?_congr (positive _) (positive _) cross]

/-! ### Digits -/

/-- The value of a numeral with a digit in front. -/
theorem ofDigitChars_cons_eq (c : Char) (s : List Char) :
    Nat.ofDigitChars 10 (c :: s) 0 = 10 ^ s.length * (c.toNat - '0'.toNat) + Nat.ofDigitChars 10 s 0 := by
  rw [Nat.ofDigitChars_cons, Nat.ofDigitChars_eq_ofDigitChars_zero, Nat.mul_zero, Nat.zero_add]

theorem ofDigitChars_lt {s : List Char} (h : ∀ c ∈ s, c.isDigit = true) :
    Nat.ofDigitChars 10 s 0 < 10 ^ s.length := by
  induction s with
  | nil => simp
  | cons c s ih =>
    obtain ⟨digit, rest⟩ := List.forall_mem_cons.1 h
    have value : c.toNat - '0'.toNat ≤ 9 := by
      have le : c.toNat ≤ '9'.toNat := (Char.isDigit_iff_toNat.1 digit).2
      have nine : '9'.toNat = '0'.toNat + 9 := rfl
      omega
    have front := Nat.mul_le_mul_left (10 ^ s.length) value
    have behind := ih rest
    rw [ofDigitChars_cons_eq, List.length_cons, Nat.pow_succ]
    omega

theorem le_ofDigitChars {c : Char} {s : List Char} (digit : c.isDigit = true) (ne : c ≠ '0') :
    10 ^ s.length ≤ Nat.ofDigitChars 10 (c :: s) 0 := by
  have value : 1 ≤ c.toNat - '0'.toNat := by
    have ge : '0'.toNat ≤ c.toNat := (Char.isDigit_iff_toNat.1 digit).1
    have other : c.toNat ≠ '0'.toNat := fun same => ne (Char.toNat_inj.1 same)
    omega
  rw [ofDigitChars_cons_eq]
  exact Nat.le_add_right_of_le (Nat.le_mul_of_pos_right _ value)

/-- A text is a run of zeros and what stands behind it. -/
theorem exists_replicate_append_dropWhile (s : List Char) :
    ∃ n, s = List.replicate n '0' ++ s.dropWhile (· = '0') := by
  refine ⟨(s.takeWhile (· = '0')).length, ?_⟩
  have zeros : s.takeWhile (· = '0') = List.replicate (s.takeWhile (· = '0')).length '0' :=
    List.eq_replicate_iff.2 ⟨rfl, fun c mem => of_decide_eq_true (List.all_eq_true.1 List.all_takeWhile c mem)⟩
  rw [← zeros, List.takeWhile_append_dropWhile]

/-- Zeros in front do not count. -/
theorem ofDigitChars_dropWhile (s : List Char) :
    Nat.ofDigitChars 10 (s.dropWhile (· = '0')) 0 = Nat.ofDigitChars 10 s 0 := by
  obtain ⟨n, eq⟩ := exists_replicate_append_dropWhile s
  conv => rhs; rw [eq]
  rw [Nat.ofDigitChars_append, Nat.ofDigitChars_replicate_zero, Nat.mul_zero]

theorem ofDecimal_zero (negative : Bool) (scale : Int) : ofDecimal negative 0 scale = .finite negative .zero := by
  have positive : 2 * 0 < 10 ^ (-scale).toNat := Nat.pow_pos (by decide)
  rw [ofDecimal_eq, Nat.zero_mul, Nat.zero_mul, Magnitude.nearest?_of_lt positive, Option.elim_some]

theorem two_mul_smallestPerOne_le {n : Nat} (h : 324 ≤ n) : 2 * smallestPerOne ≤ 10 ^ n := by
  obtain ⟨k, least, le⟩ : ∃ k, 2 * smallestPerOne ≤ Nat.pow 10 k ∧ k ≤ n := ⟨324, by decide +kernel, h⟩
  rw [Nat.pow_eq] at least
  exact Nat.le_trans least (Nat.pow_le_pow_right (by decide) le)

theorem exists_le_mul_smallestPerOne {n : Nat} (h : 309 ≤ n) :
    ∃ power, 2099 ≤ power ∧ 2 ^ power ≤ 10 ^ n * smallestPerOne := by
  obtain ⟨power, k, large, least, le⟩ :
      ∃ power k, 2099 ≤ power ∧ Nat.pow 2 power ≤ Nat.pow 10 k * smallestPerOne ∧ k ≤ n :=
    ⟨2099, 309, Nat.le_refl _, by decide +kernel, h⟩
  simp only [Nat.pow_eq] at least
  exact ⟨power, large, Nat.le_trans least (Nat.mul_le_mul_right _ (Nat.pow_le_pow_right (by decide) le))⟩

/-- A decimal below `10 ^ -324` is zero. -/
theorem ofDecimal_of_small {digits length : Nat} {scale : Int} (h : digits < 10 ^ length)
    (small : length + scale < -323) (negative : Bool) :
    ofDecimal negative digits scale = .finite negative .zero := by
  have below : 2 * (digits * 10 ^ scale.toNat * smallestPerOne) < 10 ^ (-scale).toNat := by
    obtain ⟨rest, eq, places⟩ : ∃ rest, (-scale).toNat = length + rest ∧ 324 ≤ rest :=
      ⟨(-scale).toNat - length, by omega, by omega⟩
    have unscaled : scale.toNat = 0 := by omega
    rw [unscaled, eq, Nat.pow_zero, Nat.mul_one]
    calc 2 * (digits * smallestPerOne)
      _ = digits * (2 * smallestPerOne) := Nat.mul_left_comm 2 digits smallestPerOne
      _ ≤ digits * 10 ^ rest := Nat.mul_le_mul_left digits (two_mul_smallestPerOne_le places)
      _ < 10 ^ length * 10 ^ rest := Nat.mul_lt_mul_of_pos_right h (Nat.pow_pos (by decide))
      _ = 10 ^ (length + rest) := (Nat.pow_add 10 length rest).symm
  rw [ofDecimal_eq, Magnitude.nearest?_of_lt below, Option.elim_some]

/-- A decimal of `10 ^ 309` or more is infinite. -/
theorem ofDecimal_of_large {digits length : Nat} {scale : Int} (h : 10 ^ length ≤ digits)
    (large : 309 ≤ length + scale) (negative : Bool) :
    ofDecimal negative digits scale = .infinite negative := by
  obtain ⟨rest, eq, places⟩ : ∃ rest, length + scale.toNat = rest + (-scale).toNat ∧ 309 ≤ rest :=
    ⟨length + scale.toNat - (-scale).toNat, by omega, by omega⟩
  obtain ⟨power, huge, least⟩ := exists_le_mul_smallestPerOne places
  have above : 2 ^ power * 10 ^ (-scale).toNat ≤ digits * 10 ^ scale.toNat * smallestPerOne := by
    calc 2 ^ power * 10 ^ (-scale).toNat
      _ ≤ 10 ^ rest * smallestPerOne * 10 ^ (-scale).toNat := Nat.mul_le_mul_right _ least
      _ = 10 ^ length * 10 ^ scale.toNat * smallestPerOne := by
        rw [Nat.mul_right_comm, ← Nat.pow_add, ← Nat.pow_add, eq]
      _ ≤ digits * 10 ^ scale.toNat * smallestPerOne :=
        Nat.mul_le_mul_right _ (Nat.mul_le_mul_right _ h)
  have positive : 0 < 10 ^ (-scale).toNat := Nat.pow_pos (by decide)
  rw [ofDecimal_eq, Magnitude.nearest?_of_le positive huge above, Option.elim_none]

/-- Digits are read as the decimal that they are, at least if none stands behind place 1075. -/
theorem ofDigits_eq_ofDecimal {digits : List Char} {scale : Int} (h : ∀ c ∈ digits, c.isDigit = true)
    (places : -1075 ≤ scale) (negative : Bool) :
    ofDigits negative digits scale = ofDecimal negative (Nat.ofDigitChars 10 digits 0) scale := by
  rw [← ofDigitChars_dropWhile]
  have isDigit : ∀ c ∈ digits.dropWhile (· = '0'), c.isDigit = true := fun c mem =>
    h c ((List.dropWhile_sublist _).subset mem)
  have lead : ∀ c ∈ (digits.dropWhile (· = '0')).head?, c ≠ '0' := by
    intro c mem
    have := List.head?_dropWhile_not (fun c => decide (c = '0')) digits
    rw [Option.mem_def.1 mem] at this
    simpa using this
  simp only [ofDigits]
  generalize digits.dropWhile (· = '0') = ds at isDigit lead ⊢
  cases ds with
  | nil => simp [ofDecimal_zero]
  | cons c ds =>
    by_cases small : ((c :: ds).length : Int) + scale < -323
    · rw [if_pos (.inr small), ofDecimal_of_small (ofDigitChars_lt isDigit) small]
    · rw [if_neg (not_or.2 ⟨List.cons_ne_nil c ds, small⟩)]
      by_cases large : 309 < ((c :: ds).length : Int) + scale
      · have value := le_ofDigitChars (s := ds) (isDigit c (by simp)) (lead c (by simp))
        rw [if_pos large, ofDecimal_of_large value (by simp only [List.length_cons] at large; omega)]
      · have all : (c :: ds).length ≤ (((c :: ds).length : Int) + scale + 1075).toNat := by omega
        rw [if_neg large, List.drop_eq_nil_of_le all, List.take_of_length_le all]
        simp

end Number

end Spreadsheet
