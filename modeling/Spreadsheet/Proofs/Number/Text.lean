import Mathlib.Data.List.TakeWhile
import Spreadsheet.Number.Shortest
import Spreadsheet.Proofs.Number.Nearest

/-!
# The text of a number is read back

A number is written with the first decimal that is tried and reads back as the number, or in full.  So it is read back
if the text of a decimal is read as that decimal.  The text is positional and has lost the zeros at the end of its
fraction; what is left has the same value.

* `Decimal.exists_text_eq` — what the text of a decimal looks like.
* `readDecimal?_text` — the text of a decimal is read as that decimal.
* `isNearest_shortest` — the decimal that is written for a magnitude is nearest to no other one.
* `read?_text` — the text of a number is read as that number.
-/

namespace Spreadsheet.Number

open Text

/-! ### The text of a decimal -/

theorem isDigit_numeral (n : Nat) : ∀ c ∈ numeral n, c.isDigit = true :=
  fun _ mem => Nat.isDigit_of_mem_toDigits (by decide) (by decide) mem

/-- The digits of a fraction and the zeros at its end. -/
theorem exists_append_replicate (s : List Char) :
    ∃ n, s = (s.reverse.dropWhile (· = '0')).reverse ++ List.replicate n '0' := by
  obtain ⟨n, eq⟩ := exists_replicate_append_dropWhile s.reverse
  refine ⟨n, ?_⟩
  conv => lhs; rw [← s.reverse_reverse, eq]
  rw [List.reverse_append, List.reverse_replicate]

/-- The text of a decimal is digits and perhaps a point with further digits, and these have the value of the
decimal. -/
theorem Decimal.exists_text_eq (d : Decimal) :
    ∃ whole fraction : List Char, whole ≠ [] ∧ (∀ c ∈ whole ++ fraction, c.isDigit = true) ∧
      d.text = whole ++ (if fraction = [] then [] else '.' :: fraction) ∧
      fraction.length ≤ (-d.scale).toNat ∧
      Nat.ofDigitChars 10 (whole ++ fraction) 0 * 10 ^ (-d.scale).toNat =
        d.digits * 10 ^ d.scale.toNat * 10 ^ fraction.length := by
  let places := (-d.scale).toNat
  let digits := numeral (d.digits * Nat.pow 10 d.scale.toNat)
  let padded := List.replicate (places + 1 - digits.length) '0' ++ digits
  let cut := padded.length - places
  let fraction := ((padded.drop cut).reverse.dropWhile (· = '0')).reverse
  have long : places < padded.length := by
    simp only [padded, List.length_append, List.length_replicate]
    omega
  have isDigit : ∀ c ∈ padded, c.isDigit = true := by
    intro c mem
    rcases List.mem_append.1 mem with zero | mem
    · rw [List.eq_of_mem_replicate zero]
      rfl
    · exact isDigit_numeral _ c mem
  have value : Nat.ofDigitChars 10 padded 0 = d.digits * 10 ^ d.scale.toNat := by
    simp only [padded, digits, numeral, Nat.ofDigitChars_append, Nat.ofDigitChars_replicate_zero, Nat.mul_zero,
      Nat.pow_eq]
    exact Nat.ofDigitChars_toDigits (by decide) (by decide)
  have behind : padded.length - cut = places := Nat.sub_sub_self (Nat.le_of_lt long)
  obtain ⟨zeros, eq⟩ := exists_append_replicate (padded.drop cut)
  have whole : padded = padded.take cut ++ fraction ++ List.replicate zeros '0' := by
    rw [List.append_assoc, ← eq, List.take_append_drop]
  have length : fraction.length + zeros = places := by
    have := congrArg List.length eq
    rw [List.length_drop, behind, List.length_append, List.length_replicate] at this
    exact this.symm
  refine ⟨padded.take cut, fraction, ?_, fun c mem => isDigit c ?_, ?_, by omega, ?_⟩
  · intro empty
    have := congrArg List.length empty
    rw [List.length_take, List.length_nil] at this
    omega
  · rw [whole]
    exact List.mem_append_left _ mem
  · show (if (padded.drop cut).reverse.dropWhile (· = '0') = [] then padded.take cut
      else padded.take cut ++ '.' :: fraction) = _
    by_cases empty : (padded.drop cut).reverse.dropWhile (· = '0') = []
    · rw [if_pos empty, if_pos (by simp only [fraction, empty, List.reverse_nil]), List.append_nil]
    · rw [if_neg empty, if_neg (by simpa only [fraction, List.reverse_eq_nil_iff] using empty)]
  · rw [whole, Nat.ofDigitChars_append, Nat.ofDigitChars_replicate_zero] at value
    have split : 10 ^ (-d.scale).toNat = 10 ^ zeros * 10 ^ fraction.length := by
      rw [← Nat.pow_add, Nat.add_comm zeros, length]
    rw [split, ← value, ← Nat.mul_assoc, Nat.mul_comm (Nat.ofDigitChars 10 _ 0)]

/-! ### Reading it -/

theorem splitDigits_of_forall {s : List Char} (h : ∀ c ∈ s, c.isDigit = true) : splitDigits s = (s, []) := by
  rw [splitDigits, List.takeWhile_eq_self_iff.2 h, List.dropWhile_eq_nil_iff.2 h]

theorem splitDigits_append_point {s : List Char} (h : ∀ c ∈ s, c.isDigit = true) (t : List Char) :
    splitDigits (s ++ '.' :: t) = (s, '.' :: t) := by
  have point : ('.' : Char).isDigit = false := by decide
  rw [splitDigits, List.takeWhile_append_of_pos h, List.dropWhile_append_of_pos h,
    List.takeWhile_cons_of_neg (by simp [point]), List.dropWhile_cons_of_neg (by simp [point]), List.append_nil]

/-- The text of a decimal is read as that decimal. -/
theorem readDecimal?_text {d : Decimal} (places : -1075 ≤ d.scale) (negative : Bool) :
    readDecimal? negative d.text = some (ofDecimal negative d.digits d.scale) := by
  obtain ⟨whole, fraction, ne, isDigit, text, length, value⟩ := d.exists_text_eq
  obtain ⟨wholeDigits, fractionDigits⟩ := List.forall_mem_append.1 isDigit
  have same : ofDecimal negative (Nat.ofDigitChars 10 (whole ++ fraction) 0) (-fraction.length) =
      ofDecimal negative d.digits d.scale := by
    refine ofDecimal_congr ?_ negative
    have unscaled : (-(fraction.length : Int)).toNat = 0 := by omega
    rw [unscaled, Nat.pow_zero, Nat.mul_one, value, Int.neg_neg, Int.toNat_natCast]
  have digits : whole ++ fraction ≠ [] := List.append_ne_nil_of_left_ne_nil ne fraction
  have read : ofDigits negative (whole ++ fraction) (0 - fraction.length) =
      ofDecimal negative d.digits d.scale := by
    rw [ofDigits_eq_ofDecimal isDigit (by omega), Int.zero_sub, same]
  rw [text, readDecimal?]
  by_cases point : fraction = []
  · subst point
    rw [if_pos rfl, List.append_nil, splitDigits_of_forall wholeDigits]
    simp only [splitFraction, if_neg digits, readExponent?, Option.map_some, read]
  · rw [if_neg point, splitDigits_append_point wholeDigits]
    simp only [splitFraction, splitDigits_of_forall fractionDigits, if_neg digits, readExponent?, Option.map_some, read]

/-! ### The decimal that is written -/

/-- A whole multiple of the smallest positive number, in decimal digits. -/
theorem ofDecimal_mul_pow {k : Nat} (h : Nat.pow 5 k * smallestPerOne = Nat.pow 10 k) (n : Nat) (negative : Bool) :
    ofDecimal negative (n * Nat.pow 5 k) (-(k : Int)) =
      (Magnitude.nearest? n 1).elim (.infinite negative) (.finite negative) := by
  simp only [Nat.pow_eq] at h ⊢
  have unscaled : (-(k : Int)).toNat = 0 := by omega
  have cross : n * 5 ^ k * 10 ^ (-(k : Int)).toNat * smallestPerOne * 1 = n * 10 ^ k := by
    rw [unscaled, Nat.pow_zero, Nat.mul_one, Nat.mul_one, Nat.mul_assoc, h]
  have positive : 0 < 10 ^ k := Nat.pow_pos (by decide)
  rw [ofDecimal_eq, Int.neg_neg, Int.toNat_natCast, Magnitude.nearest?_congr positive (by decide) cross]

/-- A magnitude with all its digits is nearest to no other magnitude. -/
theorem isNearest_exact (m : Magnitude) : isNearest m (exact m) = true := by
  rw [exact]
  generalize places : (1074 : Nat) = k
  have scale : (-1074 : Int) = -k := by
    rw [← places]
    rfl
  have product : Nat.pow 5 k * smallestPerOne = Nat.pow 10 k := by
    subst places
    decide +kernel
  refine decide_eq_true ?_
  rw [scale]
  exact (ofDecimal_mul_pow product _ false).trans (by rw [Magnitude.nearest?_self]; rfl)

/-- The decimal that is written for a magnitude is nearest to no other one. -/
theorem isNearest_shortest (m : Magnitude) : isNearest m (shortest m) = true := by
  rw [shortest]
  cases found : (List.range 17).findSome? fun n =>
    (neighbours m (leadingPower m - (n + 1 : Nat))).find? (isNearest m) with
  | none => exact isNearest_exact m
  | some d =>
    obtain ⟨n, -, first⟩ := List.exists_of_findSome?_eq_some found
    exact List.find?_some first

theorem le_leadingPower (m : Magnitude) : -323 ≤ leadingPower m := by
  have least (binary : Int) (h : -1074 ≤ binary) : -323 ≤ binary * 30103 / 100000 + 1 := by omega
  have power := least ((m.mantissa * Nat.pow 2 m.exponent).log2 - 1074) (by omega)
  rw [leadingPower]
  dsimp only
  split
  · exact power
  · omega

theorem le_scale_shortest (m : Magnitude) : -1075 ≤ (shortest m).scale := by
  rw [shortest]
  cases found : (List.range 17).findSome? fun n =>
    (neighbours m (leadingPower m - (n + 1 : Nat))).find? (isNearest m) with
  | none => exact (by decide : (-1075 : Int) ≤ -1074)
  | some d =>
    obtain ⟨n, range, first⟩ := List.exists_of_findSome?_eq_some found
    have least := le_leadingPower m
    have few := List.mem_range.1 range
    have scale : d.scale = leadingPower m - (n + 1 : Nat) := by
      have mem := List.mem_of_find?_eq_some first
      simp only [neighbours] at mem
      split at mem <;> simp only [List.mem_cons, List.not_mem_nil, or_false] at mem <;>
        rcases mem with rfl | rfl <;> rfl
    rw [Option.getD_some, scale]
    omega

/-! ### Numbers -/

/-- The text of a number begins with a digit behind its sign. -/
theorem splitSign_text (d : Decimal) : splitSign d.text = (false, d.text) := by
  obtain ⟨whole, fraction, ne, isDigit, text, -⟩ := d.exists_text_eq
  obtain ⟨c, whole, rfl⟩ := List.exists_cons_of_ne_nil ne
  have digit : c.isDigit = true := isDigit c (by simp)
  rw [text, List.cons_append, splitSign]
  · rintro s eq
    rw [(List.cons.inj eq).1] at digit
    exact absurd digit (by decide)
  · rintro s eq
    rw [(List.cons.inj eq).1] at digit
    exact absurd digit (by decide)

/-- The sign of a number does not matter for its rounding. -/
theorem ofDecimal_sign {digits : Nat} {scale : Int} {m : Magnitude}
    (h : ofDecimal false digits scale = .finite false m) (negative : Bool) :
    ofDecimal negative digits scale = .finite negative m := by
  rw [ofDecimal_eq] at h ⊢
  generalize Magnitude.nearest? _ _ = rounded at h ⊢
  cases rounded with
  | none => simp at h
  | some m' =>
    cases h
    rfl

/-- The text of a number is read as that number. -/
theorem read?_text (n : Number) : read? n.text = some n := by
  cases n with
  | nan => decide +kernel
  | infinite negative => cases negative <;> decide +kernel
  | finite negative m =>
    have nearest : ofDecimal false (shortest m).digits (shortest m).scale = .finite false m :=
      of_decide_eq_true (isNearest_shortest m)
    have read : readDecimal? negative (shortest m).text = some (.finite negative m) := by
      rw [readDecimal?_text (le_scale_shortest m), ofDecimal_sign nearest]
    cases negative with
    | false =>
      rw [text, if_neg (by decide), read?, splitSign_text]
      simp only [read, Option.some_or]
    | true =>
      rw [text, if_pos rfl, read?, splitSign]
      simp only [read, Option.some_or]

theorem text_ne_nil (n : Number) : n.text ≠ [] := by
  intro empty
  have read := read?_text n
  have nothing : read? [] = none := by decide +kernel
  rw [empty, nothing] at read
  cases read

/-- A number is written in digits, a sign, a point and the letters of three words. -/
theorem mem_text (n : Number) : ∀ c ∈ n.text, c.isDigit = true ∨ c ∈ "-.Nainf".toList := by
  have decimal (d : Decimal) : ∀ c ∈ d.text, c.isDigit = true ∨ c ∈ "-.Nainf".toList := by
    intro c mem
    obtain ⟨whole, fraction, -, isDigit, text, -⟩ := d.exists_text_eq
    rw [text] at mem
    rcases List.mem_append.1 mem with front | behind
    · exact .inl (isDigit c (List.mem_append_left _ front))
    · split at behind
      · simp at behind
      · rcases List.mem_cons.1 behind with rfl | digit
        · exact .inr (by decide)
        · exact .inl (isDigit c (List.mem_append_right _ digit))
  intro c mem
  cases n with
  | nan => exact .inr ((by decide : "NaN".toList ⊆ "-.Nainf".toList) mem)
  | infinite negative =>
    have words : "-inf".toList ++ "inf".toList ⊆ "-.Nainf".toList := by decide
    rw [text] at mem
    split at mem
    · exact .inr (words (List.mem_append_left _ mem))
    · exact .inr (words (List.mem_append_right _ mem))
  | finite negative m =>
    rw [text] at mem
    split at mem
    · rcases List.mem_cons.1 mem with rfl | behind
      · exact .inr (by decide)
      · exact decimal _ c behind
    · exact decimal _ c mem

end Spreadsheet.Number
