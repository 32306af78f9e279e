/-!
# Blank characters

Which characters count as blank is decided by the White_Space property: twenty-five characters in ten
ranges. Trimming takes blanks off both ends of a text, `words` are its maximal runs without a blank, and
`split` cuts a text at every character of a class and keeps empty parts.
-/

namespace Spreadsheet.Text

/-- The characters with the White_Space property, as closed ranges of code points, ascending and apart. -/
def blankRanges : List (Nat × Nat) :=
  [(0x09, 0x0D), (0x20, 0x20), (0x85, 0x85), (0xA0, 0xA0), (0x1680, 0x1680), (0x2000, 0x200A),
    (0x2028, 0x2029), (0x202F, 0x202F), (0x205F, 0x205F), (0x3000, 0x3000)]

/-- Whether a character has the White_Space property. -/
def isBlank (c : Char) : Bool :=
  blankRanges.any fun r => r.1 ≤ c.toNat && c.toNat ≤ r.2

/-- The text without the blanks at its end. -/
def trimEnd (s : List Char) : List Char :=
  (s.reverse.dropWhile isBlank).reverse

/-- The text without the blanks at its two ends. -/
def trim (s : List Char) : List Char :=
  trimEnd (s.dropWhile isBlank)

/-- The parts of a text between the characters of a class, empty parts included. -/
def split (p : Char → Bool) (s : List Char) : List (List Char) :=
  s.foldr
    (fun c parts =>
      if p c then [] :: parts
      else
        match parts with
        | [] => [[c]]
        | part :: rest => (c :: part) :: rest)
    [[]]

/-- The maximal runs of characters that are not blank. -/
def words (s : List Char) : List (List Char) :=
  (split isBlank s).filter fun part => !part.isEmpty

/-- The table holds the twenty-five characters of the property. -/
example : (blankRanges.map fun r => r.2 + 1 - r.1).sum = 25 := by decide

@[simp] theorem split_nil (p : Char → Bool) : split p [] = [[]] := rfl

theorem split_cons (p : Char → Bool) (c : Char) (s : List Char) :
    split p (c :: s) =
      if p c then [] :: split p s
      else
        match split p s with
        | [] => [[c]]
        | part :: rest => (c :: part) :: rest := rfl

/-- There is always at least one part. -/
theorem split_ne_nil (p : Char → Bool) (s : List Char) : split p s ≠ [] := by
  cases s with
  | nil => simp
  | cons c s =>
    rw [split_cons]
    split
    · simp
    · split <;> simp

/-- A text without such a character is its only part. -/
theorem split_of_forall {p : Char → Bool} {s : List Char} (h : ∀ c ∈ s, p c = false) :
    split p s = [s] := by
  induction s with
  | nil => rfl
  | cons c s ih =>
    rw [List.forall_mem_cons] at h
    rw [split_cons, ih h.2, h.1]
    rfl

/-- What stands before the first such character is the first part. -/
theorem split_append_cons {p : Char → Bool} {s : List Char} {c : Char} (t : List Char)
    (h : ∀ d ∈ s, p d = false) (hc : p c = true) : split p (s ++ c :: t) = s :: split p t := by
  induction s with
  | nil => simp [split_cons, hc]
  | cons d s ih =>
    rw [List.forall_mem_cons] at h
    rw [List.cons_append, split_cons, ih h.2, h.1]
    rfl

/-- A zero-width space is no blank. -/
example : isBlank '\u200b' = false := by decide

end Spreadsheet.Text
