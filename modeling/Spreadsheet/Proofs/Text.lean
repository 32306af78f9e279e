import Mathlib.Data.List.DropRight
import Spreadsheet.Text.Blank

/-!
# Trimmed texts and lines

* `Trimmed` — a text with no blank at either end; `trimmed_trim` and `trim_of_trimmed` say that trimming gives such a
  text and leaves it as it is.
* `trim_append_cons`, `trim_append_of_blank` — trimming around a character that is no blank, and around a text between
  blanks; `exists_eq_append_trim`: what is trimmed off.
* `eq_false_of_mem_split` — what stands between the ends of lines holds no end of a line.
* `split_append`, `intercalate_split` — the parts of two texts with a dividing character in between, and of one text.
* `split_lines` — lines that are ended one by one are found again, with an empty one behind the last.
-/

namespace Spreadsheet.Text

/-! ### Blanks at the ends -/

/-- The text begins and ends with no blank. -/
structure Trimmed (s : List Char) : Prop where
  head : ∀ c ∈ s.head?, isBlank c = false
  last : ∀ c ∈ s.getLast?, isBlank c = false

theorem dropWhile_of_head {α : Type} {p : α → Bool} {s : List α} (h : ∀ c ∈ s.head?, p c = false) :
    s.dropWhile p = s := by
  cases s with
  | nil => rfl
  | cons c s => exact List.dropWhile_cons_of_neg (Bool.eq_false_iff.1 (h c rfl))

theorem head_dropWhile (p : Char → Bool) (s : List Char) : ∀ c ∈ (s.dropWhile p).head?, p c = false := by
  intro c mem
  have first := List.head?_dropWhile_not p s
  rwa [Option.mem_def.1 mem] at first

/-- A trimmed text is left as it is. -/
theorem trim_of_trimmed {s : List Char} (h : Trimmed s) : trim s = s := by
  rw [trim, dropWhile_of_head h.head, trimEnd, dropWhile_of_head, List.reverse_reverse]
  rw [List.head?_reverse]
  exact h.last

theorem trimmed_trim (s : List Char) : Trimmed (trim s) := by
  obtain ⟨front, eq⟩ : ∃ front, s.dropWhile isBlank = trim s ++ front := by
    refine ⟨((s.dropWhile isBlank).reverse.takeWhile isBlank).reverse, ?_⟩
    rw [trim, trimEnd, ← List.reverse_append, List.takeWhile_append_dropWhile, List.reverse_reverse]
  constructor
  · intro c mem
    refine head_dropWhile isBlank s c ?_
    rw [eq]
    exact List.mem_head?_append_of_mem_head? mem
  · intro c mem
    rw [trim, trimEnd, List.getLast?_reverse] at mem
    exact head_dropWhile isBlank _ c mem

/-- Trimming adds nothing. -/
theorem mem_of_mem_trim {s : List Char} {c : Char} (h : c ∈ trim s) : c ∈ s := by
  rw [trim, trimEnd, List.mem_reverse] at h
  have behind := List.mem_reverse.1 ((List.dropWhile_sublist _).mem h)
  exact (List.dropWhile_sublist _).mem behind

theorem trim_cons_blank {c : Char} (blank : isBlank c = true) (s : List Char) : trim (c :: s) = trim s := by
  rw [trim, List.dropWhile_cons_of_pos blank, trim]

/-- A text of no blanks at all is trimmed. -/
theorem trimmed_of_forall {s : List Char} (h : ∀ c ∈ s, isBlank c = false) : Trimmed s :=
  ⟨fun c mem => h c (List.mem_of_mem_head? mem), fun c mem => h c (List.mem_of_mem_getLast? mem)⟩

/-- Two trimmed texts stay trimmed when something stands between them. -/
theorem Trimmed.append {s t : List Char} (hs : Trimmed s) (ht : Trimmed t) (ne : s ≠ []) (ne' : t ≠ [])
    (between : List Char) : Trimmed (s ++ between ++ t) := by
  constructor
  · rw [List.append_assoc, List.head?_append_of_ne_nil _ ne]
    exact hs.head
  · rw [List.getLast?_append_of_ne_nil _ ne']
    exact ht.last

theorem isBlank_of_isDigit {c : Char} (h : c.isDigit = true) : isBlank c = false := by
  obtain ⟨ge, le⟩ := Char.isDigit_iff_toNat.1 h
  have zero : '0'.toNat = 48 := rfl
  have nine : '9'.toNat = 57 := rfl
  simp only [isBlank, blankRanges, List.any_cons, List.any_nil, Bool.or_false, Bool.or_eq_false_iff,
    Bool.and_eq_false_iff, decide_eq_false_iff_not]
  omega

theorem isBlank_of_isAlpha {c : Char} (h : c.isAlpha = true) : isBlank c = false := by
  have letter : (decide (c.val ≥ 'A'.val ∧ c.val ≤ 'Z'.val) || (c.val ≥ 'a'.val && c.val ≤ 'z'.val)) = true := h
  simp only [Bool.or_eq_true, Bool.and_eq_true, decide_eq_true_eq, ge_iff_le, UInt32.le_iff_toNat_le] at letter
  have code : c.val.toNat = c.toNat := rfl
  simp only [isBlank, blankRanges, List.any_cons, List.any_nil, Bool.or_false, Bool.or_eq_false_iff,
    Bool.and_eq_false_iff, decide_eq_false_iff_not, ← code]
  have upper : ('A'.val.toNat = 65) ∧ 'Z'.val.toNat = 90 ∧ 'a'.val.toNat = 97 ∧ 'z'.val.toNat = 122 := by decide
  omega

/-! ### Trimming -/

theorem trimEnd_append_cons {c : Char} (plain : isBlank c = false) (s t : List Char) :
    trimEnd (s ++ c :: t) = s ++ c :: trimEnd t := by
  have stop : ¬isBlank c = true := by simp [plain]
  rw [trimEnd, trimEnd, List.reverse_append, List.reverse_cons, List.append_assoc, List.dropWhile_append]
  split
  · next none =>
    rw [List.isEmpty_iff.1 none, List.singleton_append, List.dropWhile_cons_of_neg stop]
    simp
  · simp

/-- A character that is no blank stays where it is, and both sides are trimmed outwards. -/
theorem trim_append_cons {c : Char} (plain : isBlank c = false) (s t : List Char) :
    trim (s ++ c :: t) = s.dropWhile isBlank ++ c :: trimEnd t := by
  rw [trim, List.dropWhile_append]
  split
  · next none =>
    rw [List.isEmpty_iff.1 none, List.dropWhile_cons_of_neg (by simp [plain])]
    exact trimEnd_append_cons plain [] t
  · exact trimEnd_append_cons plain _ t

theorem trim_eq_nil_iff {s : List Char} : trim s = [] ↔ ∀ c ∈ s, isBlank c = true := by
  rw [trim, trimEnd, List.reverse_eq_nil_iff, List.dropWhile_eq_nil_iff]
  constructor
  · intro h
    have none : s.dropWhile isBlank = [] := by
      by_contra some
      obtain ⟨c, t, eq⟩ := List.exists_cons_of_ne_nil some
      have first := head_dropWhile isBlank s c (by simp [eq])
      rw [h c (by simp [eq])] at first
      cases first
    exact List.dropWhile_eq_nil_iff.1 none
  · intro h c mem
    rw [List.dropWhile_eq_nil_iff.2 h] at mem
    cases mem

/-- What is trimmed off are blanks. -/
theorem exists_eq_append_trim (s : List Char) :
    ∃ front back, s = front ++ trim s ++ back ∧ (∀ c ∈ front, isBlank c = true) ∧ ∀ c ∈ back, isBlank c = true := by
  refine ⟨s.takeWhile isBlank, ((s.dropWhile isBlank).reverse.takeWhile isBlank).reverse, ?_, ?_, ?_⟩
  · rw [List.append_assoc, trim, trimEnd, ← List.reverse_append, List.takeWhile_append_dropWhile, List.reverse_reverse,
      List.takeWhile_append_dropWhile]
  · exact fun c mem => List.all_eq_true.1 List.all_takeWhile c mem
  · exact fun c mem => List.all_eq_true.1 List.all_takeWhile c (List.mem_reverse.1 mem)

/-- Blanks around a text are trimmed off. -/
theorem trim_append_of_blank {front back : List Char} (first : ∀ c ∈ front, isBlank c = true)
    (last : ∀ c ∈ back, isBlank c = true) (s : List Char) : trim (front ++ s ++ back) = trim s := by
  have behind (t : List Char) : trimEnd (t ++ back) = trimEnd t := by
    rw [trimEnd, trimEnd, List.reverse_append, List.dropWhile_append_of_pos (by simpa using last)]
  rw [trim, List.append_assoc, List.dropWhile_append_of_pos first, List.dropWhile_append]
  split
  · next none =>
    rw [trim, List.isEmpty_iff.1 none, List.dropWhile_eq_nil_iff.2 last]
  · rw [behind, trim]

theorem trim_dropWhile (s : List Char) : trim (s.dropWhile isBlank) = trim s := by
  rw [trim, List.dropWhile_idempotent, trim]

theorem trim_trimEnd (s : List Char) : trim (trimEnd s) = trim s := by
  have back : ∀ c ∈ (s.reverse.takeWhile isBlank).reverse, isBlank c = true := fun c mem =>
    List.all_eq_true.1 List.all_takeWhile c (List.mem_reverse.1 mem)
  have whole : s = [] ++ trimEnd s ++ (s.reverse.takeWhile isBlank).reverse := by
    rw [List.nil_append, trimEnd, ← List.reverse_append, List.takeWhile_append_dropWhile, List.reverse_reverse]
  conv => rhs; rw [whole, trim_append_of_blank (by simp) back]

/-- A character that is no blank is not trimmed off. -/
theorem mem_trim {s : List Char} {c : Char} (plain : isBlank c = false) (mem : c ∈ s) : c ∈ trim s := by
  obtain ⟨before, behind, rfl⟩ := List.append_of_mem mem
  rw [trim_append_cons plain]
  simp

/-! ### Lines -/

/-- No part of a text holds a character that divides it. -/
theorem eq_false_of_mem_split {p : Char → Bool} {s : List Char} : ∀ part ∈ split p s, ∀ c ∈ part, p c = false := by
  induction s with
  | nil => simp
  | cons d s ih =>
    rw [split_cons]
    by_cases divides : p d = true
    · rw [if_pos divides]
      exact List.forall_mem_cons.2 ⟨by simp, ih⟩
    · rw [if_neg divides]
      have plain : p d = false := Bool.eq_false_iff.2 divides
      cases eq : split p s with
      | nil => exact absurd eq (split_ne_nil p s)
      | cons first rest =>
        obtain ⟨here, behind⟩ := List.forall_mem_cons.1 (eq ▸ ih)
        exact List.forall_mem_cons.2 ⟨List.forall_mem_cons.2 ⟨plain, here⟩, behind⟩

/-- A character that divides a text stands between the parts in front of it and those behind it. -/
theorem split_append {p : Char → Bool} {c : Char} (divides : p c = true) (s t : List Char) :
    split p (s ++ c :: t) = split p s ++ split p t := by
  induction s with
  | nil => rw [List.nil_append, split_cons, if_pos divides, split_nil, List.singleton_append]
  | cons d s ih =>
    rw [List.cons_append, split_cons, split_cons, ih]
    split
    · rfl
    · cases parts : split p s with
      | nil => exact absurd parts (split_ne_nil p s)
      | cons first rest => rfl

/-- The parts of a text with the dividing character between them are the text. -/
theorem intercalate_split (s : List Char) (divider : Char) : [divider].intercalate (split (· = divider) s) = s := by
  induction s with
  | nil => rfl
  | cons c s ih =>
    rw [split_cons]
    cases parts : split (· = divider) s with
    | nil => exact absurd parts (split_ne_nil _ s)
    | cons first rest =>
      rw [parts] at ih
      by_cases divides : c = divider
      · rw [if_pos (decide_eq_true divides), List.intercalate_cons_cons, ih, divides]
        rfl
      · rw [if_neg (by simpa using divides)]
        cases rest with
        | nil => simpa using ih
        | cons next rest =>
          rw [List.intercalate_cons_cons, List.append_assoc] at ih ⊢
          rw [List.cons_append, ih]

/-- There is one part more than there are dividing characters. -/
theorem length_split (c : Char) (s : List Char) : (split (· = c) s).length = s.count c + 1 := by
  induction s with
  | nil => rfl
  | cons d s ih =>
    rw [split_cons]
    by_cases same : d = c
    · rw [if_pos (decide_eq_true same), List.length_cons, ih, same, List.count_cons_self]
    · rw [if_neg (by simpa using same), List.count_cons_of_ne same, ← ih]
      cases parts : split (· = c) s with
      | nil => exact absurd parts (split_ne_nil _ s)
      | cons first rest => rfl

/-- If the last part of a text is empty, the text is, or a character that divides it stands at its end. -/
theorem of_getLast?_split {p : Char → Bool} {s : List Char} (h : (split p s).getLast? = some []) :
    s = [] ∨ ∃ c ∈ s.getLast?, p c = true := by
  induction s with
  | nil => exact .inl rfl
  | cons d s ih =>
    refine .inr ?_
    -- What holds of the rest holds of the whole unless the rest is empty.
    have behind (ends : s ≠ []) (last : (split p s).getLast? = some []) : ∃ c ∈ (d :: s).getLast?, p c = true := by
      obtain ⟨c, mem, divides⟩ := (ih last).resolve_left ends
      exact ⟨c, by rw [List.getLast?_cons, Option.mem_def.1 mem]; rfl, divides⟩
    rw [split_cons] at h
    by_cases divides : p d = true
    · rw [if_pos divides, List.getLast?_cons_of_ne_nil (split_ne_nil p s)] at h
      by_cases empty : s = []
      · exact ⟨d, by rw [empty]; rfl, divides⟩
      · exact behind empty h
    · rw [if_neg divides] at h
      cases parts : split p s with
      | nil => exact absurd parts (split_ne_nil p s)
      | cons first rest =>
        rw [parts] at h
        cases rest with
        | nil => simp at h
        | cons next rest =>
          have more : s ≠ [] := by
            rintro rfl
            simp at parts
          refine behind more ?_
          rw [parts]
          simpa only [List.getLast?_cons_cons] using h

/-- Lines that are ended one by one are found again, with an empty one behind the last. -/
theorem split_lines {p : Char → Bool} {ending : Char} (ends : p ending = true) {lines : List (List Char)}
    (h : ∀ line ∈ lines, ∀ c ∈ line, p c = false) :
    split p (lines.flatMap (· ++ [ending])) = lines ++ [[]] := by
  induction lines with
  | nil => rfl
  | cons line lines ih =>
    obtain ⟨first, rest⟩ := List.forall_mem_cons.1 h
    rw [List.flatMap_cons, List.append_assoc, List.singleton_append, split_append_cons _ first ends, ih rest,
      List.cons_append]

end Spreadsheet.Text
