import Spreadsheet.Formula.Piece

/-!
# The shape of pieces and the places between them

Cutting a formula is described here without the cutting: which texts a piece of each kind may have, and which
character may not stand right behind a piece because it would have become part of it.

* `Piece.Formed` and `Piece.absorbs` — the shape of a complete piece, and the characters it takes in.
* `firstPiece_of_formed` / `formed_of_firstPiece` — a text begins with a complete piece exactly if it is that
  piece's text with no character behind it that the piece takes in.
* `Separate` — a list of complete pieces that keep apart.  `pieces_flatMap_text` and `separate_pieces`: such
  lists are exactly what cutting a text gives when nothing in it is broken.

So a text can be put together from the texts of pieces, and a part of it exchanged, with an eye on the seams
only.
-/

namespace Spreadsheet.Formula

/-! ### Quoted runs -/

/-- A text in which every delimiter is written twice. -/
def double (delimiter : Char) (s : List Char) : List Char :=
  s.flatMap fun c => if c = delimiter then [c, c] else [c]

theorem double_cons (delimiter c : Char) (s : List Char) :
    double delimiter (c :: s) =
      (if c = delimiter then [c, c] else [c]) ++ double delimiter s := by
  rw [double, List.flatMap_cons]
  rfl

/-- A quoted run is closed by the first delimiter that is not doubled. -/
theorem closeQuote?_double (delimiter : Char) (inner run rest : List Char)
    (single : rest.head? ≠ some delimiter) :
    closeQuote? delimiter run (double delimiter inner ++ delimiter :: rest) =
      some (run.reverse ++ double delimiter inner ++ [delimiter], rest) := by
  induction inner generalizing run with
  | nil =>
    cases rest with
    | nil => simp [double, closeQuote?]
    | cons d rest =>
      have other : d ≠ delimiter := fun h => single (by simp [h])
      simp [double, closeQuote?, other]
  | cons c inner ih =>
    rw [double_cons]
    by_cases same : c = delimiter
    · subst same
      have step := ih (c :: c :: run)
      simp only [if_true, List.cons_append, List.nil_append] at step ⊢
      rw [closeQuote?, if_pos rfl, if_pos rfl, step]
      simp
    · have step := ih (c :: run)
      -- the search looks one character ahead, so the rest must be seen to be a `cons`
      obtain ⟨d, s, eq⟩ : ∃ d s, double delimiter inner ++ delimiter :: rest = d :: s := by
        cases h : double delimiter inner ++ delimiter :: rest with
        | nil => simp at h
        | cons d s => exact ⟨d, s, rfl⟩
      rw [if_neg same, List.append_assoc, List.singleton_append, eq, closeQuote?, if_neg same,
        ← eq, step]
      simp

/-- Whatever is found closed is a doubled text between delimiters, and the search went as far as it could. -/
theorem double_of_closeQuote? {delimiter : Char} {run s text rest : List Char}
    (h : closeQuote? delimiter run s = some (text, rest)) :
    ∃ inner, text = run.reverse ++ double delimiter inner ++ [delimiter] ∧
      rest.head? ≠ some delimiter := by
  fun_induction closeQuote? delimiter run s with
  | case1 => simp at h
  | case2 run =>
    obtain ⟨rfl, rfl⟩ := by simpa using h
    exact ⟨[], by simp [double], by simp⟩
  | case3 => simp at h
  | case4 run s ih =>
    obtain ⟨inner, rfl, single⟩ := ih h
    exact ⟨delimiter :: inner, by simp [double_cons], single⟩
  | case5 run d s other =>
    obtain ⟨rfl, rfl⟩ := by simpa using h
    exact ⟨[], by simp [double], by simpa using other⟩
  | case6 run c d s other ih =>
    obtain ⟨inner, rfl, single⟩ := ih h
    exact ⟨c :: inner, by simp [double_cons, other], single⟩

/-! ### Bracketed parts, error codes and runs of spaces -/

theorem bracketed?_append (inner rest : List Char) (plain : ']' ∉ inner) :
    bracketed? (inner ++ ']' :: rest) = some (inner ++ [']'], rest) := by
  have all : ∀ c ∈ inner, decide (c ≠ ']') = true := fun c hc =>
    decide_eq_true fun same => plain (same ▸ hc)
  simp only [bracketed?, List.dropWhile_append_of_pos all, List.takeWhile_append_of_pos all]
  simp

theorem plain_of_bracketed? {s text rest : List Char} (h : bracketed? s = some (text, rest)) :
    ∃ inner, ']' ∉ inner ∧ text = inner ++ [']'] := by
  simp only [bracketed?] at h
  split at h
  · simp at h
  · next close behind eq =>
    obtain ⟨rfl, rfl⟩ := Prod.mk.inj (Option.some.inj h)
    have last : close = ']' := by
      have := List.head?_dropWhile_not (· ≠ ']') s
      rw [eq] at this
      simpa using this
    refine ⟨s.takeWhile (· ≠ ']'), fun mem => ?_, by rw [last]⟩
    simpa using List.all_eq_true.1 List.all_takeWhile _ mem

/-- No error code begins another one. -/
theorem errorCodes_apart :
    ∀ code ∈ errorCodes, ∀ other ∈ errorCodes, code <+: other → code = other := by
  decide

/-- Whatever stands behind it, an error code is read as itself. -/
theorem errorCode?_append {code : List Char} (listed : code ∈ errorCodes) (rest : List Char) :
    errorCode? (code ++ rest) = some (code, rest) := by
  cases found : errorCodes.find? (·.isPrefixOf (code ++ rest)) with
  | none =>
    have := List.find?_eq_none.1 found code listed
    simp at this
  | some other =>
    have begins : other <+: code ++ rest := by simpa using List.find?_some found
    have same : other = code := by
      rcases List.prefix_or_prefix_of_prefix begins (List.prefix_append code rest) with h | h
      · exact errorCodes_apart _ (List.mem_of_find?_eq_some found) _ listed h
      · exact (errorCodes_apart _ listed _ (List.mem_of_find?_eq_some found) h).symm
    rw [errorCode?, found, same]
    simp

theorem takeWhile_spaces (n : Nat) {rest : List Char} (other : rest.head? ≠ some ' ') :
    (List.replicate n ' ' ++ rest).takeWhile (· = ' ') = List.replicate n ' ' ∧
      (List.replicate n ' ' ++ rest).dropWhile (· = ' ') = rest := by
  have all : ∀ c ∈ List.replicate n ' ', decide (c = ' ') = true := fun c hc =>
    decide_eq_true (List.eq_of_mem_replicate hc)
  rw [List.takeWhile_append_of_pos all, List.dropWhile_append_of_pos all]
  cases rest with
  | nil => simp
  | cons c rest =>
    have : c ≠ ' ' := fun h => other (by simp [h])
    simp [this]

/-! ### Complete pieces -/

/-- The characters that begin something else than an operator or a plain character. -/
def marks : List Char := ['"', '\x27', '[', '#', ' ', '(', '{', ')', '}', ';', ',']

/-- The texts that a complete piece of each kind may have. -/
def Piece.Formed : Piece → Prop
  | .plain c => c ∉ marks ∧ c ∉ operators
  | .quotedText text => ∃ inner, text = '"' :: double '"' inner ++ ['"']
  | .quotedLink text => ∃ inner, text = '\x27' :: double '\x27' inner ++ ['\x27']
  | .bracketed text => ∃ inner, ']' ∉ inner ∧ text = '[' :: inner ++ [']']
  | .errorCode text => text ∈ errorCodes
  | .operator first none => first ∈ operators
  | .operator first (some second) => (first, second) ∈ comparisons
  | .spaces _ | .parenOpening | .braceOpening | .closing _ | .separator _ => True
  | .broken _ _ => False

theorem Piece.Formed.mem_operators {first : Char} {second : Option Char}
    (h : (Piece.operator first second).Formed) : first ∈ operators := by
  cases second with
  | none => exact h
  | some d =>
    have all : ∀ pair ∈ comparisons, pair.1 ∈ operators := by decide
    exact all _ h

/-- A plus or a minus is never part of a comparison. -/
theorem Piece.Formed.second_eq_none {first : Char} {second : Option Char}
    (h : (Piece.operator first second).Formed) (sign : first = '+' ∨ first = '-') : second = none := by
  cases second with
  | none => rfl
  | some d =>
    have all : ∀ pair ∈ comparisons, ¬(pair.1 = '+' ∨ pair.1 = '-') := by decide
    exact absurd sign (all _ h)

/-- Whether a character right behind a piece becomes part of it. -/
def Piece.absorbs : Piece → Char → Bool
  | .quotedText _, c => c = '"'
  | .quotedLink _, c => c = '\x27'
  | .spaces _, c => c = ' '
  | .operator first none, c => comparisons.contains (first, c)
  | _, _ => false

/-- Whether a piece may stand in front of a text. -/
def Piece.Ends (p : Piece) (behind : List Char) : Prop :=
  ∀ c ∈ behind.head?, p.absorbs c = false

theorem Piece.Ends.head_ne {p : Piece} {behind : List Char} {c : Char} (h : p.Ends behind)
    (taken : p.absorbs c = true) : behind.head? ≠ some c := by
  intro same
  have := h c same
  rw [taken] at this
  exact absurd this (by decide)

@[simp] theorem Piece.ends_nil (p : Piece) : p.Ends [] := by
  simp [Piece.Ends]

theorem Piece.ends_congr {p : Piece} {s t : List Char} (same : s.head? = t.head?) :
    p.Ends s ↔ p.Ends t := by
  rw [Piece.Ends, Piece.Ends, same]

theorem Piece.ends_append {p : Piece} {s : List Char} (ne : s ≠ []) (t : List Char) :
    p.Ends (s ++ t) ↔ p.Ends s := by
  obtain ⟨c, s, rfl⟩ := List.exists_cons_of_ne_nil ne
  exact ends_congr rfl

/-- The characters that become part of something in front of them. -/
theorem mem_of_absorbs {p : Piece} {c : Char} (h : p.absorbs c = true) :
    c ∈ ['"', '\x27', ' ', '=', '>'] := by
  cases p with
  | quotedText | quotedLink | spaces =>
    obtain rfl : c = _ := by simpa [Piece.absorbs] using h
    decide
  | operator first second =>
    cases second with
    | none =>
      have all : ∀ pair ∈ comparisons, pair.2 ∈ ['"', '\x27', ' ', '=', '>'] := by decide
      exact all (first, c) (by simpa [Piece.absorbs] using h)
    | some d => simp [Piece.absorbs] at h
  | _ => simp [Piece.absorbs] at h

theorem Piece.ends_cons {c : Char} (apart : c ∉ ['"', '\x27', ' ', '=', '>']) (p : Piece)
    (s : List Char) : p.Ends (c :: s) := by
  intro d hd
  obtain rfl : c = d := by simpa using hd
  exact Bool.eq_false_iff.2 fun absorbs => apart (mem_of_absorbs absorbs)

theorem firstPiece_of_operator {c : Char} (h : c ∈ operators) (s : List Char) :
    firstPiece c s = operatorPiece c s := by
  simp only [operators, List.mem_cons, List.not_mem_nil, or_false] at h
  rcases h with rfl | rfl | rfl | rfl | rfl | rfl | rfl | rfl | rfl | rfl <;> rfl

theorem firstPiece_of_plain {c : Char} (mark : c ∉ marks) (operator : c ∉ operators)
    (s : List Char) : firstPiece c s = (.plain c, s) := by
  simp only [marks, List.mem_cons, List.not_mem_nil, or_false, not_or] at mark
  obtain ⟨h1, h2, h3, h4, h5, h6, h7, h8, h9, h10, h11⟩ := mark
  unfold firstPiece
  split <;> first | contradiction | exact if_neg operator

/-- A complete piece is what a text begins with if the next character does not belong to it. -/
theorem firstPiece_of_formed {p : Piece} {c : Char} {s rest : List Char} (formed : p.Formed)
    (whole : c :: s = p.text ++ rest) (ends : p.Ends rest) : firstPiece c s = (p, rest) := by
  cases p with
  | plain d =>
    obtain ⟨rfl, rfl⟩ := by simpa [Piece.text] using whole
    exact firstPiece_of_plain formed.1 formed.2 _
  | quotedText text =>
    obtain ⟨inner, rfl⟩ := formed
    obtain ⟨rfl, rfl⟩ := by simpa [Piece.text] using whole
    have single : rest.head? ≠ some '"' := ends.head_ne (by simp [Piece.absorbs])
    have found := closeQuote?_double '"' inner ['"'] rest single
    simp only [firstPiece, found, closed]
    simp
  | quotedLink text =>
    obtain ⟨inner, rfl⟩ := formed
    obtain ⟨rfl, rfl⟩ := by simpa [Piece.text] using whole
    have single : rest.head? ≠ some '\x27' := ends.head_ne (by simp [Piece.absorbs])
    have found := closeQuote?_double '\x27' inner ['\x27'] rest single
    simp only [firstPiece, found, closed]
    simp
  | bracketed text =>
    obtain ⟨inner, plain, rfl⟩ := formed
    obtain ⟨rfl, rfl⟩ := by simpa [Piece.text] using whole
    have found := bracketed?_append ('[' :: inner) rest (by simpa using plain)
    simp only [List.cons_append] at found
    simp only [firstPiece, found, closed, List.cons_append]
  | errorCode text =>
    obtain ⟨t, rfl⟩ : ∃ t, text = '#' :: t := by
      have all : ∀ code ∈ errorCodes, code.head? = some '#' := by decide
      have first := all text formed
      cases text with
      | nil => simp at first
      | cons d t =>
        obtain rfl : d = '#' := by simpa using first
        exact ⟨t, rfl⟩
    obtain ⟨rfl, rfl⟩ := by simpa [Piece.text] using whole
    have found := errorCode?_append formed rest
    simp only [List.cons_append] at found
    simp only [firstPiece, found, closed]
  | spaces more =>
    simp only [Piece.text, List.replicate_succ, List.cons_append, List.cons.injEq] at whole
    obtain ⟨rfl, rfl⟩ := whole
    have other : rest.head? ≠ some ' ' := ends.head_ne (by simp [Piece.absorbs])
    obtain ⟨run, behind⟩ := takeWhile_spaces more other
    simp only [firstPiece, run, behind, List.length_replicate]
  | operator first second =>
    cases second with
    | none =>
      obtain ⟨rfl, rfl⟩ := by simpa [Piece.text] using whole
      rw [firstPiece_of_operator formed]
      cases s with
      | nil => rfl
      | cons d s =>
        have apart : (c, d) ∉ comparisons := by
          have := ends d (by simp)
          simpa [Piece.absorbs] using this
        rw [operatorPiece, if_neg apart]
    | some d =>
      obtain ⟨rfl, rfl⟩ := by simpa [Piece.text] using whole
      rw [firstPiece_of_operator formed.mem_operators]
      exact if_pos formed
  | parenOpening | braceOpening =>
    obtain ⟨rfl, rfl⟩ := by simpa [Piece.text] using whole
    rfl
  | closing brace | separator brace =>
    obtain ⟨rfl, rfl⟩ := by simpa [Piece.text] using whole
    cases brace <;> rfl
  | broken => exact formed.elim

theorem closed_eq_iff {make : List Char → Piece} {cause : Broken} {s rest : List Char} {p : Piece}
    {found : Option (List Char × List Char)} (unbroken : ∀ cause t, p ≠ .broken cause t) :
    closed make cause s found = (p, rest) ↔ ∃ text, found = some (text, rest) ∧ make text = p := by
  rcases found with _ | ⟨text, behind⟩
  · simp only [closed, Prod.mk.injEq, reduceCtorEq, false_and, exists_false, iff_false, not_and]
    intro same
    exact absurd same.symm (unbroken _ _)
  · constructor
    · intro h
      obtain ⟨rfl, rfl⟩ := Prod.mk.inj h
      exact ⟨text, rfl, rfl⟩
    · rintro ⟨t, h, rfl⟩
      cases h
      rfl

/-- An operator takes in the second character of a comparison. -/
theorem formed_of_operatorPiece {c : Char} {s : List Char} (operator : c ∈ operators) :
    (operatorPiece c s).1.Formed ∧ (operatorPiece c s).1.Ends (operatorPiece c s).2 := by
  cases s with
  | nil => exact ⟨operator, Piece.ends_nil _⟩
  | cons d s =>
    rw [operatorPiece]
    split
    · next pair => exact ⟨pair, fun e _ => rfl⟩
    · next pair =>
      refine ⟨operator, fun e he => ?_⟩
      obtain rfl : d = e := by simpa using he
      simpa [Piece.absorbs] using pair

/-- What a text is found to begin with is complete unless it is broken, and has taken in all it could. -/
theorem formed_of_firstPiece {p : Piece} {c : Char} {s rest : List Char}
    (found : firstPiece c s = (p, rest)) (unbroken : ∀ cause t, p ≠ .broken cause t) :
    p.Formed ∧ p.Ends rest := by
  -- the pieces that end by themselves absorb nothing
  have alone {q : Piece} (h : ∀ d, q.absorbs d = false) : q.Ends rest := fun d _ => h d
  unfold firstPiece at found
  split at found
  · obtain ⟨text, h, rfl⟩ := (closed_eq_iff unbroken).1 found
    obtain ⟨inner, rfl, single⟩ := double_of_closeQuote? h
    refine ⟨⟨inner, by simp⟩, fun d hd => ?_⟩
    exact decide_eq_false fun same => single (same ▸ hd)
  · obtain ⟨text, h, rfl⟩ := (closed_eq_iff unbroken).1 found
    obtain ⟨inner, rfl, single⟩ := double_of_closeQuote? h
    refine ⟨⟨inner, by simp⟩, fun d hd => ?_⟩
    exact decide_eq_false fun same => single (same ▸ hd)
  · obtain ⟨text, h, rfl⟩ := (closed_eq_iff unbroken).1 found
    obtain ⟨inner, plain, rfl⟩ := plain_of_bracketed? h
    refine ⟨?_, alone fun d => rfl⟩
    cases inner with
    | nil => simpa using (bracketed?_eq_some h).1
    | cons d inner =>
      obtain ⟨rfl, -⟩ := by simpa using (bracketed?_eq_some h).1
      exact ⟨inner, by simpa using plain, rfl⟩
  · obtain ⟨text, h, rfl⟩ := (closed_eq_iff unbroken).1 found
    exact ⟨(errorCode?_eq_some h).2, alone fun d => rfl⟩
  · obtain ⟨rfl, rfl⟩ := Prod.mk.inj found
    refine ⟨trivial, fun d hd => ?_⟩
    have := List.head?_dropWhile_not (· = ' ') s
    rw [hd] at this
    simpa [Piece.absorbs] using this
  iterate 6
    · obtain ⟨rfl, rfl⟩ := Prod.mk.inj found
      exact ⟨trivial, alone fun d => rfl⟩
  · next quote link bracket hash space paren brace closing closingBrace semicolon comma =>
    split at found
    · next operator =>
      have := formed_of_operatorPiece (s := s) operator
      rwa [found] at this
    · next operator =>
      obtain ⟨rfl, rfl⟩ := Prod.mk.inj found
      refine ⟨⟨?_, operator⟩, alone fun d => rfl⟩
      simp only [marks, List.mem_cons, List.not_mem_nil, or_false, not_or]
      exact ⟨quote, link, bracket, hash, space, paren, brace, closing, closingBrace, semicolon, comma⟩

/-! ### Lists of pieces that keep apart -/

/-- Complete pieces none of which takes in the beginning of the next one. -/
def Separate : List Piece → Prop
  | [] => True
  | p :: rest => p.Formed ∧ p.Ends (rest.flatMap Piece.text) ∧ Separate rest

theorem Piece.Formed.text_ne_nil {p : Piece} (h : p.Formed) : p.text ≠ [] := by
  cases p with
  | quotedText text | quotedLink text =>
    obtain ⟨inner, rfl⟩ := h
    simp [Piece.text]
  | bracketed text =>
    obtain ⟨inner, -, rfl⟩ := h
    simp [Piece.text]
  | errorCode text =>
    have all : ∀ code ∈ errorCodes, code ≠ [] := by decide
    exact all text h
  | _ => simp [Piece.text]

theorem Separate.text_ne_nil {ps : List Piece} (h : Separate ps) (ne : ps ≠ []) :
    ps.flatMap Piece.text ≠ [] := by
  obtain ⟨p, ps, rfl⟩ := List.exists_cons_of_ne_nil ne
  have := h.1.text_ne_nil
  simp [this]

/-- A complete piece in front of a text that it takes nothing of is cut off first. -/
theorem pieces_text_append {p : Piece} {rest : List Char} (formed : p.Formed) (ends : p.Ends rest) :
    pieces (p.text ++ rest) = p :: pieces rest := by
  obtain ⟨c, s, eq⟩ := List.exists_cons_of_ne_nil formed.text_ne_nil
  have found : firstPiece c (s ++ rest) = (p, rest) :=
    firstPiece_of_formed formed (by rw [eq, List.cons_append]) ends
  rw [eq, List.cons_append, pieces_cons, found]

/-- Pieces that keep apart are cut off in front of any text that the last of them takes nothing of. -/
theorem pieces_flatMap_text_append {ps : List Piece} {rest : List Char} (h : Separate ps)
    (meets : ∀ p ∈ ps.getLast?, p.Ends rest) :
    pieces (ps.flatMap Piece.text ++ rest) = ps ++ pieces rest := by
  induction ps with
  | nil => rfl
  | cons p ps ih =>
    obtain ⟨formed, ends, apart⟩ := h
    have ends' : p.Ends (ps.flatMap Piece.text ++ rest) := by
      by_cases empty : ps = []
      · subst empty
        exact meets p rfl
      · exact (Piece.ends_append (apart.text_ne_nil empty) rest).2 ends
    have meets' : ∀ q ∈ ps.getLast?, q.Ends rest := fun q hq =>
      meets q (by rw [List.getLast?_cons, Option.mem_def.1 hq]; rfl)
    rw [List.flatMap_cons, List.append_assoc, pieces_text_append formed ends', ih apart meets']
    rfl

/-- Cutting finds pieces that keep apart again. -/
theorem pieces_flatMap_text {ps : List Piece} (h : Separate ps) :
    pieces (ps.flatMap Piece.text) = ps := by
  have alone := pieces_flatMap_text_append h fun p _ => p.ends_nil
  simpa using alone

/-- The first pieces of a text keep apart if none of them is broken, and take in nothing of the others. -/
theorem separate_of_pieces {s : List Char} {ps rest : List Piece} (cutting : pieces s = ps ++ rest)
    (unbroken : ∀ cause t, .broken cause t ∉ ps) :
    Separate ps ∧ ∀ p ∈ ps.getLast?, p.Ends (rest.flatMap Piece.text) := by
  induction ps generalizing s with
  | nil => exact ⟨trivial, by simp⟩
  | cons p ps ih =>
    cases s with
    | nil => simp at cutting
    | cons c s =>
      rw [pieces_cons, List.cons_append] at cutting
      obtain ⟨rfl, behind⟩ := List.cons.inj cutting
      obtain ⟨apart, meets⟩ := ih behind fun cause t mem => unbroken cause t (List.mem_cons_of_mem _ mem)
      have found : firstPiece c s = ((firstPiece c s).1, (firstPiece c s).2) := rfl
      have ⟨formed, ends⟩ := formed_of_firstPiece found fun cause t same =>
        unbroken cause t (List.mem_cons.2 (.inl same.symm))
      rw [← text_pieces (firstPiece c s).2, behind, List.flatMap_append] at ends
      by_cases empty : ps = []
      · subst empty
        refine ⟨⟨formed, Piece.ends_nil _, trivial⟩, fun q hq => ?_⟩
        obtain rfl : (firstPiece c s).1 = q := by simpa using hq
        exact ends
      · refine ⟨⟨formed, (Piece.ends_append (apart.text_ne_nil empty) _).1 ends, apart⟩, ?_⟩
        rwa [List.getLast?_cons_of_ne_nil empty]

/-- The pieces of a text keep apart if none of them is broken. -/
theorem separate_pieces (s : List Char) (unbroken : ∀ cause t, .broken cause t ∉ pieces s) :
    Separate (pieces s) :=
  (separate_of_pieces (List.append_nil _).symm unbroken).1

theorem Separate.formed {ps : List Piece} (h : Separate ps) : ∀ p ∈ ps, p.Formed := by
  induction ps with
  | nil => simp
  | cons p ps ih => exact List.forall_mem_cons.2 ⟨h.1, ih h.2.2⟩

end Spreadsheet.Formula
