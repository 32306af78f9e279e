import Spreadsheet.Proofs.Formula.Relocation
import Spreadsheet.Proofs.Formula.Surroundings

/-!
# Formulas put together

Two formulas with an operator between them, or one formula in brackets, have the tokens of their parts.  A sign is not
among the operators, for it could belong to the exponent of a number in front, and neither is a comparison, for it could
become one of two characters.  The other operators and the brackets are pieces of their own wherever they stand; so the
pieces of the parts are found again, and they join into the same lexemes.  These are read in other surroundings, where
they make the same tokens, but for the commas that become separators of arguments.

* `Divides` — a character that is always a piece of its own and ends what stands in front of it.
* `Lexes.divided`, `Lexes.opening` — the lexemes of texts that are put together.
* `tokenize_divided`, `tokenize_enclosed` — their tokens.
* `tokenize_compositional` — both together.
-/

namespace Spreadsheet.Formula

/-! ### Lexemes of texts that are put together -/

/-- A text without broken pieces, whose pieces join into these lexemes. -/
structure Lexes (body : List Char) (ls : List Lexeme) : Prop where
  separate : Separate (pieces body)
  gathered : gather [] (pieces body) = some ls

theorem Lexes.proper {body : List Char} {ls : List Lexeme} (h : Lexes body ls) : ∀ l ∈ ls, l.Proper :=
  proper_of_gather h.separate.formed (.inl rfl) h.gathered

theorem lexes_nil : Lexes [] [] := by
  refine ⟨?_, ?_⟩
  · rw [pieces_nil]
    trivial
  · rw [pieces_nil]
    rfl

/-- Pieces that keep apart and join into lexemes are those of their text. -/
theorem lexes_flatMap_text {ps : List Piece} {ls : List Lexeme} (apart : Separate ps) (gathered : gather [] ps = some ls) :
    Lexes (ps.flatMap Piece.text) ls := by
  refine ⟨?_, ?_⟩
  · rwa [pieces_flatMap_text apart]
  · rwa [pieces_flatMap_text apart]

/-- A character that is a piece of its own whatever stands around it: nothing takes it in, it takes nothing in, and an
operand in front of it ends there. -/
structure Divides (c : Char) (p : Piece) (l : Lexeme) : Prop where
  formed : p.Formed
  text : p.text = [c]
  apart : c ∉ ['"', '\x27', ' ', '=', '>']
  absorbs : ∀ d, p.absorbs d = false
  ender : p.ender? = some l
  free : ∀ held, joins held p = false

theorem divides_operator {c : Char} (h : c ∈ ['*', '/', '^', '&']) :
    Divides c (.operator c none) (.operator c none) := by
  simp only [List.mem_cons, List.not_mem_nil, or_false] at h
  rcases h with rfl | rfl | rfl | rfl
  all_goals exact ⟨by simp [Piece.Formed, operators], rfl, by decide, fun _ => rfl, rfl, fun _ => rfl⟩

theorem divides_comma : Divides ',' (.separator false) (.separator false) :=
  ⟨trivial, rfl, by decide, fun _ => rfl, rfl, fun _ => rfl⟩

theorem divides_closing : Divides ')' (.closing false) (.closing false) :=
  ⟨trivial, rfl, by decide, fun _ => rfl, rfl, fun _ => rfl⟩

section

variable {c : Char} {p : Piece} {l : Lexeme} {s t : List Char} {ls ms : List Lexeme}

/-- The pieces around a dividing one join as they do alone. -/
theorem Divides.gather (h : Divides c p l) {held : List Char} {ps rest : List Piece}
    (front : Formula.gather held ps = some ls) (behind : Formula.gather [] rest = some ms) :
    Formula.gather held (ps ++ p :: rest) = some (ls ++ l :: ms) := by
  induction ps generalizing held ls with
  | nil =>
    cases front
    rw [List.nil_append, gather_of_completes (h.free held), completes?_of_ender h.ender, behind]
    simp
  | cons piece ps ih =>
    rw [List.cons_append]
    cases joined : joins held piece with
    | true =>
      rw [gather_of_joins joined] at front ⊢
      exact ih front
    | false =>
      rw [gather_of_completes joined] at front ⊢
      obtain ⟨done, completed, front⟩ := Option.bind_eq_some_iff.1 front
      obtain ⟨more, gathered, rfl⟩ := Option.map_eq_some_iff.1 front
      rw [completed, ih gathered]
      simp

/-- Two texts with a dividing character between them have their own lexemes. -/
theorem Lexes.divided (first : Lexes s ls) (h : Divides c p l) (second : Lexes t ms) :
    Lexes (s ++ c :: t) (ls ++ l :: ms) := by
  have apart : Separate (pieces s ++ p :: pieces t) := by
    refine separate_append.2 ⟨first.separate, ⟨h.formed, fun d _ => h.absorbs d, second.separate⟩, ?_⟩
    intro q _
    rw [List.flatMap_cons, h.text]
    exact Piece.ends_cons h.apart q _
  have lexes := lexes_flatMap_text apart (h.gather first.gathered second.gathered)
  rwa [List.flatMap_append, List.flatMap_cons, text_pieces, text_pieces, h.text] at lexes

/-- A parenthesis, perhaps behind the name of a function, is one lexeme in front of the others. -/
theorem Lexes.opening {name : List Char} (letters : ∀ c ∈ name, c.isAlpha = true) (h : Lexes s ls) :
    Lexes (name ++ '(' :: s) (.opening (parenOpener name.reverse) :: ls) := by
  have plain : Separate (name.map Piece.plain) :=
    separate_plain fun c mem => .inl (isPlain_of_isAlpha (letters c mem))
  have apart : Separate (name.map Piece.plain ++ .parenOpening :: pieces s) := by
    refine separate_append.2 ⟨plain, ⟨trivial, fun _ _ => rfl, h.separate⟩, ?_⟩
    intro q _
    exact Piece.ends_cons (by decide) q _
  have gathered : Formula.gather [] (name.map Piece.plain ++ .parenOpening :: pieces s) =
      some (.opening (parenOpener name.reverse) :: ls) := by
    rw [gather_nil_held (held_plain [] name), flatMap_text_plain, gather_of_completes rfl, h.gathered]
    rfl
  have lexes := lexes_flatMap_text apart gathered
  rwa [List.flatMap_append, List.flatMap_cons, text_pieces, flatMap_text_plain] at lexes

end

/-! ### Tokens of texts that are put together -/

/-- The operators of one character that are never a sign and never part of a comparison, and the comma. -/
def dividers : List Char := ['*', '/', '^', '&', ',']

variable {options : Options} {x y : List Char} {X Y : List Token}

/-- Outside of all subexpressions such an operator makes an infix operator, whatever stands in front of it. -/
theorem exists_divides {op : Char} (h : op ∈ dividers) :
    ∃ piece l, Divides op piece l ∧ ∀ p : Progress, p.nesting.items = [] →
      p.read options l = .ok (p.emit ⟨[op], .infixOperator⟩) := by
  simp only [dividers, List.mem_cons, List.not_mem_nil, or_false] at h
  rcases h with rfl | rfl | rfl | rfl | rfl
  iterate 4 exact ⟨_, _, divides_operator (by simp), fun _ _ => rfl⟩
  refine ⟨_, _, divides_comma, fun p closed => ?_⟩
  rw [Progress.read, separatorToken_false, Nesting.innermost?, closed]
  rfl

/-- Two formulas with an operator between them have the tokens of both. -/
theorem tokenize_divided (hx : tokenize options ('=' :: x) = .ok X) (hy : tokenize options ('=' :: y) = .ok Y)
    {op : Char} (operator : op ∈ dividers) :
    tokenize options ('=' :: (x ++ op :: y)) = .ok (X ++ ⟨[op], .infixOperator⟩ :: Y) := by
  obtain ⟨apart, ls, p, gathered, first, closed, rfl⟩ := tokenize_eq_ok_iff.1 hx
  obtain ⟨apart', ms, q, gathered', second, closed', rfl⟩ := tokenize_eq_ok_iff.1 hy
  obtain ⟨piece, l, divides, reads⟩ := @exists_divides options op operator
  have lexes' : Lexes y ms := ⟨apart', gathered'⟩
  have lexes := Lexes.divided ⟨apart, gathered⟩ divides lexes'
  obtain ⟨r, run, items, tokens⟩ :=
    Progress.exists_readAll_divided first closed (reads p closed) rfl lexes'.proper second
  exact tokenize_eq_ok_iff.2 ⟨lexes.separate, _, r, lexes.gathered, run, items.trans closed', tokens⟩

/-- A formula in parentheses, perhaps behind the name of a function, has the tokens of the formula between two more. -/
theorem tokenize_enclosed (hx : tokenize options ('=' :: x) = .ok X) (deep : depth X < options.maxDepth)
    {name : List Char} (letters : ∀ c ∈ name, c.isAlpha = true) :
    let opener := parenOpener name.reverse
    tokenize options ('=' :: (name ++ '(' :: (x ++ [')']))) =
      .ok (opener.token :: withCommas (Token.commaRole (some opener.token.kind)) X ++ [.closerOf opener.bracket]) := by
  intro opener
  obtain ⟨apart, ls, q, gathered, inner, closed, rfl⟩ := tokenize_eq_ok_iff.1 hx
  have lexes' : Lexes x ls := ⟨apart, gathered⟩
  have lexes := (lexes'.divided divides_closing lexes_nil).opening letters
  have round : opener.bracket ≠ .array := by
    simp only [opener, parenOpener]
    split
    · simp
    · simp
  obtain ⟨r, run, items, tokens⟩ := Progress.exists_readAll_enclosed round lexes'.proper inner closed deep
  exact tokenize_eq_ok_iff.2 ⟨lexes.separate, _, r, lexes.gathered, run, items, tokens⟩

/-- **Splitting is compositional.** Nothing that stands in front or behind changes the tokens of a formula: not an
operator, except that a sign might belong to a number in front of it, and not a parenthesis, if one more may be opened.
In a function call the commas that stand in no subexpression of the formula separate arguments. -/
theorem tokenize_compositional (hx : tokenize options ('=' :: x) = .ok X)
    (hy : tokenize options ('=' :: y) = .ok Y) :
    (∀ op ∈ dividers, tokenize options ('=' :: (x ++ op :: y)) = .ok (X ++ ⟨[op], .infixOperator⟩ :: Y)) ∧
    (depth X + 1 ≤ options.maxDepth →
      tokenize options ('=' :: '(' :: (x ++ [')'])) =
        .ok (⟨['('], .subexpression .paren .opening⟩ :: X ++ [⟨[')'], .subexpression .paren .closing⟩]) ∧
      ∀ name : List Char, name ≠ [] → (∀ c ∈ name, c.isAlpha = true) →
        tokenize options ('=' :: (name ++ '(' :: (x ++ [')']))) =
          .ok (⟨name ++ ['('], .subexpression .function .opening⟩ :: withCommas .separator X ++
            [⟨[')'], .subexpression .function .closing⟩])) := by
  refine ⟨fun op operator => tokenize_divided hx hy operator, fun deep => ⟨?_, fun name ne letters => ?_⟩⟩
  · have enclosed : tokenize options ('=' :: '(' :: (x ++ [')'])) =
        .ok (⟨['('], .subexpression .paren .opening⟩ :: withCommas .union X ++
          [⟨[')'], .subexpression .paren .closing⟩]) :=
      @tokenize_enclosed options x X hx deep [] (by simp)
    rwa [withCommas_union] at enclosed
  · have enclosed := tokenize_enclosed hx deep letters
    simpa [parenOpener, ne, Opener.token, Token.commaRole, Token.closerOf] using enclosed

/-- A union of which one part is a union in parentheses, and a sign with the beginning of a number behind it: in a call
only the outer comma separates arguments. -/
theorem tokenize_compositional_union :
    let options : Options := { maxDepth := 2 }
    ∃ X Y, tokenize options "=A1,-(B1,2)".toList = .ok X ∧ tokenize options "=+1E".toList = .ok Y ∧
      depth X + 1 ≤ options.maxDepth ∧
      tokenize options "=A1,-(B1,2)*+1E".toList = .ok (X ++ ⟨['*'], .infixOperator⟩ :: Y) ∧
      tokenize options "=(A1,-(B1,2))".toList =
        .ok (⟨['('], .subexpression .paren .opening⟩ :: X ++ [⟨[')'], .subexpression .paren .closing⟩]) ∧
      tokenize options "=SUM(A1,-(B1,2))".toList =
        .ok [⟨"SUM(".toList, .subexpression .function .opening⟩, ⟨"A1".toList, .operand .range⟩,
          ⟨[','], .separator .argument⟩, ⟨['-'], .prefixOperator⟩, ⟨['('], .subexpression .paren .opening⟩,
          ⟨"B1".toList, .operand .range⟩, ⟨[','], .infixOperator⟩, ⟨['2'], .operand .number⟩,
          ⟨[')'], .subexpression .paren .closing⟩, ⟨[')'], .subexpression .function .closing⟩] := by
  intro options
  have hx : tokenize options ('=' :: "A1,-(B1,2)".toList) =
      .ok [⟨"A1".toList, .operand .range⟩, ⟨[','], .infixOperator⟩, ⟨['-'], .prefixOperator⟩,
        ⟨['('], .subexpression .paren .opening⟩, ⟨"B1".toList, .operand .range⟩, ⟨[','], .infixOperator⟩,
        ⟨['2'], .operand .number⟩, ⟨[')'], .subexpression .paren .closing⟩] :=
    toOption_eq_some_iff.1 (by decide +kernel)
  have hy : tokenize options ('=' :: "+1E".toList) =
      .ok [⟨['+'], .prefixOperator⟩, ⟨"1E".toList, .operand .range⟩] :=
    toOption_eq_some_iff.1 (by decide +kernel)
  obtain ⟨divided, enclosed⟩ := tokenize_compositional hx hy
  obtain ⟨paren, call⟩ := enclosed (by decide +kernel)
  refine ⟨_, _, hx, hy, by decide +kernel, divided '*' (by decide), paren, ?_⟩
  have letters : ∀ c ∈ "SUM".toList, c.isAlpha = true := List.all_eq_true.1 (by decide +kernel)
  refine (call "SUM".toList (by decide) letters).trans (congrArg Except.ok ?_)
  decide +kernel

end Spreadsheet.Formula
