import Mathlib.Data.Bool.AllAny
import Spreadsheet.Proofs.Formula.Reading

/-!
# Splitting a formula loses nothing but spaces

The text of the tokens of a formula is the formula, except that a run of spaces outside of quotes and brackets
has become one space or none.  What becomes of the spaces is said by `respace`, which reads the characters one
by one and knows nothing of pieces and tokens.

* `respace_flatMap_text` — on pieces that keep apart, `respace` replaces the pieces that are spaces.
* `flatMap_text_of_gather`, `flatMap_value_of_makes` — joining pieces and reading lexemes keep all characters.
* `render_tokenize` — so putting the tokens together again gives the formula with other spacing.
-/

namespace Spreadsheet.Formula

/-! ### Spacing, character by character -/

/-- Where a character of a formula stands: outside of quotes and brackets, perhaps behind a space, or inside of
a part that ends with the character `close`. -/
inductive Region where
  | outside (inRun : Bool)
  | inside (close : Char)
deriving DecidableEq

/-- Where the text goes on behind a character that stands outside and is no space. -/
def Region.after (c : Char) : Region :=
  if c = '"' then .inside '"'
  else if c = '\x27' then .inside '\x27'
  else if c = '[' then .inside ']'
  else .outside false

/-- The text with `gap` for every maximal run of spaces outside of quotes and brackets. A doubled quote ends a
quoted part and begins it again at once, with nothing between. -/
def respace (gap : List Char) : Region → List Char → List Char
  | _, [] => []
  | .inside close, c :: s => c :: respace gap (if c = close then .outside false else .inside close) s
  | .outside inRun, c :: s =>
    if c = ' ' then (if inRun then [] else gap) ++ respace gap (.outside true) s
    else c :: respace gap (.after c) s

/-- Three runs of spaces, of which one is quoted. -/
example : respace [' '] (.outside false) "a  &\"b  \"\"\"  ".toList = "a &\"b  \"\"\" ".toList := by
  decide +kernel

theorem respace_spaces (gap : List Char) (n : Nat) {rest : List Char} (other : rest.head? ≠ some ' ') :
    respace gap (.outside true) (List.replicate n ' ' ++ rest) = respace gap (.outside false) rest := by
  induction n with
  | zero =>
    cases rest with
    | nil => rfl
    | cons c rest =>
      have plain : c ≠ ' ' := fun h => other (by simp [h])
      simp [respace, plain]
  | succ n ih =>
    rw [List.replicate_succ, List.cons_append, respace]
    simpa using ih

/-- Inside of a part all characters stay, up to the one that ends it. -/
theorem respace_inside (gap : List Char) {close : Char} {inner : List Char} (apart : close ∉ inner)
    (rest : List Char) :
    respace gap (.inside close) (inner ++ close :: rest) =
      inner ++ close :: respace gap (.outside false) rest := by
  induction inner with
  | nil => simp [respace]
  | cons c inner ih =>
    obtain ⟨first, behind⟩ := not_or.1 (mt List.mem_cons.2 apart)
    rw [List.cons_append, respace, if_neg (Ne.symm first), ih behind, List.cons_append]

/-- The same for a quoted part, in which the quote stands doubled. -/
theorem respace_double (gap : List Char) {quote : Char} (again : Region.after quote = .inside quote)
    (space : quote ≠ ' ') (inner rest : List Char) :
    respace gap (.inside quote) (double quote inner ++ quote :: rest) =
      double quote inner ++ quote :: respace gap (.outside false) rest := by
  induction inner with
  | nil => simp [double, respace]
  | cons c inner ih =>
    rw [double_cons]
    by_cases same : c = quote
    · subst same
      simp only [if_true, List.cons_append, List.nil_append]
      rw [respace, if_pos rfl, respace, if_neg space, again, ih]
    · simp only [if_neg same, List.cons_append, List.nil_append]
      rw [respace, if_neg same, ih]

/-- Characters that open nothing and are no spaces stay outside. -/
theorem respace_plain (gap : List Char) {t : List Char}
    (plain : ∀ c ∈ t, c ≠ ' ' ∧ Region.after c = .outside false) (rest : List Char) :
    respace gap (.outside false) (t ++ rest) = t ++ respace gap (.outside false) rest := by
  induction t with
  | nil => rfl
  | cons c t ih =>
    obtain ⟨⟨space, after⟩, behind⟩ := List.forall_mem_cons.1 plain
    rw [List.cons_append, respace, if_neg space, after, ih behind, List.cons_append]

/-- A complete piece keeps its characters unless it is a run of spaces, and the text behind it is outside. -/
theorem respace_text_append (gap : List Char) {p : Piece} {rest : List Char} (formed : p.Formed)
    (ends : p.Ends rest) :
    respace gap (.outside false) (p.text ++ rest) =
      p.spaced gap ++ respace gap (.outside false) rest := by
  cases p with
  | quotedText text =>
    obtain ⟨inner, rfl⟩ := formed
    have inside := @respace_double gap '"' (by decide) (by decide) inner rest
    simp [Piece.text, Piece.spaced, respace, Region.after, inside]
  | quotedLink text =>
    obtain ⟨inner, rfl⟩ := formed
    have inside := @respace_double gap '\x27' (by decide) (by decide) inner rest
    simp [Piece.text, Piece.spaced, respace, Region.after, inside]
  | bracketed text =>
    obtain ⟨inner, apart, rfl⟩ := formed
    have inside := respace_inside gap apart rest
    simp [Piece.text, Piece.spaced, respace, Region.after, inside]
  | spaces more =>
    have other : rest.head? ≠ some ' ' := ends.head_ne (by simp [Piece.absorbs])
    rw [Piece.text, List.replicate_succ, List.cons_append, respace, if_pos rfl]
    rw [respace_spaces gap more other]
    rfl
  | errorCode text =>
    have all : ∀ code ∈ errorCodes, code.all fun c => c ≠ ' ' ∧ Region.after c = .outside false := by decide
    exact respace_plain gap (List.all_iff_forall_prop.1 (all text formed)) rest
  | operator first second =>
    have all : ∀ c ∈ operators, c ≠ ' ' ∧ Region.after c = .outside false :=
      List.all_iff_forall_prop.1 (by decide)
    have pairs : ∀ pair ∈ comparisons, pair.1 ∈ operators ∧ pair.2 ∈ operators := by decide
    refine respace_plain gap (fun c hc => all c ?_) rest
    cases second with
    | none =>
      obtain rfl : c = first := by simpa [Piece.text] using hc
      exact formed
    | some d =>
      obtain rfl | rfl : c = first ∨ c = d := by simpa [Piece.text] using hc
      · exact (pairs _ formed).1
      · exact (pairs _ formed).2
  | plain c =>
    obtain ⟨mark, -⟩ := formed
    simp only [marks, List.mem_cons, List.not_mem_nil, or_false, not_or] at mark
    refine respace_plain gap (fun d hd => ?_) rest
    obtain rfl : d = c := by simpa [Piece.text] using hd
    exact ⟨mark.2.2.2.2.1, by simp [Region.after, mark.1, mark.2.1, mark.2.2.1]⟩
  | parenOpening | braceOpening => exact respace_plain gap (by simp [Piece.text]; decide) rest
  | closing brace | separator brace =>
    refine respace_plain gap (fun d hd => ?_) rest
    cases brace <;> (obtain rfl := by simpa [Piece.text] using hd) <;> decide
  | broken => exact formed.elim

theorem respace_flatMap_text (gap : List Char) {ps : List Piece} (h : Separate ps) :
    respace gap (.outside false) (ps.flatMap Piece.text) = ps.flatMap (Piece.spaced gap) := by
  induction ps with
  | nil => rfl
  | cons p ps ih =>
    obtain ⟨formed, ends, rest⟩ := h
    rw [List.flatMap_cons, respace_text_append gap formed ends, ih rest, List.flatMap_cons]

/-! ### Joining and reading keep the characters -/

theorem flatMap_text_heldLexeme (gap held : List Char) :
    (heldLexeme held).flatMap (Lexeme.text gap) = held.reverse := by
  cases held <;> simp [heldLexeme, Lexeme.text]

theorem Piece.spaced_of_joins {held : List Char} {piece : Piece} (h : joins held piece = true)
    (gap : List Char) : piece.spaced gap = piece.text := by
  cases piece <;> first | rfl | simp [joins] at h

/-- What a piece completes has the held characters and its own. -/
theorem flatMap_text_of_completes (gap : List Char) {held : List Char} {piece : Piece}
    {done : List Lexeme} (h : completes? held piece = some done) :
    done.flatMap (Lexeme.text gap) = held.reverse ++ piece.spaced gap := by
  cases piece with
  | quotedText text | errorCode text | braceOpening =>
    by_cases empty : held = []
    · simp only [completes?, if_pos empty, Option.some.injEq] at h
      subst h
      simp [empty, Lexeme.text, Piece.spaced, Piece.text]
    · simp [completes?, empty] at h
  | parenOpening =>
    cases h
    by_cases empty : held = []
    · simp [parenOpener, empty, Lexeme.text, Piece.spaced, Piece.text]
    · simp [parenOpener, empty, Lexeme.text, Piece.spaced, Piece.text]
  | spaces | operator | closing | separator =>
    cases h
    simp [flatMap_text_heldLexeme, Lexeme.text, Piece.spaced, Piece.text]
  | _ => simp [completes?] at h

theorem flatMap_text_of_gather (gap : List Char) {held : List Char} {ps : List Piece}
    {ls : List Lexeme} (h : gather held ps = some ls) :
    ls.flatMap (Lexeme.text gap) = held.reverse ++ ps.flatMap (Piece.spaced gap) := by
  induction ps generalizing held ls with
  | nil =>
    cases h
    rw [flatMap_text_heldLexeme, List.flatMap_nil, List.append_nil]
  | cons piece ps ih =>
    cases joined : joins held piece with
    | true =>
      rw [gather_of_joins joined] at h
      rw [ih h, List.flatMap_cons, Piece.spaced_of_joins joined]
      simp
    | false =>
      rw [gather_of_completes joined] at h
      obtain ⟨done, completed, h⟩ := Option.bind_eq_some_iff.1 h
      obtain ⟨more, gathered, rfl⟩ := Option.map_eq_some_iff.1 h
      rw [List.flatMap_append, flatMap_text_of_completes gap completed, ih gathered]
      simp

/-- What a run of spaces comes back as. -/
def Options.gap (options : Options) : List Char :=
  if options.preserveWhitespace then [' '] else []

theorem flatMap_value_of_makes {options : Options} {ls : List Lexeme} {tokens : List Token}
    (h : List.Forall₂ Lexeme.Makes (ls.filter options.keeps) tokens) :
    tokens.flatMap Token.value = ls.flatMap (Lexeme.text options.gap) := by
  induction ls generalizing tokens with
  | nil =>
    cases h
    rfl
  | cons l ls ih =>
    by_cases keep : options.keeps l = true
    · rw [List.filter_cons_of_pos keep] at h
      cases h with
      | cons makes behind =>
        rw [List.flatMap_cons, List.flatMap_cons, ih behind, makes.value]
        congr 1
        cases l <;> first | rfl | simpa [Options.keeps, Options.gap, Lexeme.text] using keep
    · rw [List.filter_cons_of_neg keep] at h
      obtain ⟨silent, rfl⟩ : options.preserveWhitespace = false ∧ l = .space := by
        simpa [Options.keeps] using keep
      rw [List.flatMap_cons, ih h]
      simp [Lexeme.text, Options.gap, silent]

/-- Tokens of a formula are put together behind the sign that begins it. -/
theorem render_of_ne_literal {tokens : List Token} (ne : tokens ≠ [])
    (kinds : ∀ t ∈ tokens, t.kind ≠ .literal) : render tokens = '=' :: tokens.flatMap Token.value := by
  cases tokens with
  | nil => exact absurd rfl ne
  | cons first rest => exact if_neg (kinds first (by simp))

theorem kind_ne_literal_of_makes {ls : List Lexeme} {tokens : List Token}
    (h : List.Forall₂ Lexeme.Makes ls tokens) : ∀ t ∈ tokens, t.kind ≠ .literal := by
  induction h with
  | nil => simp
  | cons makes _ ih =>
    refine List.forall_mem_cons.2 ⟨?_, ih⟩
    rcases makes.operand_or with ⟨text, -, rfl⟩ | ⟨-, -, other⟩
    · simp [Token.operand]
    · exact other

/-- The tokens of a formula stand for its lexemes. -/
theorem forall₂_makes_of_tokenize {options : Options} {body : List Char} {tokens : List Token}
    (h : tokenize options ('=' :: body) = .ok tokens) :
    ∃ ls, Separate (pieces body) ∧ gather [] (pieces body) = some ls ∧
      List.Forall₂ Lexeme.Makes (ls.filter options.keeps) tokens := by
  obtain ⟨apart, ls, p, gathered, read, -, rfl⟩ := tokenize_eq_ok_iff.1 h
  exact ⟨ls, apart, gathered, Progress.forall₂_makes_start read⟩

/-- A text that does not begin with the sign of a formula is one token. -/
theorem tokenize_literal {options : Options} {c : Char} {s : List Char} (plain : c ≠ '=') :
    tokenize options (c :: s) = .ok [⟨c :: s, .literal⟩] := by
  rw [tokenize]
  · simp
  · intro body same
    exact plain (List.cons.inj same).1

/-- The tokens of a text: none, one literal, or those of a formula. -/
inductive Tokenized (options : Options) : List Char → List Token → Prop
  | nothing : Tokenized options [] []
  | literal {c : Char} {s : List Char} : c ≠ '=' → Tokenized options (c :: s) [⟨c :: s, .literal⟩]
  | formula {body : List Char} {tokens : List Token} : tokenize options ('=' :: body) = .ok tokens →
      Tokenized options ('=' :: body) tokens

theorem tokenized {options : Options} {formula : List Char} {tokens : List Token}
    (h : tokenize options formula = .ok tokens) : Tokenized options formula tokens := by
  cases formula with
  | nil =>
    cases h
    exact .nothing
  | cons c body =>
    by_cases equals : c = '='
    · subst equals
      exact .formula h
    · rw [tokenize_literal equals] at h
      cases h
      exact .literal equals

/-- **Nothing is lost.** If a formula has tokens, putting these together gives the formula with one space or
none for every run of spaces outside of quotes and brackets; any other text comes back as it is. -/
theorem render_tokenize {options : Options} {formula : List Char} {tokens : List Token}
    (h : tokenize options formula = .ok tokens) (ne : tokens ≠ []) :
    (formula.head? ≠ some '=' → render tokens = formula) ∧
      ∀ body, formula = '=' :: body →
        render tokens = '=' :: respace options.gap (.outside false) body := by
  constructor
  · intro plain
    cases tokenized h with
    | nothing => exact absurd rfl ne
    | literal => rfl
    | formula => exact absurd rfl plain
  · rintro body rfl
    obtain ⟨ls, apart, gathered, made⟩ := forall₂_makes_of_tokenize h
    rw [render_of_ne_literal ne (kind_ne_literal_of_makes made), flatMap_value_of_makes made,
      flatMap_text_of_gather options.gap gathered, List.reverse_nil, List.nil_append,
      ← respace_flatMap_text options.gap apart, text_pieces]

/-- Spaces between tokens go, those in quotes stay, and a doubled quote does not end the quotes. -/
theorem render_tokenize_quoted :
    ∃ tokens, tokenize {} "=F( A1  ,\"b  \"\"  c\")".toList = .ok tokens ∧ tokens ≠ [] ∧
      render tokens = "=F(A1,\"b  \"\"  c\")".toList := by
  have split : tokenize {} "=F( A1  ,\"b  \"\"  c\")".toList =
      .ok [⟨"F(".toList, .subexpression .function .opening⟩, ⟨"A1".toList, .operand .range⟩,
        ⟨[','], .separator .argument⟩, ⟨"\"b  \"\"  c\"".toList, .operand .text⟩,
        ⟨[')'], .subexpression .function .closing⟩] :=
    toOption_eq_some_iff.1 (by decide +kernel)
  refine ⟨_, split, by simp, ?_⟩
  rw [(render_tokenize split (by simp)).2 _ rfl]
  decide +kernel

end Spreadsheet.Formula
