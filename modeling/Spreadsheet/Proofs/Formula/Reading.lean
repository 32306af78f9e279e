import Mathlib.Data.List.Forall2
import Spreadsheet.Proofs.Formula.Lexeme

/-!
# From lexemes to tokens

The second stage of a scan makes one token of each lexeme, except for spaces that are not to be preserved.  The
token of an operand is given by its text, and every other token has a kind that no operand has.

* `forall₂_makes` — the tokens of a run stand for the lexemes one by one.
* `readAll_swap` — operands exchanged for other operands change no other token and no bracket.
* `readAll_filter_keeps` — spaces that make no token may as well be left out.
-/

namespace Spreadsheet.Formula

/-! ### One token for each lexeme -/

/-- The tokens that a lexeme may make, whatever stands before it. -/
def Lexeme.Makes : Lexeme → Token → Prop
  | .operand text, t => t = .operand text
  | .operator first second, t => t.value = first :: second.toList ∧
      (t.kind = .prefixOperator ∨ t.kind = .infixOperator ∨ t.kind = .postfixOperator)
  | .opening opener, t => t = opener.token
  | .closing brace, t => ∃ bracket, decide (bracket = .array) = brace ∧ t = .closerOf bracket
  | .separator semicolon, t => t.value = [if semicolon then ';' else ','] ∧
      (t.kind = .infixOperator ∨ ∃ kind, t.kind = .separator kind)
  | .space, t => t = ⟨[' '], .whitespace⟩

/-- Whether a lexeme makes a token; spaces make none unless they are preserved. -/
def Options.keeps (options : Options) (l : Lexeme) : Bool :=
  options.preserveWhitespace || l != .space

/-- A token has the characters of its lexeme. -/
theorem Lexeme.Makes.value {l : Lexeme} {t : Token} (h : l.Makes t) : t.value = l.text [' '] := by
  cases l with
  | operand text =>
    obtain rfl : t = .operand text := h
    rfl
  | operator first second => exact h.1
  | opening opener =>
    obtain rfl : t = opener.token := h
    rfl
  | closing brace =>
    obtain ⟨bracket, rfl, rfl⟩ := h
    cases bracket <;> rfl
  | separator semicolon => exact h.1
  | space =>
    obtain rfl : t = ⟨[' '], .whitespace⟩ := h
    rfl

/-- Operands come from operands only, and literals from nothing. -/
theorem Lexeme.Makes.operand_or {l : Lexeme} {t : Token} (h : l.Makes t) :
    (∃ text, l = .operand text ∧ t = .operand text) ∨
      ((∀ text, l ≠ .operand text) ∧ (∀ kind, t.kind ≠ .operand kind) ∧ t.kind ≠ .literal) := by
  cases l with
  | operand text => exact .inl ⟨text, rfl, h⟩
  | operator first second =>
    obtain ⟨-, h | h | h⟩ := h
    all_goals exact .inr (by simp [h])
  | opening opener =>
    obtain rfl : t = opener.token := h
    exact .inr (by simp [Opener.token])
  | closing brace =>
    obtain ⟨bracket, -, rfl⟩ := h
    cases bracket <;> exact .inr (by simp [Token.closerOf])
  | separator semicolon =>
    obtain ⟨-, h | ⟨kind, h⟩⟩ := h
    all_goals exact .inr (by simp [h])
  | space =>
    obtain rfl : t = ⟨[' '], .whitespace⟩ := h
    exact .inr (by simp)

theorem operatorToken_makes (p : Progress) (first : Char) (second : Option Char) :
    (Lexeme.operator first second).Makes (p.operatorToken first second) := by
  refine ⟨rfl, ?_⟩
  simp only [Progress.operatorToken]
  split
  · exact .inr (.inr rfl)
  · split
    · exact .inl rfl
    · exact .inr (.inl rfl)

theorem separatorToken_makes (p : Progress) (semicolon : Bool) :
    (Lexeme.separator semicolon).Makes (p.separatorToken semicolon) := by
  cases semicolon with
  | true => exact ⟨rfl, .inr ⟨_, rfl⟩⟩
  | false =>
    simp only [Progress.separatorToken, Bool.false_eq_true, if_false]
    split
    · exact ⟨rfl, .inl rfl⟩
    · exact ⟨rfl, .inr ⟨_, rfl⟩⟩

/-- A lexeme that is read adds its token, and a space that is not preserved adds nothing. -/
theorem Progress.makes_of_read {options : Options} {p q : Progress} {l : Lexeme}
    (h : p.read options l = .ok q) :
    (options.keeps l = true ∧ ∃ t, l.Makes t ∧ q.tokens = t :: p.tokens) ∨
      (options.keeps l = false ∧ q = p) := by
  cases l with
  | operand text =>
    cases h
    exact .inl ⟨by simp [Options.keeps], _, rfl, rfl⟩
  | operator first second =>
    cases h
    exact .inl ⟨by simp [Options.keeps], _, operatorToken_makes p first second, rfl⟩
  | separator semicolon =>
    cases h
    exact .inl ⟨by simp [Options.keeps], _, separatorToken_makes p semicolon, rfl⟩
  | opening opener =>
    obtain ⟨nesting, -, rfl⟩ := read_opening_eq_ok_iff.1 h
    exact .inl ⟨by simp [Options.keeps], _, rfl, rfl⟩
  | closing brace =>
    obtain ⟨opener, nesting, -, same, rfl⟩ := read_closing_eq_ok_iff.1 h
    exact .inl ⟨by simp [Options.keeps], _, ⟨_, same, rfl⟩, rfl⟩
  | space =>
    simp only [read, Except.ok.injEq] at h
    subst h
    cases keep : options.preserveWhitespace with
    | true => exact .inl ⟨by simp [Options.keeps, keep], _, rfl, rfl⟩
    | false => exact .inr ⟨by simp [Options.keeps, keep], rfl⟩

/-- A run adds one token for each lexeme that is kept. -/
theorem Progress.forall₂_makes {options : Options} {p q : Progress} {ls : List Lexeme}
    (h : p.readAll options ls = .ok q) :
    ∃ new, List.Forall₂ Lexeme.Makes (ls.filter options.keeps) new ∧
      q.tokens = new.reverse ++ p.tokens := by
  induction ls generalizing p with
  | nil =>
    cases h
    exact ⟨[], .nil, rfl⟩
  | cons l ls ih =>
    obtain ⟨p', step, h⟩ := readAll_cons_eq_ok_iff.1 h
    obtain ⟨new, made, tokens⟩ := ih h
    rcases makes_of_read step with ⟨keep, t, makes, added⟩ | ⟨drop, rfl⟩
    · refine ⟨t :: new, ?_, ?_⟩
      · rw [List.filter_cons_of_pos keep]
        exact .cons makes made
      · rw [tokens, added, List.reverse_cons, List.append_assoc, List.singleton_append]
    · refine ⟨new, ?_, tokens⟩
      rwa [List.filter_cons_of_neg (by simp [drop])]

/-- From the beginning, these are all tokens. -/
theorem Progress.forall₂_makes_start {options : Options} {maxDepth : Nat} {p : Progress} {ls : List Lexeme}
    (h : (start maxDepth).readAll options ls = .ok p) :
    List.Forall₂ Lexeme.Makes (ls.filter options.keeps) p.tokens.reverse := by
  obtain ⟨new, made, tokens⟩ := forall₂_makes h
  rw [tokens, List.reverse_append, List.reverse_reverse]
  exact made

/-! ### Exchanging operands -/

/-- Lexemes that are the same, or both operands with texts in the relation `R`. -/
inductive Lexeme.Swap (R : List Char → List Char → Prop) : Lexeme → Lexeme → Prop
  | operand {v w : List Char} : R v w → Swap R (.operand v) (.operand w)
  | same {l : Lexeme} : (∀ v, l ≠ .operand v) → Swap R l l

/-- Tokens that are the same, or both operands with texts in the relation `R`. -/
inductive TokenSwap (R : List Char → List Char → Prop) : Token → Token → Prop
  | operand {v w : List Char} : R v w → TokenSwap R (.operand v) (.operand w)
  | same {t : Token} : (∀ kind, t.kind ≠ .operand kind) → TokenSwap R t t

section Swap

variable {R : List Char → List Char → Prop} {options : Options} {p p' q : Progress}

theorem infersInfix_swap {ts ts' : List Token} (h : List.Forall₂ (TokenSwap R) ts ts') :
    Token.infersInfix ts.head? = Token.infersInfix ts'.head? := by
  cases h with
  | nil => rfl
  | cons first _ =>
    cases first with
    | operand _ => rfl
    | same _ => rfl

/-- A lexeme that makes no operand makes the same token behind exchanged operands. -/
theorem Progress.read_swap {l l' : Lexeme} (lexemes : l.Swap R l')
    (tokens : List.Forall₂ (TokenSwap R) p.tokens p'.tokens) (nesting : p.nesting = p'.nesting)
    (h : p.read options l = .ok q) :
    ∃ q', p'.read options l' = .ok q' ∧ q.nesting = q'.nesting ∧
      List.Forall₂ (TokenSwap R) q.tokens q'.tokens := by
  cases lexemes with
  | operand related =>
    cases h
    exact ⟨_, rfl, nesting, .cons (.operand related) tokens⟩
  | same other =>
    -- the new token is no operand, so it is related to itself
    have same {t : Token} (makes : l.Makes t) : TokenSwap R t t := by
      rcases makes.operand_or with ⟨text, is, -⟩ | ⟨-, kinds, -⟩
      · exact absurd is (other text)
      · exact .same kinds
    cases l with
    | operand text => exact absurd rfl (other text)
    | operator first second =>
      cases h
      have token : p'.operatorToken first second = p.operatorToken first second := by
        simp only [operatorToken, infersInfix_swap tokens]
      refine ⟨_, rfl, nesting, ?_⟩
      rw [token]
      exact .cons (same (operatorToken_makes p first second)) tokens
    | separator semicolon =>
      cases h
      have token : p'.separatorToken semicolon = p.separatorToken semicolon := by
        simp only [separatorToken, nesting]
      refine ⟨_, rfl, nesting, ?_⟩
      rw [token]
      exact .cons (same (separatorToken_makes p semicolon)) tokens
    | opening opener =>
      obtain ⟨inner, pushed, rfl⟩ := read_opening_eq_ok_iff.1 h
      rw [nesting] at pushed
      exact ⟨_, read_opening_eq_ok_iff.2 ⟨inner, pushed, rfl⟩, rfl, .cons (same rfl) tokens⟩
    | closing brace =>
      obtain ⟨opener, outer, popped, fits, rfl⟩ := read_closing_eq_ok_iff.1 h
      rw [nesting] at popped
      exact ⟨_, read_closing_eq_ok_iff.2 ⟨opener, outer, popped, fits, rfl⟩, rfl,
        .cons (same ⟨_, fits, rfl⟩) tokens⟩
    | space =>
      simp only [read, Except.ok.injEq] at h ⊢
      subst h
      refine ⟨_, rfl, ?_⟩
      split
      · exact ⟨nesting, .cons (same rfl) tokens⟩
      · exact ⟨nesting, tokens⟩

/-- Exchanging operands in lexemes exchanges the same operands in the tokens and nothing else. -/
theorem Progress.readAll_swap {ls ls' : List Lexeme} (lexemes : List.Forall₂ (Lexeme.Swap R) ls ls')
    (tokens : List.Forall₂ (TokenSwap R) p.tokens p'.tokens) (nesting : p.nesting = p'.nesting)
    (h : p.readAll options ls = .ok q) :
    ∃ q', p'.readAll options ls' = .ok q' ∧ q.nesting = q'.nesting ∧
      List.Forall₂ (TokenSwap R) q.tokens q'.tokens := by
  induction lexemes generalizing p p' with
  | nil =>
    cases h
    exact ⟨p', rfl, nesting, tokens⟩
  | cons first _ ih =>
    obtain ⟨r, step, h⟩ := readAll_cons_eq_ok_iff.1 h
    obtain ⟨r', step', nesting', tokens'⟩ := read_swap first tokens nesting step
    obtain ⟨q', run, related⟩ := ih tokens' nesting' h
    exact ⟨q', readAll_cons_eq_ok_iff.2 ⟨r', step', run⟩, related⟩

end Swap

/-! ### Reading without spaces -/

/-- Lexemes that make no token may as well be left out. -/
theorem Progress.readAll_filter_keeps (options : Options) (p : Progress) (ls : List Lexeme) :
    p.readAll options (ls.filter options.keeps) = p.readAll options ls := by
  induction ls generalizing p with
  | nil => rfl
  | cons l ls ih =>
    by_cases keep : options.keeps l = true
    · rw [List.filter_cons_of_pos keep, readAll, readAll]
      split
      · rfl
      · exact ih _
    · obtain ⟨silent, rfl⟩ : options.preserveWhitespace = false ∧ l = .space := by
        simpa [Options.keeps] using keep
      rw [List.filter_cons_of_neg keep, ih, readAll, read, silent]
      rfl

end Spreadsheet.Formula
