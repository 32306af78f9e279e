import Spreadsheet.Proofs.Formula.Spacing

/-!
# The brackets of a formula

The scan keeps the subexpressions that are open on a stack, and its tokens in a list.  The two go together: at any
time the stack is exactly what the tokens alone show to be open, and between two open subexpressions everything is
closed by the right bracket.

* `Balanced` — every opener is followed by a balanced part and its own closer.
* `unclosed` — the openers of tokens that have no closer, which needs no stack of the scan.
* `Nested` — tokens in which given subexpressions are open, and nothing else.
* `Progress.nests_readAll` — the stack of the scan is what its tokens nest; so an accepted formula is balanced.
-/

namespace Spreadsheet

namespace Token

/-- A token has a closer exactly if it begins a subexpression, and the closer ends one of the same kind. -/
theorem closer?_eq_ok_iff {t closer : Token} :
    t.closer? = .ok closer ↔ ∃ bracket, t.kind = .subexpression bracket .opening ∧ closer = closerOf bracket := by
  rw [closer?]
  split
  · next bracket kind =>
    constructor
    · intro h
      exact ⟨bracket, kind, (Except.ok.inj h).symm⟩
    · rintro ⟨other, kind', rfl⟩
      obtain ⟨rfl, -⟩ := TokenKind.subexpression.inj (kind.symm.trans kind')
      rfl
  · next other =>
    constructor
    · rintro ⟨⟩
    · rintro ⟨bracket, kind, -⟩
      exact absurd kind (other bracket)

theorem kind_closerOf (bracket : Bracket) : (closerOf bracket).kind = .subexpression bracket .closing := by
  cases bracket <;> rfl

theorem isOpening_of_kind {t : Token} {bracket : Bracket} (h : t.kind = .subexpression bracket .opening) :
    t.isOpening = true := by
  rw [isOpening, h]

/-- A token that begins no subexpression and ends none. -/
def IsPlain (t : Token) : Prop :=
  ∀ bracket boundary, t.kind ≠ .subexpression bracket boundary

theorem IsPlain.isOpening {t : Token} (h : t.IsPlain) : t.isOpening = false := by
  rw [Token.isOpening]
  split
  · next bracket kind => exact absurd kind (h bracket .opening)
  · rfl

theorem IsPlain.isClosing {t : Token} (h : t.IsPlain) : t.isClosing = false := by
  rw [Token.isClosing]
  split
  · next bracket kind => exact absurd kind (h bracket .closing)
  · rfl

/-- What is open behind a token, innermost first, if this is open in front of it. -/
def nest (opened : List Token) (t : Token) : List Token :=
  if t.isOpening then t :: opened else if t.isClosing then opened.tail else opened

theorem nest_of_isPlain {t : Token} (h : t.IsPlain) (opened : List Token) : nest opened t = opened := by
  rw [nest, h.isOpening, h.isClosing]
  rfl

theorem nest_of_isOpening {t : Token} (h : t.isOpening = true) (opened : List Token) :
    nest opened t = t :: opened := by
  rw [nest, if_pos h]

theorem nest_closerOf (bracket : Bracket) (opened : List Token) :
    nest opened (closerOf bracket) = opened.tail := by
  cases bracket <;> rfl

end Token

namespace Formula

/-! ### Balanced tokens -/

/-- Every opener is followed by a balanced part and its own closer. -/
inductive Balanced : List Token → Prop
  | nil : Balanced []
  | plain {t : Token} {rest : List Token} : t.IsPlain → Balanced rest → Balanced (t :: rest)
  | enclosed {opener closer : Token} {inner rest : List Token} : opener.closer? = .ok closer →
      Balanced inner → Balanced rest → Balanced (opener :: inner ++ closer :: rest)

theorem Balanced.append {front behind : List Token} (hf : Balanced front) (hb : Balanced behind) :
    Balanced (front ++ behind) := by
  induction hf with
  | nil => exact hb
  | plain t _ ih => exact .plain t ih
  | enclosed closes inner _ _ ih =>
    rw [List.append_assoc, List.cons_append]
    exact .enclosed closes inner ih

/-- The openers that have no closer, innermost first. -/
def unclosed (tokens : List Token) : List Token :=
  tokens.foldl Token.nest []

/-- Balanced tokens leave open what is open in front of them, and nothing else. -/
theorem Balanced.foldl_nest {tokens : List Token} (h : Balanced tokens) (opened : List Token) :
    tokens.foldl Token.nest opened = opened := by
  induction h generalizing opened with
  | nil => rfl
  | plain t _ ih => rw [List.foldl_cons, Token.nest_of_isPlain t, ih]
  | enclosed closes _ _ inner rest =>
    obtain ⟨bracket, kind, rfl⟩ := Token.closer?_eq_ok_iff.1 closes
    rw [List.cons_append, List.foldl_cons, List.foldl_append, inner, List.foldl_cons, rest,
      Token.nest_of_isOpening (Token.isOpening_of_kind kind), Token.nest_closerOf, List.tail_cons]

/-! ### Open subexpressions -/

/-- Tokens in which exactly these subexpressions are open, innermost first; whatever stands before, between and behind
their openers is balanced. -/
inductive Nested : List Token → List Token → Prop
  | flat {tokens : List Token} : Balanced tokens → Nested [] tokens
  | inside {opener : Token} {opened before inner : List Token} : opener.isOpening = true → Nested opened before →
      Balanced inner → Nested (opener :: opened) (before ++ opener :: inner)

theorem Nested.append {opened tokens behind : List Token} (h : Nested opened tokens) (balanced : Balanced behind) :
    Nested opened (tokens ++ behind) := by
  cases h with
  | flat all => exact .flat (all.append balanced)
  | inside opens before inner =>
    rw [List.append_assoc, List.cons_append]
    exact .inside opens before (inner.append balanced)

theorem Nested.plain {opened tokens : List Token} (h : Nested opened tokens) {t : Token} (plain : t.IsPlain) :
    Nested opened (tokens ++ [t]) :=
  h.append (.plain plain .nil)

theorem Nested.opening {opened tokens : List Token} (h : Nested opened tokens) {t : Token}
    (opens : t.isOpening = true) : Nested (t :: opened) (tokens ++ [t]) :=
  .inside opens h .nil

theorem Nested.closing {opener closer : Token} {opened tokens : List Token} (h : Nested (opener :: opened) tokens)
    (closes : opener.closer? = .ok closer) : Nested opened (tokens ++ [closer]) := by
  cases h with
  | inside _ before inner =>
    rw [List.append_assoc]
    exact before.append (.enclosed closes inner .nil)

/-- The open subexpressions are those whose openers have no closer. -/
theorem Nested.unclosed_eq {opened tokens : List Token} (h : Nested opened tokens) : unclosed tokens = opened := by
  rw [unclosed]
  induction h with
  | flat all => exact all.foldl_nest []
  | inside opens _ inner ih =>
    rw [List.foldl_append, ih, List.foldl_cons, Token.nest_of_isOpening opens, inner.foldl_nest]

theorem Nested.balanced {tokens : List Token} (h : Nested [] tokens) : Balanced tokens := by
  cases h with
  | flat all => exact all

/-! ### The stack of the scan -/

theorem isPlain_of_makes {l : Lexeme} {t : Token} (makes : l.Makes t) (opening : ∀ opener, l ≠ .opening opener)
    (closing : ∀ brace, l ≠ .closing brace) : t.IsPlain := by
  intro bracket boundary kind
  cases l with
  | operand text =>
    obtain rfl : t = .operand text := makes
    cases kind
  | operator first second =>
    obtain ⟨-, is | is | is⟩ := makes
    all_goals
      rw [is] at kind
      cases kind
  | opening opener => exact opening opener rfl
  | closing brace => exact closing brace rfl
  | separator semicolon =>
    obtain ⟨-, is | ⟨separates, is⟩⟩ := makes
    all_goals
      rw [is] at kind
      cases kind
  | space =>
    obtain rfl : t = ⟨[' '], .whitespace⟩ := makes
    cases kind

/-- The stack of the scan holds what is open in its tokens. -/
def Progress.Nests (p : Progress) : Prop :=
  Nested (p.nesting.items.map Opener.token) p.tokens.reverse

/-- A token that neither opens nor closes leaves the stack as it is. -/
theorem Progress.Nests.emit {p : Progress} (h : p.Nests) {t : Token} (plain : t.IsPlain) : (p.emit t).Nests := by
  have behind : (p.emit t).tokens.reverse = p.tokens.reverse ++ [t] := List.reverse_cons
  rw [Nests, behind]
  exact Nested.plain h plain

/-- Each lexeme changes the stack as its token changes what is open. -/
theorem Progress.nests_read {options : Options} {p q : Progress} {l : Lexeme} (h : p.read options l = .ok q)
    (nests : p.Nests) : q.Nests := by
  cases l with
  | operand text =>
    cases h
    exact nests.emit (isPlain_of_makes (l := .operand text) rfl (by simp) (by simp))
  | operator first second =>
    cases h
    exact nests.emit (isPlain_of_makes (operatorToken_makes p first second) (by simp) (by simp))
  | separator semicolon =>
    cases h
    exact nests.emit (isPlain_of_makes (separatorToken_makes p semicolon) (by simp) (by simp))
  | space =>
    simp only [read, Except.ok.injEq] at h
    subst h
    split
    · exact nests.emit (isPlain_of_makes (l := .space) rfl (by simp) (by simp))
    · exact nests
  | opening opener =>
    obtain ⟨nesting, pushed, rfl⟩ := read_opening_eq_ok_iff.1 h
    have items : nesting.items = opener :: p.nesting.items := Nesting.items_of_push? pushed
    rw [Nests, List.reverse_cons, items, List.map_cons]
    exact Nested.opening nests rfl
  | closing brace =>
    obtain ⟨opener, nesting, popped, -, rfl⟩ := read_closing_eq_ok_iff.1 h
    have items : p.nesting.items = opener :: nesting.items := Nesting.items_of_pop? popped
    rw [Nests, items, List.map_cons] at nests
    rw [Nests, List.reverse_cons]
    exact Nested.closing nests rfl

theorem Progress.nests_start (maxDepth : Nat) : (start maxDepth).Nests :=
  .flat .nil

theorem Progress.nests_readAll {options : Options} {p q : Progress} {ls : List Lexeme}
    (h : p.readAll options ls = .ok q) (nests : p.Nests) : q.Nests :=
  invariant_readAll (fun _ _ _ _ step => nests_read step) h nests

/-- The tokens of a formula are balanced. -/
theorem balanced_of_tokenize {options : Options} {body : List Char} {tokens : List Token}
    (h : tokenize options ('=' :: body) = .ok tokens) : Balanced tokens := by
  obtain ⟨-, ls, p, -, read, closed, rfl⟩ := tokenize_eq_ok_iff.1 h
  have nests := Progress.nests_readAll read (Progress.nests_start options.maxDepth)
  rw [Progress.Nests, closed] at nests
  exact nests.balanced

end Formula

end Spreadsheet
