import Spreadsheet.Proofs.Formula.Brackets

/-!
# Tokens and what stands before them

Two characters have two meanings each.  A comma separates arguments and array columns, and elsewhere it joins ranges; a
plus or a minus joins two operands, and elsewhere it is a sign.  The scan decides by its stack and by its last token.
Here the decision is told by the tokens before the one in question, and by nothing else.

* `Lexeme.Proper` — no lexeme is empty, and no operand and no opener is one of these characters; `proper_of_gather`.
* `Classified` — what the text of a token and the tokens before it say about its kind.
* `wellFormed_of_tokenize` — the tokens of a formula are balanced, and each of them is classified.
-/

namespace Spreadsheet.Formula

/-! ### Lexemes that are a single mark -/

/-- The characters whose kind depends on how they stand in a formula. -/
def loneMarks : List Char := [',', ';', '+', '-']

/-- A text that is not empty and is not one of these characters. -/
def Proper (text : List Char) : Prop :=
  text ≠ [] ∧ ∀ c ∈ loneMarks, text ≠ [c]

/-- What is known of the text of a lexeme wherever it stands. -/
def Lexeme.Proper : Lexeme → Prop
  | .operand text => Formula.Proper text
  | .operator first _ => first ∈ operators
  | .opening opener => Formula.Proper opener.value
  | .closing _ | .separator _ | .space => True

theorem proper_of_two {text : List Char} (h : 2 ≤ text.length) : Proper text := by
  refine ⟨fun empty => ?_, fun c _ single => ?_⟩
  · rw [empty] at h
    exact absurd h (by decide)
  · rw [single] at h
    exact absurd h (by simp)

theorem proper_singleton {c : Char} (h : c ∉ loneMarks) : Proper [c] :=
  ⟨by simp, fun d mem same => h (List.singleton_inj.1 same ▸ mem)⟩

theorem two_le_length_double (delimiter : Char) (inner : List Char) :
    2 ≤ (delimiter :: double delimiter inner ++ [delimiter]).length := by
  simp

/-- Held text that has been joined is no single mark. -/
theorem proper_of_joins {held : List Char} {piece : Piece} (formed : piece.Formed)
    (h : joins held piece = true) : Proper (piece.text.reverse ++ held) := by
  cases piece with
  | plain c =>
    have other : c ∉ loneMarks := by
      intro mem
      have all : (loneMarks.all fun d => decide (d ∈ marks ∨ d ∈ operators)) = true := by decide
      rcases of_decide_eq_true (List.all_eq_true.1 all c mem) with mark | operator
      · exact formed.1 mark
      · exact formed.2 operator
    cases held with
    | nil => exact proper_singleton other
    | cons d held => exact proper_of_two (by simp [Piece.text])
  | bracketed text =>
    obtain ⟨inner, -, rfl⟩ := formed
    refine proper_of_two ?_
    simp only [Piece.text, List.length_append, List.length_reverse, List.length_cons]
    omega
  | quotedLink text =>
    obtain ⟨inner, rfl⟩ := formed
    have two := two_le_length_double '\x27' inner
    refine proper_of_two ?_
    rw [List.length_append, List.length_reverse]
    exact Nat.le_add_right_of_le two
  | operator first second =>
    -- a sign is held only behind the digits of a number
    cases held with
    | nil => simp [joins, awaitsExponent] at h
    | cons d held =>
      refine proper_of_two ?_
      simp only [Piece.text, List.length_append, List.length_reverse, List.length_cons]
      omega
  | _ => simp [joins] at h

theorem proper_heldLexeme {held : List Char} (h : held = [] ∨ Proper held) :
    ∀ l ∈ heldLexeme held, l.Proper := by
  rw [heldLexeme]
  split
  · simp
  · next ne =>
    intro l mem
    obtain rfl := List.mem_singleton.1 mem
    obtain ⟨-, marks⟩ := h.resolve_left ne
    refine ⟨by simpa using ne, fun c mem same => marks c mem ?_⟩
    rw [← List.reverse_reverse held, same]
    rfl

theorem proper_parenOpener (held : List Char) : Proper (parenOpener held).value := by
  rw [parenOpener]
  split
  · exact proper_singleton (by decide)
  · next ne =>
    refine proper_of_two ?_
    have := List.length_pos_iff.2 ne
    simp only [List.length_reverse, List.length_cons]
    omega

/-- The lexemes that a piece completes are proper if the held text is. -/
theorem proper_of_completes {held : List Char} {piece : Piece} {done : List Lexeme} (formed : piece.Formed)
    (proper : held = [] ∨ Proper held) (h : completes? held piece = some done) : ∀ l ∈ done, l.Proper := by
  have behind {last : Lexeme} (proper' : last.Proper) : ∀ l ∈ heldLexeme held ++ [last], l.Proper :=
    List.forall_mem_append.2 ⟨proper_heldLexeme proper, List.forall_mem_singleton.2 proper'⟩
  cases piece with
  | quotedText text =>
    obtain ⟨inner, rfl⟩ := formed
    obtain ⟨-, same⟩ := Option.ite_none_right_eq_some.1 h
    cases same
    exact List.forall_mem_singleton.2 (proper_of_two (two_le_length_double '"' inner))
  | errorCode text =>
    obtain ⟨-, same⟩ := Option.ite_none_right_eq_some.1 h
    cases same
    have all : ∀ code ∈ errorCodes, 2 ≤ code.length := by decide
    exact List.forall_mem_singleton.2 (proper_of_two (all text formed))
  | spaces more =>
    cases h
    exact behind trivial
  | operator first second =>
    cases h
    exact behind formed.mem_operators
  | parenOpening =>
    cases h
    exact List.forall_mem_singleton.2 (proper_parenOpener held)
  | braceOpening =>
    obtain ⟨-, same⟩ := Option.ite_none_right_eq_some.1 h
    cases same
    exact List.forall_mem_singleton.2 (proper_singleton (by decide))
  | closing brace =>
    cases h
    exact behind trivial
  | separator semicolon =>
    cases h
    exact behind trivial
  | _ => simp [completes?] at h

/-- All lexemes of complete pieces are proper. -/
theorem proper_of_gather {held : List Char} {ps : List Piece} {ls : List Lexeme}
    (formed : ∀ piece ∈ ps, piece.Formed) (proper : held = [] ∨ Proper held) (h : gather held ps = some ls) :
    ∀ l ∈ ls, l.Proper := by
  induction ps generalizing held ls with
  | nil =>
    cases h
    exact proper_heldLexeme proper
  | cons piece ps ih =>
    obtain ⟨here, behind⟩ := List.forall_mem_cons.1 formed
    cases joined : joins held piece with
    | true =>
      rw [gather_of_joins joined] at h
      exact ih behind (.inr (proper_of_joins here joined)) h
    | false =>
      rw [gather_of_completes joined] at h
      obtain ⟨done, completed, h⟩ := Option.bind_eq_some_iff.1 h
      obtain ⟨more, gathered, rfl⟩ := Option.map_eq_some_iff.1 h
      exact List.forall_mem_append.2 ⟨proper_of_completes here proper completed, ih behind (.inl rfl) gathered⟩

/-! ### What stands before a token -/

/-- The innermost open subexpression is a function call or an array. -/
def InArguments (before : List Token) : Prop :=
  ∃ opener ∈ (unclosed before).head?,
    opener.kind = .subexpression .function .opening ∨ opener.kind = .subexpression .array .opening

/-- The last token stands for a value: it is an operand, a closer or a postfix operator. -/
def BehindValue (before : List Token) : Prop :=
  ∃ last ∈ before.getLast?, (∃ kind, last.kind = .operand kind) ∨
    (∃ bracket, last.kind = .subexpression bracket .closing) ∨ last.kind = .postfixOperator

/-- What the text of a token and the tokens before it say about its kind. -/
structure Classified (before : List Token) (t : Token) : Prop where
  nonempty : t.value ≠ []
  not_literal : t.kind ≠ .literal
  /-- A comma separates arguments and array columns. -/
  comma_inside : t.value = [','] → InArguments before → t.kind = .separator .argument
  /-- Within a parenthesis and outside of all subexpressions it joins ranges. -/
  comma_outside : t.value = [','] → ¬InArguments before → t.kind = .infixOperator
  /-- A semicolon separates the rows of an array, wherever it stands. -/
  semicolon : t.value = [';'] → t.kind = .separator .row
  /-- A plus or a minus behind a value joins two operands. -/
  sign_behind : t.value = ['+'] ∨ t.value = ['-'] → BehindValue before → t.kind = .infixOperator
  /-- Anywhere else it is a sign. -/
  sign_ahead : t.value = ['+'] ∨ t.value = ['-'] → ¬BehindValue before → t.kind = .prefixOperator

theorem infersInfix_iff (tokens : List Token) :
    Token.infersInfix tokens.head? = true ↔ BehindValue tokens.reverse := by
  rw [BehindValue, List.getLast?_reverse]
  cases tokens with
  | nil => simp [Token.infersInfix]
  | cons t tokens =>
    simp only [List.head?_cons, Option.mem_some_iff, exists_eq_left', Token.infersInfix, Option.map_some]
    split
    · next kind same => simp [Option.some.inj same]
    · next bracket same => simp [Option.some.inj same]
    · next same => simp [Option.some.inj same]
    · next operand closing postfixed =>
      refine iff_of_false (by simp) ?_
      rintro (⟨kind, same⟩ | ⟨bracket, same⟩ | same)
      · exact operand kind (congrArg some same)
      · exact closing bracket (congrArg some same)
      · exact postfixed (congrArg some same)

theorem commaRole_eq_separator_iff {p : Progress} (nests : p.Nests) :
    Token.commaRole (p.nesting.innermost?.map (·.token.kind)) = .separator ↔ InArguments p.tokens.reverse := by
  rw [InArguments, nests.unclosed_eq, Nesting.innermost?]
  cases p.nesting.items with
  | nil => simp [Token.commaRole]
  | cons opener items =>
    obtain ⟨bracket, value⟩ := opener
    cases bracket <;> simp [Token.commaRole, Opener.token]

/-! ### The tokens that a scan finds -/

/-- A token whose text is none of the four marks need only be neither empty nor a literal. -/
theorem Classified.of_proper {before : List Token} {t : Token} (proper : Proper t.value)
    (other : t.kind ≠ .literal) : Classified before t := by
  have none {c : Char} (mem : c ∈ loneMarks) : t.value ≠ [c] := proper.2 c mem
  refine ⟨proper.1, other, fun h => ?_, fun h => ?_, fun h => ?_, fun h => ?_, fun h => ?_⟩
  · exact absurd h (none (by decide))
  · exact absurd h (none (by decide))
  · exact absurd h (none (by decide))
  · exact absurd h (not_or.2 ⟨none (by decide), none (by decide)⟩)
  · exact absurd h (not_or.2 ⟨none (by decide), none (by decide)⟩)

/-- What stands before a plus or a minus decides whether it is a sign. -/
theorem kind_operatorToken_of_sign (p : Progress) {first : Char} (sign : first = '+' ∨ first = '-')
    (second : Option Char) : (p.operatorToken first second).kind =
      if Token.infersInfix p.tokens.head? then .infixOperator else .prefixOperator := by
  have other : first ≠ '%' := by
    rintro rfl
    exact absurd sign (by decide)
  cases infers : Token.infersInfix p.tokens.head? <;> simp [Progress.operatorToken, sign, other, infers]

theorem classified_operatorToken (p : Progress) {first : Char} (operator : first ∈ operators)
    (second : Option Char) : Classified p.tokens.reverse (p.operatorToken first second) := by
  have makes := operatorToken_makes p first second
  have head {c : Char} (h : (p.operatorToken first second).value = [c]) : first = c :=
    (List.cons.inj (makes.1.symm.trans h)).1
  have sign (h : (p.operatorToken first second).value = ['+'] ∨ (p.operatorToken first second).value = ['-']) :
      first = '+' ∨ first = '-' := h.imp head head
  refine ⟨by rw [makes.1]; simp, ?_, fun h => ?_, fun h => ?_, fun h => ?_, fun h behind => ?_, fun h ahead => ?_⟩
  · rcases makes.2 with is | is | is <;> simp [is]
  · exact absurd (head h ▸ operator) (by decide)
  · exact absurd (head h ▸ operator) (by decide)
  · exact absurd (head h ▸ operator) (by decide)
  · rw [kind_operatorToken_of_sign p (sign h), if_pos ((infersInfix_iff p.tokens).2 behind)]
  · rw [kind_operatorToken_of_sign p (sign h), if_neg (mt (infersInfix_iff p.tokens).1 ahead)]

theorem classified_separatorToken {p : Progress} (nests : p.Nests) (semicolon : Bool) :
    Classified p.tokens.reverse (p.separatorToken semicolon) := by
  have role := commaRole_eq_separator_iff nests
  cases semicolon with
  | true =>
    have eq : p.separatorToken true = ⟨[';'], .separator .row⟩ := rfl
    rw [eq]
    exact ⟨by simp, by simp, by simp, by simp, fun _ => rfl, by simp, by simp⟩
  | false =>
    simp only [Progress.separatorToken, Bool.false_eq_true, if_false]
    split
    · next union =>
      have outside : ¬InArguments p.tokens.reverse := fun inside => by
        rw [role.2 inside] at union
        cases union
      exact ⟨by simp, by simp, fun _ inside => absurd inside outside, fun _ _ => rfl, by simp, by simp, by simp⟩
    · next separator =>
      exact ⟨by simp, by simp, fun _ _ => rfl, fun _ outside => absurd (role.1 separator) outside, by simp, by simp,
        by simp⟩

/-- Each token is classified by the tokens before it. -/
def AllClassified (tokens : List Token) : Prop :=
  ∀ before t behind, tokens = before ++ t :: behind → Classified before t

theorem AllClassified.append_singleton {tokens : List Token} (h : AllClassified tokens) {t : Token}
    (last : Classified tokens t) : AllClassified (tokens ++ [t]) := by
  intro before u behind eq
  rcases List.eq_nil_or_concat behind with rfl | ⟨behind, v, rfl⟩
  · obtain ⟨rfl, same⟩ := List.append_inj' eq rfl
    cases same
    exact last
  · have whole : tokens ++ [t] = (before ++ u :: behind) ++ [v] := by simpa using eq
    exact h before u behind (List.append_inj' whole rfl).1

/-- The state of a scan whose stack and tokens agree. -/
structure Progress.Sound (p : Progress) : Prop where
  nests : p.Nests
  classified : AllClassified p.tokens.reverse

/-- A proper lexeme makes a token that is classified by the tokens before it. -/
theorem Progress.sound_read {options : Options} {p q : Progress} {l : Lexeme} (proper : l.Proper)
    (h : p.read options l = .ok q) (sound : p.Sound) : q.Sound := by
  refine ⟨nests_read h sound.nests, ?_⟩
  have add {t : Token} (classified : Classified p.tokens.reverse t) : AllClassified (t :: p.tokens).reverse := by
    rw [List.reverse_cons]
    exact sound.classified.append_singleton classified
  cases l with
  | operand text =>
    cases h
    exact add (.of_proper proper (by simp [Token.operand]))
  | operator first second =>
    cases h
    exact add (classified_operatorToken p proper second)
  | separator semicolon =>
    cases h
    exact add (classified_separatorToken sound.nests semicolon)
  | opening opener =>
    obtain ⟨nesting, -, rfl⟩ := read_opening_eq_ok_iff.1 h
    exact add (.of_proper proper (by simp [Opener.token]))
  | closing brace =>
    obtain ⟨opener, nesting, -, -, rfl⟩ := read_closing_eq_ok_iff.1 h
    refine add (.of_proper ?_ (by simp [Token.kind_closerOf]))
    cases opener.bracket <;> exact proper_singleton (by decide)
  | space =>
    simp only [read, Except.ok.injEq] at h
    subst h
    split
    · exact add (.of_proper (proper_singleton (by decide)) (by simp))
    · exact sound.classified

theorem Progress.sound_start (maxDepth : Nat) : (start maxDepth).Sound :=
  ⟨nests_start maxDepth, fun before t behind eq => by simp [start] at eq⟩

/-! ### Formulas -/

/-- Tokens whose brackets match, each of which is classified by the tokens before it. -/
structure WellFormed (tokens : List Token) : Prop where
  balanced : Balanced tokens
  classified : ∀ i t, tokens[i]? = some t → Classified (tokens.take i) t

/-- **An accepted formula is well formed.** Its openers and closers match, a closer being the one of its opener; each
comma, semicolon, plus and minus has the kind that the tokens before it call for; and no token is empty or a literal. -/
theorem wellFormed_of_tokenize {options : Options} {body : List Char} {tokens : List Token}
    (h : tokenize options ('=' :: body) = .ok tokens) : WellFormed tokens := by
  refine ⟨balanced_of_tokenize h, fun i t found => ?_⟩
  obtain ⟨apart, ls, p, gathered, read, -, rfl⟩ := tokenize_eq_ok_iff.1 h
  have proper := proper_of_gather apart.formed (.inl rfl) gathered
  have sound : p.Sound := Progress.invariant_readAll (fun l mem _ _ step => Progress.sound_read (proper l mem) step)
    read (Progress.sound_start options.maxDepth)
  obtain ⟨inside, rfl⟩ := List.getElem?_eq_some_iff.1 found
  refine sound.classified _ _ (p.tokens.reverse.drop (i + 1)) ?_
  rw [← List.drop_eq_getElem_cons inside, List.take_append_drop]

/-- A comma within a parenthesis joins ranges although a function call stands around it, and a minus is a sign behind a
semicolon and joins operands behind a percent sign. -/
theorem wellFormed_of_tokenize_nested :
    ∃ tokens, tokenize {} "=F((A1,B1),\x7b1;-2\x7d)%-3".toList = .ok tokens ∧ WellFormed tokens ∧
      tokens.map Token.kind =
        [.subexpression .function .opening, .subexpression .paren .opening, .operand .range, .infixOperator,
          .operand .range, .subexpression .paren .closing, .separator .argument, .subexpression .array .opening,
          .operand .number, .separator .row, .prefixOperator, .operand .number, .subexpression .array .closing,
          .subexpression .function .closing, .postfixOperator, .infixOperator, .operand .number] := by
  have split : tokenize {} "=F((A1,B1),\x7b1;-2\x7d)%-3".toList =
      .ok [⟨"F(".toList, .subexpression .function .opening⟩, ⟨['('], .subexpression .paren .opening⟩,
        ⟨"A1".toList, .operand .range⟩, ⟨[','], .infixOperator⟩, ⟨"B1".toList, .operand .range⟩,
        ⟨[')'], .subexpression .paren .closing⟩, ⟨[','], .separator .argument⟩,
        ⟨['{'], .subexpression .array .opening⟩, ⟨['1'], .operand .number⟩, ⟨[';'], .separator .row⟩,
        ⟨['-'], .prefixOperator⟩, ⟨['2'], .operand .number⟩, ⟨['}'], .subexpression .array .closing⟩,
        ⟨[')'], .subexpression .function .closing⟩, ⟨['%'], .postfixOperator⟩, ⟨['-'], .infixOperator⟩,
        ⟨['3'], .operand .number⟩] :=
    toOption_eq_some_iff.1 (by decide +kernel)
  exact ⟨_, split, wellFormed_of_tokenize split, rfl⟩

end Spreadsheet.Formula
