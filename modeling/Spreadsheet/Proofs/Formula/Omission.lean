import Spreadsheet.Proofs.Formula.Agreement
import Spreadsheet.Proofs.Formula.Classification
import Spreadsheet.Proofs.Formula.Neighbours

/-!
# Reading a formula without its spaces

Whether runs of spaces make tokens must not matter to the other tokens, but these are also what a scan looks back at:
behind a space a plus or a minus is a sign, and without the space it is whatever the token in front of the space makes
it.  The lexemes of a formula are read here with the spaces among them and without, side by side.

* `Unspaced` — tokens with those of spaces, and without.
* `read_unspaced`, `readAll_unspaced` — one lexeme and a run of lexemes make such tokens.
* `tokenize_unspaced` — a formula has such tokens, or it fails in the same way with spaces and without.
-/

namespace Spreadsheet.Formula

variable {options options' : Options}

/-! ### The tokens without those of spaces -/

/-- A plus or a minus. -/
def IsSign (t : Token) : Prop :=
  t.value = ['+'] ∨ t.value = ['-']

/-- The last token is that of a space. -/
def EndsInSpace (ts : List Token) : Prop :=
  ∃ last ∈ ts.getLast?, last.kind = .whitespace

/-- Tokens with those of spaces, and the tokens of the same formula without. -/
inductive Unspaced : List Token → List Token → Prop
  | nil : Unspaced [] []
  /-- A space is left out. -/
  | space {ts us : List Token} : Unspaced ts us → Unspaced (ts ++ [⟨[' '], .whitespace⟩]) us
  /-- All other tokens stay as they are, if they are no signs behind a space. -/
  | token {ts us : List Token} {t : Token} : Unspaced ts us → t.kind ≠ .whitespace → (IsSign t → ¬EndsInSpace ts) →
      Unspaced (ts ++ [t]) (us ++ [t])
  /-- Behind a space a plus or a minus is a sign. Without the space it is what the token in front of it makes it. -/
  | sign {ts us : List Token} {c : Char} : Unspaced ts us → c = '+' ∨ c = '-' → EndsInSpace ts →
      Unspaced (ts ++ [⟨[c], .prefixOperator⟩])
        (us ++ [⟨[c], if Token.infersInfix us.getLast? then .infixOperator else .prefixOperator⟩])

namespace Unspaced

variable {ts us : List Token}

/-- The texts that are left are those of the tokens that are left. -/
theorem values (h : Unspaced ts us) :
    us.map Token.value = (ts.filter (·.kind ≠ .whitespace)).map Token.value := by
  induction h with
  | nil => rfl
  | space _ ih => simpa using ih
  | token _ other _ ih => simp [ih, other]
  | sign _ _ _ ih => simp [ih]

theorem value_of_whitespace (h : Unspaced ts us) : ∀ t ∈ ts, t.kind = .whitespace → t.value = [' '] := by
  induction h with
  | nil => simp
  | space _ ih => simpa [or_imp, forall_and] using ih
  | token _ other _ ih => simpa [or_imp, forall_and, other] using ih
  | sign _ _ _ ih => simpa [or_imp, forall_and] using ih

/-- Unless they end in a space, both lists end in the same token or in tokens behind which a sign is a sign. -/
theorem infersInfix_eq (h : Unspaced ts us) (other : ¬EndsInSpace ts) :
    Token.infersInfix ts.getLast? = Token.infersInfix us.getLast? := by
  cases h with
  | nil => rfl
  | space => exact absurd ⟨_, List.getLast?_concat, rfl⟩ other
  | token => rw [List.getLast?_concat, List.getLast?_concat]
  | sign =>
    rw [List.getLast?_concat, List.getLast?_concat]
    split <;> rfl

end Unspaced

/-! ### Reading with spaces and without -/

theorem not_isSign_of_proper {t : Token} (h : Proper t.value) : ¬IsSign t := by
  rintro (same | same)
  · exact h.2 '+' (by decide) same
  · exact h.2 '-' (by decide) same

/-- Only what stands in front of a plus or a minus has a part in an operator. -/
theorem operatorToken_congr {p p' : Progress} {first : Char} (second : Option Char)
    (same : first = '+' ∨ first = '-' → Token.infersInfix p.tokens.head? = Token.infersInfix p'.tokens.head?) :
    p.operatorToken first second = p'.operatorToken first second := by
  by_cases sign : first = '+' ∨ first = '-'
  · simp only [Progress.operatorToken, same sign]
  · simp only [Progress.operatorToken, sign, false_and, if_false]

theorem infersInfix_of_endsInSpace {ts : List Token} (h : EndsInSpace ts) : Token.infersInfix ts.getLast? = false := by
  obtain ⟨last, mem, kind⟩ := h
  rw [Option.mem_def.1 mem, Token.infersInfix, Option.map_some, kind]

variable {p p' q q' : Progress}

/-- An operator that is read with the spaces in front of it and without. -/
theorem unspaced_operatorToken {first : Char} {second : Option Char} (formed : (Piece.operator first second).Formed)
    (unspaced : Unspaced p.tokens.reverse p'.tokens.reverse) :
    Unspaced (p.tokens.reverse ++ [p.operatorToken first second])
      (p'.tokens.reverse ++ [p'.operatorToken first second]) := by
  by_cases behind : (first = '+' ∨ first = '-') ∧ EndsInSpace p.tokens.reverse
  · obtain ⟨sign, space⟩ := behind
    obtain rfl := formed.second_eq_none sign
    have token (p : Progress) : p.operatorToken first none =
        ⟨[first], if Token.infersInfix p.tokens.reverse.getLast? then .infixOperator else .prefixOperator⟩ := by
      rw [List.getLast?_reverse, ← kind_operatorToken_of_sign p sign none]
      rfl
    rw [token p, token p', infersInfix_of_endsInSpace space]
    exact unspaced.sign sign space
  · have same : p.operatorToken first second = p'.operatorToken first second := by
      refine operatorToken_congr second fun sign => ?_
      have := unspaced.infersInfix_eq fun space => behind ⟨sign, space⟩
      rwa [List.getLast?_reverse, List.getLast?_reverse] at this
    obtain ⟨value, kind⟩ := operatorToken_makes p first second
    rw [← same]
    refine unspaced.token (by rcases kind with kind | kind | kind <;> simp [kind]) fun sign space => behind ⟨?_, space⟩
    rw [IsSign, value] at sign
    exact sign.imp (fun same => (List.cons.inj same).1) fun same => (List.cons.inj same).1

/-- One lexeme, read with the spaces in front of it and without. -/
theorem read_unspaced (preserves : options.preserveWhitespace = true) (omits : options'.preserveWhitespace = false)
    {l : Lexeme} {os : List Piece} (spelling : Spelling os l) (proper : l.Proper) (nesting : p.nesting = p'.nesting)
    (unspaced : Unspaced p.tokens.reverse p'.tokens.reverse) (h : p.read options l = .ok q)
    (h' : p'.read options' l = .ok q') :
    q.nesting = q'.nesting ∧ Unspaced q.tokens.reverse q'.tokens.reverse := by
  have add {t : Token} (kind : t.kind ≠ .whitespace) (other : ¬IsSign t) :
      Unspaced (t :: p.tokens).reverse (t :: p'.tokens).reverse := by
    rw [List.reverse_cons, List.reverse_cons]
    exact unspaced.token kind fun sign => absurd sign other
  cases l with
  | operand text =>
    cases h
    cases h'
    exact ⟨nesting, add (by simp [Token.operand]) (not_isSign_of_proper proper)⟩
  | operator first second =>
    cases h
    cases h'
    refine ⟨nesting, ?_⟩
    rw [Progress.emit, Progress.emit, List.reverse_cons, List.reverse_cons]
    exact unspaced_operatorToken spelling.formed_operator unspaced
  | separator semicolon =>
    cases h
    cases h'
    have same : p'.separatorToken semicolon = p.separatorToken semicolon := by
      simp only [Progress.separatorToken, nesting]
    obtain ⟨value, kind⟩ := separatorToken_makes p semicolon
    refine ⟨nesting, ?_⟩
    rw [same]
    refine add ?_ ?_
    · rcases kind with kind | ⟨_, kind⟩ <;> simp [kind]
    · rw [IsSign, value]
      cases semicolon <;> simp
  | opening opener =>
    obtain ⟨inner, pushed, rfl⟩ := Progress.read_opening_eq_ok_iff.1 h
    obtain ⟨inner', pushed', rfl⟩ := Progress.read_opening_eq_ok_iff.1 h'
    rw [nesting, pushed'] at pushed
    exact ⟨(Option.some.inj pushed).symm, add (by simp [Opener.token]) (not_isSign_of_proper proper)⟩
  | closing brace =>
    obtain ⟨opener, outer, popped, -, rfl⟩ := Progress.read_closing_eq_ok_iff.1 h
    obtain ⟨opener', outer', popped', -, rfl⟩ := Progress.read_closing_eq_ok_iff.1 h'
    rw [nesting, popped'] at popped
    obtain ⟨rfl, rfl⟩ := Prod.mk.inj (Option.some.inj popped)
    refine ⟨rfl, add ?_ ?_⟩
    · simp [Token.kind_closerOf]
    · cases opener'.bracket <;> simp [IsSign, Token.closerOf]
  | space =>
    simp only [Progress.read, preserves, omits, if_true, Bool.false_eq_true, if_false, Except.ok.injEq] at h h'
    subst h h'
    refine ⟨nesting, ?_⟩
    rw [Progress.emit, List.reverse_cons]
    exact unspaced.space

theorem readAll_unspaced (preserves : options.preserveWhitespace = true) (omits : options'.preserveWhitespace = false)
    {ls : List Lexeme} (each : ∀ l ∈ ls, ∃ os, Spelling os l) (proper : ∀ l ∈ ls, l.Proper)
    (nesting : p.nesting = p'.nesting) (unspaced : Unspaced p.tokens.reverse p'.tokens.reverse)
    (h : p.readAll options ls = .ok q) (h' : p'.readAll options' ls = .ok q') :
    Unspaced q.tokens.reverse q'.tokens.reverse := by
  induction ls generalizing p p' with
  | nil =>
    cases h
    cases h'
    exact unspaced
  | cons l ls ih =>
    obtain ⟨⟨os, spelling⟩, each⟩ := List.forall_mem_cons.1 each
    obtain ⟨first, proper⟩ := List.forall_mem_cons.1 proper
    obtain ⟨r, step, h⟩ := Progress.readAll_cons_eq_ok_iff.1 h
    obtain ⟨r', step', h'⟩ := Progress.readAll_cons_eq_ok_iff.1 h'
    obtain ⟨nesting, unspaced⟩ := read_unspaced preserves omits spelling first nesting unspaced step step'
    exact ih each proper nesting unspaced h h'

/-- Tokens with spaces and without come from the same lexemes. -/
theorem unspaced_of_tokenize (preserves : options.preserveWhitespace = true)
    (omits : options'.preserveWhitespace = false) (depth : options.maxDepth = options'.maxDepth)
    {formula : List Char} {spaced plain : List Token} (h : tokenize options formula = .ok spaced)
    (h' : tokenize options' formula = .ok plain) : Unspaced spaced plain := by
  cases tokenized h with
  | nothing =>
    cases h'
    exact .nil
  | literal other =>
    rw [tokenize_literal other] at h'
    cases h'
    exact Unspaced.nil.token (by simp) fun _ space => by simp [EndsInSpace] at space
  | formula =>
    obtain ⟨apart, ls, p, gathered, read, -, rfl⟩ := tokenize_eq_ok_iff.1 h
    obtain ⟨-, ls', p', gathered', read', -, rfl⟩ := tokenize_eq_ok_iff.1 h'
    obtain rfl : ls = ls' := Option.some.inj (gathered.symm.trans gathered')
    have each := (spelled_of_gather apart gathered).exists_spelling
    have proper := proper_of_gather apart.formed (.inl rfl) gathered
    rw [← depth] at read'
    refine readAll_unspaced preserves omits each proper rfl ?_ read read'
    exact .nil

/-- Spaces that stand together make one token. -/
theorem isChain_whitespace (preserves : options.preserveWhitespace = true) {formula : List Char} {tokens : List Token}
    (h : tokenize options formula = .ok tokens) (values : ∀ t ∈ tokens, t.kind = .whitespace → t.value = [' ']) :
    tokens.IsChain fun a b => a.kind = .whitespace → b.kind ≠ .whitespace := by
  cases tokenized h with
  | nothing => exact .nil
  | literal => exact .singleton _
  | formula =>
    refine (isChain_of_tokenize preserves h).imp_of_mem_imp fun a b _ mem apart space space' => ?_
    simp [fuses, space, values b mem space'] at apart

/-- **Spaces do not change how a formula is read.** A formula has tokens with those of spaces exactly if it has tokens
without, and it fails in the same way.  The tokens of spaces, of which no two follow each other, are left out, and the
others stay, but for a plus or a minus behind a space: it is a sign, and without the space the token in front of it
decides. -/
theorem tokenize_unspaced (maxDepth : Nat) (formula : List Char) :
    ((∃ spaced, tokenize ⟨true, maxDepth⟩ formula = .ok spaced) ↔
        ∃ plain, tokenize ⟨false, maxDepth⟩ formula = .ok plain) ∧
      (∀ e, tokenize ⟨true, maxDepth⟩ formula = .error e ↔ tokenize ⟨false, maxDepth⟩ formula = .error e) ∧
      ∀ spaced, tokenize ⟨true, maxDepth⟩ formula = .ok spaced →
        ∃ plain, tokenize ⟨false, maxDepth⟩ formula = .ok plain ∧ Unspaced spaced plain ∧
          plain.map Token.value = (spaced.filter (·.kind ≠ .whitespace)).map Token.value ∧
          (∀ t ∈ spaced, t.kind = .whitespace → t.value = [' ']) ∧
          spaced.IsChain fun a b => a.kind = .whitespace → b.kind ≠ .whitespace := by
  have agree := @tokenize_agree ⟨true, maxDepth⟩ ⟨false, maxDepth⟩ rfl formula
  refine ⟨agree.exists_ok_iff, agree.error_iff, fun spaced h => ?_⟩
  obtain ⟨plain, h', -⟩ := agree.exists_ok h
  have unspaced := @unspaced_of_tokenize ⟨true, maxDepth⟩ ⟨false, maxDepth⟩ rfl rfl rfl formula spaced plain h h'
  exact ⟨plain, h', unspaced, unspaced.values, unspaced.value_of_whitespace,
    isChain_whitespace rfl h unspaced.value_of_whitespace⟩

/-- The plus is a sign behind the space and joins two operands without it; the minus is a sign in both scans. -/
theorem tokenize_unspaced_sign :
    let spaced := [⟨"A1".toList, .operand .range⟩, ⟨[' '], .whitespace⟩, ⟨['+'], .prefixOperator⟩,
      ⟨[' '], .whitespace⟩, ⟨['-'], .prefixOperator⟩, ⟨['1'], .operand .number⟩]
    let plain := [⟨"A1".toList, .operand .range⟩, ⟨['+'], .infixOperator⟩, ⟨['-'], .prefixOperator⟩,
      ⟨['1'], .operand .number⟩]
    tokenize ⟨true, 0⟩ "=A1 +  -1".toList = .ok spaced ∧ tokenize ⟨false, 0⟩ "=A1 +  -1".toList = .ok plain ∧
      Unspaced spaced plain ∧ tokenize ⟨true, 0⟩ "=(A1 +".toList = .error ⟨.nestingTooDeep 0, 1, "=(A1 +".toList⟩ ∧
      tokenize ⟨false, 0⟩ "=(A1 +".toList = .error ⟨.nestingTooDeep 0, 1, "=(A1 +".toList⟩ := by
  intro spaced plain
  have hs : tokenize ⟨true, 0⟩ "=A1 +  -1".toList = .ok spaced := toOption_eq_some_iff.1 (by decide +kernel)
  have hp : tokenize ⟨false, 0⟩ "=A1 +  -1".toList = .ok plain := toOption_eq_some_iff.1 (by decide +kernel)
  obtain ⟨plain', hp', unspaced, -⟩ := (tokenize_unspaced 0 "=A1 +  -1".toList).2.2 spaced hs
  obtain rfl : plain = plain' := Except.ok.inj (hp.symm.trans hp')
  have fails : tokenize ⟨true, 0⟩ "=(A1 +".toList = .error ⟨.nestingTooDeep 0, 1, "=(A1 +".toList⟩ := by decide +kernel
  exact ⟨hs, hp, unspaced, fails, ((tokenize_unspaced 0 _).2.1 _).1 fails⟩

end Spreadsheet.Formula
