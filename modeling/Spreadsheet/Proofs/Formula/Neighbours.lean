import Mathlib.Data.List.Chain
import Mathlib.Data.List.Flatten
import Spreadsheet.Proofs.Formula.Spelling

/-!
# Tokens without spaces between them

Putting tokens together writes nothing between them.  Where a space stood that made no token, two tokens meet that were
apart, and they may be read as something else: two operands as one, or two operators as a comparison.  Whether they are
is told by the two tokens alone, for the seam between the pieces of two lexemes holds exactly if their tokens do not
fuse.

* `fuses` — whether two tokens that meet are not read as these two.
* `Spelling.meets_iff` — the seam between two lexemes.
* `isChain_of_spelled` — no two neighbours in a text fuse; `exists_spells_of_isChain` — tokens of which no two neighbours
  fuse have a text.
* `tokenize_render` — tokens are found again in their text exactly if no two neighbours fuse.
-/

namespace Spreadsheet.Formula

/-- Whether a token begins with what an operand in front of it would take in. -/
def goesOn (b : Token) : Bool :=
  b.kind matches .operand _ | .subexpression _ .opening

/-- Whether a token begins with what may be the sign of an exponent. -/
def startsWithSign (b : Token) : Bool :=
  b.value.head? == some '+' || b.value.head? == some '-'

/-- Whether two tokens without a space between them are not read as these two. -/
def fuses (a b : Token) : Bool :=
  match a.kind with
  -- with a second quote the one that ends the text becomes a part of it
  | .operand .text => b.value.head? == some '"'
  -- an error code ends by itself
  | .operand .error => false
  -- any other operand ends where an operator, a closer, a separator or a space begins, unless it awaits a sign
  | .operand _ => goesOn b || awaitsExponent a.value && startsWithSign b
  | .whitespace => b.value.head? == some ' '
  | .prefixOperator | .infixOperator | .postfixOperator =>
    comparisons.any fun pair => a.value == [pair.1] && b.value.head? == some pair.2
  | .literal | .subexpression _ _ | .separator _ => false

/-! ### Where two lexemes meet -/

/-- What the first piece of a lexeme has in common with its token. -/
structure Leads (q : Piece) (b : Token) : Prop where
  head : q.text.head? = b.value.head?
  ender : q.ender? = none ↔ goesOn b = true

theorem goesOn_of_ender {p : Piece} {l : Lexeme} (ender : p.ender? = some l) {b : Token} (makes : l.Makes b) :
    goesOn b = false := by
  cases p with
  | spaces more =>
    cases ender
    obtain rfl : b = ⟨[' '], .whitespace⟩ := makes
    rfl
  | operator first second =>
    cases ender
    obtain ⟨-, kind | kind | kind⟩ := makes <;> simp [goesOn, kind]
  | closing brace =>
    cases ender
    obtain ⟨bracket, -, rfl⟩ := makes
    cases bracket <;> rfl
  | separator semicolon =>
    cases ender
    obtain ⟨-, kind | ⟨_, kind⟩⟩ := makes <;> simp [goesOn, kind]
  | _ => simp [Piece.ender?] at ender

theorem Spelling.goesOn_iff {os : List Piece} {l : Lexeme} (h : Spelling os l) {b : Token} (makes : l.Makes b) :
    ∀ q ∈ os.head?, q.ender? = none ↔ goesOn b = true := by
  intro q hq
  cases h with
  | operand operand _ =>
    obtain rfl : b = .operand _ := makes
    exact iff_of_true (operand.ender?_head q hq) rfl
  | @paren hs held _ =>
    obtain rfl : b = Opener.token _ := makes
    refine iff_of_true ?_ rfl
    cases hs with
    | nil =>
      cases hq
      rfl
    | cons p hs => exact IsOperand.ender?_head (.inr ⟨by simp, held⟩) q hq
  | brace =>
    obtain rfl : b = Opener.token _ := makes
    cases hq
    exact iff_of_true rfl rfl
  | ender ender _ =>
    cases hq
    exact iff_of_false (by simp [ender]) (by simp [goesOn_of_ender ender makes])

/-- A lexeme begins with a piece that tells of its token. -/
theorem Spelling.leads {os : List Piece} {l : Lexeme} (h : Spelling os l) {b : Token} (makes : l.Makes b) :
    ∃ q qs, os = q :: qs ∧ q.Formed ∧ Leads q b := by
  obtain ⟨normal, text⟩ := h.normal
  obtain ⟨q, qs, rfl⟩ := List.exists_cons_of_ne_nil h.ne_nil
  refine ⟨q, qs, rfl, h.separate.1, ?_, h.goesOn_iff makes q rfl⟩
  rw [makes.value, ← text, List.map_cons, List.flatMap_cons,
    List.head?_append_of_ne_nil _ normal.separate.1.text_ne_nil, q.head?_text_normal]

/-- Whether the pieces of a lexeme are found again in front of others. -/
def Meets (os rest : List Piece) : Prop :=
  (∀ p ∈ os.getLast?, p.Ends (rest.flatMap Piece.text)) ∧ (Held [] os → Stops os rest)

/-- A piece that ends an operand is taken in by it only if it is a sign. -/
theorem joins_of_ender {q : Piece} {l : Lexeme} (ender : q.ender? = some l) (held : List Char) :
    joins held q = (awaitsExponent held.reverse && (q.text.head? == some '+' || q.text.head? == some '-')) := by
  cases q with
  | operator first second => simp [joins, Piece.text, Bool.and_comm]
  | spaces more => simp [joins, Piece.text, List.replicate_succ]
  | closing brace => cases brace <;> simp [joins, Piece.text]
  | separator semicolon => cases semicolon <;> simp [joins, Piece.text]
  | _ => simp [Piece.ender?] at ender

/-- A piece that is held takes in nothing of one that ends the operand. -/
theorem ends_of_joins {p q : Piece} {held : List Char} {l : Lexeme} (joined : joins held p = true) (formed : q.Formed)
    (ender : q.ender? = some l) : p.Ends q.text := by
  cases p with
  | plain | bracketed => exact fun _ _ => rfl
  | quotedLink text =>
    -- the ender would have to begin with another quote
    intro c hc
    refine decide_eq_false ?_
    rintro rfl
    cases q with
    | operator first second =>
      obtain rfl : first = '\x27' := by simpa [Piece.text] using hc
      exact absurd formed.mem_operators (by decide)
    | spaces more => simp [Piece.text, List.replicate_succ] at hc
    | closing brace => cases brace <;> simp [Piece.text] at hc
    | separator semicolon => cases semicolon <;> simp [Piece.text] at hc
    | _ => simp [Piece.ender?] at ender
  | operator first second =>
    intro c _
    cases second with
    | none =>
      have sign : first = '+' ∨ first = '-' := by simpa using (Bool.and_eq_true_iff.1 joined).1
      rcases sign with rfl | rfl <;> simp [Piece.absorbs, comparisons]
    | some d => rfl
  | _ => simp [joins] at joined

theorem exists_joins_of_held {held : List Char} {os : List Piece} (h : Held held os) :
    ∀ p ∈ os.getLast?, ∃ held', joins held' p = true := by
  intro p hp
  obtain ⟨init, rfl⟩ := List.getLast?_eq_some_iff.1 hp
  exact ⟨_, (held_append.1 h).2.1⟩

section

variable {os rest : List Piece} {q : Piece} {a b : Token}

theorem Leads.ends_iff (h : Leads q b) (formed : q.Formed) (p : Piece) :
    p.Ends ((q :: rest).flatMap Piece.text) ↔ p.Ends b.value := by
  rw [List.flatMap_cons, Piece.ends_append formed.text_ne_nil]
  exact Piece.ends_congr h.head

/-- Held text stops in front of what neither goes on nor is the sign of an exponent. -/
theorem Leads.stops_iff (h : Leads q b) :
    Stops os (q :: rest) ↔
      (goesOn b || awaitsExponent (os.flatMap Piece.text) && startsWithSign b) = false := by
  have stops : Stops os (q :: rest) ↔ (∃ l, q.ender? = some l) ∧ joins (os.flatMap Piece.text).reverse q = false := by
    simp [Stops]
  rw [stops]
  cases ender : q.ender? with
  | none => simp [h.ender.1 ender]
  | some l =>
    have ends : goesOn b = false := Bool.eq_false_iff.2 fun goes => by simp [h.ender.2 goes] at ender
    simp [joins_of_ender ender, ends, h.head, startsWithSign]

/-- The pieces of an operand that was held are found again exactly if it is not held any longer. -/
theorem Leads.meets_iff_of_held (h : Leads q b) (formed : q.Formed) (held : Held [] os) :
    Meets os (q :: rest) ↔ Stops os (q :: rest) := by
  refine ⟨fun meets => meets.2 held, fun stops => ⟨fun p hp => ?_, fun _ => stops⟩⟩
  obtain ⟨held', joined⟩ := exists_joins_of_held held p hp
  obtain ⟨⟨l, ender⟩, -⟩ := stops q rfl
  rw [h.ends_iff formed]
  exact (Piece.ends_congr h.head).1 (ends_of_joins joined formed ender)

end

/-! ### The seam told by the tokens -/

/-- An operand that was held is no text and no error code. -/
theorem fuses_operand_of_held {os : List Piece} (ne : os ≠ []) (held : Held [] os) (separate : Separate os)
    (b : Token) :
    fuses (.operand (os.flatMap Piece.text)) b =
      (goesOn b || awaitsExponent (os.flatMap Piece.text) && startsWithSign b) := by
  have head := head?_ne_of_held ne held separate
  generalize os.flatMap Piece.text = v at head
  have kind : Token.operandKind v ≠ .text ∧ Token.operandKind v ≠ .error := by
    rw [Token.operandKind, if_neg head.1, if_neg head.2]
    split
    · simp
    · split <;> simp
  simp only [fuses, Token.operand]
  cases is : Token.operandKind v with
  | text => exact absurd is kind.1
  | error => exact absurd is kind.2
  | _ => rfl

/-- What stands behind an ender is not taken in by it exactly if the tokens do not fuse. -/
theorem ends_iff_of_ender {p : Piece} {l : Lexeme} {a : Token} (ender : p.ender? = some l) (makes : l.Makes a)
    (b : Token) : p.Ends b.value ↔ fuses a b = false := by
  cases p with
  | spaces more =>
    cases ender
    obtain rfl : a = ⟨[' '], .whitespace⟩ := makes
    cases head : b.value.head? <;> simp [Piece.Ends, Piece.absorbs, fuses, head]
  | operator first second =>
    cases ender
    obtain ⟨value, kind⟩ := makes
    have eq : fuses a b = comparisons.any fun pair => a.value == [pair.1] && b.value.head? == some pair.2 := by
      rcases kind with kind | kind | kind <;> simp only [fuses, kind]
    rw [eq, value]
    cases second with
    | none =>
      cases head : b.value.head? with
      | none => simp [Piece.Ends, head]
      | some c =>
        simp only [Piece.Ends, Piece.absorbs, head]
        simp
        exact ⟨fun apart x y mem left right => apart (left ▸ right ▸ mem), fun apart mem => apart _ _ mem rfl rfl⟩
    | some d => exact iff_of_true (fun _ _ => rfl) (by simp)
  | closing brace =>
    cases ender
    obtain ⟨bracket, -, rfl⟩ := makes
    exact iff_of_true (fun _ _ => rfl) (by cases bracket <;> rfl)
  | separator semicolon =>
    cases ender
    refine iff_of_true (fun _ _ => rfl) ?_
    obtain ⟨value, kind | ⟨_, kind⟩⟩ := makes
    · cases semicolon <;> simp [fuses, kind, value, comparisons]
    · simp [fuses, kind]
  | _ => simp [Piece.ender?] at ender

/-- **The seam.** The pieces of a lexeme are found again in front of others exactly if its token does not fuse with the
next one. -/
theorem Spelling.meets_iff {os rest : List Piece} {l : Lexeme} {q : Piece} {a b : Token} (h : Spelling os l)
    (makes : l.Makes a) (formed : q.Formed) (leads : Leads q b) : Meets os (q :: rest) ↔ fuses a b = false := by
  -- where nothing is held the last piece has to keep apart from what follows, and that is all
  have unheld {p : Piece} (last : os.getLast? = some p) (other : ¬Held [] os) :
      Meets os (q :: rest) ↔ p.Ends b.value := by
    have ends := @Leads.ends_iff rest q b leads formed p
    rw [Meets, last, ← ends]
    simp only [other, Option.mem_some_iff, forall_eq', false_implies, and_true]
  have not_held := h.not_held
  cases h with
  | operand operand separate =>
    obtain rfl : a = .operand _ := makes
    obtain ⟨text, rfl | rfl⟩ | ⟨ne, held⟩ := operand
    · obtain ⟨inner, rfl⟩ := separate.1
      rw [unheld rfl (by simp [Held, joins])]
      cases head : b.value.head? <;>
        simp [Piece.Ends, Piece.absorbs, fuses, Token.operand, Token.operandKind, Piece.text, head]
    · rw [unheld rfl (by simp [Held, joins])]
      have all : ∀ code ∈ errorCodes, Token.operandKind code = .error := by decide
      refine iff_of_true (fun _ _ => rfl) ?_
      simp [fuses, Token.operand, Piece.text, all text separate.1]
    · rw [leads.meets_iff_of_held formed held, leads.stops_iff, fuses_operand_of_held ne held separate]
  | paren =>
    obtain rfl : a = Opener.token _ := makes
    rw [unheld List.getLast?_concat (not_held (by simp))]
    exact iff_of_true (fun _ _ => rfl) rfl
  | brace =>
    obtain rfl : a = Opener.token _ := makes
    rw [unheld rfl (not_held (by simp))]
    exact iff_of_true (fun _ _ => rfl) rfl
  | ender ender _ =>
    rw [unheld rfl (not_held (ender_ne_operand ender))]
    exact ends_iff_of_ender ender makes b

/-! ### Along a text, and along a list of tokens -/

section

variable {ps : List Piece} {ls : List Lexeme} {ts : List Token}

theorem Spelling.meets_iff_of_spelled {os : List Piece} {l : Lexeme} {a : Token} (h : Spelling os l) (makes : l.Makes a)
    (spelled : Spelled ps ls) (made : List.Forall₂ Lexeme.Makes ls ts) :
    Meets os ps ↔ ∀ b ∈ ts.head?, fuses a b = false := by
  cases spelled with
  | nil =>
    cases made
    exact iff_of_true ⟨fun p _ => p.ends_nil, fun _ _ none => nomatch none⟩ (by simp)
  | cons spelling _ _ =>
    cases made with
    | cons makes' _ =>
      obtain ⟨q, qs, rfl, formed, leads⟩ := spelling.leads makes'
      rw [List.cons_append, h.meets_iff makes formed leads]
      simp

/-- The tokens of a text do not fuse, those of spaces included. -/
theorem isChain_of_spelled (spelled : Spelled ps ls) (apart : Separate ps) (made : List.Forall₂ Lexeme.Makes ls ts) :
    ts.IsChain fun a b => fuses a b = false := by
  induction spelled generalizing ts with
  | nil =>
    cases made
    exact .nil
  | cons spelling stops behind ih =>
    cases made with
    | cons makes made =>
      obtain ⟨-, apart', meets⟩ := separate_append.1 apart
      have seam := (spelling.meets_iff_of_spelled makes behind made).1 ⟨meets, stops⟩
      exact List.isChain_cons.2 ⟨seam, ih apart' made⟩

/-- Lexemes of which each has pieces can be spelt one behind the other if their tokens do not fuse. -/
theorem exists_spells_of_isChain (made : List.Forall₂ Lexeme.Makes ls ts) (each : ∀ l ∈ ls, ∃ os, Spelling os l)
    (chain : ts.IsChain fun a b => fuses a b = false) : ∃ ps, Spelled ps ls ∧ Spells ps ls := by
  induction made with
  | nil => exact ⟨[], .nil, .nil⟩
  | cons makes made ih =>
    obtain ⟨⟨os, spelling⟩, each⟩ := List.forall_mem_cons.1 each
    obtain ⟨seam, chain⟩ := List.isChain_cons.1 chain
    obtain ⟨ps, spelled, spells⟩ := ih each chain
    obtain ⟨normal, text⟩ := spelling.normal
    obtain ⟨meets, stops⟩ := (normal.meets_iff_of_spelled makes spelled made).2 seam
    exact ⟨_, .cons normal stops spelled, spells.cons normal text meets stops⟩

theorem Spelled.exists_spelling (h : Spelled ps ls) : ∀ l ∈ ls, ∃ os, Spelling os l := by
  induction h with
  | nil => simp
  | cons spelling _ _ ih => exact List.forall_mem_cons.2 ⟨⟨_, spelling⟩, ih⟩

end

/-! ### Formulas -/

variable {options : Options} {tokens : List Token}

/-- No spaces have been left out where the text of what is kept is all there is. -/
theorem keeps_of_length_le {ls : List Lexeme}
    (h : (ls.flatMap (Lexeme.text [' '])).length ≤ ((ls.filter options.keeps).flatMap (Lexeme.text [' '])).length) :
    ∀ l ∈ ls, options.keeps l = true := by
  induction ls with
  | nil => simp
  | cons l ls ih =>
    have shorter : ((ls.filter options.keeps).flatMap (Lexeme.text [' '])).length ≤
        (ls.flatMap (Lexeme.text [' '])).length := (List.filter_sublist.flatMap _).length_le
    by_cases keep : options.keeps l = true
    · rw [List.filter_cons_of_pos keep] at h
      simp only [List.flatMap_cons, List.length_append] at h
      exact List.forall_mem_cons.2 ⟨keep, ih (by omega)⟩
    · obtain ⟨-, rfl⟩ : options.preserveWhitespace = false ∧ l = .space := by
        simpa [Options.keeps] using keep
      rw [List.filter_cons_of_neg keep, List.flatMap_cons, List.length_append, Lexeme.text, List.length_singleton] at h
      omega

theorem spaced_sublist_text (p : Piece) : (p.spaced [' ']).Sublist p.text := by
  cases p with
  | spaces more => exact List.singleton_sublist.2 (by simp [Piece.text])
  | _ => exact List.Sublist.refl _

/-- The tokens of a formula do not fuse if those of spaces are among them. -/
theorem isChain_of_tokenize {body : List Char} (preserves : options.preserveWhitespace = true)
    (h : tokenize options ('=' :: body) = .ok tokens) : tokens.IsChain fun a b => fuses a b = false := by
  obtain ⟨ls, apart, gathered, made⟩ := forall₂_makes_of_tokenize h
  rw [List.filter_eq_self.2 fun l _ => by rw [Options.keeps, preserves, Bool.true_or]] at made
  exact isChain_of_spelled (spelled_of_gather apart gathered) apart made

/-- Tokens that are found again in their own text do not fuse. -/
theorem isChain_of_tokenize_flatMap (h : tokenize options ('=' :: tokens.flatMap Token.value) = .ok tokens) :
    tokens.IsChain fun a b => fuses a b = false := by
  obtain ⟨ls, apart, gathered, made⟩ := forall₂_makes_of_tokenize h
  have whole : (ls.flatMap (Lexeme.text [' '])).Sublist ((ls.filter options.keeps).flatMap (Lexeme.text [' '])) := by
    rw [← flatMap_value_of_forall₂_makes made, flatMap_text_of_gather [' '] gathered]
    have := List.Sublist.flatMap_right (pieces (tokens.flatMap Token.value)) fun p _ => spaced_sublist_text p
    rwa [text_pieces] at this
  rw [List.filter_eq_self.2 (keeps_of_length_le whole.length_le)] at made
  exact isChain_of_spelled (spelled_of_gather apart gathered) apart made

/-- Tokens of a formula that do not fuse are found again in their own text. -/
theorem tokenize_flatMap_of_isChain {body : List Char} (h : tokenize options ('=' :: body) = .ok tokens)
    (chain : tokens.IsChain fun a b => fuses a b = false) :
    tokenize options ('=' :: tokens.flatMap Token.value) = .ok tokens := by
  obtain ⟨ls, apart, gathered, made⟩ := forall₂_makes_of_tokenize h
  obtain ⟨-, ls', p, gathered', read, closed, rfl⟩ := tokenize_eq_ok_iff.1 h
  obtain rfl : ls = ls' := Option.some.inj (gathered.symm.trans gathered')
  have each := (spelled_of_gather apart gathered).exists_spelling
  obtain ⟨ps, -, spells⟩ :=
    exists_spells_of_isChain made (fun l mem => each l (List.mem_of_mem_filter mem)) chain
  refine spells.tokenize (fun l mem => (List.mem_filter.1 mem).2) ?_ closed
  rw [Progress.readAll_filter_keeps, read]

/-- **Rereading.** Tokens that are put together are found again in the text if spaces are preserved.  If they are not,
the tokens are found again exactly if no two neighbours fuse. -/
theorem tokenize_render {formula : List Char} (h : tokenize options formula = .ok tokens) :
    (options.preserveWhitespace = true → tokenize options (render tokens) = .ok tokens) ∧
      (tokenize options (render tokens) = .ok tokens ↔ tokens.IsChain fun a b => fuses a b = false) := by
  cases tokenized h with
  | nothing => exact ⟨fun _ => rfl, iff_of_true rfl .nil⟩
  | @literal c s _ =>
    have again : tokenize options (render [⟨c :: s, .literal⟩]) = .ok [⟨c :: s, .literal⟩] := h
    exact ⟨fun _ => again, iff_of_true again (.singleton _)⟩
  | formula =>
    by_cases empty : tokens = []
    · subst empty
      exact ⟨fun _ => rfl, iff_of_true rfl .nil⟩
    · obtain ⟨ls, -, -, made⟩ := forall₂_makes_of_tokenize h
      rw [render_of_ne_literal empty (kind_ne_literal_of_makes made)]
      exact ⟨fun preserves => tokenize_flatMap_of_isChain h (isChain_of_tokenize preserves h),
        isChain_of_tokenize_flatMap, tokenize_flatMap_of_isChain h⟩

/-- With spaces preserved two names stay two.  Without them a text, an error code and a name may meet, and so may a name
and an operator. -/
theorem tokenize_render_meeting :
    let spaced := [⟨['A'], .operand .range⟩, ⟨[' '], .whitespace⟩, ⟨['B'], .operand .range⟩]
    let plain := [⟨"\"a\"".toList, .operand .text⟩, ⟨"#N/A".toList, .operand .error⟩, ⟨"B1".toList, .operand .range⟩,
      ⟨['>'], .infixOperator⟩, ⟨['1'], .operand .number⟩]
    tokenize { preserveWhitespace := true } "=A  B".toList = .ok spaced ∧
      tokenize { preserveWhitespace := true } (render spaced) = .ok spaced ∧
      tokenize {} "=\"a\" #N/A B1 > 1".toList = .ok plain ∧ tokenize {} (render plain) = .ok plain := by
  intro spaced plain
  have hs : tokenize { preserveWhitespace := true } "=A  B".toList = .ok spaced :=
    toOption_eq_some_iff.1 (by decide +kernel)
  have hp : tokenize {} "=\"a\" #N/A B1 > 1".toList = .ok plain := toOption_eq_some_iff.1 (by decide +kernel)
  exact ⟨hs, (tokenize_render hs).1 rfl, hp, (tokenize_render hp).2.2 (by decide +kernel)⟩

/-- Two cells with a space between them that is not preserved become one name. -/
theorem tokenize_render_fused :
    let tokens := [⟨"B1".toList, .operand .range⟩, ⟨"C1".toList, .operand .range⟩]
    tokenize {} "=B1 C1".toList = .ok tokens ∧ tokenize {} (render tokens) = .ok [⟨"B1C1".toList, .operand .range⟩] ∧
      tokenize {} (render tokens) ≠ .ok tokens := by
  intro tokens
  have fused : tokenize {} (render tokens) = .ok [⟨"B1C1".toList, .operand .range⟩] :=
    toOption_eq_some_iff.1 (by decide +kernel)
  refine ⟨toOption_eq_some_iff.1 (by decide +kernel), fused, ?_⟩
  rw [fused]
  simp [tokens]

end Spreadsheet.Formula
