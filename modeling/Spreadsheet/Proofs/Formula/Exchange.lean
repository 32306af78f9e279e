import Spreadsheet.Proofs.Formula.Spelling

/-!
# Exchanging operands in the text of a formula

A formula is put together again from lexemes, some of whose operands have been exchanged for others.  The new
text is cut into pieces and joined into lexemes as any other text, and nothing in it says where the old seams
were.  They are found again nevertheless, provided that each new operand fits between its neighbours:

* `Exchange` — what the pieces of a new operand must have in common with the pieces of the old one: what may
  stand in front and behind, and that a sign behind them is not taken for the sign of an exponent.
* `exists_spells_of_swap` — if every exchange fits, there are pieces that spell the exchanged lexemes.
* `tokenize_of_swap` — so the formula with the exchanged operands has the exchanged tokens.
-/

namespace Spreadsheet.Formula

/-! ### Exchanging operands -/

/-- What may stand in front of the old pieces may stand in front of the new ones. -/
def Admits (old new : List Piece) : Prop :=
  ∀ p : Piece, p.Ends (old.flatMap Piece.text) → p.Ends (new.flatMap Piece.text)

/-- The new pieces of an operand may stand wherever the old ones stand. -/
structure Exchange (old new : List Piece) : Prop where
  operand : IsOperand new
  separate : Separate new
  held : Held [] new → Held [] old
  front : Admits old new
  /-- What may stand behind the old operand may stand behind the new one. -/
  back : ∀ behind, (∀ p ∈ old.getLast?, p.Ends behind) → ∀ p ∈ new.getLast?, p.Ends behind
  /-- A sign behind the new operand belongs to an exponent only if it did so before. -/
  exponent : awaitsExponent (new.flatMap Piece.text) = true →
    awaitsExponent (old.flatMap Piece.text) = true

theorem Exchange.refl {os : List Piece} (operand : IsOperand os) (separate : Separate os) :
    Exchange os os :=
  ⟨operand, separate, id, fun _ h => h, fun _ h => h, id⟩

/-- A piece that does not belong to the old operand does not belong to the new one. -/
theorem Exchange.joins_eq_false {old new : List Piece} (h : Exchange old new) {p : Piece} {l : Lexeme}
    (ender : p.ender? = some l) (free : joins (old.flatMap Piece.text).reverse p = false) :
    joins (new.flatMap Piece.text).reverse p = false := by
  cases p with
  | operator first second =>
    simp only [joins, List.reverse_reverse, Bool.and_eq_false_imp] at free ⊢
    intro sign
    exact Bool.eq_false_iff.2 fun awaits => Bool.eq_false_iff.1 (free sign) (h.exponent awaits)
  | spaces | closing | separator => rfl
  | _ => simp [Piece.ender?] at ender

/-- What may stand behind the old operand ends the new one as well. -/
theorem Exchange.stops {old new rest : List Piece} (h : Exchange old new) (stops : Stops old rest) :
    Stops new rest := by
  intro p hp
  obtain ⟨⟨l, ender⟩, free⟩ := stops p hp
  exact ⟨⟨l, ender⟩, h.joins_eq_false ender free⟩

/-- New pieces in front of new pieces admit what the old ones in front of the old ones do. -/
theorem Exchange.admits {old new : List Piece} (h : Exchange old new) (separate : Separate old) (ne : old ≠ [])
    (tail tail' : List Piece) : Admits (old ++ tail) (new ++ tail') := by
  intro p hp
  rw [List.flatMap_append, Piece.ends_append (separate.text_ne_nil ne)] at hp
  rw [List.flatMap_append, Piece.ends_append (h.separate.text_ne_nil h.operand.ne_nil)]
  exact h.front p hp

section Swap

variable {R : List Char → List Char → Prop}

/-- Whether every exchange of operands that `R` allows fits between the neighbours. -/
def Fits (R : List Char → List Char → Prop) : Prop :=
  ∀ v w, R v w → ∀ old, IsOperand old → Separate old → old.flatMap Piece.text = v →
    ∃ new, new.flatMap Piece.text = w ∧ Exchange old new

/-- Lexemes with exchanged operands are spelt by pieces that may stand where the old pieces stand. -/
theorem exists_spells_of_swap (fits : Fits R) {ps : List Piece} {ls ls' : List Lexeme} (apart : Separate ps)
    (spelled : Spelled ps ls) (swap : List.Forall₂ (Lexeme.Swap R) ls ls') :
    ∃ new, Spells new ls' ∧ Admits ps new ∧ ∀ front, Stops front ps → Stops front new := by
  induction spelled generalizing ls' with
  | nil =>
    cases swap
    exact ⟨[], .nil, fun p _ => p.ends_nil, fun _ stops => stops⟩
  | @cons os ps l ls spelling stops _ ih =>
    obtain ⟨l', ls', first, behind, rfl⟩ := List.forall₂_cons_left_iff.1 swap
    obtain ⟨separate, apart', meets⟩ := separate_append.1 apart
    obtain ⟨tail', spells, admits, stopped⟩ := ih apart' behind
    obtain ⟨q, qs, rfl⟩ := List.exists_cons_of_ne_nil spelling.ne_nil
    cases first with
    | same other =>
      obtain ⟨normal, text⟩ := spelling.normal
      have meets' : ∀ p ∈ ((q :: qs).map Piece.normal).getLast?, p.Ends (tail'.flatMap Piece.text) :=
        ends_getLast?_normal.2 fun p hp => admits p (meets p hp)
      refine ⟨_, spells.cons normal text meets' fun held => ?_, ?_, ?_⟩
      · exact absurd held (normal.not_held other)
      · intro p hp
        have first := separate.1.text_ne_nil
        have first' := (q.formed_normal.2 separate.1).text_ne_nil
        rw [List.cons_append, List.flatMap_cons, Piece.ends_append first] at hp
        rw [List.map_cons, List.cons_append, List.flatMap_cons, Piece.ends_append first']
        exact (Piece.ends_congr q.head?_text_normal).2 hp
      · intro front h p hp
        obtain rfl : q.normal = p := by simpa using hp
        simpa using h q rfl
    | operand related =>
      obtain ⟨operand, rfl⟩ := spelling.isOperand
      obtain ⟨new, rfl, exchange⟩ := fits _ _ related _ operand separate rfl
      have meets' : ∀ p ∈ new.getLast?, p.Ends (tail'.flatMap Piece.text) :=
        exchange.back _ fun p hp => admits p (meets p hp)
      refine ⟨_, spells.cons (.operand exchange.operand exchange.separate) rfl meets' fun held => ?_,
        exchange.admits separate (by simp) ps tail', fun front h => ?_⟩
      · exact exchange.stops (stopped _ (stops (exchange.held held)))
      · obtain ⟨⟨l, ender⟩, -⟩ := h q rfl
        rw [operand.ender?_head q rfl] at ender
        cases ender

/-- Exchanged tokens come from lexemes that are exchanged in the same way. -/
theorem exists_swap_of_makes {ls : List Lexeme} {tokens tokens' : List Token}
    (made : List.Forall₂ Lexeme.Makes ls tokens) (swap : List.Forall₂ (TokenSwap R) tokens tokens') :
    ∃ ls', List.Forall₂ (Lexeme.Swap R) ls ls' ∧ List.Forall₂ Lexeme.Makes ls' tokens' := by
  induction made generalizing tokens' with
  | nil =>
    cases swap
    exact ⟨[], .nil, .nil⟩
  | @cons l t ls tokens makes _ ih =>
    obtain ⟨t', rest, first, behind, rfl⟩ := List.forall₂_cons_left_iff.1 swap
    obtain ⟨ls', swapped, made'⟩ := ih behind
    cases first with
    | @operand v w related =>
      rcases makes.operand_or with ⟨text, rfl, eq⟩ | ⟨-, other, -⟩
      · obtain rfl : v = text := congrArg Token.value eq
        exact ⟨.operand w :: ls', .cons (.operand related) swapped, .cons rfl made'⟩
      · exact absurd rfl (other _)
    | same other =>
      refine ⟨l :: ls', .cons (.same ?_) swapped, .cons makes made'⟩
      rintro v rfl
      obtain rfl : t = .operand v := makes
      exact other _ rfl

/-- The lexemes and the old tokens tell the new tokens. -/
theorem eq_of_makes_of_swap {ls : List Lexeme} {tokens tokens' tokens'' : List Token}
    (made' : List.Forall₂ Lexeme.Makes ls tokens') (made'' : List.Forall₂ Lexeme.Makes ls tokens'')
    (swap' : List.Forall₂ (TokenSwap R) tokens tokens') (swap'' : List.Forall₂ (TokenSwap R) tokens tokens'') :
    tokens' = tokens'' := by
  induction made' generalizing tokens tokens'' with
  | nil =>
    cases made''
    rfl
  | @cons l t' ls tokens' makes' _ ih =>
    obtain ⟨t'', rest'', makes'', behind'', rfl⟩ := List.forall₂_cons_left_iff.1 made''
    obtain ⟨t, rest, first', swapped', rfl⟩ := List.forall₂_cons_right_iff.1 swap'
    obtain ⟨first'', swapped''⟩ := List.forall₂_cons.1 swap''
    rw [ih behind'' swapped' swapped'']
    congr 1
    cases first' with
    | operand _ =>
      rcases makes'.operand_or with ⟨text, rfl, eq⟩ | ⟨-, other, -⟩
      · rw [eq]
        exact makes''.symm
      · exact absurd rfl (other _)
    | same other =>
      cases first'' with
      | operand _ => exact absurd rfl (other _)
      | same _ => rfl

/-- The formula with its operands exchanged has its tokens exchanged in the same way and no others. -/
theorem tokenize_of_swap (fits : Fits R) {options : Options} {body : List Char} {tokens tokens' : List Token}
    (preserves : options.preserveWhitespace = true) (h : tokenize options ('=' :: body) = .ok tokens)
    (swap : List.Forall₂ (TokenSwap R) tokens tokens') :
    tokenize options ('=' :: tokens'.flatMap Token.value) = .ok tokens' := by
  obtain ⟨apart, ls, p, gathered, read, closed, rfl⟩ := tokenize_eq_ok_iff.1 h
  have kept (ls : List Lexeme) : ∀ l ∈ ls, options.keeps l = true := by
    intro l _
    rw [Options.keeps, preserves, Bool.true_or]
  have made {ls p} (read : (Progress.start options.maxDepth).readAll options ls = .ok p) :
      List.Forall₂ Lexeme.Makes ls p.tokens.reverse := by
    have made := Progress.forall₂_makes_start read
    rwa [List.filter_eq_self.2 (kept ls)] at made
  obtain ⟨ls', lexemes, made'⟩ := exists_swap_of_makes (made read) swap
  obtain ⟨ps, spells, -⟩ := exists_spells_of_swap fits apart (spelled_of_gather apart gathered) lexemes
  obtain ⟨q, read', nesting, tokens⟩ := Progress.readAll_swap lexemes .nil rfl read
  rw [eq_of_makes_of_swap made' (made read') swap (List.rel_reverse tokens)]
  exact spells.tokenize (kept ls') read' (by rw [← nesting, closed])

end Swap

end Spreadsheet.Formula
