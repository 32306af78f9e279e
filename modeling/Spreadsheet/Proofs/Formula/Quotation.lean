import Spreadsheet.Formula.Dependencies
import Spreadsheet.Proofs.Formula.Relocation

/-!
# Texts are opaque

A text in a formula is one piece from its first quote to the quote that closes it.  Whatever stands between them, the
neighbours of the piece see quotes only, and every quote inside is written twice.  So another text may take its place:
the formula has the same tokens but for this one, and what is read off the tokens or done to them does not notice.

* `quotation` — the operand that quotes a text.
* `fits_requotes` — a quotation may stand wherever another text has stood.
* `tokenize_quotation` — the formula with the quotation in place of a text: its tokens, what it depends on, and what
  rewriting makes of it.
-/

namespace Spreadsheet.Formula

/-! ### Quotations -/

/-- The operand that quotes a text: the text between quotes, with every quote in it written twice. -/
def quotation (s : List Char) : Token :=
  ⟨'"' :: double '"' s ++ ['"'], .operand .text⟩

/-- Operands that are the same, or a text and a quotation. -/
def Requotes (v w : List Char) : Prop :=
  v = w ∨ v.head? = some '"' ∧ ∃ s, w = (quotation s).value

/-- An operand that begins with a quote is one text. -/
theorem eq_quotedText_of_head? {os : List Piece} (operand : IsOperand os) (separate : Separate os)
    (head : (os.flatMap Piece.text).head? = some '"') : ∃ text, os = [.quotedText text] := by
  obtain ⟨text, rfl | rfl⟩ | ⟨ne, held⟩ := operand
  · exact ⟨text, rfl⟩
  · have all : ∀ code ∈ errorCodes, code.head? ≠ some '"' := by decide
    exact absurd (by simpa [Piece.text] using head) (all text separate.1)
  · exact absurd head (head?_ne_of_held ne held separate).1

/-- One text may stand wherever another one stands. -/
theorem exchange_quotedText {v w : List Char} (old : (Piece.quotedText v).Formed) (new : (Piece.quotedText w).Formed) :
    Exchange [.quotedText v] [.quotedText w] where
  operand := .inl ⟨w, .inl rfl⟩
  separate := ⟨new, Piece.ends_nil _, trivial⟩
  held := fun held => by simp [Held, joins] at held
  front := by
    obtain ⟨inner, rfl⟩ := old
    obtain ⟨inner', rfl⟩ := new
    exact fun p => (Piece.ends_congr rfl).1
  back := by
    intro behind ends p last
    obtain rfl : .quotedText w = p := by simpa using last
    exact ends (.quotedText v) rfl
  exponent := by
    obtain ⟨inner', rfl⟩ := new
    simp [Piece.text, awaitsExponent]

/-- A quotation may stand wherever another text has stood. -/
theorem fits_requotes : Fits Requotes := by
  rintro v w (rfl | ⟨head, s, rfl⟩) os operand separate rfl
  · exact ⟨os, rfl, .refl operand separate⟩
  · obtain ⟨text, rfl⟩ := eq_quotedText_of_head? operand separate head
    exact ⟨[.quotedText (quotation s).value], by simp [Piece.text], exchange_quotedText separate.1 ⟨s, rfl⟩⟩

/-! ### One token for another -/

section

variable {α : Type} {as : List α} {i : Nat} {a b : α}

theorem forall₂_set {S : α → α → Prop} (same : ∀ c ∈ as, S c c) (here : as[i]? = some a) (related : S a b) :
    List.Forall₂ S as (as.set i b) := by
  induction as generalizing i with
  | nil => simp at here
  | cons c as ih =>
    obtain ⟨first, rest⟩ := List.forall_mem_cons.1 same
    cases i with
    | zero =>
      obtain rfl : c = a := by simpa using here
      exact .cons related (List.forall₂_same.2 rest)
    | succ i => exact .cons first (ih rest (by simpa using here))

theorem flatMap_set {β : Type} {f : α → List β} (here : as[i]? = some a) (same : f b = f a) :
    (as.set i b).flatMap f = as.flatMap f := by
  induction as generalizing i with
  | nil => rfl
  | cons c as ih =>
    cases i with
    | zero =>
      obtain rfl : c = a := by simpa using here
      rw [List.set_cons_zero, List.flatMap_cons, List.flatMap_cons, same]
    | succ i => rw [List.set_cons_succ, List.flatMap_cons, List.flatMap_cons, ih (by simpa using here)]

end

/-! ### A quotation in place of a text -/

section

variable {options : Options} {tokens : List Token} {i : Nat} {t : Token}

/-- A text in a formula begins with a quote. -/
theorem exists_text_of_tokenize {formula : List Char} (h : tokenize options formula = .ok tokens)
    (found : tokens[i]? = some t) (text : t.kind = .operand .text) :
    ∃ v, t = .operand v ∧ v.head? = some '"' := by
  rcases operand_or_of_tokenize h t (List.mem_of_getElem? found) with ⟨v, rfl⟩ | other
  · refine ⟨v, rfl, ?_⟩
    have kind : Token.operandKind v = .text := TokenKind.operand.inj text
    by_contra head
    rw [Token.operandKind, if_neg head] at kind
    split at kind
    · cases kind
    · split at kind
      · cases kind
      · split at kind <;> cases kind
  · exact absurd text (other .text)

/-- The formula with a quotation in place of a text has the same tokens but for this one. -/
theorem tokenize_set_quotation {formula : List Char}
    (h : tokenize { options with preserveWhitespace := true } formula = .ok tokens) (found : tokens[i]? = some t)
    (text : t.kind = .operand .text) (s : List Char) :
    tokenize { options with preserveWhitespace := true } (render (tokens.set i (quotation s))) =
      .ok (tokens.set i (quotation s)) := by
  obtain ⟨v, rfl, head⟩ := exists_text_of_tokenize h found text
  have same : ∀ t ∈ tokens, TokenSwap Requotes t t := by
    intro t mem
    rcases operand_or_of_tokenize h t mem with ⟨v, rfl⟩ | other
    · exact .operand (.inl rfl)
    · exact .same other
  have swap : List.Forall₂ (TokenSwap Requotes) tokens (tokens.set i (quotation s)) :=
    forall₂_set same found (.operand (.inr ⟨head, s, rfl⟩))
  cases tokenized h with
  | nothing => simp at found
  | literal =>
    have mem := List.mem_of_getElem? found
    simp [Token.operand] at mem
  | formula => exact tokenize_render_of_flatMap (tokenize_of_swap fits_requotes rfl h swap)

/-- Rewriting a formula with another token in one place gives the rewritten formula with the other token in the same
place, which holds the same token as before. -/
def Carries (options : Options) (rewrite : List Char → Except ScanError (List Char)) (formula : List Char)
    (tokens : List Token) (i : Nat) (t other : Token) : Prop :=
  ∃ text moved, rewrite formula = .ok text ∧ tokenize options text = .ok moved ∧ moved[i]? = some t ∧
    rewrite (render (tokens.set i other)) = .ok (render (moved.set i other))

/-- Moving references carries a quotation along. -/
theorem carries_relocate {formula : List Char}
    (h : tokenize { options with preserveWhitespace := true } formula = .ok tokens) (found : tokens[i]? = some t)
    (text : t.kind = .operand .text) (s : List Char) (m : Relocation) :
    Carries { options with preserveWhitespace := true } (relocate options m) formula tokens i t (quotation s) := by
  have stays {u : Token} (text : u.kind = .operand .text) : m.moveToken u = u := by
    rw [Relocation.moveToken, if_neg (by simp [text])]
  obtain ⟨moved, rewritten, again⟩ := tokenize_relocate h m
  refine ⟨moved, _, rewritten, again, ?_, ?_⟩
  · rw [List.getElem?_map, found]
    exact congrArg some (stays text)
  · rw [relocate, tokenize_set_quotation h found text s]
    show Except.ok (render ((tokens.set i (quotation s)).map m.moveToken)) = _
    rw [List.map_set, stays rfl]

/-- **Texts are opaque.** Let a formula be accepted with its spaces, and let a quotation take the place of a text in it.
The new formula has the same tokens but for this one, it depends on the same cells, and when references are moved, by a
line edit or by a distance, the new formula becomes the one that the old formula becomes, with the same quotation in
place of the same text. -/
theorem tokenize_quotation {formula : List Char}
    (h : tokenize { options with preserveWhitespace := true } formula = .ok tokens) (found : tokens[i]? = some t)
    (text : t.kind = .operand .text) (s : List Char) :
    tokenize { options with preserveWhitespace := true } (render (tokens.set i (quotation s))) =
        .ok (tokens.set i (quotation s)) ∧
      dependencies (tokens.set i (quotation s)) = dependencies tokens ∧
      (∀ e : LineEdit, Carries { options with preserveWhitespace := true } (shift options e) formula tokens i t
        (quotation s)) ∧
      ∀ columns rows : Int, Carries { options with preserveWhitespace := true } (offset options columns rows) formula
        tokens i t (quotation s) := by
  have again := tokenize_set_quotation h found text s
  refine ⟨again, ?_, fun e => carries_relocate h found text s e.relocation, fun columns rows => ?_⟩
  · refine flatMap_set found ?_
    rw [cellsOfToken, cellsOfToken, if_neg (by simp [quotation]), if_neg (by simp [text])]
  · by_cases still : columns = 0 ∧ rows = 0
    · -- without any distance both formulas are left as they are
      refine ⟨formula, tokens, ?_, h, found, ?_⟩
      · rw [offset, if_pos still]
      · rw [offset, if_pos still]
    · have carried := carries_relocate h found text s (.offset columns rows)
      have moves : offset options columns rows = relocate options (.offset columns rows) := by
        funext formula
        rw [offset, if_neg still]
      rw [moves]
      exact carried

/-- A text of references, a bracket, a quote, an error code and a new line in place of another one. -/
theorem tokenize_quotation_brackets :
    let formula := "=A1 &\"x\"\"(\"".toList
    let tokens := [⟨"A1".toList, .operand .range⟩, ⟨[' '], .whitespace⟩, ⟨['&'], .infixOperator⟩,
      ⟨"\"x\"\"(\"".toList, .operand .text⟩]
    let other := quotation "B2,)\"#REF!\n[".toList
    tokenize { preserveWhitespace := true } formula = .ok tokens ∧
      render (tokens.set 3 other) = "=A1 &\"B2,)\"\"#REF!\n[\"".toList ∧
      tokenize { preserveWhitespace := true } (render (tokens.set 3 other)) = .ok (tokens.set 3 other) ∧
      dependencies (tokens.set 3 other) = [⟨0, 0⟩] ∧
      offset {} 1 2 (render (tokens.set 3 other)) = .ok "=B3 &\"B2,)\"\"#REF!\n[\"".toList := by
  intro formula tokens other
  have accepted : tokenize { ({} : Options) with preserveWhitespace := true } formula = .ok tokens :=
    toOption_eq_some_iff.1 (by decide +kernel)
  have moved : offset {} 1 2 formula = .ok "=B3 &\"x\"\"(\"".toList := toOption_eq_some_iff.1 (by decide +kernel)
  have split : tokenize { ({} : Options) with preserveWhitespace := true } "=B3 &\"x\"\"(\"".toList =
      .ok (tokens.set 0 ⟨"B3".toList, .operand .range⟩) := toOption_eq_some_iff.1 (by decide +kernel)
  obtain ⟨again, depends, -, offsets⟩ :=
    tokenize_quotation accepted (show tokens[3]? = _ from rfl) rfl "B2,)\"#REF!\n[".toList
  obtain ⟨text, tokens', rewritten, read, -, carried⟩ := offsets 1 2
  rw [moved] at rewritten
  cases rewritten
  rw [split] at read
  cases read
  refine ⟨accepted, by decide +kernel, again, depends.trans (by decide +kernel), carried.trans ?_⟩
  exact congrArg Except.ok (by decide +kernel)

end

end Spreadsheet.Formula
