import Mathlib.Data.List.Induction
import Spreadsheet.Formula.Relocation
import Spreadsheet.Proofs.Formula.Exchange
import Spreadsheet.Proofs.Formula.Operand

/-!
# Moving references touches nothing else

A formula whose references have been moved is split again into the tokens it was put together from.  The text of
a reference stands at the end of its operand in plain characters, and so does the new text, so that the seams to
the neighbours stay as they were; an operand that became `#REF!` is an error code, which takes nothing in.  This holds
also where the new text is not read as a reference again, as for a row on the last index (`Address.rowName`).

* `exists_plain_suffix` — the pieces of an operand end with one plain piece for each character of an area.
* `fits_moveOperand` — the moved operand may stand wherever the old one stood.
* `tokenize_relocate` — the tokens of the moved formula are the moved tokens.
* `tokenize_moved` — for each token, what a line edit or an offset makes of it.
-/

namespace Spreadsheet

/-! ### Moving one token -/

namespace Relocation

/-- The new text of an operand. -/
def moveOperand (m : Relocation) (v : List Char) : List Char :=
  (m.moveToken (.operand v)).value

theorem moveToken_operand (m : Relocation) (v : List Char) :
    m.moveToken (.operand v) = .operand (m.moveOperand v) := by
  have same : m.moveToken (.operand v) = .operand (m.moveToken (.operand v)).value := by
    unfold moveToken
    split
    · split
      · rfl
      · rfl
    · rfl
  exact same

theorem moveToken_of_ne (m : Relocation) {t : Token} (h : ∀ kind, t.kind ≠ .operand kind) :
    m.moveToken t = t :=
  if_neg (h .range)

/-- An operand that is no reference stays; otherwise the moved reference takes its place. -/
theorem moveOperand_cases (m : Relocation) (v : List Char) :
    ((Token.operandKind v = .range → Reference.read? v = none) ∧ m.moveOperand v = v) ∨
      ∃ r, Token.operandKind v = .range ∧ Reference.read? v = some r ∧
        m.moveOperand v = m.moveText r := by
  have kind : (Token.operand v).kind = .operand .range ↔ Token.operandKind v = .range := by
    simp [Token.operand]
  unfold moveOperand moveToken
  split
  · next range =>
    split
    · next r read => exact .inr ⟨r, kind.1 range, read, rfl⟩
    · next none => exact .inl ⟨fun _ => none, rfl⟩
  · next other => exact .inl ⟨fun range => absurd (kind.2 range) other, rfl⟩

end Relocation

namespace Formula

/-! ### Plain characters -/

/-- The characters of areas are plain pieces, and nothing takes them in. -/
theorem apart_of_isPlain {c : Char} (h : isPlain c = true ∨ c = ':') :
    c ∉ marks ∧ c ∉ operators ∧ c ∉ ['"', '\x27', ' ', '=', '>', '!', ']'] := by
  have all : ∀ d ∈ marks ++ operators ++ ['"', '\x27', ' ', '=', '>', '!', ']'],
      ¬(isPlain d = true ∨ d = ':') := List.all_iff_forall_prop.1 (by decide)
  refine ⟨fun mem => ?_, fun mem => ?_, fun mem => ?_⟩
  · exact all c (by simp [mem]) h
  · exact all c (by simp [mem]) h
  · exact all c (List.mem_append_right _ mem) h

theorem separate_plain {s : List Char} (h : ∀ c ∈ s, isPlain c = true ∨ c = ':') :
    Separate (s.map .plain) := by
  induction s with
  | nil => trivial
  | cons c s ih =>
    obtain ⟨here, behind⟩ := List.forall_mem_cons.1 h
    obtain ⟨mark, operator, -⟩ := apart_of_isPlain here
    exact ⟨⟨mark, operator⟩, fun d _ => rfl, ih behind⟩

theorem held_plain (held s : List Char) : Held held (s.map .plain) := by
  induction s generalizing held with
  | nil => trivial
  | cons c s ih => exact ⟨rfl, ih _⟩

theorem flatMap_text_plain (s : List Char) : (s.map Piece.plain).flatMap Piece.text = s := by
  induction s with
  | nil => rfl
  | cons c s ih => rw [List.map_cons, List.flatMap_cons, ih]; rfl

/-! ### Where the area of a reference stands -/

/-- A held piece that ends with a character of an area is that character. -/
theorem eq_plain_of_getLast? {held : List Char} {p : Piece} {c : Char}
    (plain : isPlain c = true ∨ c = ':') (formed : p.Formed) (joined : joins held p = true)
    (last : p.text.getLast? = some c) : p = .plain c := by
  obtain ⟨-, operator, apart⟩ := apart_of_isPlain plain
  cases p with
  | plain d =>
    obtain rfl : d = c := by simpa [Piece.text] using last
    rfl
  | bracketed text =>
    obtain ⟨inner, -, rfl⟩ := formed
    obtain rfl : ']' = c := by simpa [Piece.text, List.getLast?_cons] using last
    exact absurd (by decide) apart
  | quotedLink text =>
    obtain ⟨inner, rfl⟩ := formed
    obtain rfl : '\x27' = c := by simpa [Piece.text, List.getLast?_cons] using last
    exact absurd (by decide) apart
  | operator first second =>
    obtain ⟨rfl, sign⟩ := sign_of_joins formed joined
    obtain rfl : first = c := by simpa [Piece.text] using last
    exact absurd sign operator
  | _ => simp [joins] at joined

/-- The pieces of an operand end with one plain piece for each character of an area. -/
theorem exists_plain_suffix {os : List Piece} {front s : List Char} (held : Held [] os)
    (separate : Separate os) (text : os.flatMap Piece.text = front ++ s)
    (plain : ∀ c ∈ s, isPlain c = true ∨ c = ':') :
    ∃ hs, os = hs ++ s.map .plain ∧ hs.flatMap Piece.text = front := by
  induction s using List.reverseRecOn generalizing os with
  | nil => exact ⟨os, by simp, by simpa using text⟩
  | append_singleton s c ih =>
    obtain ⟨before, here⟩ := List.forall_mem_append.1 plain
    rcases List.eq_nil_or_concat' os with rfl | ⟨os, p, rfl⟩
    · simp at text
    · obtain ⟨separate', ⟨formed, -⟩, -⟩ := separate_append.1 separate
      obtain ⟨held', joined, -⟩ := held_append.1 held
      have whole : os.flatMap Piece.text ++ p.text = front ++ (s ++ [c]) := by simpa using text
      have last : p.text.getLast? = some c := by
        rw [← List.getLast?_append_of_ne_nil (os.flatMap Piece.text) formed.text_ne_nil, whole]
        simp
      obtain rfl := eq_plain_of_getLast? (here c (by simp)) formed joined last
      have rest : os.flatMap Piece.text = front ++ s := by
        rw [← List.append_assoc] at whole
        exact List.append_inj_left' whole rfl
      obtain ⟨hs, rfl, eq⟩ := ih held' separate' rest before
      exact ⟨hs, by simp, eq⟩

/-- Any piece may stand in front of an area. -/
theorem ends_plain {s : List Char} (plain : ∀ c ∈ s, isPlain c = true ∨ c = ':') (ne : s ≠ [])
    (p : Piece) : p.Ends s := by
  obtain ⟨c, s, rfl⟩ := List.exists_cons_of_ne_nil ne
  obtain ⟨-, -, apart⟩ := apart_of_isPlain (plain c (by simp))
  exact Piece.ends_cons (fun mem => apart (List.mem_append_left ['!', ']'] mem)) p _

/-- The area at the end of an operand may be written anew. -/
theorem exchange_plain {hs : List Piece} {s t : List Char} (held : Held [] (hs ++ s.map .plain))
    (separate : Separate (hs ++ s.map .plain)) (ne : t ≠ [])
    (plain : ∀ c ∈ t, isPlain c = true ∨ c = ':')
    (exponent : awaitsExponent (hs.flatMap Piece.text ++ t) = false) :
    Exchange (hs ++ s.map .plain) (hs ++ t.map .plain) where
  operand := .inr ⟨by simp [ne], held_append.2 ⟨(held_append.1 held).1, held_plain _ t⟩⟩
  separate := by
    refine separate_append.2 ⟨(separate_append.1 separate).1, separate_plain plain, fun p _ => ?_⟩
    rw [flatMap_text_plain]
    exact ends_plain plain ne p
  held := fun _ => held
  front := by
    intro p ends
    by_cases empty : hs = []
    · subst empty
      rw [List.nil_append, flatMap_text_plain]
      exact ends_plain plain ne p
    · have text := (separate_append.1 separate).1.text_ne_nil empty
      rw [List.flatMap_append, Piece.ends_append text] at ends ⊢
      exact ends
  back := by
    intro behind _ p last
    obtain ⟨t, c, rfl⟩ : ∃ t' c, t = t' ++ [c] := (List.eq_nil_or_concat' t).resolve_left ne
    obtain rfl : .plain c = p := by simpa using last
    exact fun d _ => rfl
  exponent := by
    rw [List.flatMap_append, flatMap_text_plain, exponent]
    simp

/-- An operand that is lost may stand wherever another operand stands. -/
theorem exchange_errorCode {os : List Piece} {code : List Char} (listed : code ∈ errorCodes) :
    Exchange os [.errorCode code] where
  operand := .inl ⟨code, .inr rfl⟩
  separate := ⟨listed, Piece.ends_nil _, trivial⟩
  held := fun h => by simp [Held, joins] at h
  front := by
    have all : ∀ code ∈ errorCodes, code.head? = some '#' := by decide
    intro p _
    rw [Piece.ends_congr (show _ = ['#'].head? by simpa [Piece.text] using all code listed)]
    exact Piece.ends_cons (by decide) p []
  back := by
    intro behind _ p last
    obtain rfl : .errorCode code = p := by simpa using last
    exact fun d _ => rfl
  exponent := by
    have all : ∀ code ∈ errorCodes, awaitsExponent code = false := by decide
    simp [Piece.text, all code listed]

/-! ### The moved operand fits -/

/-- An operand that is read as a range consists of held pieces. -/
theorem held_of_range {os : List Piece} (operand : IsOperand os) (separate : Separate os)
    (range : Token.operandKind (os.flatMap Piece.text) = .range) : Held [] os := by
  obtain ⟨text, rfl | rfl⟩ | ⟨-, held⟩ := operand
  · obtain ⟨inner, rfl⟩ := separate.1
    simp [Token.operandKind, Piece.text] at range
  · have all : ∀ code ∈ errorCodes, Token.operandKind code = .error := by decide
    rw [show [Piece.errorCode text].flatMap Piece.text = text by simp [Piece.text],
      all text separate.1] at range
    simp at range
  · exact held

/-- The moved operand may stand wherever the old one stood. -/
theorem fits_moveOperand (m : Relocation) : Fits fun v w => w = m.moveOperand v := by
  rintro v w rfl os operand separate rfl
  rcases m.moveOperand_cases (os.flatMap Piece.text) with ⟨-, same⟩ | ⟨r, range, read, moved⟩
  · exact ⟨os, same.symm, .refl operand separate⟩
  · rw [moved, Relocation.moveText]
    split
    · next area _ =>
      obtain ⟨s, text, readArea, mark, -⟩ := Reference.split_of_read? read
      have held := held_of_range operand separate range
      obtain ⟨hs, rfl, front⟩ :=
        exists_plain_suffix held separate text (Area.isPlain_of_read? readArea)
      refine ⟨hs ++ area.text.map .plain, ?_, ?_⟩
      · rw [List.flatMap_append, front, flatMap_text_plain]
        rfl
      · refine exchange_plain held separate (Area.text_ne_nil area) area.isPlain_text ?_
        rw [front]
        exact @awaitsExponent_text ⟨r.sheet, area⟩ mark
    · exact ⟨[.errorCode "#REF!".toList], by simp [Piece.text], exchange_errorCode (by decide)⟩

/-- The kind of an operand is always the one that its text gives. -/
theorem operand_or_of_tokenize {options : Options} {formula : List Char} {tokens : List Token}
    (h : tokenize options formula = .ok tokens) :
    ∀ t ∈ tokens, (∃ v, t = .operand v) ∨ ∀ kind, t.kind ≠ .operand kind := by
  intro t mem
  cases tokenized h with
  | nothing => simp at mem
  | literal =>
    obtain rfl := List.mem_singleton.1 mem
    exact .inr (by simp)
  | formula =>
    obtain ⟨ls, -, -, made⟩ := forall₂_makes_of_tokenize h
    obtain ⟨l, -, related⟩ := exists_of_forall₂ made.flip mem
    have makes : l.Makes t := related
    rcases makes.operand_or with ⟨v, -, eq⟩ | ⟨-, other, -⟩
    · exact .inl ⟨v, eq⟩
    · exact .inr other

/-- Tokens that put together are a formula of their own stay what they are when they are rendered. -/
theorem tokenize_render_of_flatMap {options : Options} {tokens : List Token}
    (h : tokenize options ('=' :: tokens.flatMap Token.value) = .ok tokens) :
    tokenize options (render tokens) = .ok tokens := by
  by_cases empty : tokens = []
  · rw [empty]
    rfl
  · obtain ⟨ls, -, -, made⟩ := forall₂_makes_of_tokenize h
    rwa [render_of_ne_literal empty (kind_ne_literal_of_makes made)]

theorem swap_moveToken (m : Relocation) {t : Token}
    (h : (∃ v, t = .operand v) ∨ ∀ kind, t.kind ≠ .operand kind) :
    TokenSwap (fun v w => w = m.moveOperand v) t (m.moveToken t) := by
  rcases h with ⟨v, rfl⟩ | other
  · rw [m.moveToken_operand]
    exact .operand rfl
  · rw [m.moveToken_of_ne other]
    exact .same other

/-- The tokens of the moved formula are the moved tokens. -/
theorem tokenize_relocate {options : Options} {formula : List Char} {tokens : List Token}
    (h : tokenize { options with preserveWhitespace := true } formula = .ok tokens) (m : Relocation) :
    ∃ text, relocate options m formula = .ok text ∧
      tokenize { options with preserveWhitespace := true } text = .ok (tokens.map m.moveToken) := by
  refine ⟨render (tokens.map m.moveToken), by rw [relocate, h]; rfl, ?_⟩
  cases tokenized h with
  | nothing => rfl
  | literal plain => exact tokenize_literal plain
  | formula =>
    refine tokenize_render_of_flatMap (tokenize_of_swap (fits_moveOperand m) rfl h ?_)
    rw [List.forall₂_map_right_iff, List.forall₂_same]
    exact fun t mem => swap_moveToken m (operand_or_of_tokenize h t mem)

end Formula

/-! ### What becomes of each token -/

namespace Relocation

/-- What becomes of one end of a reference. -/
def movePart? (m : Relocation) : ReferencePart → Option ReferencePart
  | .cell c => (m.moveCell? c).map .cell
  | .column c => (m.column c).map .column
  | .row c => (m.row c).map .row

theorem moveBoth?_eq_some {α β : Type} {move : α → Option α} {make : α → α → β} {first last : α} {b : β}
    (h : moveBoth? move make first last = some b) :
    ∃ first' last', move first = some first' ∧ move last = some last' ∧ make first' last' = b := by
  simp only [moveBoth?] at h
  split at h
  · next first' last' eq eq' => exact ⟨first', last', eq, eq', Option.some.inj h⟩
  · simp at h

theorem moveBoth?_eq_none {α β : Type} {move : α → Option α} {make : α → α → β} {first last : α}
    (h : moveBoth? move make first last = none) : move first = none ∨ move last = none := by
  cases eq : move first with
  | none => exact .inl rfl
  | some first' =>
    cases eq' : move last with
    | none => exact .inr rfl
    | some last' => simp [moveBoth?, eq, eq'] at h

/-- The ends of a moved area are the moved ends. -/
theorem parts_of_moveArea? {m : Relocation} {a b : Area} (h : m.moveArea? a = some b) :
    List.Forall₂ (fun part part' => m.movePart? part = some part') a.parts b.parts := by
  cases a with
  | cell c =>
    obtain ⟨c', moved, rfl⟩ := Option.map_eq_some_iff.1 h
    exact .cons (by simp [movePart?, moved]) .nil
  | cells x y | columns x y | rows x y =>
    obtain ⟨x', y', first, last, rfl⟩ := moveBoth?_eq_some h
    exact .cons (by simp [movePart?, first]) (.cons (by simp [movePart?, last]) .nil)

/-- An area has no new place if one of its ends has none. -/
theorem exists_part_of_moveArea? {m : Relocation} {a : Area} (h : m.moveArea? a = none) :
    ∃ part ∈ a.parts, m.movePart? part = none := by
  cases a with
  | cell c => exact ⟨.cell c, by simp [Area.parts], by simpa [movePart?, moveArea?] using h⟩
  | cells x y =>
    rcases moveBoth?_eq_none h with first | last
    · exact ⟨.cell x, by simp [Area.parts], by simp [movePart?, first]⟩
    · exact ⟨.cell y, by simp [Area.parts], by simp [movePart?, last]⟩
  | columns x y =>
    rcases moveBoth?_eq_none h with first | last
    · exact ⟨.column x, by simp [Area.parts], by simp [movePart?, first]⟩
    · exact ⟨.column y, by simp [Area.parts], by simp [movePart?, last]⟩
  | rows x y =>
    rcases moveBoth?_eq_none h with first | last
    · exact ⟨.row x, by simp [Area.parts], by simp [movePart?, first]⟩
    · exact ⟨.row y, by simp [Area.parts], by simp [movePart?, last]⟩

/-- What moving references makes of a token. -/
inductive Moves (m : Relocation) : Token → Token → Prop
  /-- What is no reference stays. -/
  | kept {t : Token} : (t.kind = .operand .range → Reference.read? t.value = none) → Moves m t t
  /-- A reference with an end that has no new place is an error. -/
  | lost {v : List Char} {r : Reference} {part : ReferencePart} :
    Reference.read? v = some r → part ∈ r.area.parts → m.movePart? part = none →
      Moves m ⟨v, .operand .range⟩ ⟨"#REF!".toList, .operand .error⟩
  /-- Otherwise the ends of a reference are moved, and its sheet stays. -/
  | moved {v : List Char} {r : Reference} {parts : List ReferencePart} :
    Reference.read? v = some r →
    List.Forall₂ (fun part part' => m.movePart? part = some part') r.area.parts parts →
      Moves m ⟨v, .operand .range⟩
        ⟨r.sheet ++ [':'].intercalate (parts.map ReferencePart.text), .operand .range⟩

/-- A moved reference is read as a range again. -/
theorem operandKind_moved {v : List Char} {r : Reference} (range : Token.operandKind v = .range)
    (read : Reference.read? v = some r) (area : Area) :
    Token.operandKind (Reference.text ⟨r.sheet, area⟩) = .range := by
  obtain ⟨s, rfl, -, mark, -⟩ := Reference.split_of_read? read
  refine @Formula.operandKind_text ⟨r.sheet, area⟩ mark ?_
  cases sheet : r.sheet with
  | nil =>
    have plain : ∀ c ∈ area.text.head?, isPlain c = true ∨ c = ':' := fun c hc =>
      area.isPlain_text c (List.mem_of_mem_head? hc)
    constructor
    · exact fun head => absurd (plain _ head) (by decide)
    · exact fun head => absurd (plain _ head) (by decide)
  | cons c t =>
    -- the sheet still begins the operand, so the first character is the old one
    rw [sheet] at range
    constructor
    · intro head
      obtain rfl := Option.some.inj head
      simp [Token.operandKind] at range
    · intro head
      obtain rfl := Option.some.inj head
      simp [Token.operandKind] at range

theorem moves_operand (m : Relocation) (v : List Char) :
    m.Moves (.operand v) (.operand (m.moveOperand v)) := by
  rcases m.moveOperand_cases v with ⟨other, same⟩ | ⟨r, range, read, moved⟩
  · rw [same]
    refine .kept fun range => other ?_
    simpa [Token.operand] using range
  · have token : Token.operand v = ⟨v, .operand .range⟩ := by rw [Token.operand, range]
    rw [moved, moveText, token]
    split
    · next area found =>
      rw [Token.operand, operandKind_moved range read area]
      exact .moved (r := r) read (parts_of_moveArea? found)
    · next none =>
      obtain ⟨part, mem, lost⟩ := exists_part_of_moveArea? none
      exact .lost read mem lost

/-- An operand is moved as a whole, and any other token stays. -/
theorem moves_moveToken (m : Relocation) {t : Token}
    (h : (∃ v, t = .operand v) ∨ ∀ kind, t.kind ≠ .operand kind) : m.Moves t (m.moveToken t) := by
  rcases h with ⟨v, rfl⟩ | other
  · rw [m.moveToken_operand]
    exact m.moves_operand v
  · rw [m.moveToken_of_ne other]
    exact .kept fun range => absurd range (other .range)

end Relocation

namespace Formula

/-- Each token of a moved formula is what moving makes of the token in its place. -/
theorem forall₂_moves_of_relocate {options : Options} {formula : List Char} {tokens : List Token}
    (h : tokenize { options with preserveWhitespace := true } formula = .ok tokens) (m : Relocation) :
    ∃ text tokens', relocate options m formula = .ok text ∧
      tokenize { options with preserveWhitespace := true } text = .ok tokens' ∧
      List.Forall₂ m.Moves tokens tokens' := by
  obtain ⟨text, moved, split⟩ := tokenize_relocate h m
  refine ⟨text, _, moved, split, ?_⟩
  rw [List.forall₂_map_right_iff, List.forall₂_same]
  exact fun t mem => m.moves_moveToken (operand_or_of_tokenize h t mem)

/-- **Moving references touches nothing else.** After a line edit, and after copying by a distance, a formula
has as many tokens as before, and each of them is the old one, the old reference with its ends moved, or an
error in place of a reference that has no new place. -/
theorem tokenize_moved {options : Options} {formula : List Char} {tokens : List Token}
    (h : tokenize { options with preserveWhitespace := true } formula = .ok tokens) :
    (∀ e : LineEdit, ∃ text tokens', shift options e formula = .ok text ∧
      tokenize { options with preserveWhitespace := true } text = .ok tokens' ∧
      List.Forall₂ e.relocation.Moves tokens tokens') ∧
    ∀ columns rows : Int, ¬(columns = 0 ∧ rows = 0) →
      ∃ text tokens', offset options columns rows formula = .ok text ∧
        tokenize { options with preserveWhitespace := true } text = .ok tokens' ∧
        List.Forall₂ (Relocation.offset columns rows).Moves tokens tokens' := by
  refine ⟨fun e => forall₂_moves_of_relocate h e.relocation, fun columns rows distance => ?_⟩
  rw [offset, if_neg distance]
  exact forall₂_moves_of_relocate h (.offset columns rows)

/-- Deleting the third row moves one reference and loses the other; the sheet in quotes, the space and the
operators stay. -/
theorem tokenize_moved_deleted :
    ∃ tokens', tokenize { preserveWhitespace := true } "='x'!A$3 &#REF!%".toList = .ok tokens' ∧
      List.Forall₂ (LineEdit.relocation ⟨.row, .delete, 2⟩).Moves
        [⟨"'x'!A$4".toList, .operand .range⟩, ⟨[' '], .whitespace⟩, ⟨['&'], .infixOperator⟩,
          ⟨"B3".toList, .operand .range⟩, ⟨['%'], .postfixOperator⟩] tokens' := by
  have split : tokenize { ({} : Options) with preserveWhitespace := true } "='x'!A$4  &B3%".toList =
      .ok [⟨"'x'!A$4".toList, .operand .range⟩, ⟨[' '], .whitespace⟩, ⟨['&'], .infixOperator⟩,
        ⟨"B3".toList, .operand .range⟩, ⟨['%'], .postfixOperator⟩] :=
    toOption_eq_some_iff.1 (by decide +kernel)
  have moved : shift {} ⟨.row, .delete, 2⟩ "='x'!A$4  &B3%".toList = .ok "='x'!A$3 &#REF!%".toList :=
    toOption_eq_some_iff.1 (by decide +kernel)
  obtain ⟨text, tokens', shifted, again, related⟩ := (tokenize_moved split).1 ⟨.row, .delete, 2⟩
  rw [moved] at shifted
  cases shifted
  exact ⟨tokens', again, related⟩

end Formula

end Spreadsheet
