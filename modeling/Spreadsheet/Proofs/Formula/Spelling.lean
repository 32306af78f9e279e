import Spreadsheet.Proofs.Formula.Spacing

/-!
# The pieces of a lexeme

What joining has done to the pieces of a text is told lexeme by lexeme: which pieces have become the next lexeme, and
why an operand was not held any longer.  Read the other way round, this is how a text is put together from lexemes.

* `Held`, `IsOperand` — pieces that are held one behind the other, and those that make up an operand.
* `Spelling` — the pieces of one lexeme; `gather_of_spelling`: they join into it.
* `Spelled` — pieces lexeme by lexeme; `spelled_of_gather`: all pieces that join are of this form.
* `Spells` — pieces that keep apart and join into given lexemes, with one space for each run of spaces.  By
  `Spells.cons` another lexeme may be put in front if the pieces fit where they meet, and by `Spells.tokenize` the
  tokens that are read from the lexemes are those of their text.
-/

namespace Spreadsheet.Formula

/-! ### Held runs of pieces -/

/-- Pieces that are held one after another behind held text. -/
def Held (held : List Char) : List Piece → Prop
  | [] => True
  | piece :: rest => joins held piece = true ∧ Held (piece.text.reverse ++ held) rest

theorem held_append {held : List Char} {before behind : List Piece} :
    Held held (before ++ behind) ↔
      Held held before ∧ Held ((before.flatMap Piece.text).reverse ++ held) behind := by
  induction before generalizing held with
  | nil => simp [Held]
  | cons piece before ih =>
    rw [List.cons_append, Held, Held, ih, and_assoc, List.flatMap_cons, List.reverse_append,
      List.append_assoc]

theorem gather_held {held : List Char} {hs : List Piece} (h : Held held hs) (rest : List Piece) :
    gather held (hs ++ rest) = gather ((hs.flatMap Piece.text).reverse ++ held) rest := by
  induction hs generalizing held with
  | nil => rfl
  | cons piece hs ih =>
    rw [List.cons_append, gather_of_joins h.1, ih h.2, List.flatMap_cons, List.reverse_append,
      List.append_assoc]

theorem gather_nil_held {hs : List Piece} (h : Held [] hs) (rest : List Piece) :
    gather [] (hs ++ rest) = gather (hs.flatMap Piece.text).reverse rest := by
  rw [gather_held h, List.append_nil]

/-! ### Seams between pieces -/

/-- Only the seam between them counts where two lists of pieces meet. -/
theorem separate_append {before behind : List Piece} :
    Separate (before ++ behind) ↔ Separate before ∧ Separate behind ∧
      ∀ p ∈ before.getLast?, p.Ends (behind.flatMap Piece.text) := by
  induction before with
  | nil => simp [Separate]
  | cons p before ih =>
    rw [List.cons_append, Separate, Separate, ih]
    cases before with
    | nil =>
      simp only [Separate, List.nil_append, List.flatMap_nil, Piece.ends_nil, List.getLast?_nil,
        List.getLast?_singleton, Option.mem_some_iff, forall_eq', true_and, and_true]
      tauto
    | cons q before =>
      have last : (p :: q :: before).getLast? = (q :: before).getLast? := rfl
      have seam : Separate (q :: before) →
          (p.Ends ((q :: before ++ behind).flatMap Piece.text) ↔
            p.Ends ((q :: before).flatMap Piece.text)) := by
        intro h
        have ne : (q :: before).flatMap Piece.text ≠ [] := by simp [h.1.text_ne_nil]
        rw [List.flatMap_append, Piece.ends_append ne]
      rw [last]
      constructor
      · rintro ⟨formed, ends, apart, rest, meets⟩
        exact ⟨⟨formed, (seam apart).1 ends, apart⟩, rest, meets⟩
      · rintro ⟨⟨formed, ends, apart⟩, rest, meets⟩
        exact ⟨formed, (seam apart).2 ends, apart, rest, meets⟩

/-! ### Pieces of an operand -/

theorem heldLexeme_of_ne_nil {text : List Char} (ne : text ≠ []) :
    heldLexeme text.reverse = [.operand text] := by
  simp [heldLexeme, ne]

/-- Pieces that make up one operand. -/
def IsOperand (ps : List Piece) : Prop :=
  (∃ text, ps = [.quotedText text] ∨ ps = [.errorCode text]) ∨ ps ≠ [] ∧ Held [] ps

theorem IsOperand.ne_nil {ps : List Piece} (h : IsOperand ps) : ps ≠ [] := by
  obtain ⟨text, rfl | rfl⟩ | ⟨ne, -⟩ := h
  · simp
  · simp
  · exact ne

/-- The lexeme of a piece that ends an operand in front of it without taking it in. -/
def Piece.ender? : Piece → Option Lexeme
  | .spaces _ => some .space
  | .operator first second => some (.operator first second)
  | .closing brace => some (.closing brace)
  | .separator semicolon => some (.separator semicolon)
  | _ => none

theorem completes?_of_ender {p : Piece} {l : Lexeme} (h : p.ender? = some l) (held : List Char) :
    completes? held p = some (heldLexeme held ++ [l]) := by
  cases p with
  | spaces | operator | closing | separator =>
    cases h
    rfl
  | _ => simp [Piece.ender?] at h

/-- Without held text there is no exponent whose sign could be awaited. -/
theorem joins_nil_of_ender {p : Piece} {l : Lexeme} (h : p.ender? = some l) : joins [] p = false := by
  cases p with
  | operator first second => simp [joins, awaitsExponent]
  | spaces | closing | separator => rfl
  | _ => simp [Piece.ender?] at h

theorem gather_ender {p : Piece} {l : Lexeme} (h : p.ender? = some l) (rest : List Piece) :
    gather [] (p :: rest) = (gather [] rest).map (l :: ·) := by
  rw [gather_of_completes (joins_nil_of_ender h), completes?_of_ender h]
  rfl

/-- An operand ends where a piece stands that is not taken in. -/
def Stops (os rest : List Piece) : Prop :=
  ∀ p ∈ rest.head?, (∃ l, p.ender? = some l) ∧ joins (os.flatMap Piece.text).reverse p = false

theorem gather_operand {os rest : List Piece} (operand : IsOperand os) (separate : Separate os)
    (stops : Held [] os → Stops os rest) :
    gather [] (os ++ rest) =
      (gather [] rest).map (.operand (os.flatMap Piece.text) :: ·) := by
  obtain ⟨text, rfl | rfl⟩ | ⟨ne, held⟩ := operand
  · rw [List.singleton_append, gather_of_completes rfl]
    simp [completes?, Piece.text]
  · rw [List.singleton_append, gather_of_completes rfl]
    simp [completes?, Piece.text]
  · have lexeme := heldLexeme_of_ne_nil (separate.text_ne_nil ne)
    rw [gather_nil_held held]
    cases rest with
    | nil =>
      rw [gather, lexeme, gather]
      rfl
    | cons p rest =>
      obtain ⟨⟨l, ender⟩, apart⟩ := stops held p rfl
      rw [gather_of_completes apart, completes?_of_ender ender, lexeme, gather_ender ender,
        Option.bind_some, Option.map_map]
      rfl

theorem ender_ne_operand {p : Piece} {l : Lexeme} (h : p.ender? = some l) (v : List Char) :
    l ≠ .operand v := by
  cases p <;> simp [Piece.ender?] at h <;> simp [← h]

/-- An operand that is held begins like no text and like no error code. -/
theorem head?_ne_of_held {os : List Piece} (ne : os ≠ []) (held : Held [] os) (separate : Separate os) :
    (os.flatMap Piece.text).head? ≠ some '"' ∧ (os.flatMap Piece.text).head? ≠ some '#' := by
  obtain ⟨p, ps, rfl⟩ := List.exists_cons_of_ne_nil ne
  have formed := separate.1
  have joined := held.1
  rw [List.flatMap_cons, List.head?_append_of_ne_nil _ formed.text_ne_nil]
  cases p with
  | plain c =>
    have mark := formed.1
    simp only [marks, List.mem_cons, not_or] at mark
    simp [Piece.text, mark]
  | bracketed text =>
    obtain ⟨inner, -, rfl⟩ := formed
    simp [Piece.text]
  | quotedLink text =>
    obtain ⟨inner, rfl⟩ := formed
    simp [Piece.text]
  | operator first second => simp [joins, awaitsExponent] at joined
  | _ => simp [joins] at joined

/-- An operand does not begin with a piece that ends one. -/
theorem IsOperand.ender?_head {os : List Piece} (h : IsOperand os) : ∀ p ∈ os.head?, p.ender? = none := by
  intro p hp
  obtain ⟨text, rfl | rfl⟩ | ⟨ne, held⟩ := h
  · cases hp
    rfl
  · cases hp
    rfl
  · obtain ⟨q, qs, rfl⟩ := List.exists_cons_of_ne_nil ne
    cases hp
    cases ender : p.ender? with
    | none => rfl
    | some l => exact absurd held.1 (Bool.eq_false_iff.1 (joins_nil_of_ender ender))

/-! ### One space for a run of spaces -/

/-- A piece with one space for a run of spaces. -/
def Piece.normal : Piece → Piece
  | .spaces _ => .spaces 0
  | p => p

section

variable (p : Piece)

@[simp] theorem Piece.absorbs_normal : p.normal.absorbs = p.absorbs := by
  cases p <;> rfl

@[simp] theorem Piece.ender?_normal : p.normal.ender? = p.ender? := by
  cases p <;> rfl

@[simp] theorem Piece.joins_normal (held : List Char) : joins held p.normal = joins held p := by
  cases p <;> rfl

@[simp] theorem Piece.formed_normal : p.normal.Formed ↔ p.Formed := by
  cases p <;> rfl

theorem Piece.head?_text_normal : p.normal.text.head? = p.text.head? := by
  cases p <;> rfl

theorem Piece.normal_of_joins {held : List Char} (h : joins held p = true) : p.normal = p := by
  cases p with
  | spaces more => simp [joins] at h
  | _ => rfl

theorem Piece.text_normal_of_ender {l : Lexeme} (h : p.ender? = some l) : p.normal.text = l.text [' '] := by
  cases p with
  | spaces | operator | closing | separator =>
    cases h
    rfl
  | _ => simp [ender?] at h

end

theorem map_normal_of_held {held : List Char} {hs : List Piece} (h : Held held hs) : hs.map Piece.normal = hs := by
  induction hs generalizing held with
  | nil => rfl
  | cons p hs ih => rw [List.map_cons, p.normal_of_joins h.1, ih h.2]

theorem IsOperand.map_normal {os : List Piece} (h : IsOperand os) : os.map Piece.normal = os := by
  obtain ⟨text, rfl | rfl⟩ | ⟨-, held⟩ := h
  · rfl
  · rfl
  · exact map_normal_of_held held

/-! ### Pieces that spell lexemes -/

/-- The pieces of one lexeme. -/
inductive Spelling : List Piece → Lexeme → Prop
  | operand {os : List Piece} : IsOperand os → Separate os → Spelling os (.operand (os.flatMap Piece.text))
  | paren {hs : List Piece} : Held [] hs → Separate (hs ++ [.parenOpening]) →
      Spelling (hs ++ [.parenOpening]) (.opening (parenOpener (hs.flatMap Piece.text).reverse))
  | brace : Spelling [.braceOpening] (.opening ⟨.array, ['{']⟩)
  | ender {p : Piece} {l : Lexeme} : p.ender? = some l → p.Formed → Spelling [p] l

theorem Spelling.separate {os : List Piece} {l : Lexeme} (h : Spelling os l) : Separate os := by
  cases h with
  | operand _ apart => exact apart
  | paren _ apart => exact apart
  | brace => exact ⟨trivial, Piece.ends_nil _, trivial⟩
  | ender _ formed => exact ⟨formed, Piece.ends_nil _, trivial⟩

theorem Spelling.ne_nil {os : List Piece} {l : Lexeme} (h : Spelling os l) : os ≠ [] := by
  cases h with
  | operand operand _ => exact operand.ne_nil
  | paren => simp
  | brace => simp
  | ender => simp

theorem Spelling.isOperand {os : List Piece} {v : List Char} (h : Spelling os (.operand v)) :
    IsOperand os ∧ os.flatMap Piece.text = v := by
  generalize same : Lexeme.operand v = l at h
  cases h with
  | operand operand _ => exact ⟨operand, (Lexeme.operand.inj same).symm⟩
  | paren => cases same
  | brace => cases same
  | ender ender _ => exact absurd same.symm (ender_ne_operand ender v)

theorem Spelling.formed_operator {os : List Piece} {first : Char} {second : Option Char}
    (h : Spelling os (.operator first second)) : (Piece.operator first second).Formed := by
  generalize same : Lexeme.operator first second = l at h
  cases h with
  | operand | paren | brace => cases same
  | @ender p l ender formed =>
    subst same
    cases p with
    | operator first' second' =>
      cases ender
      exact formed
    | _ => simp [Piece.ender?] at ender

/-- Only the pieces of an operand are all held. -/
theorem Spelling.not_held {os : List Piece} {l : Lexeme} (h : Spelling os l) (other : ∀ v, l ≠ .operand v) :
    ¬Held [] os := by
  intro held
  cases h with
  | operand => exact other _ rfl
  | paren => simp [held_append, Held, joins] at held
  | brace => simp [Held, joins] at held
  | ender ender _ => exact absurd held.1 (Bool.eq_false_iff.1 (joins_nil_of_ender ender))

/-- The pieces of a lexeme join into it, if nothing behind them is held with an operand. -/
theorem gather_of_spelling {os rest : List Piece} {l : Lexeme} (h : Spelling os l)
    (stops : Held [] os → Stops os rest) : gather [] (os ++ rest) = (gather [] rest).map (l :: ·) := by
  cases h with
  | operand operand apart => exact gather_operand operand apart stops
  | paren held _ =>
    rw [List.append_assoc, gather_nil_held held, List.singleton_append, gather_of_completes rfl]
    rfl
  | brace =>
    rw [List.singleton_append, gather_of_completes rfl]
    rfl
  | ender ender _ => exact gather_ender ender rest

/-- The text of an opener behind the name of a function. -/
theorem value_parenOpener (name : List Char) : (parenOpener name.reverse).value = name ++ ['('] := by
  cases name with
  | nil => rfl
  | cons c s => simp [parenOpener]

/-- The pieces of a lexeme with one space for a run of spaces are pieces of it as well. -/
theorem Spelling.normal {os : List Piece} {l : Lexeme} (h : Spelling os l) :
    Spelling (os.map Piece.normal) l ∧ (os.map Piece.normal).flatMap Piece.text = l.text [' '] := by
  cases h with
  | operand operand apart =>
    rw [operand.map_normal]
    exact ⟨.operand operand apart, rfl⟩
  | @paren hs held apart =>
    have same : (hs ++ [Piece.parenOpening]).map Piece.normal = hs ++ [.parenOpening] := by
      rw [List.map_append, map_normal_of_held held]
      rfl
    rw [same]
    refine ⟨.paren held apart, ?_⟩
    rw [List.flatMap_append, Lexeme.text, value_parenOpener]
    rfl
  | brace => exact ⟨.brace, rfl⟩
  | @ender p l ender formed =>
    exact ⟨.ender (by simpa using ender) (by simpa using formed), by simpa using p.text_normal_of_ender ender⟩

/-- Where the pieces of a lexeme meet what stands behind them, one space is as good as many. -/
theorem ends_getLast?_normal {os : List Piece} {behind : List Char} :
    (∀ p ∈ (os.map Piece.normal).getLast?, p.Ends behind) ↔ ∀ p ∈ os.getLast?, p.Ends behind := by
  simp [Piece.Ends]

/-- Pieces lexeme by lexeme. -/
inductive Spelled : List Piece → List Lexeme → Prop
  | nil : Spelled [] []
  | cons {os ps : List Piece} {l : Lexeme} {ls : List Lexeme} : Spelling os l → (Held [] os → Stops os ps) →
      Spelled ps ls → Spelled (os ++ ps) (l :: ls)

theorem Spelled.other {os ps : List Piece} {l : Lexeme} {ls : List Lexeme} (spelling : Spelling os l)
    (other : ∀ v, l ≠ .operand v) (behind : Spelled ps ls) : Spelled (os ++ ps) (l :: ls) :=
  .cons spelling (fun held => absurd held (spelling.not_held other)) behind

/-- An operand that is a piece of its own. -/
theorem spelled_of_single {ps : List Piece} {p : Piece} {text : List Char} {ls : List Lexeme}
    (kind : p = .quotedText text ∨ p = .errorCode text) (formed : p.Formed) (behind : Spelled ps ls) :
    Spelled (p :: ps) (.operand text :: ls) := by
  have operand : IsOperand [p] := .inl ⟨text, kind.imp (congrArg ([·])) (congrArg ([·]))⟩
  have whole : [p].flatMap Piece.text = text := by
    rcases kind with rfl | rfl <;> simp [Piece.text]
  have unheld : ¬Held [] [p] := by
    rcases kind with rfl | rfl <;> simp [Held, joins]
  rw [← whole]
  exact .cons (.operand operand ⟨formed, Piece.ends_nil _, trivial⟩) (fun held => absurd held unheld) behind

/-- A piece that ends an operand comes behind the operand, if any is held. -/
theorem spelled_of_ender {hs ps : List Piece} {p : Piece} {l : Lexeme} {ls : List Lexeme} (held : Held [] hs)
    (separate : Separate hs) (ender : p.ender? = some l) (free : joins (hs.flatMap Piece.text).reverse p = false)
    (formed : p.Formed) (behind : Spelled ps ls) :
    Spelled (hs ++ p :: ps) (heldLexeme (hs.flatMap Piece.text).reverse ++ (l :: ls)) := by
  have last : Spelled (p :: ps) (l :: ls) := .other (.ender ender formed) (ender_ne_operand ender) behind
  by_cases empty : hs = []
  · subst empty
    exact last
  · rw [heldLexeme_of_ne_nil (separate.text_ne_nil empty)]
    refine .cons (.operand (.inr ⟨empty, held⟩) separate) (fun _ q hq => ?_) last
    obtain rfl : p = q := by simpa using hq
    exact ⟨⟨l, ender⟩, free⟩

/-- Pieces that join behind held ones have become lexemes one after the other. -/
theorem spelled_append_of_gather {hs ps : List Piece} {ls : List Lexeme} (held : Held [] hs)
    (apart : Separate (hs ++ ps)) (gathered : gather (hs.flatMap Piece.text).reverse ps = some ls) :
    Spelled (hs ++ ps) ls := by
  induction ps generalizing hs ls with
  | nil =>
    cases gathered
    by_cases empty : hs = []
    · subst empty
      exact .nil
    · have separate : Separate hs := (separate_append.1 apart).1
      rw [heldLexeme_of_ne_nil (separate.text_ne_nil empty)]
      exact .cons (.operand (.inr ⟨empty, held⟩) separate) (fun _ _ none => nomatch none) .nil
  | cons p ps ih =>
    cases joined : joins (hs.flatMap Piece.text).reverse p with
    | true =>
      have held' : Held [] (hs ++ [p]) := held_append.2 ⟨held, by simpa [Held] using joined⟩
      rw [gather_of_joins joined] at gathered
      rw [List.append_cons] at apart ⊢
      exact ih held' apart (by simpa using gathered)
    | false =>
      rw [gather_of_completes joined] at gathered
      obtain ⟨done, completed, rest⟩ := Option.bind_eq_some_iff.1 gathered
      obtain ⟨more, gatheredTail, rfl⟩ := Option.map_eq_some_iff.1 rest
      obtain ⟨separate, ⟨formed, -, apart'⟩, -⟩ := separate_append.1 apart
      have behind : Spelled ps more := @ih [] more trivial apart' gatheredTail
      have nothing (h : (hs.flatMap Piece.text).reverse = []) : hs = [] := by
        by_contra ne
        exact separate.text_ne_nil ne (List.reverse_eq_nil_iff.1 h)
      cases p with
      | plain | bracketed => simp [joins] at joined
      | quotedLink | broken => simp [completes?] at completed
      | quotedText text | errorCode text =>
        rw [completes?] at completed
        obtain ⟨empty, completed⟩ := Option.ite_none_right_eq_some.1 completed
        obtain rfl := nothing empty
        cases completed
        exact spelled_of_single (by simp) formed behind
      | spaces | operator | closing | separator =>
        cases completed
        rw [List.append_assoc]
        exact spelled_of_ender held separate rfl joined formed behind
      | parenOpening =>
        cases completed
        rw [List.append_cons]
        rw [List.append_cons] at apart
        exact .other (.paren held (separate_append.1 apart).1) (by simp) behind
      | braceOpening =>
        rw [completes?] at completed
        obtain ⟨empty, completed⟩ := Option.ite_none_right_eq_some.1 completed
        obtain rfl := nothing empty
        cases completed
        rw [List.nil_append, ← List.singleton_append]
        exact .other .brace (by simp) behind

theorem spelled_of_gather {ps : List Piece} {ls : List Lexeme} (apart : Separate ps)
    (gathered : gather [] ps = some ls) : Spelled ps ls :=
  @spelled_append_of_gather [] ps ls trivial apart gathered

/-- Pieces that keep apart and join into these lexemes, each run of spaces being one space. -/
structure Spells (ps : List Piece) (ls : List Lexeme) : Prop where
  separate : Separate ps
  gathered : gather [] ps = some ls
  text : ps.flatMap Piece.text = ls.flatMap (Lexeme.text [' '])

theorem Spells.nil : Spells [] [] :=
  ⟨trivial, rfl, rfl⟩

theorem Spells.cons {os ps : List Piece} {l : Lexeme} {ls : List Lexeme} (spelling : Spelling os l)
    (text : os.flatMap Piece.text = l.text [' ']) (h : Spells ps ls)
    (meets : ∀ p ∈ os.getLast?, p.Ends (ps.flatMap Piece.text)) (stops : Held [] os → Stops os ps) :
    Spells (os ++ ps) (l :: ls) where
  separate := separate_append.2 ⟨spelling.separate, h.separate, meets⟩
  gathered := by rw [gather_of_spelling spelling stops, h.gathered, Option.map_some]
  text := by rw [List.flatMap_append, List.flatMap_cons, text, h.text]

theorem flatMap_value_of_forall₂_makes {ls : List Lexeme} {tokens : List Token}
    (h : List.Forall₂ Lexeme.Makes ls tokens) : tokens.flatMap Token.value = ls.flatMap (Lexeme.text [' ']) := by
  induction h with
  | nil => rfl
  | cons makes _ ih => rw [List.flatMap_cons, List.flatMap_cons, makes.value, ih]

/-- The tokens of lexemes that are spelt are the tokens of their own text, if none of the lexemes is left out. -/
theorem Spells.tokenize {options : Options} {ps : List Piece} {ls : List Lexeme} {p : Progress} (spells : Spells ps ls)
    (kept : ∀ l ∈ ls, options.keeps l = true) (read : (Progress.start options.maxDepth).readAll options ls = .ok p)
    (closed : p.nesting.items = []) :
    tokenize options ('=' :: p.tokens.reverse.flatMap Token.value) = .ok p.tokens.reverse := by
  have made := Progress.forall₂_makes_start read
  rw [List.filter_eq_self.2 kept] at made
  have text : p.tokens.reverse.flatMap Token.value = ps.flatMap Piece.text := by
    rw [flatMap_value_of_forall₂_makes made, spells.text]
  rw [text]
  refine tokenize_eq_ok_iff.2 ⟨?_, ls, p, ?_, read, closed, rfl⟩
  · rw [pieces_flatMap_text spells.separate]
    exact spells.separate
  · rw [pieces_flatMap_text spells.separate]
    exact spells.gathered

end Spreadsheet.Formula
