import Spreadsheet.Formula.Scan
import Spreadsheet.Proofs.Formula.Cutting

/-!
# Lexemes: scanning in two stages

A scan holds text back, watches the open subexpressions and classifies operators, all at once.  Here it is taken
apart.  The first stage, `gather`, joins pieces into *lexemes*: it knows the held text and nothing else.  The
second stage, `Progress.readAll`, makes one token of each lexeme: it knows the tokens so far and the nesting,
and never holds any text.

* `Progress.read_opening_eq_ok_iff`, `Progress.read_closing_eq_ok_iff` — what a lexeme does to the stack, if it can be
  read; `Progress.invariant_readAll`: what each lexeme keeps is kept by all.
* `acceptAll_eq_gather` — the scan is the second stage after the first one, piece by piece.
* `tokenize_eq_ok_iff` — a formula has these tokens exactly if its pieces are complete, join into lexemes, and
  the lexemes are read to these tokens with nothing left open.

What is joined does not depend on the options; what is read from lexemes does not depend on the characters
around them.
-/

namespace Spreadsheet.Formula

/-- One or more pieces that make one token, whatever stands around them. -/
inductive Lexeme where
  | operand (text : List Char)
  | operator (first : Char) (second : Option Char)
  | opening (opener : Opener)
  | closing (brace : Bool)
  | separator (semicolon : Bool)
  | space
deriving DecidableEq

/-- The characters of a lexeme, with those of `gap` for a run of spaces. -/
def Lexeme.text (gap : List Char) : Lexeme → List Char
  | .operand text => text
  | .operator first second => first :: second.toList
  | .opening opener => opener.value
  | .closing brace => [if brace then '}' else ')']
  | .separator semicolon => [if semicolon then ';' else ',']
  | .space => gap

/-- The characters of a piece, with those of `gap` for a run of spaces. -/
def Piece.spaced (gap : List Char) : Piece → List Char
  | .spaces _ => gap
  | p => p.text

/-! ### The first stage: joining pieces -/

/-- The lexeme of the held text, if any is held. -/
def heldLexeme (held : List Char) : List Lexeme :=
  if held = [] then [] else [.operand held.reverse]

/-- The subexpression that a parenthesis begins behind held text. -/
def parenOpener (held : List Char) : Opener :=
  if held = [] then ⟨.paren, ['(']⟩ else ⟨.function, ('(' :: held).reverse⟩

/-- Whether a piece is held together with the text held before it. -/
def joins (held : List Char) : Piece → Bool
  | .plain _ | .bracketed _ => true
  | .quotedLink _ => held = []
  | .operator first _ => (first == '+' || first == '-') && awaitsExponent held.reverse
  | _ => false

/-- The lexemes that a piece which is not held completes; none if it comes too early or is broken. -/
def completes? (held : List Char) : Piece → Option (List Lexeme)
  | .quotedText text | .errorCode text => if held = [] then some [.operand text] else none
  | .spaces _ => some (heldLexeme held ++ [.space])
  | .operator first second => some (heldLexeme held ++ [.operator first second])
  | .parenOpening => some [.opening (parenOpener held)]
  | .braceOpening => if held = [] then some [.opening ⟨.array, ['{']⟩] else none
  | .closing brace => some (heldLexeme held ++ [.closing brace])
  | .separator semicolon => some (heldLexeme held ++ [.separator semicolon])
  | _ => none

/-- Joins pieces into lexemes, behind text that is held already, its newest character first. -/
def gather (held : List Char) : List Piece → Option (List Lexeme)
  | [] => some (heldLexeme held)
  | piece :: rest =>
    if joins held piece then gather (piece.text.reverse ++ held) rest
    else
      match completes? held piece, gather [] rest with
      | some done, some more => some (done ++ more)
      | _, _ => none

theorem gather_of_joins {held : List Char} {piece : Piece} (h : joins held piece = true)
    (rest : List Piece) :
    gather held (piece :: rest) = gather (piece.text.reverse ++ held) rest := by
  rw [gather, if_pos h]

theorem gather_of_completes {held : List Char} {piece : Piece} (h : joins held piece = false)
    (rest : List Piece) :
    gather held (piece :: rest) =
      (completes? held piece).bind fun done => (gather [] rest).map (done ++ ·) := by
  rw [gather, h]
  cases completes? held piece <;> cases gather [] rest <;> rfl

/-! ### The second stage: reading lexemes -/

/-- Makes the token of a lexeme. -/
def Progress.read (options : Options) (p : Progress) : Lexeme → Except Fault Progress
  | .operand text => .ok (p.emit (.operand text))
  | .operator first second => .ok (p.emit (p.operatorToken first second))
  | .opening opener => p.openWith opener
  | .closing brace => p.closeWith brace
  | .separator semicolon => .ok (p.emit (p.separatorToken semicolon))
  | .space => .ok (if options.preserveWhitespace then p.emit ⟨[' '], .whitespace⟩ else p)

/-- Makes the tokens of lexemes in turn. -/
def Progress.readAll (options : Options) (p : Progress) : List Lexeme → Except Fault Progress
  | [] => .ok p
  | lexeme :: rest =>
    match p.read options lexeme with
    | .error fault => .error fault
    | .ok q => q.readAll options rest

/-- What beginning a subexpression does. -/
theorem Progress.read_opening_eq_ok_iff {options : Options} {p q : Progress} {opener : Opener} :
    p.read options (.opening opener) = .ok q ↔
      ∃ nesting, p.nesting.push? opener = some nesting ∧ ⟨opener.token :: p.tokens, nesting, []⟩ = q := by
  rw [read, openWith]
  cases p.nesting.push? opener with
  | none => simp
  | some nesting => simp

/-- What ending a subexpression does. -/
theorem Progress.read_closing_eq_ok_iff {options : Options} {p q : Progress} {brace : Bool} :
    p.read options (.closing brace) = .ok q ↔
      ∃ opener nesting, p.nesting.pop? = some (opener, nesting) ∧ decide (opener.bracket = .array) = brace ∧
        ⟨.closerOf opener.bracket :: p.tokens, nesting, p.held⟩ = q := by
  rw [read, closeWith]
  cases p.nesting.pop? with
  | none => simp
  | some popped =>
    by_cases fits : decide (popped.1.bracket = .array) = brace
    · simp [Prod.ext_iff, fits, and_assoc]
    · simp [Prod.ext_iff, fits, and_assoc]

theorem Progress.readAll_cons_eq_ok_iff {options : Options} {p q : Progress} {lexeme : Lexeme}
    {rest : List Lexeme} :
    p.readAll options (lexeme :: rest) = .ok q ↔
      ∃ p', p.read options lexeme = .ok p' ∧ p'.readAll options rest = .ok q := by
  rw [readAll]
  cases p.read options lexeme with
  | error fault => simp
  | ok p' => simp

theorem Progress.readAll_append (options : Options) (p : Progress) (before behind : List Lexeme) :
    p.readAll options (before ++ behind) =
      (p.readAll options before).bind fun q => q.readAll options behind := by
  induction before generalizing p with
  | nil => rfl
  | cons lexeme before ih =>
    rw [List.cons_append, readAll, readAll]
    split
    · rfl
    · exact ih _

theorem Progress.readAll_singleton (options : Options) (p : Progress) (lexeme : Lexeme) :
    p.readAll options [lexeme] = p.read options lexeme := by
  rw [readAll]
  cases p.read options lexeme <;> rfl

theorem Progress.held_read {options : Options} {p q : Progress} {lexeme : Lexeme}
    (h : p.read options lexeme = .ok q) (unheld : p.held = []) : q.held = [] := by
  cases lexeme with
  | opening opener =>
    obtain ⟨nesting, -, rfl⟩ := read_opening_eq_ok_iff.1 h
    rfl
  | closing brace =>
    obtain ⟨opener, nesting, -, -, rfl⟩ := read_closing_eq_ok_iff.1 h
    exact unheld
  | space =>
    simp only [read, Except.ok.injEq] at h
    subst h
    split
    · exact unheld
    · exact unheld
  | operand | operator | separator =>
    cases h
    exact unheld

/-- What each lexeme of a run keeps is kept by the run. -/
theorem Progress.invariant_readAll {I : Progress → Prop} {options : Options} {p q : Progress} {ls : List Lexeme}
    (kept : ∀ l ∈ ls, ∀ p q : Progress, p.read options l = .ok q → I p → I q)
    (h : p.readAll options ls = .ok q) (initial : I p) : I q := by
  induction ls generalizing p with
  | nil =>
    cases h
    exact initial
  | cons l ls ih =>
    obtain ⟨first, rest⟩ := List.forall_mem_cons.1 kept
    obtain ⟨p', step, h⟩ := readAll_cons_eq_ok_iff.1 h
    exact ih rest h (first p p' step initial)

theorem Progress.held_readAll {options : Options} {p q : Progress} {ls : List Lexeme}
    (h : p.readAll options ls = .ok q) (unheld : p.held = []) : q.held = [] :=
  invariant_readAll (fun _ _ _ _ step => held_read step) h unheld

/-- The progress without its held text. -/
def Progress.settled (p : Progress) : Progress :=
  { p with held := [] }

theorem Progress.settled_of_held {p : Progress} (h : p.held = []) : p.settled = p := by
  rw [settled, ← h]

/-- Flushing is reading the held text as an operand. -/
theorem Progress.readAll_heldLexeme (options : Options) (p : Progress) :
    p.settled.readAll options (heldLexeme p.held) = .ok p.flush := by
  rcases p with ⟨tokens, nesting, _ | ⟨c, held⟩⟩ <;> rfl

/-! ### Both stages make up the scan -/

theorem toOption_eq_some_iff {ε α : Type} {e : Except ε α} {a : α} :
    e.toOption = some a ↔ e = .ok a := by
  cases e <;> simp [Except.toOption]

theorem mapError_eq_ok_iff {ε ε' α : Type} {f : ε → ε'} {e : Except ε α} {a : α} :
    e.mapError f = .ok a ↔ e = .ok a := by
  cases e with
  | error fault =>
    constructor
    · rintro ⟨⟩
    · rintro ⟨⟩
  | ok b =>
    constructor
    · rintro ⟨⟩
      rfl
    · rintro ⟨⟩
      rfl

/-- Only a sign without a second character can belong to an exponent. -/
theorem sign_of_joins {held : List Char} {first : Char} {second : Option Char}
    (formed : (Piece.operator first second).Formed) (h : joins held (.operator first second) = true) :
    second = none ∧ first ∈ operators := by
  have sign : first = '+' ∨ first = '-' := by simpa using (Bool.and_eq_true_iff.1 h).1
  exact ⟨formed.second_eq_none sign, formed.mem_operators⟩

/-- A piece that is held changes nothing but the held text. -/
theorem accept_of_joins (options : Options) {p : Progress} {piece : Piece} (formed : piece.Formed)
    (h : joins p.held piece = true) : accept options p piece = .ok (p.hold piece.text) := by
  cases piece with
  | plain c => rfl
  | bracketed text => rfl
  | quotedLink text =>
    have empty : p.held = [] := by simpa [joins] using h
    simp [accept, Progress.unheld, empty, Except.map, Piece.text]
  | operator first second =>
    have sign : isExponentSign p first = true := h
    obtain ⟨rfl, -⟩ := sign_of_joins formed h
    simp only [accept, sign, if_true]
    rfl
  | _ => simp [joins] at h

/-- A piece that is not held completes lexemes, which are read at once. -/
theorem accept_of_completes (options : Options) {p : Progress} {piece : Piece}
    (formed : piece.Formed) (h : joins p.held piece = false) :
    (accept options p piece).toOption =
      (completes? p.held piece).bind fun done => (p.settled.readAll options done).toOption := by
  have flushed := Progress.readAll_heldLexeme options p
  cases piece with
  | plain c => simp [joins] at h
  | bracketed text => simp [joins] at h
  | broken => exact formed.elim
  | quotedLink text =>
    have held : p.held ≠ [] := by simpa [joins] using h
    simp [accept, Progress.unheld, held, completes?, Except.map, Except.toOption]
  | quotedText text | errorCode text =>
    by_cases empty : p.held = []
    · simp [accept, Progress.unheld, empty, completes?, Except.map, Except.toOption,
        Progress.readAll, Progress.read, Progress.settled_of_held]
    · simp [accept, Progress.unheld, empty, completes?, Except.map, Except.toOption]
  | spaces more =>
    simp only [accept, completes?, Option.bind_some, Progress.readAll_append, flushed]
    simp [Except.bind, Progress.readAll, Progress.read]
  | operator first second =>
    have sign : isExponentSign p first = false := h
    simp only [accept, sign, completes?, Option.bind_some, Progress.readAll_append, flushed]
    simp [Except.bind, Progress.readAll, Progress.read]
  | parenOpening =>
    have same (opener : Opener) : p.openWith opener = p.settled.openWith opener := rfl
    by_cases empty : p.held = []
    · simp only [accept, completes?, parenOpener, if_pos empty, Option.bind_some,
        Progress.readAll_singleton, Progress.read, same]
    · simp only [accept, completes?, parenOpener, if_neg empty, Option.bind_some,
        Progress.readAll_singleton, Progress.read, same]
  | braceOpening =>
    by_cases empty : p.held = []
    · simp [accept, Progress.unheld, empty, completes?, Except.bind,
        Progress.readAll_singleton, Progress.read, Progress.settled_of_held]
    · simp [accept, Progress.unheld, empty, completes?, Except.bind, Except.toOption]
  | closing brace =>
    simp only [accept, completes?, Option.bind_some, Progress.readAll_append, flushed]
    simp only [Except.bind, Progress.readAll_singleton, Progress.read]
  | separator semicolon =>
    simp only [accept, completes?, Option.bind_some, Progress.readAll_append, flushed]
    simp [Except.bind, Progress.readAll, Progress.read]

/-- The scan joins pieces into lexemes and reads these. -/
theorem acceptAll_eq_gather (options : Options) (ps : List Piece) (formed : ∀ piece ∈ ps, piece.Formed)
    (offset : Nat) (p : Progress) :
    (acceptAll options ps offset p).toOption.map Progress.flush =
      (gather p.held ps).bind fun ls => (p.settled.readAll options ls).toOption := by
  induction ps generalizing offset p with
  | nil =>
    rw [acceptAll, gather, Option.bind_some, Progress.readAll_heldLexeme]
    rfl
  | cons piece ps ih =>
    obtain ⟨here, behind⟩ := List.forall_mem_cons.1 formed
    cases h : joins p.held piece with
    | true =>
      rw [gather_of_joins h, acceptAll, accept_of_joins options here h]
      exact ih behind _ _
    | false =>
      have step := accept_of_completes options here h
      rw [gather_of_completes h, acceptAll]
      cases done : completes? p.held piece with
      | none =>
        rw [done, Option.bind_none] at step
        rw [Option.bind_none, Option.bind_none]
        cases accepted : accept options p piece with
        | error fault => rfl
        | ok q => simp [accepted, Except.toOption] at step
      | some done' =>
        rw [done, Option.bind_some] at step
        rw [Option.bind_some, Option.bind_map]
        simp only [Function.comp_def, Progress.readAll_append]
        cases accepted : accept options p piece with
        | error fault =>
          cases readDone : p.settled.readAll options done' with
          | error fault' => cases gather [] ps <;> rfl
          | ok q => simp [accepted, readDone, Except.toOption] at step
        | ok q =>
          cases readDone : p.settled.readAll options done' with
          | error fault' => simp [accepted, readDone, Except.toOption] at step
          | ok q' =>
            obtain rfl : q = q' := by simpa [accepted, readDone, Except.toOption] using step
            have unheld : q.held = [] := Progress.held_readAll readDone rfl
            have tail := ih behind (offset + Text.byteLength piece.text) q
            rw [unheld, Progress.settled_of_held unheld] at tail
            exact tail

/-- Pieces that are accepted join into lexemes, which are read to the same progress. -/
theorem readAll_of_acceptAll {options : Options} {ps : List Piece} {offset : Nat} {p q : Progress}
    (formed : ∀ piece ∈ ps, piece.Formed) (h : acceptAll options ps offset p = .ok q) :
    ∃ ls, gather p.held ps = some ls ∧ p.settled.readAll options ls = .ok q.flush := by
  have run := acceptAll_eq_gather options ps formed offset p
  rw [h] at run
  obtain ⟨ls, gathered, read⟩ := Option.bind_eq_some_iff.1 run.symm
  exact ⟨ls, gathered, toOption_eq_some_iff.1 read⟩

/-! ### The tokens of a formula -/

@[simp] theorem Progress.nesting_flush (p : Progress) : p.flush.nesting = p.nesting := by
  rcases p with ⟨tokens, nesting, _ | ⟨c, held⟩⟩ <;> rfl

/-- A broken piece is not accepted. -/
theorem accept_broken_ne_ok (options : Options) (p q : Progress) (cause : Broken) (t : List Char) :
    accept options p (.broken cause t) ≠ .ok q := by
  by_cases empty : p.held = []
  · cases cause <;> simp [accept, Progress.unheld, empty, Except.bind]
  · cases cause <;> simp [accept, Progress.unheld, empty, Except.bind]

/-- No piece of a scan that comes to its end is broken. -/
theorem unbroken_of_acceptAll {options : Options} {ps : List Piece} {offset : Nat} {p q : Progress}
    (h : acceptAll options ps offset p = .ok q) (cause : Broken) (t : List Char) :
    .broken cause t ∉ ps := by
  induction ps generalizing offset p with
  | nil => simp
  | cons piece ps ih =>
    rw [acceptAll] at h
    split at h
    · simp at h
    · next p' accepted =>
      intro mem
      rcases List.mem_cons.1 mem with rfl | mem
      · exact accept_broken_ne_ok _ _ _ _ _ accepted
      · exact ih h mem

theorem finish_eq_ok_iff {p : Progress} {length : Nat} {tokens : List Token} :
    finish p length = .ok tokens ↔ p.flush.nesting.items = [] ∧ p.flush.tokens.reverse = tokens := by
  rw [Progress.nesting_flush, finish]
  cases h : p.nesting.items with
  | nil => simp [Nesting.innermost?, h]
  | cons opener items => simp [Nesting.innermost?, h]

/-- A formula is split as soon as its pieces are accepted and nothing is left open. -/
theorem tokenize_eq_ok_iff_acceptAll {options : Options} {body : List Char} {tokens : List Token} :
    tokenize options ('=' :: body) = .ok tokens ↔
      ∃ q, acceptAll options (pieces body) 1 (.start options.maxDepth) = .ok q ∧
        q.flush.nesting.items = [] ∧ q.flush.tokens.reverse = tokens := by
  simp only [tokenize, scan]
  cases acceptAll options (pieces body) 1 (.start options.maxDepth) with
  | error fault => simp [Except.bind, mapError_eq_ok_iff]
  | ok q =>
    have ends := @finish_eq_ok_iff q (1 + Text.byteLength body) tokens
    simp only [Except.bind, Except.ok.injEq, exists_eq_left', ← ends]
    exact mapError_eq_ok_iff

/-- A formula has exactly the tokens that are read from its lexemes, provided that no piece of it is broken and
nothing is left open. -/
theorem tokenize_eq_ok_iff {options : Options} {body : List Char} {tokens : List Token} :
    tokenize options ('=' :: body) = .ok tokens ↔
      Separate (pieces body) ∧ ∃ ls p, gather [] (pieces body) = some ls ∧
        (Progress.start options.maxDepth).readAll options ls = .ok p ∧
        p.nesting.items = [] ∧ p.tokens.reverse = tokens := by
  rw [tokenize_eq_ok_iff_acceptAll]
  constructor
  · rintro ⟨q, accepted, closed, read⟩
    have apart := separate_pieces body (unbroken_of_acceptAll accepted)
    obtain ⟨ls, gathered, readLs⟩ := readAll_of_acceptAll apart.formed accepted
    exact ⟨apart, ls, q.flush, gathered, readLs, closed, read⟩
  · rintro ⟨apart, ls, p, gathered, read, closed, rfl⟩
    have run := acceptAll_eq_gather options (pieces body) apart.formed 1 (.start options.maxDepth)
    rw [show (Progress.start options.maxDepth).held = [] from rfl, gathered, Option.bind_some,
      Progress.settled_of_held rfl, read] at run
    obtain ⟨q, accepted, flushed⟩ := Option.map_eq_some_iff.1 run
    refine ⟨q, toOption_eq_some_iff.1 accepted, ?_, ?_⟩
    · rw [flushed, closed]
    · rw [flushed]

end Spreadsheet.Formula
