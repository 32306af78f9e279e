import Spreadsheet.Proofs.Formula.Brackets

/-!
# Where a formula fails

The place of a fault is where the piece begins that could not be taken.  Everything in front of it has been read, and
would be read in the same way if the formula were another one from there on: a piece that is complete ends before the
next one begins, whatever the next one turns out to be.  So the text in front of the place fails at most because it
leaves subexpressions open, and a fault which the first character at the place decides stays with every formula that
begins in the same way.  A formula that only leaves subexpressions open fails at its end, and the closers of what is
open complete it.

* `exists_of_acceptAll_error` — the pieces in front of the one that fails, and how far they have led.
* `Piece.fault_of_first` — the first character alone decides these faults.
* `exists_acceptAll_closers` — the closers of all open subexpressions are accepted one after another.
* `tokenize_error_located` — the place of an error.
-/

namespace Spreadsheet

namespace Formula

/-- A fault that the first character of the piece decides which does not fit.  The other faults of a piece are those
of one that is not complete. -/
def Fault.IsDecided : Fault → Prop
  | .unexpectedCharacter _ | .unmatchedCloser _ | .mismatchedPair | .nestingTooDeep _ => True
  | _ => False

/-! ### The piece that fails -/

/-- A scan that stops with a fault has taken the pieces in front of one that it does not take. -/
theorem exists_of_acceptAll_error {options : Options} {ps : List Piece} {offset place : Nat} {p : Progress}
    {fault : Fault} (h : acceptAll options ps offset p = .error (fault, place)) :
    ∃ before piece behind q, ps = before ++ piece :: behind ∧ acceptAll options before offset p = .ok q ∧
      accept options q piece = .error fault ∧ place = offset + Text.byteLength (before.flatMap Piece.text) := by
  induction ps generalizing offset p with
  | nil => cases h
  | cons piece ps ih =>
    rw [acceptAll] at h
    cases step : accept options p piece with
    | error cause =>
      rw [step] at h
      cases h
      exact ⟨[], piece, ps, p, rfl, rfl, step, rfl⟩
    | ok p' =>
      rw [step] at h
      obtain ⟨before, failing, behind, q, rfl, run, fails, rfl⟩ := ih h
      refine ⟨piece :: before, failing, behind, q, rfl, ?_, fails, ?_⟩
      · rw [acceptAll, step]
        exact run
      · rw [List.flatMap_cons, Text.byteLength_append, Nat.add_assoc]

theorem Progress.unheld_eq (p : Progress) (c : Char) :
    p.unheld c = .ok p ∨ p.unheld c = .error (.unexpectedCharacter c) := by
  rw [unheld]
  split
  · exact .inl rfl
  · exact .inr rfl

theorem Progress.openWith_ne_unclosed {p : Progress} {o : Opener} {fault : Fault} (h : p.openWith o = .error fault)
    (opener : List Char) : fault ≠ .unclosedSubexpression opener := by
  rw [openWith] at h
  split at h
  · cases h
  · cases h
    simp

/-- No piece fails because something is left open. -/
theorem accept_ne_unclosed {options : Options} {p : Progress} {piece : Piece} {fault : Fault}
    (h : accept options p piece = .error fault) (opener : List Char) : fault ≠ .unclosedSubexpression opener := by
  cases piece with
  | plain | bracketed | spaces | operator | separator => cases h
  | quotedLink | quotedText | errorCode =>
    rw [accept] at h
    rcases p.unheld_eq _ with fits | early
    · rw [fits] at h
      cases h
    · rw [early] at h
      cases h
      simp
  | parenOpening =>
    rw [accept] at h
    split at h
    · exact Progress.openWith_ne_unclosed h opener
    · exact Progress.openWith_ne_unclosed h opener
  | braceOpening =>
    rw [accept] at h
    rcases p.unheld_eq '{' with fits | early
    · rw [fits] at h
      exact Progress.openWith_ne_unclosed h opener
    · rw [early] at h
      cases h
      simp
  | closing brace =>
    rw [accept, Progress.closeWith] at h
    split at h
    · cases h
      simp
    · split at h
      · cases h
      · cases h
        simp
  | broken cause rest =>
    cases cause with
    | bracketed =>
      cases h
      simp
    | text | link | errorCode =>
      rw [accept] at h
      · rcases p.unheld_eq _ with fits | early
        · rw [fits] at h
          cases h
          simp [Broken.fault]
        · rw [early] at h
          cases h
          simp
      · simp

/-! ### What the first character decides -/

section

variable {options : Options} {p : Progress} {fault : Fault} {c : Char} {s t : List Char}

/-- A quoted run or an error code that does not come too early fails because it is not complete, which its first
character does not decide. -/
theorem accept_closed_eq_error_iff {make : List Char → Piece} {cause : Broken} (other : cause ≠ .bracketed)
    (takes : ∀ text, ∃ f, accept options p (make text) = (p.unheld cause.opener).map f) (decided : fault.IsDecided)
    (found : Option (List Char × List Char)) :
    accept options p (closed make cause s found).1 = .error fault ↔
      p.held ≠ [] ∧ fault = .unexpectedCharacter cause.opener := by
  have incomplete : fault ≠ cause.fault := by
    rintro rfl
    cases cause <;> exact decided
  rcases found with _ | ⟨text, rest⟩
  · have broken : accept options p (.broken cause s) = (p.unheld cause.opener).bind fun _ => .error cause.fault := by
      cases cause with
      | bracketed => exact absurd rfl other
      | _ => rfl
    rw [closed, broken, Progress.unheld]
    by_cases held : p.held = []
    · simp [held, Except.bind, incomplete.symm]
    · simp [held, Except.bind, eq_comm]
  · obtain ⟨f, taken⟩ := takes text
    rw [closed, taken, Progress.unheld]
    by_cases held : p.held = []
    · simp [held, Except.map]
    · simp [held, Except.map, eq_comm]

/-- A fault that the first character of a piece decides does not depend on the other characters. -/
theorem Fault.IsDecided.accept_firstPiece (decided : fault.IsDecided)
    (h : accept options p (firstPiece c s).1 = .error fault) : accept options p (firstPiece c t).1 = .error fault := by
  by_cases mark : c ∈ marks
  · simp only [marks, List.mem_cons, List.not_mem_nil, or_false] at mark
    rcases mark with rfl | rfl | rfl | rfl | rfl | rfl | rfl | rfl | rfl | rfl | rfl
    · have iff {s} := @accept_closed_eq_error_iff options p fault s .quotedText .text (by simp)
        (fun text => ⟨_, rfl⟩) decided
      exact (iff _).2 ((iff _).1 h)
    · have iff {s} := @accept_closed_eq_error_iff options p fault s .quotedLink .link (by simp)
        (fun text => ⟨_, rfl⟩) decided
      exact (iff _).2 ((iff _).1 h)
    · -- a bracketed part never comes too early
      rw [firstPiece, closed.eq_def] at h
      split at h
      · cases h
      · cases h
        exact decided.elim
    · have iff {s} := @accept_closed_eq_error_iff options p fault s .errorCode .errorCode (by simp)
        (fun text => ⟨_, rfl⟩) decided
      exact (iff _).2 ((iff _).1 h)
    · cases h
    -- the other marks are pieces of one character
    all_goals exact h
  · by_cases operator : c ∈ operators
    · rw [firstPiece_of_operator operator, operatorPiece.eq_def] at h
      split at h
      · split at h
        · cases h
        · cases h
      · cases h
    · rw [firstPiece_of_plain mark operator] at h
      cases h

end

/-! ### Closing what is open -/

/-- The piece that ends a subexpression. -/
def Opener.closing (o : Opener) : Piece :=
  .closing (decide (o.bracket = .array))

theorem Opener.text_closing (o : Opener) : o.closing.text = (Token.closerOf o.bracket).value := by
  rw [closing]
  cases o.bracket <;> rfl

theorem separate_closing (openers : List Opener) : Separate (openers.map Opener.closing) := by
  induction openers with
  | nil => trivial
  | cons o openers ih => exact ⟨trivial, fun _ _ => rfl, ih⟩

/-- The innermost subexpression is ended by its closer. -/
theorem exists_accept_closing (options : Options) {p : Progress} {o : Opener} {openers : List Opener}
    (opened : p.nesting.items = o :: openers) :
    ∃ q, accept options p o.closing = .ok q ∧ q.nesting.items = openers ∧
      q.flush.tokens = .closerOf o.bracket :: p.flush.tokens := by
  have unheld : p.flush.held = [] := by
    rcases p with ⟨tokens, nesting, _ | ⟨c, held⟩⟩ <;> rfl
  have popped : p.flush.nesting.pop? = some (o, ⟨openers, p.nesting.room + 1⟩) := by
    rw [Progress.nesting_flush, Nesting.pop?, opened]
  refine ⟨⟨.closerOf o.bracket :: p.flush.tokens, ⟨openers, p.nesting.room + 1⟩, []⟩, ?_, rfl, rfl⟩
  rw [Opener.closing, accept, Progress.closeWith, popped]
  simp [unheld]

/-- The closers of everything that is open are accepted one after another. -/
theorem exists_acceptAll_closers (options : Options) (offset : Nat) (p : Progress) {openers : List Opener}
    (opened : p.nesting.items = openers) :
    ∃ q, acceptAll options (openers.map Opener.closing) offset p = .ok q ∧ q.nesting.items = [] ∧
      q.flush.tokens.reverse = p.flush.tokens.reverse ++ openers.map fun o => .closerOf o.bracket := by
  induction openers generalizing offset p with
  | nil => exact ⟨p, rfl, opened, (List.append_nil _).symm⟩
  | cons o openers ih =>
    obtain ⟨p', step, opened', tokens'⟩ := exists_accept_closing options opened
    obtain ⟨q, run, closed, tokens⟩ := ih (offset + Text.byteLength o.closing.text) p' opened'
    refine ⟨q, ?_, closed, ?_⟩
    · rw [List.map_cons, acceptAll, step]
      exact run
    · rw [tokens, tokens', List.reverse_cons, List.append_assoc]
      rfl

/-- The stack of a scan holds what is open in its tokens, also when text is held. -/
theorem Progress.nests_of_acceptAll {options : Options} {ps : List Piece} {offset maxDepth : Nat} {q : Progress}
    (formed : ∀ piece ∈ ps, piece.Formed) (h : acceptAll options ps offset (start maxDepth) = .ok q) :
    q.flush.Nests := by
  obtain ⟨ls, -, read⟩ := readAll_of_acceptAll formed h
  exact nests_readAll read (nests_start maxDepth)

/-- A formula whose pieces are all accepted is completed by the closers of what is open in it. -/
theorem exists_tokenize_append_closers {options : Options} {body : List Char} {q : Progress}
    (run : acceptAll options (pieces body) 1 (.start options.maxDepth) = .ok q) :
    ∃ tokens closers, unclosed tokens = q.nesting.items.map Opener.token ∧
      List.Forall₂ (fun opener closer => opener.closer? = .ok closer) (unclosed tokens) closers ∧
      tokenize options ('=' :: body ++ closers.flatMap Token.value) = .ok (tokens ++ closers) := by
  have apart := separate_pieces body (unbroken_of_acceptAll run)
  have nests := (Progress.nests_of_acceptAll apart.formed run).unclosed_eq
  rw [Progress.nesting_flush] at nests
  obtain ⟨q', closing, closed, tokens⟩ :=
    exists_acceptAll_closers options (1 + Text.byteLength ((pieces body).flatMap Piece.text)) q rfl
  refine ⟨q.flush.tokens.reverse, q.nesting.items.map fun o => .closerOf o.bracket, nests, ?_, ?_⟩
  · rw [nests, List.forall₂_map_left_iff, List.forall₂_map_right_iff]
    exact List.forall₂_same.2 fun o _ => rfl
  · have text : (q.nesting.items.map fun o => Token.closerOf o.bracket).flatMap Token.value =
        (q.nesting.items.map Opener.closing).flatMap Piece.text := by
      simp only [List.flatMap_map, Opener.text_closing]
    have cutting : pieces (body ++ (q.nesting.items.map Opener.closing).flatMap Piece.text) =
        pieces body ++ q.nesting.items.map Opener.closing := by
      have meets : ∀ p ∈ (pieces body).getLast?,
          p.Ends ((q.nesting.items.map Opener.closing).flatMap Piece.text) := by
        intro p _
        cases q.nesting.items with
        | nil => exact p.ends_nil
        | cons o openers =>
          rw [List.map_cons, List.flatMap_cons, Opener.text_closing]
          cases o.bracket <;> exact Piece.ends_cons (by decide) p _
      have whole := pieces_flatMap_text_append apart meets
      rwa [text_pieces, pieces_flatMap_text (separate_closing _)] at whole
    rw [List.cons_append, text]
    refine tokenize_eq_ok_iff_acceptAll.2 ⟨q', ?_, ?_, tokens⟩
    · rw [cutting, acceptAll_append, run]
      exact closing
    · rw [Progress.nesting_flush, closed]

/-! ### The place of a fault -/

/-- Only what begins with `=` can fail. -/
theorem exists_of_tokenize_error {options : Options} {formula : List Char} {e : ScanError}
    (h : tokenize options formula = .error e) : ∃ body, formula = '=' :: body := by
  rw [tokenize.eq_def] at h
  split at h
  · cases h
  · next body => exact ⟨body, rfl⟩
  · cases h

theorem tokenize_eq_error_iff {options : Options} {body : List Char} {e : ScanError} :
    tokenize options ('=' :: body) = .error e ↔
      e.formula = '=' :: body ∧ scan options body = .error (e.fault, e.offset) := by
  rcases e with ⟨fault, offset, formula⟩
  rw [tokenize]
  cases scan options body with
  | ok tokens => simp [Except.mapError]
  | error located =>
    obtain ⟨fault', offset'⟩ := located
    simp only [Except.mapError, Except.error.injEq, ScanError.mk.injEq, Prod.mk.injEq]
    constructor
    · rintro ⟨rfl, rfl, rfl⟩
      exact ⟨rfl, rfl, rfl⟩
    · rintro ⟨rfl, rfl, rfl⟩
      exact ⟨rfl, rfl, rfl⟩

/-- Why a scan fails: at a piece, or at the end because something is open. -/
theorem scan_eq_error_iff {options : Options} {body : List Char} {fault : Fault} {place : Nat} :
    scan options body = .error (fault, place) ↔
      acceptAll options (pieces body) 1 (.start options.maxDepth) = .error (fault, place) ∨
      ∃ q opener, acceptAll options (pieces body) 1 (.start options.maxDepth) = .ok q ∧
        q.nesting.innermost? = some opener ∧ fault = .unclosedSubexpression opener.value ∧
        place = 1 + Text.byteLength body := by
  rw [scan]
  cases acceptAll options (pieces body) 1 (.start options.maxDepth) with
  | error located => simp [Except.bind]
  | ok q =>
    cases top : q.nesting.innermost? with
    | none => simp [Except.bind, finish, top]
    | some opener => simp [Except.bind, finish, top, eq_comm]

/-- A formula that is accepted, or fails only because something is open at its end. -/
def OpenEnded (options : Options) (formula : List Char) : Prop :=
  (∃ tokens, tokenize options formula = .ok tokens) ∨
    ∃ opener place, tokenize options formula = .error ⟨.unclosedSubexpression opener, place, formula⟩

theorem openEnded_of_acceptAll {options : Options} {body : List Char} {q : Progress}
    (run : acceptAll options (pieces body) 1 (.start options.maxDepth) = .ok q) : OpenEnded options ('=' :: body) := by
  cases top : q.nesting.innermost? with
  | none =>
    have items : q.flush.nesting.items = [] := by
      rwa [Progress.nesting_flush, ← List.head?_eq_none_iff]
    exact .inl ⟨_, tokenize_eq_ok_iff_acceptAll.2 ⟨q, run, items, rfl⟩⟩
  | some opener =>
    exact .inr ⟨opener.value, _, tokenize_eq_error_iff.2 ⟨rfl, scan_eq_error_iff.2 (.inr ⟨q, opener, run, top, rfl, rfl⟩)⟩⟩

/-- The pieces in front of a failing one are read in the same way whatever begins behind them with the same
character, so that the same fault shows at the same place if this character decides it. -/
theorem tokenize_decided {options : Options} {before : List Piece} {q : Progress} {c : Char} {s t : List Char}
    {fault : Fault} (apart : Separate before) (meets : ∀ p ∈ before.getLast?, p.Ends (c :: s))
    (run : acceptAll options before 1 (.start options.maxDepth) = .ok q)
    (fails : accept options q (firstPiece c s).1 = .error fault) (decided : fault.IsDecided) :
    tokenize options ('=' :: (before.flatMap Piece.text ++ c :: t)) =
      .error ⟨fault, 1 + Text.byteLength (before.flatMap Piece.text), '=' :: (before.flatMap Piece.text ++ c :: t)⟩ := by
  have meets' : ∀ p ∈ before.getLast?, p.Ends (c :: t) := fun p hp => (Piece.ends_congr rfl).1 (meets p hp)
  refine tokenize_eq_error_iff.2 ⟨rfl, scan_eq_error_iff.2 (.inl ?_)⟩
  rw [pieces_flatMap_text_append apart meets', acceptAll_append, run, pieces_cons]
  simp only [Except.bind, acceptAll, decided.accept_firstPiece fails]

/-- **Errors are located exactly.** An error names its formula.  If only something is left open, its place is the end
of the formula, and the closers of the openers without one, innermost first, complete the formula.  Any other error
shows in front of a character of the formula: the text before this character is no formula that fails, except that
something may be open in it, and if the fault is one that the character decides, each formula with the same beginning
up to this character fails for the same reason at the same place. -/
theorem tokenize_error_located {options : Options} {formula : List Char} {e : ScanError}
    (h : tokenize options formula = .error e) :
    e.formula = formula ∧
    (∀ opener, e.fault = .unclosedSubexpression opener →
      e.offset = Text.byteLength formula ∧
      ∃ tokens closers, (unclosed tokens).head?.map Token.value = some opener ∧
        List.Forall₂ (fun opener closer => opener.closer? = .ok closer) (unclosed tokens) closers ∧
        tokenize options (formula ++ closers.flatMap Token.value) = .ok (tokens ++ closers)) ∧
    ((∀ opener, e.fault ≠ .unclosedSubexpression opener) →
      1 ≤ e.offset ∧ e.offset < Text.byteLength formula ∧
      ∃ front c behind, formula = front ++ c :: behind ∧ Text.byteLength front = e.offset ∧
        OpenEnded options front ∧
        (e.fault.IsDecided → ∀ behind',
          tokenize options (front ++ c :: behind') = .error ⟨e.fault, e.offset, front ++ c :: behind'⟩)) := by
  obtain ⟨body, rfl⟩ := exists_of_tokenize_error h
  obtain ⟨named, fails⟩ := tokenize_eq_error_iff.1 h
  refine ⟨named, ?_⟩
  rcases scan_eq_error_iff.1 fails with fails | ⟨q, opener, run, top, fault, place⟩
  · obtain ⟨before, piece, behind, q, cutting, run, fails, place⟩ := exists_of_acceptAll_error fails
    obtain ⟨apart, meets⟩ := separate_of_pieces cutting (unbroken_of_acceptAll run)
    refine ⟨fun opener fault => absurd fault (accept_ne_unclosed fails opener), fun _ => ?_⟩
    -- the place is where the piece begins, so the character there is the first one of the piece
    obtain ⟨c, t, first⟩ := List.exists_cons_of_ne_nil (text_ne_nil body piece (by simp [cutting]))
    have whole : body = before.flatMap Piece.text ++ c :: (t ++ behind.flatMap Piece.text) := by
      rw [← text_pieces body, cutting, List.flatMap_append, List.flatMap_cons, first, List.cons_append]
    rw [List.flatMap_cons, first, List.cons_append] at meets
    have same : (firstPiece c (t ++ behind.flatMap Piece.text)).1 = piece := by
      rw [whole, pieces_flatMap_text_append apart meets, pieces_cons] at cutting
      exact (List.cons.inj (List.append_cancel_left cutting)).1
    have length : Text.byteLength ('=' :: before.flatMap Piece.text) = e.offset := by
      rw [place, Text.byteLength_cons]
      rfl
    refine ⟨?_, ?_, '=' :: before.flatMap Piece.text, c, t ++ behind.flatMap Piece.text, ?_, length, ?_, ?_⟩
    · rw [place]
      exact Nat.le_add_right 1 _
    · have positive := c.utf8Size_pos
      rw [whole, ← List.cons_append, Text.byteLength_append, length, Text.byteLength_cons]
      omega
    · rw [whole, List.cons_append]
    · refine openEnded_of_acceptAll (q := q) ?_
      rwa [pieces_flatMap_text apart]
    · intro decided behind'
      rw [place]
      exact tokenize_decided apart meets run (by rwa [same]) decided
  · refine ⟨fun opener' fault' => ⟨?_, ?_⟩, fun other => absurd fault (other _)⟩
    · rw [place, Text.byteLength_cons]
      rfl
    · obtain rfl := Fault.unclosedSubexpression.inj (fault.symm.trans fault')
      obtain ⟨tokens, closers, opened, closes, completed⟩ := exists_tokenize_append_closers run
      refine ⟨tokens, closers, ?_, closes, completed⟩
      rw [opened, List.head?_map, Option.map_map]
      exact congrArg (Option.map _) top

/-- A text that comes too early inside of two open subexpressions, behind a character of two bytes: nothing behind its
quote matters, and what stands in front of it only lacks two closers. -/
theorem tokenize_error_located_nested :
    let early := "=SUM(\x7bé\"a\"\x7d)".toList
    let opened := "=SUM(\x7bé".toList
    tokenize {} early = .error ⟨.unexpectedCharacter '"', 8, early⟩ ∧
      (∃ front c behind, early = front ++ c :: behind ∧ Text.byteLength front = 8 ∧ OpenEnded {} front ∧
        ∀ behind', tokenize {} (front ++ c :: behind') =
          .error ⟨.unexpectedCharacter '"', 8, front ++ c :: behind'⟩) ∧
      tokenize {} opened = .error ⟨.unclosedSubexpression ['{'], 8, opened⟩ ∧
      ∃ tokens closers, (unclosed tokens).head?.map Token.value = some ['{'] ∧
        List.Forall₂ (fun opener closer => opener.closer? = .ok closer) (unclosed tokens) closers ∧
        tokenize {} (opened ++ closers.flatMap Token.value) = .ok (tokens ++ closers) := by
  intro early opened
  have fails : tokenize {} early = .error ⟨.unexpectedCharacter '"', 8, early⟩ := by decide +kernel
  have unfinished : tokenize {} opened = .error ⟨.unclosedSubexpression ['{'], 8, opened⟩ := by decide +kernel
  obtain ⟨-, -, place⟩ := tokenize_error_located fails
  obtain ⟨-, -, front, c, behind, whole, length, openEnded, stays⟩ := place (by simp)
  obtain ⟨-, completed, -⟩ := tokenize_error_located unfinished
  exact ⟨fails, ⟨front, c, behind, whole, length, openEnded, stays trivial⟩, unfinished, (completed _ rfl).2⟩

end Formula

end Spreadsheet
