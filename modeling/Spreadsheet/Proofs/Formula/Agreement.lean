import Spreadsheet.Formula.Scan

/-!
# Scans that differ in their tokens only

Whether runs of spaces make tokens is an option.  It has no part in which text is held and which subexpressions are open,
and these decide which piece is taken and which is not.  So two scans of one formula under the same limit on nesting go on
together, whatever their options, and end or fail at the same place.

* `Agree` — results that are the same failure, or successes of which a relation holds.
* `Alike` — what two such scans have in common; `accept_agree`: they keep it with each piece.
* `tokenize_agree` — a formula has tokens under both options, or it fails in the same way.
-/

namespace Spreadsheet.Formula

/-- Results that are the same failure, or successes of which `R` holds. -/
inductive Agree {ε α β : Type} (R : α → β → Prop) : Except ε α → Except ε β → Prop
  | error (e : ε) : Agree R (.error e) (.error e)
  | ok {a : α} {b : β} : R a b → Agree R (.ok a) (.ok b)

namespace Agree

variable {ε ε' α β γ δ : Type} {R : α → β → Prop} {S : γ → δ → Prop} {x : Except ε α} {y : Except ε β}

theorem map (h : Agree R x y) {f : α → γ} {g : β → δ} (related : ∀ a b, R a b → S (f a) (g b)) :
    Agree S (x.map f) (y.map g) := by
  cases h with
  | error e => exact .error e
  | ok here => exact .ok (related _ _ here)

theorem bind (h : Agree R x y) {f : α → Except ε γ} {g : β → Except ε δ}
    (related : ∀ a b, R a b → Agree S (f a) (g b)) : Agree S (x.bind f) (y.bind g) := by
  cases h with
  | error e => exact .error e
  | ok here => exact related _ _ here

theorem mapError (h : Agree R x y) (f : ε → ε') : Agree R (x.mapError f) (y.mapError f) := by
  cases h with
  | error e => exact .error (f e)
  | ok here => exact .ok here

theorem error_iff (h : Agree R x y) (e : ε) : x = .error e ↔ y = .error e := by
  cases h with
  | error e' => simp
  | ok => simp

theorem exists_ok (h : Agree R x y) {a : α} (ok : x = .ok a) : ∃ b, y = .ok b ∧ R a b := by
  cases h with
  | error e => cases ok
  | ok here =>
    cases ok
    exact ⟨_, rfl, here⟩

theorem exists_ok_iff (h : Agree R x y) : (∃ a, x = .ok a) ↔ ∃ b, y = .ok b := by
  cases h with
  | error e => simp
  | ok => simp

end Agree

/-- Two scans that hold the same text inside of the same subexpressions. -/
structure Alike (p p' : Progress) : Prop where
  nesting : p.nesting = p'.nesting
  held : p.held = p'.held

namespace Alike

variable {p p' : Progress}

theorem emit (h : Alike p p') (t t' : Token) : Alike (p.emit t) (p'.emit t') :=
  ⟨h.nesting, h.held⟩

theorem hold (h : Alike p p') (text : List Char) : Alike (p.hold text) (p'.hold text) :=
  ⟨h.nesting, congrArg (text.reverse ++ ·) h.held⟩

theorem flush (h : Alike p p') : Alike p.flush p'.flush := by
  obtain ⟨tokens, nesting, held⟩ := p
  obtain ⟨tokens', nesting', held'⟩ := p'
  obtain ⟨rfl, rfl⟩ := h
  cases held <;> exact ⟨rfl, rfl⟩

theorem unheld (h : Alike p p') (c : Char) : Agree Alike (p.unheld c) (p'.unheld c) := by
  rw [Progress.unheld, Progress.unheld, h.held]
  split
  · exact .ok h
  · exact .error _

theorem openWith (h : Alike p p') (opener : Opener) : Agree Alike (p.openWith opener) (p'.openWith opener) := by
  rw [Progress.openWith, Progress.openWith, h.nesting]
  cases p'.nesting.push? opener with
  | none => exact .error _
  | some nesting => exact .ok ⟨rfl, rfl⟩

theorem closeWith (h : Alike p p') (brace : Bool) : Agree Alike (p.closeWith brace) (p'.closeWith brace) := by
  rw [Progress.closeWith, Progress.closeWith, h.nesting]
  cases p'.nesting.pop? with
  | none => exact .error _
  | some popped =>
    by_cases fits : decide (popped.1.bracket = .array) = brace
    · simp only [if_pos fits]
      exact .ok ⟨rfl, h.held⟩
    · simp only [if_neg fits]
      exact .error _

end Alike

variable {options options' : Options}

/-- Scans that are alike stay so with any piece, whatever becomes of spaces. -/
theorem accept_agree {p p' : Progress} (h : Alike p p') (piece : Piece) :
    Agree Alike (accept options p piece) (accept options' p' piece) := by
  cases piece with
  | plain c => exact .ok (h.hold [c])
  | bracketed text => exact .ok (h.hold text)
  | quotedLink text => exact (h.unheld _).map fun _ _ alike => alike.hold text
  | quotedText text | errorCode text => exact (h.unheld _).map fun _ _ alike => alike.emit _ _
  | spaces more =>
    refine .ok ?_
    split <;> split
    all_goals exact ⟨h.flush.nesting, h.flush.held⟩
  | operator first second =>
    refine .ok ?_
    rw [isExponentSign, isExponentSign, h.held]
    split
    · exact h.hold [first]
    · exact h.flush.emit _ _
  | parenOpening =>
    rw [accept, accept, h.held]
    split
    · exact h.openWith _
    · exact h.openWith _
  | braceOpening => exact (h.unheld _).bind fun _ _ alike => alike.openWith _
  | closing brace => exact h.flush.closeWith brace
  | separator semicolon => exact .ok (h.flush.emit _ _)
  | broken cause rest =>
    cases cause with
    | bracketed => exact .error _
    | text | link | errorCode => exact (h.unheld _).bind fun _ _ _ => .error _

theorem acceptAll_agree {p p' : Progress} (h : Alike p p') (ps : List Piece) (offset : Nat) :
    Agree Alike (acceptAll options ps offset p) (acceptAll options' ps offset p') := by
  induction ps generalizing offset p p' with
  | nil => exact .ok h
  | cons piece ps ih =>
    have step := @accept_agree options options' p p' h piece
    rw [acceptAll, acceptAll]
    generalize accept options p piece = x at step ⊢
    generalize accept options' p' piece = y at step ⊢
    cases step with
    | error fault => exact .error _
    | ok alike => exact ih alike _

theorem scan_agree (depth : options.maxDepth = options'.maxDepth) (body : List Char) :
    Agree (fun _ _ => True) (scan options body) (scan options' body) := by
  rw [scan, scan, depth]
  refine (acceptAll_agree ⟨rfl, rfl⟩ _ _).bind fun q q' alike => ?_
  rw [finish, finish, Nesting.innermost?, Nesting.innermost?, alike.nesting]
  split
  · exact .error _
  · exact .ok trivial

/-- The same formulas have tokens, and the others fail in the same way. -/
theorem tokenize_agree (depth : options.maxDepth = options'.maxDepth) (formula : List Char) :
    Agree (fun _ _ => True) (tokenize options formula) (tokenize options' formula) := by
  rw [tokenize.eq_def, tokenize.eq_def]
  split
  · exact .ok trivial
  · exact (scan_agree depth _).mapError _
  · exact .ok trivial

end Spreadsheet.Formula
