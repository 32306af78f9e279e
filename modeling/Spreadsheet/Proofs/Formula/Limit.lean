import Spreadsheet.Proofs.Formula.Location
import Spreadsheet.Proofs.Formula.Surroundings

/-!
# The limit on nesting

One formula is scanned under two limits.  The scans go on together, with the same tokens and the same open
subexpressions, until one more subexpression would be open than the smaller limit allows.  There the scan under the
smaller limit stops, and it has no other reason to stop before.  How many subexpressions are open can be counted in the
tokens, so the tokens alone tell which limits a formula fits under, and where it fails under the others.

* `Nesting.under`, `Progress.under` — the same progress under another limit.
* `accept_under` — a piece is taken in the same way, or it opens a subexpression too much and is refused.
* `acceptAll_under` — a run goes on in the same way, or it goes on to the first piece that is refused.
* `Exceeds` — where a formula exceeds a limit, told by its tokens; `BracketAt` — the place of the bracket of a token.
* `tokenize_limit` — the limits under which a formula has its tokens, and the failure under all others.
-/

namespace Spreadsheet

namespace Nesting

variable {α : Type} {n m : Nesting α} {item : α} {limit : Nat}

/-- The same open items under another limit. -/
def under (n : Nesting α) (limit : Nat) : Nesting α :=
  ⟨n.items, limit - n.depth⟩

theorem limit_under (fits : n.depth ≤ limit) : (n.under limit).limit = limit :=
  Nat.add_sub_cancel' fits

theorem depth_of_push? (h : n.push? item = some m) : m.depth = n.depth + 1 := by
  rw [depth, depth, items_of_push? h, List.length_cons]

theorem depth_of_pop? (h : n.pop? = some (item, m)) : n.depth = m.depth + 1 := by
  rw [depth, depth, items_of_pop? h, List.length_cons]

/-- An item is opened under another limit if it fits there. -/
theorem push?_under (h : n.push? item = some m) (fits : m.depth ≤ limit) :
    (n.under limit).push? item = some (m.under limit) := by
  have deeper := depth_of_push? h
  have room : limit - n.depth = limit - m.depth + 1 := by omega
  rw [under, room, push?, under, items_of_push? h]

theorem push?_under_eq_none (full : n.depth = limit) : (n.under limit).push? item = none := by
  rw [push?_eq_none_iff, limit_under full.le]
  exact full

theorem pop?_under (h : n.pop? = some (item, m)) (fits : n.depth ≤ limit) :
    (n.under limit).pop? = some (item, m.under limit) := by
  have deeper := depth_of_pop? h
  have room : limit - n.depth + 1 = limit - m.depth := by omega
  rw [under, pop?, items_of_pop? h]
  dsimp only
  rw [room, under]

end Nesting

namespace Formula

variable {options : Options} {p q : Progress} {limit : Nat}

namespace Progress

/-- The same progress under another limit. -/
def under (p : Progress) (limit : Nat) : Progress :=
  { p with nesting := p.nesting.under limit }

theorem under_flush (p : Progress) (limit : Nat) : (p.under limit).flush = p.flush.under limit := by
  rcases p with ⟨tokens, nesting, _ | ⟨c, held⟩⟩ <;> rfl

theorem openWith_eq_ok_iff {opener : Opener} :
    p.openWith opener = .ok q ↔
      ∃ nesting, p.nesting.push? opener = some nesting ∧ ⟨opener.token :: p.tokens, nesting, []⟩ = q :=
  @read_opening_eq_ok_iff {} p q opener

theorem closeWith_eq_ok_iff {brace : Bool} :
    p.closeWith brace = .ok q ↔
      ∃ opener nesting, p.nesting.pop? = some (opener, nesting) ∧ decide (opener.bracket = .array) = brace ∧
        ⟨.closerOf opener.bracket :: p.tokens, nesting, p.held⟩ = q :=
  @read_closing_eq_ok_iff {} p q brace

theorem openWith_under {opener : Opener} (h : p.openWith opener = .ok q) (fits : q.nesting.depth ≤ limit) :
    (p.under limit).openWith opener = .ok (q.under limit) := by
  obtain ⟨nesting, pushed, rfl⟩ := openWith_eq_ok_iff.1 h
  exact openWith_eq_ok_iff.2 ⟨_, Nesting.push?_under pushed fits, rfl⟩

/-- A full stack takes nothing more. -/
theorem openWith_refused (opener : Opener) (full : p.nesting.depth = limit) :
    (p.under limit).openWith opener = .error (.nestingTooDeep limit) := by
  rw [openWith, under, Nesting.push?_under_eq_none full]
  dsimp only
  rw [Nesting.limit_under full.le]

theorem closeWith_under {brace : Bool} (h : p.closeWith brace = .ok q) (fits : p.nesting.depth ≤ limit) :
    (p.under limit).closeWith brace = .ok (q.under limit) := by
  obtain ⟨opener, nesting, popped, same, rfl⟩ := closeWith_eq_ok_iff.1 h
  exact closeWith_eq_ok_iff.2 ⟨opener, _, Nesting.pop?_under popped fits, same, rfl⟩

end Progress

/-! ### One piece -/

/-- A piece that opens a subexpression more than another limit allows, which is a bracket and is refused there. -/
structure Refused (options : Options) (limit : Nat) (p q : Progress) (piece : Piece) (opener : Opener) : Prop where
  bracket : ∃ c, piece.text = [c] ∧ opener.value.getLast? = some c
  accepted : accept options p piece = .ok q
  opened : p.openWith opener = .ok q
  full : q.nesting.depth = limit + 1
  refused : accept options (p.under limit) piece = .error (.nestingTooDeep limit)

/-- A bracket opens its subexpression wherever there is room. -/
theorem accept_under_of_openWith {piece : Piece} (opener : Opener)
    (bracket : ∃ c, piece.text = [c] ∧ opener.value.getLast? = some c)
    (opens : ∀ r : Progress, r.held = p.held → accept options r piece = r.openWith opener)
    (h : accept options p piece = .ok q) (before : p.nesting.depth ≤ limit) :
    (q.nesting.depth ≤ limit ∧ accept options (p.under limit) piece = .ok (q.under limit)) ∨
      ∃ opener, Refused options limit p q piece opener := by
  have opened : p.openWith opener = .ok q := (opens p rfl).symm.trans h
  obtain ⟨nesting, pushed, eq⟩ := Progress.openWith_eq_ok_iff.1 opened
  have deeper : q.nesting.depth = p.nesting.depth + 1 := by
    rw [← eq]
    exact Nesting.depth_of_push? pushed
  have opens' := opens (p.under limit) rfl
  by_cases fits : q.nesting.depth ≤ limit
  · exact .inl ⟨fits, opens'.trans (Progress.openWith_under opened fits)⟩
  · have full : p.nesting.depth = limit := by omega
    exact .inr ⟨opener, bracket, h, opened, by omega, opens'.trans (Progress.openWith_refused opener full)⟩

/-- **One step under another limit** is the same step, if its result fits there, or it is refused. -/
theorem accept_under {piece : Piece} (h : accept options p piece = .ok q) (before : p.nesting.depth ≤ limit) :
    (q.nesting.depth ≤ limit ∧ accept options (p.under limit) piece = .ok (q.under limit)) ∨
      ∃ opener, Refused options limit p q piece opener := by
  have flushed : p.flush.nesting.depth ≤ limit := by
    rw [p.nesting_flush]
    exact before
  cases piece with
  | plain | bracketed =>
    cases h
    exact .inl ⟨before, rfl⟩
  | quotedText | errorCode | quotedLink =>
    by_cases held : p.held = []
    · rw [accept, Progress.unheld, if_pos held] at h
      cases h
      refine .inl ⟨before, ?_⟩
      rw [accept, Progress.unheld, if_pos (show (p.under limit).held = [] from held)]
      rfl
    · rw [accept, Progress.unheld, if_neg held] at h
      cases h
  | spaces more =>
    rw [accept] at h
    cases h
    rw [accept, Progress.under_flush]
    split
    · exact .inl ⟨flushed, rfl⟩
    · exact .inl ⟨flushed, rfl⟩
  | operator first second =>
    rw [accept] at h
    cases h
    rw [accept, Progress.under_flush, show isExponentSign (p.under limit) first = isExponentSign p first from rfl]
    split
    · exact .inl ⟨before, rfl⟩
    · exact .inl ⟨flushed, rfl⟩
  | separator semicolon =>
    rw [accept] at h
    cases h
    rw [accept, Progress.under_flush]
    exact .inl ⟨flushed, rfl⟩
  | parenOpening =>
    by_cases held : p.held = []
    · refine accept_under_of_openWith ⟨.paren, ['(']⟩ ⟨'(', rfl, rfl⟩ (fun r same => ?_) h before
      rw [accept, if_pos (same.trans held)]
    · let opener : Opener := ⟨.function, ('(' :: p.held).reverse⟩
      refine accept_under_of_openWith opener ⟨'(', rfl, by simp [opener]⟩ (fun r same => ?_) h before
      rw [accept, if_neg (same ▸ held), same]
  | braceOpening =>
    by_cases held : p.held = []
    · refine accept_under_of_openWith ⟨.array, ['{']⟩ ⟨'{', rfl, rfl⟩ (fun r same => ?_) h before
      rw [accept, Progress.unheld, if_pos (same.trans held)]
      rfl
    · rw [accept, Progress.unheld, if_neg held] at h
      cases h
  | closing brace =>
    rw [accept] at h
    rw [accept, Progress.under_flush]
    obtain ⟨opener, nesting, popped, -, eq⟩ := Progress.closeWith_eq_ok_iff.1 h
    have deeper := Nesting.depth_of_pop? popped
    have behind : q.nesting.depth ≤ limit := by
      rw [← eq]
      show nesting.depth ≤ limit
      omega
    exact .inl ⟨behind, Progress.closeWith_under h flushed⟩
  | broken cause text => exact absurd h (accept_broken_ne_ok options p q cause text)

/-! ### A run of pieces -/

/-- **A run under another limit** is the same run, or it goes on to the first piece that is refused. -/
theorem acceptAll_under {ps : List Piece} {offset : Nat} (h : acceptAll options ps offset p = .ok q)
    (before : p.nesting.depth ≤ limit) :
    acceptAll options ps offset (p.under limit) = .ok (q.under limit) ∨
      ∃ front piece behind r r' opener, ps = front ++ piece :: behind ∧ acceptAll options front offset p = .ok r ∧
        acceptAll options front offset (p.under limit) = .ok (r.under limit) ∧
        Refused options limit r r' piece opener := by
  induction ps generalizing p offset with
  | nil =>
    cases h
    exact .inl rfl
  | cons piece ps ih =>
    rw [acceptAll] at h
    cases step : accept options p piece with
    | error fault =>
      rw [step] at h
      cases h
    | ok p' =>
      rw [step] at h
      rcases accept_under step before with ⟨behind, step'⟩ | ⟨opener, refused⟩
      · rcases ih h behind with run | ⟨front, last, rest, r, r', opener, cutting, run, run', refused⟩
        · refine .inl ?_
          rw [acceptAll, step']
          exact run
        · refine .inr ⟨piece :: front, last, rest, r, r', opener, congrArg (piece :: ·) cutting, ?_, ?_, refused⟩
          · rw [acceptAll, step]
            exact run
          · rw [acceptAll, step']
            exact run'
      · exact .inr ⟨[], piece, ps, p, p', opener, rfl, rfl, rfl, refused⟩

/-! ### The limits of a formula -/

/-- The limit belongs to the progress: pieces are taken without a look at it among the options. -/
theorem acceptAll_maxDepth (ps : List Piece) (offset : Nat) (p : Progress) :
    acceptAll { options with maxDepth := limit } ps offset p = acceptAll options ps offset p := by
  have same (p : Progress) (piece : Piece) :
      accept { options with maxDepth := limit } p piece = accept options p piece := by
    cases piece with
    | broken cause => cases cause <;> rfl
    | _ => rfl
  induction ps generalizing offset p with
  | nil => rfl
  | cons piece ps ih =>
    rw [acceptAll, acceptAll, same]
    split
    · rfl
    · exact ih _ _

/-- The pieces of a run have the text of its tokens, but for the spaces. -/
theorem respace_of_acceptAll {ps : List Piece} {offset maxDepth : Nat} (apart : Separate ps)
    (h : acceptAll options ps offset (.start maxDepth) = .ok q) :
    respace options.gap (.outside false) (ps.flatMap Piece.text) = q.flush.tokens.reverse.flatMap Token.value := by
  obtain ⟨ls, gathered, read⟩ := readAll_of_acceptAll apart.formed h
  have made := Progress.forall₂_makes_start read
  rw [flatMap_value_of_makes made, flatMap_text_of_gather options.gap gathered, respace_flatMap_text options.gap apart]
  rfl

/-- What a run has found stays when the run goes on. -/
theorem prefix_of_acceptAll {ps : List Piece} {offset : Nat} (formed : ∀ piece ∈ ps, piece.Formed)
    (unheld : p.held = []) (h : acceptAll options ps offset p = .ok q) :
    p.tokens.reverse <+: q.flush.tokens.reverse := by
  obtain ⟨ls, -, read⟩ := readAll_of_acceptAll formed h
  rw [Progress.settled_of_held unheld] at read
  exact Progress.prefix_of_readAll read

/-- The place of the bracket that ends the text of an opener behind other tokens: the characters up to this bracket
are those of the tokens up to this one, but for the spaces. -/
def BracketAt (gap formula : List Char) (before : List Token) (opener : Token) (place : Nat) : Prop :=
  ∃ front bracket behind, formula = '=' :: front ++ bracket :: behind ∧ opener.value.getLast? = some bracket ∧
    respace gap (.outside false) (front ++ [bracket]) = (before ++ [opener]).flatMap Token.value ∧
    place = Text.byteLength ('=' :: front)

/-- Where a formula fails under a limit that it does not fit under. -/
structure Exceeds (options : Options) (formula : List Char) (tokens : List Token) (limit : Nat)
    (before : List Token) (opener : Token) (place : Nat) : Prop where
  found : before ++ [opener] <+: tokens
  opening : opener.isOpening = true
  /-- No more than the limit is open in front of the token. -/
  first : depth before ≤ limit
  /-- The token opens one subexpression more. -/
  deep : (unclosed (before ++ [opener])).length = limit + 1
  bracket : BracketAt options.gap formula before opener place

/-- The tokens of a scan that fits under a limit are not deeper than it. -/
theorem depth_le_of_acceptAll {ps : List Piece} {offset : Nat} (formed : ∀ piece ∈ ps, piece.Formed)
    (h : acceptAll options ps offset (.start limit) = .ok q) : depth q.tokens.reverse ≤ limit := by
  obtain ⟨ls, -, read⟩ := readAll_of_acceptAll formed h
  have bounded := (Progress.bounded_readAll read (Progress.bounded_start limit)).depth_le
  rw [depth_le_iff] at bounded ⊢
  intro front begins
  apply bounded
  -- held text comes behind all tokens
  have behind : q.tokens.reverse <+: q.flush.tokens.reverse := by
    rcases q with ⟨tokens, nesting, _ | ⟨c, held⟩⟩
    · exact List.prefix_rfl
    · show tokens.reverse <+: (_ :: tokens).reverse
      rw [List.reverse_cons]
      exact List.prefix_append _ _
  exact begins.trans behind

/-- Where a piece is refused, the formula exceeds the limit. -/
theorem exceeds_of_refused {body : List Char} {front behind : List Piece} {piece : Piece} {opener : Opener}
    {r r' : Progress} (cutting : pieces body = front ++ piece :: behind)
    (run : acceptAll options (pieces body) 1 (.start options.maxDepth) = .ok q)
    (before : acceptAll options front 1 (.start options.maxDepth) = .ok r)
    (before' : acceptAll options front 1 (.start limit) = .ok (r.under limit))
    (refused : Refused options limit r r' piece opener) :
    Exceeds options ('=' :: body) q.flush.tokens.reverse limit r.tokens.reverse opener.token
      (Text.byteLength ('=' :: front.flatMap Piece.text)) := by
  obtain ⟨c, text, last⟩ := refused.bracket
  have full := refused.full
  obtain ⟨nesting, -, rfl⟩ := Progress.openWith_eq_ok_iff.1 refused.opened
  have formed := (separate_pieces body (unbroken_of_acceptAll run)).formed
  -- the run up to the bracket, and the one behind it
  have upTo : acceptAll options (front ++ [piece]) 1 (.start options.maxDepth) =
      .ok ⟨opener.token :: r.tokens, nesting, []⟩ := by
    rw [acceptAll_append, before]
    simp only [Except.bind, acceptAll, refused.accepted]
  have cutting' : pieces body = (front ++ [piece]) ++ behind := by
    rw [cutting, List.append_cons]
  obtain ⟨offset, rest⟩ :
      ∃ offset, acceptAll options behind offset ⟨opener.token :: r.tokens, nesting, []⟩ = .ok q := by
    rw [cutting', acceptAll_append, upTo] at run
    exact ⟨_, run⟩
  have apart := (separate_of_pieces cutting' (unbroken_of_acceptAll upTo)).1
  have tokens : r.tokens.reverse ++ [opener.token] = (opener.token :: r.tokens).reverse := List.reverse_cons.symm
  refine ⟨?_, rfl, ?_, ?_, ?_⟩
  · rw [tokens]
    refine prefix_of_acceptAll (fun p mem => formed p ?_) rfl rest
    rw [cutting]
    exact List.mem_append_right _ (List.mem_cons_of_mem _ mem)
  · show depth (r.under limit).tokens.reverse ≤ limit
    refine depth_le_of_acceptAll (fun p mem => formed p ?_) before'
    rw [cutting]
    exact List.mem_append_left _ mem
  · rw [tokens]
    exact (Progress.nests_of_acceptAll apart.formed upTo).length_unclosed.trans full
  · refine ⟨front.flatMap Piece.text, c, behind.flatMap Piece.text, ?_, last, ?_, rfl⟩
    · rw [← text_pieces body, cutting, List.flatMap_append, List.flatMap_cons, text]
      rfl
    · have spaced := respace_of_acceptAll apart upTo
      rw [List.flatMap_append, List.flatMap_singleton, text] at spaced
      rw [tokens]
      exact spaced

/-- A formula that is accepted fits under another limit, or it exceeds it and fails there. -/
theorem tokenize_under {body : List Char} {tokens : List Token} (h : tokenize options ('=' :: body) = .ok tokens)
    (limit : Nat) :
    tokenize { options with maxDepth := limit } ('=' :: body) = .ok tokens ∨
      ∃ before opener place, Exceeds options ('=' :: body) tokens limit before opener place ∧
        tokenize { options with maxDepth := limit } ('=' :: body) =
          .error ⟨.nestingTooDeep limit, place, '=' :: body⟩ := by
  obtain ⟨q, run, closed, rfl⟩ := tokenize_eq_ok_iff_acceptAll.1 h
  have start : (Progress.start options.maxDepth).under limit = .start limit := rfl
  rcases acceptAll_under run (Nat.zero_le limit) with
    run' | ⟨front, piece, behind, r, r', opener, cutting, before, before', refused⟩
  · refine .inl (tokenize_eq_ok_iff_acceptAll.2 ⟨q.under limit, ?_, ?_, ?_⟩)
    · rw [acceptAll_maxDepth]
      exact run'
    · rw [Progress.under_flush]
      exact closed
    · rw [Progress.under_flush]
      rfl
  · rw [start] at before'
    refine .inr ⟨_, _, _, exceeds_of_refused cutting run before before' refused, ?_⟩
    refine tokenize_eq_error_iff.2 ⟨rfl, scan_eq_error_iff.2 (.inl ?_)⟩
    rw [acceptAll_maxDepth, cutting, acceptAll_append, before']
    simp only [Except.bind, acceptAll, refused.refused, Text.byteLength_cons]
    rfl

/-- **The limit on nesting.** An accepted formula is not deeper than the limit.  Under every limit that its tokens are
not deeper than it has the same tokens.  Under every other one it fails because it is nested too deeply, at the bracket
of the first token that opens one subexpression more than this limit. -/
theorem tokenize_limit {formula : List Char} {tokens : List Token} (h : tokenize options formula = .ok tokens) :
    depth tokens ≤ options.maxDepth ∧
      ∀ limit,
        (depth tokens ≤ limit → tokenize { options with maxDepth := limit } formula = .ok tokens) ∧
        (limit < depth tokens → ∃ before opener place,
          Exceeds options formula tokens limit before opener place ∧
          tokenize { options with maxDepth := limit } formula = .error ⟨.nestingTooDeep limit, place, formula⟩) := by
  cases tokenized h with
  | nothing => exact ⟨Nat.zero_le _, fun limit => ⟨fun _ => rfl, fun deep => absurd deep (Nat.not_lt_zero limit)⟩⟩
  | @literal c s plain =>
    exact ⟨Nat.zero_le _, fun limit =>
      ⟨fun _ => tokenize_literal plain, fun deep => absurd deep (Nat.not_lt_zero limit)⟩⟩
  | formula =>
    refine ⟨depth_le_of_tokenize h, fun limit => ?_⟩
    rcases tokenize_under h limit with accepted | ⟨before, opener, place, exceeds, fails⟩
    · have fits : depth tokens ≤ limit := depth_le_of_tokenize accepted
      exact ⟨fun _ => accepted, fun deep => absurd fits (Nat.not_le.2 deep)⟩
    · have deep : limit < depth tokens := by
        have open' := length_unclosed_le_depth exceeds.found
        rw [exceeds.deep] at open'
        exact open'
      exact ⟨fun fits => absurd deep (Nat.not_lt.2 fits), fun _ => ⟨before, opener, place, exceeds, fails⟩⟩

/-- A call, a parenthesis and an array in one another, behind a character of two bytes: the array does not fit under the
limit of two, and the formula fails at its brace. -/
theorem tokenize_limit_nested :
    let formula := "=é+ F( G ,(\x7b1\x7d))".toList
    ∃ tokens, tokenize {} formula = .ok tokens ∧ depth tokens = 3 ∧ tokenize { maxDepth := 3 } formula = .ok tokens ∧
      (∃ before opener, Exceeds {} formula tokens 2 before opener 12) ∧
      tokenize { maxDepth := 2 } formula = .error ⟨.nestingTooDeep 2, 12, formula⟩ := by
  intro formula
  have accepted : tokenize {} formula = .ok [⟨"é".toList, .operand .range⟩, ⟨['+'], .infixOperator⟩,
      ⟨"F(".toList, .subexpression .function .opening⟩, ⟨['G'], .operand .range⟩, ⟨[','], .separator .argument⟩,
      ⟨['('], .subexpression .paren .opening⟩, ⟨['\x7b'], .subexpression .array .opening⟩, ⟨['1'], .operand .number⟩,
      ⟨['\x7d'], .subexpression .array .closing⟩, ⟨[')'], .subexpression .paren .closing⟩,
      ⟨[')'], .subexpression .function .closing⟩] := toOption_eq_some_iff.1 (by decide +kernel)
  have refused : tokenize { maxDepth := 2 } formula = .error ⟨.nestingTooDeep 2, 12, formula⟩ := by decide +kernel
  obtain ⟨-, limits⟩ := tokenize_limit accepted
  obtain ⟨before, opener, place, exceeds, fails⟩ := (limits 2).2 (by decide +kernel)
  obtain rfl : place = 12 := by
    have same := fails.symm.trans refused
    simpa using same
  exact ⟨_, accepted, by decide +kernel, (limits 3).1 (by decide +kernel), ⟨before, opener, exceeds⟩, refused⟩

end Formula

end Spreadsheet
