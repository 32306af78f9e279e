import Mathlib.Data.List.Infix
import Spreadsheet.Proofs.Formula.Classification

/-!
# A scan inside of other subexpressions

The same lexemes are read once from the beginning of a formula, and once behind other tokens and inside of other
subexpressions.  The second time the scan has the other subexpressions at the bottom of its stack, and less room above
them.  Nothing else is different, except that a comma which stands in none of its own subexpressions has the role that
the surroundings give it.

* `depth` — how many subexpressions are open at once; `depth_le_of_tokenize`: no more than the limit.
* `withCommas` — tokens in which the outermost commas have another role.
* `Progress.readAll_within` — lexemes that are read from the beginning are read inside of surroundings, if there is
  room for their depth.
* `Progress.exists_readAll_divided`, `Progress.exists_readAll_enclosed` — behind an operator, and between brackets.
-/

namespace Spreadsheet

namespace Nesting

variable {α : Type} {n m : Nesting α} {item : α}

/-- The same open items on top of others, which take up room. -/
def onTop (n : Nesting α) (below : List α) : Nesting α :=
  ⟨n.items ++ below, n.room - below.length⟩

theorem push?_onTop {below : List α} (h : n.push? item = some m) (fits : below.length ≤ m.room) :
    (n.onTop below).push? item = some (m.onTop below) := by
  rcases n with ⟨items, _ | room⟩
  · simp [push?] at h
  · simp only [push?, Option.some.injEq] at h
    subst h
    have less : room + 1 - below.length = room - below.length + 1 := Nat.succ_sub fits
    simp only [onTop, push?, less, List.cons_append]

theorem pop?_onTop {below : List α} (h : n.pop? = some (item, m)) (fits : below.length ≤ n.room) :
    (n.onTop below).pop? = some (item, m.onTop below) := by
  rcases n with ⟨_ | ⟨top, items⟩, room⟩
  · simp [pop?] at h
  · simp only [pop?, Option.some.injEq, Prod.mk.injEq] at h
    obtain ⟨rfl, rfl⟩ := h
    have more : room + 1 - below.length = room - below.length + 1 := Nat.succ_sub fits
    simp only [onTop, pop?, more, List.cons_append]

end Nesting

namespace Formula

/-! ### Depth -/

/-- The largest number of subexpressions that are open at once. -/
def depth (tokens : List Token) : Nat :=
  (tokens.inits.map fun front => (unclosed front).length).max?.getD 0

theorem length_unclosed_le_depth {front tokens : List Token} (h : front <+: tokens) :
    (unclosed front).length ≤ depth tokens :=
  List.le_max?_getD_of_mem (List.mem_map_of_mem ((List.mem_inits front tokens).2 h))

theorem depth_le_iff {tokens : List Token} {n : Nat} :
    depth tokens ≤ n ↔ ∀ front, front <+: tokens → (unclosed front).length ≤ n := by
  constructor
  · intro h front begins
    exact (length_unclosed_le_depth begins).trans h
  · intro h
    rw [depth]
    cases largest : (tokens.inits.map fun front => (unclosed front).length).max? with
    | none => exact Nat.zero_le n
    | some deepest =>
      obtain ⟨front, begins, rfl⟩ := List.mem_map.1 (List.max?_mem largest)
      exact h front ((List.mem_inits front tokens).1 begins)

theorem depth_append_singleton_le {tokens : List Token} {t : Token} {n : Nat} (before : depth tokens ≤ n)
    (here : (unclosed (tokens ++ [t])).length ≤ n) : depth (tokens ++ [t]) ≤ n := by
  rw [depth_le_iff] at before ⊢
  intro front begins
  rcases List.prefix_concat_iff.1 begins with rfl | begins
  · exact here
  · exact before front begins

/-- As many subexpressions are open in the tokens as there are on the stack. -/
theorem Progress.Nests.length_unclosed {p : Progress} (h : p.Nests) :
    (unclosed p.tokens.reverse).length = p.nesting.depth := by
  rw [h.unclosed_eq, List.length_map, Nesting.depth]

theorem Progress.limit_read {options : Options} {p q : Progress} {l : Lexeme} (h : p.read options l = .ok q) :
    q.nesting.limit = p.nesting.limit := by
  cases l with
  | operand | operator | separator =>
    cases h
    rfl
  | space =>
    simp only [read, Except.ok.injEq] at h
    subst h
    split
    · rfl
    · rfl
  | opening opener =>
    obtain ⟨nesting, pushed, rfl⟩ := read_opening_eq_ok_iff.1 h
    exact Nesting.limit_push? pushed
  | closing brace =>
    obtain ⟨opener, nesting, popped, -, rfl⟩ := read_closing_eq_ok_iff.1 h
    exact Nesting.limit_pop? popped

/-- A scan with this limit, whose tokens have never been deeper. -/
structure Progress.Bounded (limit : Nat) (p : Progress) : Prop where
  nests : p.Nests
  limit_eq : p.nesting.limit = limit
  depth_le : depth p.tokens.reverse ≤ limit

theorem Progress.bounded_start (maxDepth : Nat) : (start maxDepth).Bounded maxDepth :=
  ⟨nests_start maxDepth, Nesting.limit_empty maxDepth, Nat.zero_le _⟩

theorem Progress.bounded_read {options : Options} {p q : Progress} {l : Lexeme} {limit : Nat}
    (h : p.read options l = .ok q) (bounded : p.Bounded limit) : q.Bounded limit := by
  have nests := nests_read h bounded.nests
  have limit_eq := (limit_read h).trans bounded.limit_eq
  refine ⟨nests, limit_eq, ?_⟩
  rcases makes_of_read h with ⟨-, t, -, added⟩ | ⟨-, rfl⟩
  · have here : (unclosed q.tokens.reverse).length ≤ limit := by
      rw [nests.length_unclosed, ← limit_eq]
      exact Nat.le_add_right _ _
    rw [added, List.reverse_cons] at here ⊢
    exact depth_append_singleton_le bounded.depth_le here
  · exact bounded.depth_le

theorem Progress.bounded_readAll {options : Options} {p q : Progress} {ls : List Lexeme} {limit : Nat}
    (h : p.readAll options ls = .ok q) (bounded : p.Bounded limit) : q.Bounded limit :=
  invariant_readAll (fun _ _ _ _ step => bounded_read step) h bounded

/-- An accepted formula is not deeper than the limit. -/
theorem depth_le_of_tokenize {options : Options} {body : List Char} {tokens : List Token}
    (h : tokenize options ('=' :: body) = .ok tokens) : depth tokens ≤ options.maxDepth := by
  obtain ⟨-, ls, p, -, read, -, rfl⟩ := tokenize_eq_ok_iff.1 h
  exact (Progress.bounded_readAll read (Progress.bounded_start options.maxDepth)).depth_le

/-! ### Commas -/

end Formula

/-- The token of a comma in this role. -/
def Token.CommaRole.token : Token.CommaRole → Token
  | .union => ⟨[','], .infixOperator⟩
  | .separator => ⟨[','], .separator .argument⟩

namespace Formula

/-- The token with this role, if it is a comma that joins ranges. -/
def inRole (role : Token.CommaRole) (t : Token) : Token :=
  if t = Token.CommaRole.union.token then role.token else t

/-- The tokens with this role for every comma that stands in none of their subexpressions. -/
def withCommas (role : Token.CommaRole) (tokens : List Token) : List Token :=
  tokens.mapIdx fun i t => if unclosed (tokens.take i) = [] then inRole role t else t

theorem inRole_of_ne {role : Token.CommaRole} {t : Token} (h : t ≠ Token.CommaRole.union.token) :
    inRole role t = t :=
  if_neg h

theorem inRole_union (t : Token) : inRole .union t = t := by
  rw [inRole]
  split
  · next comma => exact comma.symm
  · rfl

/-- Commas that join ranges stay where they may. -/
theorem withCommas_union (tokens : List Token) : withCommas .union tokens = tokens := by
  apply List.ext_getElem?
  intro i
  simp [withCommas, inRole_union]

theorem withCommas_append_singleton (role : Token.CommaRole) (tokens : List Token) (t : Token) :
    withCommas role (tokens ++ [t]) =
      withCommas role tokens ++ [if unclosed tokens = [] then inRole role t else t] := by
  rw [withCommas, List.mapIdx_append, List.mapIdx_singleton, Nat.zero_add, List.take_left]
  congr 1
  rw [withCommas, List.mapIdx_eq_mapIdx_iff]
  intro i inside
  rw [List.take_append_of_le_length inside.le]

/-- A comma in any role is followed by a sign, not by an operator. -/
theorem infersInfix_inRole (role : Token.CommaRole) (t : Token) :
    Token.infersInfix (some (inRole role t)) = Token.infersInfix (some t) := by
  rw [inRole]
  split
  · next comma =>
    rw [comma]
    cases role <;> rfl
  · rfl

theorem separatorToken_false (p : Progress) :
    p.separatorToken false = (Token.commaRole (p.nesting.innermost?.map (·.token.kind))).token := by
  rw [Progress.separatorToken]
  cases Token.commaRole (p.nesting.innermost?.map (·.token.kind)) <;> rfl

/-! ### Surroundings -/

/-- Where a scan may go on as if it had just begun: the tokens in front, the newest first, and the subexpressions that
are open there.  No value stands right in front, so that a plus or a minus is a sign. -/
structure Surroundings where
  front : List Token
  opened : List Opener
  ahead : Token.infersInfix front.head? = false

namespace Surroundings

variable (s : Surroundings)

/-- What a comma does there. -/
def role : Token.CommaRole :=
  Token.commaRole (s.opened.head?.map (·.token.kind))

/-- The tokens in front with further ones behind them, the newest first. -/
def tokens (new : List Token) : List Token :=
  (withCommas s.role new.reverse).reverse ++ s.front

theorem tokens_cons (t : Token) (new : List Token) :
    s.tokens (t :: new) = (if unclosed new.reverse = [] then inRole s.role t else t) :: s.tokens new := by
  rw [tokens, List.reverse_cons, withCommas_append_singleton, List.reverse_append]
  rfl

theorem tokens_cons_of_ne {t : Token} (h : t ≠ Token.CommaRole.union.token) (new : List Token) :
    s.tokens (t :: new) = t :: s.tokens new := by
  rw [tokens_cons, inRole_of_ne h, ite_self]

theorem infersInfix_tokens (new : List Token) :
    Token.infersInfix (s.tokens new).head? = Token.infersInfix new.head? := by
  cases new with
  | nil => exact s.ahead
  | cons t new =>
    rw [tokens_cons, List.head?_cons, List.head?_cons]
    split
    · exact infersInfix_inRole s.role t
    · rfl

end Surroundings

namespace Progress

variable (s : Surroundings) {options : Options} {p q : Progress} {l : Lexeme} {ls : List Lexeme}

/-- The same scan inside of surroundings. -/
def within (p : Progress) : Progress :=
  ⟨s.tokens p.tokens, p.nesting.onTop s.opened, p.held⟩

theorem within_cons {t : Token} (h : t ≠ Token.CommaRole.union.token) (tokens : List Token)
    (nesting : Nesting Opener) (held : List Char) :
    within s ⟨t :: tokens, nesting, held⟩ = ⟨t :: s.tokens tokens, nesting.onTop s.opened, held⟩ := by
  rw [within, s.tokens_cons_of_ne h]

theorem within_emit {t : Token} (h : t ≠ Token.CommaRole.union.token) :
    (p.emit t).within s = (p.within s).emit t :=
  within_cons s h p.tokens p.nesting p.held

/-- Operators are the same inside of surroundings. -/
theorem operatorToken_within (first : Char) (second : Option Char) :
    (p.within s).operatorToken first second = p.operatorToken first second := by
  simp only [operatorToken, within, s.infersInfix_tokens]

/-- Separators are the same inside of surroundings, except for the commas that stand in none of the subexpressions. -/
theorem separatorToken_within (nests : p.Nests) (semicolon : Bool) :
    (p.within s).separatorToken semicolon =
      if unclosed p.tokens.reverse = [] then inRole s.role (p.separatorToken semicolon)
      else p.separatorToken semicolon := by
  cases semicolon with
  | true => exact (ite_self _).symm
  | false =>
    rw [separatorToken_false, separatorToken_false, nests.unclosed_eq]
    cases items : p.nesting.items with
    | nil => simp [Nesting.innermost?, within, Nesting.onTop, items, inRole, Surroundings.role, Token.commaRole]
    | cons opener items' => simp [Nesting.innermost?, within, Nesting.onTop, items]

/-- A lexeme does the same inside of surroundings, if there is room for what it opens. -/
theorem read_within (proper : l.Proper) (nests : p.Nests) (h : p.read options l = .ok q)
    (before : s.opened.length ≤ p.nesting.room) (behind : s.opened.length ≤ q.nesting.room) :
    (p.within s).read options l = .ok (q.within s) := by
  cases l with
  | operand text =>
    cases h
    rw [within_emit s (by simp [Token.operand, Token.CommaRole.token])]
    rfl
  | operator first second =>
    cases h
    -- a token with the text and kind of a comma only comes from a separator
    have other : p.operatorToken first second ≠ Token.CommaRole.union.token := by
      intro comma
      have value : first :: second.toList = [','] := congrArg Token.value comma
      have listed : first ∈ operators := proper
      rw [(List.cons.inj value).1] at listed
      exact absurd listed (by decide)
    rw [within_emit s other, read, operatorToken_within]
  | separator semicolon =>
    cases h
    rw [read, separatorToken_within s nests]
    simp only [within, emit, s.tokens_cons]
  | space =>
    simp only [read, Except.ok.injEq] at h
    subst h
    rw [read]
    split
    · rw [within_emit s (by simp [Token.CommaRole.token])]
    · rfl
  | opening opener =>
    obtain ⟨nesting, pushed, rfl⟩ := read_opening_eq_ok_iff.1 h
    rw [within_cons s (by simp [Opener.token, Token.CommaRole.token])]
    exact read_opening_eq_ok_iff.2 ⟨_, Nesting.push?_onTop pushed behind, rfl⟩
  | closing brace =>
    obtain ⟨opener, nesting, popped, fits, rfl⟩ := read_closing_eq_ok_iff.1 h
    have other : Token.closerOf opener.bracket ≠ Token.CommaRole.union.token := by
      cases opener.bracket <;> decide
    rw [within_cons s other]
    exact read_closing_eq_ok_iff.2 ⟨opener, _, Nesting.pop?_onTop popped before, fits, rfl⟩

theorem prefix_of_readAll (h : p.readAll options ls = .ok q) : p.tokens.reverse <+: q.tokens.reverse := by
  obtain ⟨new, -, tokens⟩ := forall₂_makes h
  rw [tokens, List.reverse_append, List.reverse_reverse]
  exact List.prefix_append _ new

/-- The room that is left at some time in a scan whose tokens will not be deeper than this. -/
theorem le_room {k : Nat} (nests : p.Nests) (begins : p.tokens.reverse <+: q.tokens.reverse)
    (deep : depth q.tokens.reverse + k ≤ p.nesting.limit) : k ≤ p.nesting.room := by
  have now := length_unclosed_le_depth begins
  rw [nests.length_unclosed] at now
  rw [Nesting.limit] at deep
  omega

/-- **Lexemes are read in the same way inside of other subexpressions**, if there is room for their depth. -/
theorem readAll_within (proper : ∀ l ∈ ls, l.Proper) (nests : p.Nests) (h : p.readAll options ls = .ok q)
    (deep : depth q.tokens.reverse + s.opened.length ≤ p.nesting.limit) :
    (p.within s).readAll options ls = .ok (q.within s) := by
  induction ls generalizing p with
  | nil =>
    cases h
    rfl
  | cons l ls ih =>
    obtain ⟨first, rest⟩ := List.forall_mem_cons.1 proper
    -- the tokens so far are the first ones of the final list, whose depth bounds the stack before and after the step
    have room := le_room nests (prefix_of_readAll h) deep
    obtain ⟨p', step, h⟩ := readAll_cons_eq_ok_iff.1 h
    have nests' := nests_read step nests
    rw [← limit_read step] at deep
    have room' := le_room nests' (prefix_of_readAll h) deep
    exact readAll_cons_eq_ok_iff.2 ⟨p'.within s, read_within s first nests step room room', ih rest nests' h deep⟩

end Progress

/-! ### Behind an operator and between brackets -/

section

variable {options : Options} {maxDepth : Nat} {p q : Progress} {ls ms : List Lexeme}

/-- A scan that has closed everything has all its room again. -/
theorem Progress.eq_of_closed (h : (start maxDepth).readAll options ls = .ok p) (closed : p.nesting.items = []) :
    p = ⟨p.tokens, .empty maxDepth, []⟩ := by
  have limit_eq := (bounded_readAll h (bounded_start maxDepth)).limit_eq
  rcases p with ⟨tokens, ⟨items, room⟩, held⟩
  obtain rfl : items = [] := closed
  obtain rfl : held = [] := held_readAll h rfl
  obtain rfl : room = maxDepth := by simpa [Nesting.limit, Nesting.depth] using limit_eq
  rfl

/-- Behind an operator lexemes are read as from the beginning. -/
theorem Progress.exists_readAll_divided {l : Lexeme} {t : Token}
    (first : (start maxDepth).readAll options ls = .ok p) (closed : p.nesting.items = [])
    (divides : p.read options l = .ok (p.emit t)) (infixed : t.kind = .infixOperator)
    (proper : ∀ l ∈ ms, l.Proper) (second : (start maxDepth).readAll options ms = .ok q) :
    ∃ r, (start maxDepth).readAll options (ls ++ l :: ms) = .ok r ∧ r.nesting.items = q.nesting.items ∧
      r.tokens.reverse = p.tokens.reverse ++ t :: q.tokens.reverse := by
  let s : Surroundings := ⟨t :: p.tokens, [], by simp [Token.infersInfix, infixed]⟩
  have begins : p.emit t = (start maxDepth).within s := by
    rw [eq_of_closed first closed]
    rfl
  have deep := (bounded_readAll second (bounded_start maxDepth)).depth_le
  refine ⟨q.within s, ?_, List.append_nil _, ?_⟩
  · rw [readAll_append, first]
    refine readAll_cons_eq_ok_iff.2 ⟨p.emit t, divides, ?_⟩
    rw [begins]
    exact readAll_within s proper (nests_start maxDepth) second (deep.trans_eq (Nesting.limit_empty maxDepth).symm)
  · have union : s.role = .union := rfl
    simp [within, Surroundings.tokens, union, withCommas_union, s]

/-- Between brackets lexemes are read as from the beginning, but for the commas. -/
theorem Progress.exists_readAll_enclosed {opener : Opener} (round : opener.bracket ≠ .array)
    (proper : ∀ l ∈ ms, l.Proper) (inner : (start maxDepth).readAll options ms = .ok q)
    (closed : q.nesting.items = []) (deep : depth q.tokens.reverse < maxDepth) :
    ∃ r, (start maxDepth).readAll options (.opening opener :: ms ++ [.closing false]) = .ok r ∧
      r.nesting.items = [] ∧
      r.tokens.reverse = opener.token ::
        withCommas (Token.commaRole (some opener.token.kind)) q.tokens.reverse ++ [.closerOf opener.bracket] := by
  let s : Surroundings := ⟨[opener.token], [opener], rfl⟩
  obtain ⟨room, rfl⟩ := Nat.exists_eq_add_one.2 (Nat.zero_lt_of_lt deep)
  have begins : (start (room + 1)).read options (.opening opener) = .ok ((start (room + 1)).within s) := rfl
  have run := readAll_within s proper (nests_start (room + 1)) inner
    (Nat.le_trans deep (Nesting.limit_empty (room + 1)).ge)
  have ends : (q.within s).read options (.closing false) =
      .ok ⟨.closerOf opener.bracket :: s.tokens q.tokens, .empty (room + 1), []⟩ := by
    rw [eq_of_closed inner closed]
    simp [within, Nesting.onTop, Nesting.empty, read, closeWith, Nesting.pop?, round, s]
  refine ⟨⟨.closerOf opener.bracket :: s.tokens q.tokens, .empty (room + 1), []⟩, ?_, rfl, ?_⟩
  · rw [List.cons_append]
    refine readAll_cons_eq_ok_iff.2 ⟨_, begins, ?_⟩
    rw [readAll_append, run]
    exact (readAll_singleton options _ _).trans ends
  · simp [Surroundings.tokens, Surroundings.role, s]

end

end Formula

end Spreadsheet
