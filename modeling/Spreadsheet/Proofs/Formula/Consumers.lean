import Spreadsheet.Formula.Cursor
import Spreadsheet.Proofs.Formula.Location

/-!
# What the consumers of a cursor take

A consumer searches the rest of a formula by its bytes and says how many it has taken.  Here this is compared with
cutting the rest into pieces by its characters: each consumer takes exactly the bytes of the first piece, does with
them what accepting the piece does, and fails where the piece is not accepted.  So it never asks for a part of the text
that would tear a character, and no token that it builds is refused.

* `quotedLength?_bytes` — the end of a quoted run, which is searched byte by byte: no byte of another character is
  taken for a quote.
* `takeQuoted_eq`, `takeBracketed_eq`, `takeSpaces_eq`, `takeOperator_eq` — what is taken, for any cursor.
* `Progress.cursor` — the cursor of a scan by pieces; `consume_cursor` compares the two on the next piece.
-/

namespace Spreadsheet

namespace Formula

/-! ### Quoted runs by their bytes -/

theorem quotedLength?_cons_of_ne {delimiter b : UInt8} (other : b ≠ delimiter) (i : Nat) (bytes : List UInt8) :
    quotedLength? delimiter i (b :: bytes) = quotedLength? delimiter (i + 1) bytes := by
  cases bytes with
  | nil => exact if_neg other
  | cons => rw [quotedLength?, if_neg other]

/-- Bytes other than the delimiter are passed. -/
theorem quotedLength?_append {delimiter : UInt8} {front : List UInt8} (other : delimiter ∉ front) (i : Nat)
    (bytes : List UInt8) :
    quotedLength? delimiter i (front ++ bytes) = quotedLength? delimiter (i + front.length) bytes := by
  induction front generalizing i with
  | nil => rfl
  | cons b front ih =>
    obtain ⟨first, others⟩ := by simpa only [List.mem_cons, not_or] using other
    rw [List.cons_append, quotedLength?_cons_of_ne (Ne.symm first), ih others, List.length_cons]
    congr 1
    omega

/-- No byte of another character is taken for the delimiter. -/
theorem quotedLength?_bytes_cons {delimiter c : Char} (ascii : delimiter.utf8Size = 1) (other : c ≠ delimiter)
    (i : Nat) (s : List Char) :
    quotedLength? delimiter.toUInt8 i (Text.bytes (c :: s)) =
      quotedLength? delimiter.toUInt8 (i + c.utf8Size) (Text.bytes s) := by
  rw [Text.bytes_cons, quotedLength?_append (Text.not_mem_utf8EncodeChar ascii other), String.length_utf8EncodeChar]

/-- Searching the bytes for the end of a quoted run finds the one that is found in the characters. -/
theorem quotedLength?_bytes {delimiter : Char} (ascii : delimiter.utf8Size = 1) (run s : List Char) :
    quotedLength? delimiter.toUInt8 (Text.byteLength run) (Text.bytes s) =
      (closeQuote? delimiter run s).map fun (text, _) => Text.byteLength text := by
  have mark (s : List Char) : Text.bytes (delimiter :: s) = delimiter.toUInt8 :: Text.bytes s := by
    rw [Text.bytes_cons, Text.utf8EncodeChar_of_ascii ascii]
    rfl
  have ended (run rest : List Char) : some (Text.byteLength run + 1) =
      (some ((delimiter :: run).reverse, rest)).map fun (text, _) => Text.byteLength text := by
    show _ = some (Text.byteLength (delimiter :: run).reverse)
    rw [Text.byteLength_reverse, Text.byteLength_cons, ascii, Nat.add_comm]
  fun_induction closeQuote? delimiter run s with
  | case1 => rfl
  | case2 run =>
    rw [mark, Text.bytes_nil, quotedLength?, if_pos rfl, ended]
  | case3 run c other =>
    rw [quotedLength?_bytes_cons ascii other, Text.bytes_nil, quotedLength?, Option.map_none]
  | case4 run s ih =>
    rw [Text.byteLength_cons, Text.byteLength_cons, ascii, ← Nat.add_assoc, Nat.add_comm] at ih
    rw [mark, mark, quotedLength?, if_pos rfl, if_pos rfl, ih]
  | case5 run d s other =>
    -- the first byte of the next character is not the delimiter, so the run ends
    have first := Text.not_mem_utf8EncodeChar ascii other
    cases encoded : String.utf8EncodeChar d with
    | nil =>
      have length := String.length_utf8EncodeChar d
      rw [encoded] at length
      exact absurd length (Nat.ne_of_lt d.utf8Size_pos)
    | cons b bytes =>
      rw [encoded, List.mem_cons, not_or] at first
      rw [mark, Text.bytes_cons, encoded, List.cons_append, quotedLength?, if_pos rfl,
        if_neg (Ne.symm first.1), ended]
  | case6 run c d s other ih =>
    rw [Text.byteLength_cons, Nat.add_comm] at ih
    rw [quotedLength?_bytes_cons ascii other, ih]

namespace Cursor

variable {c : Cursor}

/-! ### What a consumer takes -/

theorem takeQuoted_eq {ch : Char} (ascii : ch.utf8Size = 1) (empty : c.pending = []) (s : List Char) :
    c.takeQuoted ch (ch :: s) =
      match closeQuote? ch [ch] s with
      | none => c.fails (if ch.toUInt8 = '"'.toUInt8 then .unterminatedString else .unterminatedLink)
      | some (text, _) =>
        .ok (if ch.toUInt8 = '"'.toUInt8 then c.emit (.operand text) else c.hold text, Text.byteLength text) := by
  have search := quotedLength?_bytes ascii [ch] s
  rw [Text.byteLength_cons, Text.byteLength_nil, ascii] at search
  rw [takeQuoted, if_neg (fun held => held empty), Text.bytes_cons, Text.utf8EncodeChar_of_ascii ascii,
    List.singleton_append]
  simp only [search]
  cases found : closeQuote? ch [ch] s with
  | none => rfl
  | some cut =>
    obtain ⟨text, rest⟩ := cut
    have whole : text ++ rest = ch :: s := (closeQuote?_eq_some found).1
    simp only [Option.map_some, ← whole, Text.cutAt?_byteLength_append]

theorem takeBracketed_eq (s : List Char) :
    c.takeBracketed s =
      match bracketed? s with
      | none => c.fails .unmatchedBracket
      | some (text, _) => .ok (c.hold text, Text.byteLength text) := by
  rw [takeBracketed]
  by_cases closed : ']' ∈ s
  · obtain ⟨inner, rest, rfl, other⟩ := List.eq_append_cons_of_mem closed
    have length : Text.byteLength (inner ++ [']']) = Text.byteLength inner + 1 := Text.byteLength_append _ _
    have cut := Text.cutAt?_byteLength_append (inner ++ [']']) rest
    rw [length, List.append_assoc, List.singleton_append] at cut
    simp only [Text.find?_append other, cut, bracketed?_append inner rest other, length]
  · have unclosed : bracketed? s = none := by
      refine Option.eq_none_iff_forall_not_mem.2 fun cut found => closed ?_
      obtain ⟨text, rest⟩ := cut
      obtain ⟨inner, -, rfl⟩ := plain_of_bracketed? found
      rw [← (bracketed?_eq_some found).1]
      simp
    rw [Text.find?_eq_none_iff.2 closed, unclosed]

theorem takeSpaces_eq (options : Options) (s : List Char) :
    c.takeSpaces options (' ' :: s) =
      (if options.preserveWhitespace then c.emit ⟨[' '], .whitespace⟩ else c,
        Text.byteLength (Piece.spaces (s.takeWhile (· = ' ')).length).text) := by
  have whole : Text.byteLength (Piece.spaces (s.takeWhile (· = ' ')).length).text +
      Text.byteLength (s.dropWhile (· = ' ')) = Text.byteLength (' ' :: s) := by
    rw [← Text.byteLength_append]
    exact congrArg Text.byteLength (text_firstPiece ' ' s).1
  rw [takeSpaces, List.dropWhile_cons_of_pos (by decide), ← whole, Nat.add_sub_cancel]

/-- An operator is taken as it is cut off as a piece. -/
theorem takeOperator_eq {ch : Char} (operator : ch ∈ operators) (s : List Char) :
    ∃ second, (operatorPiece ch s).1 = .operator ch second ∧
      c.takeOperator (ch :: s) =
        .ok (c.emit ⟨ch :: second.toList, c.operatorKind (ch :: second.toList)⟩,
          Text.byteLength (ch :: second.toList)) := by
  have ascii : ch.utf8Size = 1 := by
    have all : (operators.all fun d => decide (d.utf8Size = 1)) = true := by decide
    exact of_decide_eq_true (List.all_eq_true.1 all ch operator)
  by_cases pair : ∃ d t, s = d :: t ∧ (ch, d) ∈ comparisons
  · obtain ⟨d, t, rfl, pair⟩ := pair
    have length : Text.byteLength [ch, d] = 2 := by
      have all : ∀ p ∈ comparisons, Text.byteLength [p.1, p.2] = 2 := by decide
      exact all _ pair
    have cut : Text.cutAt? 2 (ch :: d :: t) = some ([ch, d], t) := Text.cutAt?_eq_some_iff.2 ⟨rfl, length⟩
    refine ⟨some d, by rw [operatorPiece, if_pos pair], ?_⟩
    rw [takeOperator, cut]
    simp only [comparisons, List.mem_cons, Prod.mk.injEq, List.not_mem_nil, or_false] at pair
    rcases pair with ⟨rfl, rfl⟩ | ⟨rfl, rfl⟩ | ⟨rfl, rfl⟩ <;> rfl
  · have alone : (operatorPiece ch s).1 = .operator ch none := by
      cases s with
      | nil => rfl
      | cons d t => rw [operatorPiece, if_neg fun h => pair ⟨d, t, rfl, h⟩]
    have other : ((Text.cutAt? 2 (ch :: s)).filter fun cut =>
        cut.1 = ['>', '='] ∨ cut.1 = ['<', '='] ∨ cut.1 = ['<', '>']) = none := by
      refine Option.eq_none_iff_forall_not_mem.2 fun cut found => pair ?_
      obtain ⟨text, rest⟩ := cut
      obtain ⟨cut, comparison⟩ := Option.filter_eq_some_iff.1 found
      -- the two bytes are the first two characters, because a comparison is ASCII
      obtain ⟨whole, -⟩ := Text.append_of_cutAt? cut
      rcases of_decide_eq_true comparison with rfl | rfl | rfl
      all_goals
        obtain ⟨rfl, rfl⟩ := List.cons.inj whole
        exact ⟨_, rest, rfl, by decide⟩
    have length : Text.byteLength [ch] = 1 := by rw [Text.byteLength_cons, ascii, Text.byteLength_nil]
    have first : Text.cutAt? 1 (ch :: s) = some ([ch], s) := Text.cutAt?_eq_some_iff.2 ⟨rfl, length⟩
    refine ⟨none, alone, ?_⟩
    rw [takeOperator, other]
    simp only [first, Option.toList_none, length]

end Cursor

/-! ### The two scans side by side -/

/-- The open subexpressions by their tokens. -/
def openTokens (n : Nesting Opener) : Nesting Token :=
  ⟨n.items.map Opener.token, n.room⟩

theorem push?_openTokens (n : Nesting Opener) (o : Opener) :
    (openTokens n).push? o.token = (n.push? o).map openTokens := by
  rcases n with ⟨items, _ | room⟩ <;> rfl

theorem pop?_openTokens (n : Nesting Opener) :
    (openTokens n).pop? = n.pop?.map fun (o, n) => (o.token, openTokens n) := by
  rcases n with ⟨_ | ⟨o, items⟩, room⟩ <;> rfl

theorem innermost?_openTokens (n : Nesting Opener) :
    (openTokens n).innermost? = n.innermost?.map Opener.token :=
  List.head?_map

theorem limit_openTokens (n : Nesting Opener) : (openTokens n).limit = n.limit := by
  simp [openTokens, Nesting.limit, Nesting.depth]

/-- The cursor of a scan that has taken `offset` bytes. -/
def Progress.cursor (p : Progress) (offset : Nat) : Cursor :=
  ⟨offset, p.tokens, openTokens p.nesting, p.held.reverse⟩

section

variable {p : Progress} {offset : Nat}

theorem Progress.pending_cursor : (p.cursor offset).pending = [] ↔ p.held = [] :=
  List.reverse_eq_nil_iff

theorem Progress.flush_cursor : (p.cursor offset).flush = p.flush.cursor offset := by
  rcases p with ⟨tokens, nesting, _ | ⟨c, held⟩⟩
  · rfl
  · exact if_neg (by simp [cursor])

theorem Progress.hold_cursor (text : List Char) : (p.cursor offset).hold text = (p.hold text).cursor offset := by
  simp [Cursor.hold, cursor, hold]

/-- The sign of an exponent is known by what is held. -/
theorem Progress.awaits_cursor (ch : Char) : (p.cursor offset).awaits ch = isExponentSign p ch := by
  rw [Cursor.awaits, isExponentSign, cursor]
  cases p.held.reverse with
  | nil => simp [awaitsExponent]
  | cons c s => simp

/-- What a consumer gives when the scan by pieces has taken a piece of so many bytes, or refused it. -/
def taken (offset length : Nat) : Except Fault Progress → Except Stop (Cursor × Nat)
  | .ok q => .ok (q.cursor offset, length)
  | .error fault => .error (.fault fault offset)

/-- A quoted run or an error code behind held text comes too early, complete or not. -/
theorem accept_early {options : Options} {make : List Char → Piece} {cause : Broken} (other : cause ≠ .bracketed)
    (takes : ∀ text, ∃ f, accept options p (make text) = (p.unheld cause.opener).map f) (held : p.held ≠ [])
    (s : List Char) (found : Option (List Char × List Char)) :
    accept options p (closed make cause s found).1 = .error (.unexpectedCharacter cause.opener) := by
  have decided : (Fault.unexpectedCharacter cause.opener).IsDecided := trivial
  exact (accept_closed_eq_error_iff other takes decided found).2 ⟨held, rfl⟩

theorem takeQuoted_cursor (options : Options) {ch : Char} (quote : ch = '"' ∨ ch = '\x27') (s : List Char) :
    (p.cursor offset).takeQuoted ch (ch :: s) =
      taken offset (Text.byteLength (firstPiece ch s).1.text) (accept options p (firstPiece ch s).1) := by
  by_cases held : p.held = []
  · have empty : (p.cursor offset).pending = [] := Progress.pending_cursor.2 held
    rcases quote with rfl | rfl
    · rw [Cursor.takeQuoted_eq (by decide) empty, firstPiece]
      cases closeQuote? '"' ['"'] s with
      | none => simp only [closed, accept, Progress.unheld, if_pos held]; rfl
      | some cut => simp only [closed, accept, Progress.unheld, if_pos held]; rfl
    · rw [Cursor.takeQuoted_eq (by decide) empty, firstPiece]
      cases closeQuote? '\x27' ['\x27'] s with
      | none => simp only [closed, accept, Progress.unheld, if_pos held]; rfl
      | some cut =>
        simp only [closed, accept, Progress.unheld, if_pos held, Progress.hold_cursor]
        rfl
  · have early : (p.cursor offset).takeQuoted ch (ch :: s) = .error (.fault (.unexpectedCharacter ch) offset) :=
      if_pos fun empty => held (Progress.pending_cursor.1 empty)
    rcases quote with rfl | rfl
    · rw [early, firstPiece, accept_early (by simp) (fun text => ⟨_, rfl⟩) held]
      rfl
    · rw [early, firstPiece, accept_early (by simp) (fun text => ⟨_, rfl⟩) held]
      rfl

theorem takeBracketed_cursor (options : Options) (s : List Char) :
    (p.cursor offset).takeBracketed ('[' :: s) =
      taken offset (Text.byteLength (firstPiece '[' s).1.text) (accept options p (firstPiece '[' s).1) := by
  rw [Cursor.takeBracketed_eq, firstPiece]
  cases bracketed? ('[' :: s) with
  | none => rfl
  | some cut =>
    simp only [closed, accept, Progress.hold_cursor]
    rfl

theorem takeErrorCode_cursor (options : Options) (s : List Char) :
    (p.cursor offset).takeErrorCode '#' ('#' :: s) =
      taken offset (Text.byteLength (firstPiece '#' s).1.text) (accept options p (firstPiece '#' s).1) := by
  rw [Cursor.takeErrorCode, firstPiece, errorCode?]
  by_cases held : p.held = []
  · rw [if_neg fun h => h (Progress.pending_cursor.2 held)]
    cases errorCodes.find? (·.isPrefixOf ('#' :: s)) with
    | none => simp only [Option.map_none, closed, accept, Progress.unheld, if_pos held]; rfl
    | some code => simp only [Option.map_some, closed, accept, Progress.unheld, if_pos held]; rfl
  · rw [if_pos fun empty => held (Progress.pending_cursor.1 empty),
      accept_early (by simp) (fun text => ⟨_, rfl⟩) held]
    rfl

theorem takeSpaces_cursor (options : Options) (s : List Char) :
    Except.ok ((p.flush.cursor offset).takeSpaces options (' ' :: s)) =
      taken offset (Text.byteLength (firstPiece ' ' s).1.text) (accept options p (firstPiece ' ' s).1) := by
  rw [Cursor.takeSpaces_eq, firstPiece, accept]
  cases options.preserveWhitespace <;> rfl

theorem operatorKind_cursor {first : Char} {second : Option Char} (formed : (Piece.operator first second).Formed) :
    (p.cursor offset).operatorKind (first :: second.toList) = (p.operatorToken first second).kind := by
  cases second with
  | none =>
    simp only [Option.toList_none, Cursor.operatorKind, Progress.operatorToken, List.cons.injEq, and_true,
      Progress.cursor]
    by_cases sign : first = '+' ∨ first = '-'
    · by_cases joins : Token.infersInfix p.tokens.head? = true <;> simp [sign, joins]
    · simp [sign]
  | some d =>
    simp only [Piece.Formed, comparisons, List.mem_cons, Prod.mk.injEq, List.not_mem_nil, or_false] at formed
    rcases formed with ⟨rfl, rfl⟩ | ⟨rfl, rfl⟩ | ⟨rfl, rfl⟩ <;> rfl

theorem takeOperator_cursor (options : Options) {ch : Char} (operator : ch ∈ operators)
    (other : isExponentSign p ch = false) (s : List Char) :
    (p.flush.cursor offset).takeOperator (ch :: s) =
      taken offset (Text.byteLength (firstPiece ch s).1.text) (accept options p (firstPiece ch s).1) := by
  obtain ⟨second, piece, found⟩ := Cursor.takeOperator_eq (c := p.flush.cursor offset) operator s
  have formed := (formed_of_operatorPiece (s := s) operator).1
  rw [piece] at formed
  rw [found, firstPiece_of_operator operator, piece, accept, operatorKind_cursor formed, other]
  rfl

theorem takeOpener_cursor {ch : Char} {o : Opener} (fits : ¬(ch = '{' ∧ (p.cursor offset).pending ≠ []))
    (built : (p.cursor offset).opener? ch = .ok o.token) :
    (p.cursor offset).takeOpener ch = taken offset 1 (p.openWith o) := by
  rw [Cursor.takeOpener, if_neg fits, built, Progress.openWith]
  simp only [Progress.cursor, push?_openTokens, limit_openTokens]
  cases p.nesting.push? o <;> rfl

theorem takeOpener_paren (options : Options) :
    (p.cursor offset).takeOpener '(' = taken offset 1 (accept options p .parenOpening) := by
  have fits : ¬('(' = '{' ∧ (p.cursor offset).pending ≠ []) := fun h => absurd h.1 (by decide)
  rw [accept]
  by_cases held : p.held = []
  · rw [if_pos held]
    refine takeOpener_cursor fits ?_
    rw [Cursor.opener?, if_neg (by decide), if_neg fun h => h (Progress.pending_cursor.2 held)]
    rfl
  · rw [if_neg held]
    refine takeOpener_cursor fits ?_
    rw [Cursor.opener?, if_neg (by decide), if_pos fun empty => held (Progress.pending_cursor.1 empty),
      Token.subexpression?, List.getLast?_concat, List.reverse_cons]
    rfl

theorem takeOpener_brace (options : Options) :
    (p.cursor offset).takeOpener '{' = taken offset 1 (accept options p .braceOpening) := by
  rw [accept, Progress.unheld]
  by_cases held : p.held = []
  · rw [if_pos held]
    exact takeOpener_cursor (fun h => h.2 (Progress.pending_cursor.2 held)) rfl
  · rw [if_neg held]
    exact if_pos ⟨rfl, fun empty => held (Progress.pending_cursor.1 empty)⟩

theorem takeCloser_cursor (options : Options) (brace : Bool) :
    (p.flush.cursor offset).takeCloser (if brace then '}' else ')') =
      taken offset 1 (accept options p (.closing brace)) := by
  rw [accept, Cursor.takeCloser, Progress.closeWith]
  simp only [Progress.cursor, pop?_openTokens]
  cases p.flush.nesting.pop? with
  | none => rfl
  | some popped =>
    obtain ⟨⟨bracket, value⟩, nesting⟩ := popped
    cases bracket <;> cases brace <;> rfl

theorem takeSeparator_cursor (options : Options) (semicolon : Bool) :
    (p.flush.cursor offset).takeSeparator (if semicolon then ';' else ',') =
      taken offset 1 (accept options p (.separator semicolon)) := by
  have built : (p.flush.cursor offset).separator? (if semicolon then ';' else ',') =
      .ok (p.flush.separatorToken semicolon) := by
    cases semicolon with
    | true => rfl
    | false =>
      have inside : (p.flush.cursor offset).stack.innermost?.map Token.kind =
          p.flush.nesting.innermost?.map (·.token.kind) := by
        rw [Progress.cursor, innermost?_openTokens, Option.map_map]
        rfl
      rw [Cursor.separator?, inside, Progress.separatorToken]
      cases Token.commaRole (p.flush.nesting.innermost?.map (·.token.kind)) <;> rfl
  rw [Cursor.takeSeparator, built]
  rfl

/-- A consumer takes what is cut off as the first piece, and the scan by pieces accepts it. -/
theorem consume_cursor (options : Options) {ch : Char} (other : isExponentSign p ch = false) (s : List Char) :
    ((p.cursor offset).before ch).consume options ch (ch :: s) =
      taken offset (Text.byteLength (firstPiece ch s).1.text) (accept options p (firstPiece ch s).1) := by
  have ends {ch : Char} (h : ch ∈ tokenEnders) : (p.cursor offset).before ch = p.flush.cursor offset := by
    rw [Cursor.before, if_pos h, Progress.flush_cursor]
  have keeps {ch : Char} (h : ch ∉ tokenEnders) : (p.cursor offset).before ch = p.cursor offset := if_neg h
  by_cases mark : ch ∈ marks
  · simp only [marks, List.mem_cons, List.not_mem_nil, or_false] at mark
    rcases mark with rfl | rfl | rfl | rfl | rfl | rfl | rfl | rfl | rfl | rfl | rfl
    · rw [keeps (by decide)]
      exact takeQuoted_cursor options (.inl rfl) s
    · rw [keeps (by decide)]
      exact takeQuoted_cursor options (.inr rfl) s
    · rw [keeps (by decide)]
      exact takeBracketed_cursor options s
    · rw [keeps (by decide)]
      exact takeErrorCode_cursor options s
    · rw [ends (by decide)]
      exact takeSpaces_cursor options s
    · rw [keeps (by decide)]
      exact takeOpener_paren options
    · rw [keeps (by decide)]
      exact takeOpener_brace options
    · rw [ends (by decide)]
      exact takeCloser_cursor options false
    · rw [ends (by decide)]
      exact takeCloser_cursor options true
    · rw [ends (by decide)]
      exact takeSeparator_cursor options true
    · rw [ends (by decide)]
      exact takeSeparator_cursor options false
  · have dispatch (c : Cursor) (rest : List Char) : c.consume options ch rest =
        if ch ∈ operators then c.takeOperator rest else .ok (c.hold [ch], ch.utf8Size) := by
      simp only [marks, List.mem_cons, List.not_mem_nil, or_false, not_or] at mark
      obtain ⟨h1, h2, h3, h4, h5, h6, h7, h8, h9, h10, h11⟩ := mark
      rw [Cursor.consume.eq_def]
      split <;> first | contradiction | rfl
    rw [dispatch]
    by_cases operator : ch ∈ operators
    · have ender : ch ∈ tokenEnders := by
        have all : (operators.all fun d => decide (d ∈ tokenEnders)) = true := by decide
        exact of_decide_eq_true (List.all_eq_true.1 all ch operator)
      rw [ends ender, if_pos operator]
      exact takeOperator_cursor options operator other s
    · have plain : ch ∉ tokenEnders := by
        have all : (tokenEnders.all fun d => decide (d ∈ marks ∨ d ∈ operators)) = true := by decide
        exact fun h => (of_decide_eq_true (List.all_eq_true.1 all ch h)).elim mark operator
      have length : Text.byteLength (Piece.plain ch).text = ch.utf8Size := by
        rw [Piece.text, Text.byteLength_cons, Text.byteLength_nil, Nat.add_zero]
      rw [keeps plain, if_neg operator, firstPiece_of_plain mark operator, Progress.hold_cursor, length]
      rfl

end

end Formula

end Spreadsheet
