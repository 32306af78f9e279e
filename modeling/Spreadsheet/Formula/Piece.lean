/-!
# Pieces of a formula

A formula is first cut into pieces without regard to what stands before or behind them: a quoted text, a
quoted link, a bracketed part, an error code, a run of spaces, an operator, a bracket, a separator, or a
plain character. A piece that ought to be closed and is not takes all that is left.

* `pieces_cons` gives the recursion, and `text_pieces` says that the pieces laid end to end are the formula.
* `text_ne_nil`: no piece is empty.
-/

namespace Spreadsheet.Formula

/-- What a piece that is not closed, or no error code, was meant to be. -/
inductive Broken where
  | text
  | link
  | bracketed
  | errorCode
deriving DecidableEq

/-- A piece of a formula. Quotes and brackets are part of the text of a piece. -/
inductive Piece where
  | plain (c : Char)
  | quotedText (text : List Char)
  | quotedLink (text : List Char)
  | bracketed (text : List Char)
  | errorCode (text : List Char)
  | spaces (more : Nat)
  | operator (first : Char) (second : Option Char)
  | parenOpening
  | braceOpening
  | closing (brace : Bool)
  | separator (semicolon : Bool)
  | broken (cause : Broken) (rest : List Char)
deriving DecidableEq

/-- The first character of a broken piece. -/
def Broken.opener : Broken → Char
  | .text => '"'
  | .link => '\x27'
  | .bracketed => '['
  | .errorCode => '#'

/-- The characters of a piece. -/
def Piece.text : Piece → List Char
  | .plain c => [c]
  | .quotedText text | .quotedLink text | .bracketed text | .errorCode text => text
  | .spaces more => List.replicate (more + 1) ' '
  | .operator first second => first :: second.toList
  | .parenOpening => ['(']
  | .braceOpening => ['{']
  | .closing brace => [if brace then '}' else ')']
  | .separator semicolon => [if semicolon then ';' else ',']
  | .broken cause rest => cause.opener :: rest

/-! ### Cutting off the first piece -/

/-- The error codes. No code begins another one. -/
def errorCodes : List (List Char) :=
  ["#NULL!".toList, "#DIV/0!".toList, "#VALUE!".toList, "#REF!".toList, "#NAME?".toList,
    "#NUM!".toList, "#N/A".toList]

/-- The single characters that are operators. -/
def operators : List Char :=
  ['+', '-', '*', '/', '^', '&', '=', '>', '<', '%']

/-- The comparisons of two characters. -/
def comparisons : List (Char × Char) :=
  [('>', '='), ('<', '='), ('<', '>')]

/-- What is left behind the closing delimiter of a quoted run, and the run with its delimiters. The opening
delimiter, and what has been passed, stand in `run` with the newest character first. A doubled delimiter is
passed; it does not close the run. -/
def closeQuote? (delimiter : Char) (run : List Char) : List Char → Option (List Char × List Char)
  | [] => none
  | [c] => if c = delimiter then some ((c :: run).reverse, []) else none
  | c :: d :: s =>
    if c = delimiter then
      if d = delimiter then closeQuote? delimiter (d :: c :: run) s
      else some ((c :: run).reverse, d :: s)
    else closeQuote? delimiter (c :: run) (d :: s)

theorem closeQuote?_eq_some {delimiter : Char} {run s text rest : List Char}
    (h : closeQuote? delimiter run s = some (text, rest)) :
    text ++ rest = run.reverse ++ s ∧ text ≠ [] := by
  fun_induction closeQuote? delimiter run s with
  | case1 => simp at h
  | case2 run =>
    obtain ⟨rfl, rfl⟩ := by simpa using h
    simp
  | case3 => simp at h
  | case4 run s ih =>
    have := ih h
    simpa using this
  | case5 run d s =>
    obtain ⟨rfl, rfl⟩ := by simpa using h
    simp
  | case6 run c d s _ ih =>
    have := ih h
    simpa using this

/-- The error code at the beginning of a text, and what is left behind it. -/
def errorCode? (s : List Char) : Option (List Char × List Char) :=
  (errorCodes.find? (·.isPrefixOf s)).map fun code => (code, s.drop code.length)

theorem errorCode?_eq_some {s text rest : List Char} (h : errorCode? s = some (text, rest)) :
    text ++ rest = s ∧ text ∈ errorCodes := by
  obtain ⟨code, found, same⟩ := Option.map_eq_some_iff.1 h
  obtain ⟨rfl, rfl⟩ := Prod.mk.inj same
  have begins : code.isPrefixOf s = true := by simpa using List.find?_some found
  obtain ⟨rest, rfl⟩ := List.isPrefixOf_iff_prefix.1 begins
  exact ⟨by simp, List.mem_of_find?_eq_some found⟩

/-- The bracketed part at the beginning of a text, up to the first closing bracket, and what is left. -/
def bracketed? (s : List Char) : Option (List Char × List Char) :=
  match s.dropWhile (· ≠ ']') with
  | [] => none
  | close :: rest => some (s.takeWhile (· ≠ ']') ++ [close], rest)

theorem bracketed?_eq_some {s text rest : List Char} (h : bracketed? s = some (text, rest)) :
    text ++ rest = s ∧ text ≠ [] := by
  simp only [bracketed?] at h
  split at h
  · simp at h
  · next close rest' eq =>
    obtain ⟨rfl, rfl⟩ := Prod.mk.inj (Option.some.inj h)
    refine ⟨?_, by simp⟩
    rw [List.append_assoc, List.singleton_append, ← eq, List.takeWhile_append_dropWhile]

/-- A piece that ends at a closing mark, made from what a search for the mark has found; a broken piece if
it has found nothing. -/
def closed (make : List Char → Piece) (cause : Broken) (s : List Char) :
    Option (List Char × List Char) → Piece × List Char
  | some (text, rest) => (make text, rest)
  | none => (.broken cause s, [])

/-- An operator at the beginning of a text, of two characters where these are a comparison. -/
def operatorPiece (c : Char) : List Char → Piece × List Char
  | d :: s => if (c, d) ∈ comparisons then (.operator c (some d), s) else (.operator c none, d :: s)
  | [] => (.operator c none, [])

/-- The first piece of a text with this first character, and what is left behind it. -/
def firstPiece (c : Char) (s : List Char) : Piece × List Char :=
  match c with
  | '"' => closed .quotedText .text s (closeQuote? '"' ['"'] s)
  | '\x27' => closed .quotedLink .link s (closeQuote? '\x27' ['\x27'] s)
  | '[' => closed .bracketed .bracketed s (bracketed? ('[' :: s))
  | '#' => closed .errorCode .errorCode s (errorCode? ('#' :: s))
  | ' ' => (.spaces (s.takeWhile (· = ' ')).length, s.dropWhile (· = ' '))
  | '(' => (.parenOpening, s)
  | '{' => (.braceOpening, s)
  | ')' => (.closing false, s)
  | '}' => (.closing true, s)
  | ';' => (.separator true, s)
  | ',' => (.separator false, s)
  | c => if c ∈ operators then operatorPiece c s else (.plain c, s)

theorem text_closed {make : List Char → Piece} {cause : Broken} {s : List Char}
    {found : Option (List Char × List Char)} (make_text : ∀ text, (make text).text = text)
    (sound : ∀ text rest, found = some (text, rest) → text ++ rest = cause.opener :: s ∧ text ≠ []) :
    (closed make cause s found).1.text ++ (closed make cause s found).2 = cause.opener :: s ∧
      (closed make cause s found).1.text ≠ [] := by
  rcases found with _ | ⟨text, rest⟩
  · simp [closed, Piece.text]
  · simpa [closed, make_text] using sound text rest rfl

theorem text_operatorPiece (c : Char) (s : List Char) :
    (operatorPiece c s).1.text ++ (operatorPiece c s).2 = c :: s ∧
      (operatorPiece c s).1.text ≠ [] := by
  unfold operatorPiece
  split
  · split <;> simp [Piece.text]
  · simp [Piece.text]

/-- The first piece is not empty, and with what is left behind it it makes up the text. -/
theorem text_firstPiece (c : Char) (s : List Char) :
    (firstPiece c s).1.text ++ (firstPiece c s).2 = c :: s ∧ (firstPiece c s).1.text ≠ [] := by
  unfold firstPiece
  split
  · exact text_closed (fun _ => rfl) fun text rest h => closeQuote?_eq_some h
  · exact text_closed (fun _ => rfl) fun text rest h => closeQuote?_eq_some h
  · exact text_closed (fun _ => rfl) fun text rest h => bracketed?_eq_some h
  · refine text_closed (fun _ => rfl) fun text rest h => ⟨(errorCode?_eq_some h).1, ?_⟩
    rintro rfl
    exact absurd (errorCode?_eq_some h).2 (by decide)
  · have run : List.replicate (s.takeWhile (· = ' ')).length ' ' = s.takeWhile (· = ' ') :=
      (List.eq_replicate_iff.2
        ⟨rfl, fun d hd => by simpa using List.all_eq_true.1 List.all_takeWhile d hd⟩).symm
    simp only [Piece.text, List.replicate_succ, List.cons_append, run,
      List.takeWhile_append_dropWhile, ne_eq, reduceCtorEq, not_false_eq_true, and_self]
  all_goals try exact ⟨rfl, by simp [Piece.text]⟩
  split
  · exact text_operatorPiece c s
  · exact ⟨rfl, by simp [Piece.text]⟩

theorem length_firstPiece (c : Char) (s : List Char) :
    (firstPiece c s).2.length < (c :: s).length := by
  have ⟨whole, positive⟩ := text_firstPiece c s
  rw [← whole, List.length_append]
  have := List.length_pos_iff.2 positive
  omega

/-! ### Cutting a formula -/

/-- Cuts a text; the pieces that have been cut off stand in `done`, the newest first. -/
def cut (done : List Piece) : List Char → List Piece
  | [] => done.reverse
  | c :: s => cut ((firstPiece c s).1 :: done) (firstPiece c s).2
termination_by s => s.length
decreasing_by exact length_firstPiece c s

/-- The pieces of a text from left to right. -/
def pieces (s : List Char) : List Piece :=
  cut [] s

theorem cut_cons (done : List Piece) (c : Char) (s : List Char) :
    cut done (c :: s) = cut ((firstPiece c s).1 :: done) (firstPiece c s).2 := by
  rw [cut]

theorem cut_eq (done : List Piece) : (s : List Char) → cut done s = done.reverse ++ pieces s
  | [] => by simp [pieces, cut]
  | c :: s => by
    rw [pieces, cut_cons, cut_cons, cut_eq (_ :: done), cut_eq [_]]
    simp
termination_by s => s.length
decreasing_by all_goals exact length_firstPiece c s

@[simp] theorem pieces_nil : pieces [] = [] := by
  simp [pieces, cut]

theorem pieces_cons (c : Char) (s : List Char) :
    pieces (c :: s) = (firstPiece c s).1 :: pieces (firstPiece c s).2 := by
  rw [pieces, cut_cons, cut_eq]
  rfl

/-- The pieces laid end to end are the text. -/
theorem text_pieces : (s : List Char) → (pieces s).flatMap Piece.text = s
  | [] => by simp
  | c :: s => by
    rw [pieces_cons, List.flatMap_cons, text_pieces, (text_firstPiece c s).1]
termination_by s => s.length
decreasing_by exact length_firstPiece c s

/-- No piece is empty. -/
theorem text_ne_nil : (s : List Char) → ∀ p ∈ pieces s, p.text ≠ []
  | [] => by simp
  | c :: s => by
    rw [pieces_cons, List.forall_mem_cons]
    exact ⟨(text_firstPiece c s).2, text_ne_nil _⟩
termination_by s => s.length
decreasing_by exact length_firstPiece c s

/-- A doubled quote does not close a text; what is no code makes a broken piece. -/
example : pieces "\"a\"\"b\"  >=#N/B".toList =
    [.quotedText "\"a\"\"b\"".toList, .spaces 1, .operator '>' (some '='),
      .broken .errorCode "N/B".toList] := by
  decide +kernel

end Spreadsheet.Formula
