import Spreadsheet.Formula.Fault
import Spreadsheet.Nesting
import Spreadsheet.Text.Bytes
import Spreadsheet.Token

/-!
# From a formula to its tokens and back

A text that begins with `=` is a formula, and `tokenize` splits what follows into tokens. Any other text is
one literal token, and the empty text has none. `render` lays the texts of tokens end to end again, behind
the `=` where there is one.

The scan takes the pieces of the formula in turn. Plain characters, links and bracketed parts are held until
a piece comes that ends an operand; a parenthesis behind held text begins a function call with that name. A
sign behind held text such as `1.5E` belongs to the exponent and is held as well. The scan stops at the first
piece that does not fit, and the place of the error is where that piece begins.
-/

namespace Spreadsheet.Formula

/-- How a formula is read. -/
structure Options where
  /-- Whether a run of spaces makes a token. -/
  preserveWhitespace : Bool := false
  /-- How many subexpressions may be open at once. -/
  maxDepth : Nat := Nesting.defaultLimit
deriving DecidableEq

/-- The beginning of a subexpression. -/
structure Opener where
  bracket : Bracket
  value : List Char
deriving DecidableEq

/-- The token of an opener. -/
def Opener.token (o : Opener) : Token :=
  ⟨o.value, .subexpression o.bracket .opening⟩

/-- The progress of a scan. -/
structure Progress where
  /-- The tokens found, the newest first. -/
  tokens : List Token
  /-- The open subexpressions. -/
  nesting : Nesting Opener
  /-- The text held for the next operand, the newest character first. -/
  held : List Char
deriving DecidableEq

namespace Progress

/-- Nothing has been read. -/
def start (maxDepth : Nat) : Progress :=
  ⟨[], .empty maxDepth, []⟩

/-- Holds more text. -/
def hold (p : Progress) (text : List Char) : Progress :=
  { p with held := text.reverse ++ p.held }

/-- Adds a token. -/
def emit (p : Progress) (token : Token) : Progress :=
  { p with tokens := token :: p.tokens }

/-- Makes an operand of the held text. -/
def flush (p : Progress) : Progress :=
  match p.held with
  | [] => p
  | held => { p with tokens := .operand held.reverse :: p.tokens, held := [] }

/-- The whole progress, provided that no text is held; else the character `c` comes too early. -/
def unheld (p : Progress) (c : Char) : Except Fault Progress :=
  if p.held = [] then .ok p else .error (.unexpectedCharacter c)

/-- Begins a subexpression. -/
def openWith (p : Progress) (opener : Opener) : Except Fault Progress :=
  match p.nesting.push? opener with
  | some nesting => .ok ⟨opener.token :: p.tokens, nesting, []⟩
  | none => .error (.nestingTooDeep p.nesting.limit)

/-- Ends the innermost subexpression with a brace or a parenthesis. -/
def closeWith (p : Progress) (brace : Bool) : Except Fault Progress :=
  match p.nesting.pop? with
  | none => .error (.unmatchedCloser (if brace then '}' else ')'))
  | some (opener, nesting) =>
    if decide (opener.bracket = .array) = brace then
      .ok { p with tokens := .closerOf opener.bracket :: p.tokens, nesting }
    else .error .mismatchedPair

/-- The token of an operator behind the tokens found so far. -/
def operatorToken (p : Progress) (first : Char) (second : Option Char) : Token :=
  let kind : TokenKind :=
    if first = '%' then .postfixOperator
    else if (first = '+' ∨ first = '-') ∧ ¬Token.infersInfix p.tokens.head? then .prefixOperator
    else .infixOperator
  ⟨first :: second.toList, kind⟩

/-- The token of a separator in the innermost subexpression. -/
def separatorToken (p : Progress) (semicolon : Bool) : Token :=
  if semicolon then ⟨[';'], .separator .row⟩
  else
    match Token.commaRole (p.nesting.innermost?.map (·.token.kind)) with
    | .union => ⟨[','], .infixOperator⟩
    | .separator => ⟨[','], .separator .argument⟩

end Progress

/-- Whether a text is a number that lacks the sign and the digits of its exponent: a digit from 1 to 9,
perhaps a fraction, and a capital `E`. -/
def awaitsExponent (s : List Char) : Bool :=
  match s with
  | [] => false
  | lead :: s =>
    lead.isDigit && lead != '0' &&
      match s with
      | ['E'] => true
      | '.' :: s => s.takeWhile Char.isDigit != [] && s.dropWhile Char.isDigit == ['E']
      | _ => false

/-- Whether an operator piece is a sign of the exponent that the held text awaits. -/
def isExponentSign (p : Progress) (first : Char) : Bool :=
  (first == '+' || first == '-') && awaitsExponent p.held.reverse

/-- Takes the next piece. -/
def accept (options : Options) (p : Progress) : Piece → Except Fault Progress
  | .plain c => .ok (p.hold [c])
  | .bracketed text => .ok (p.hold text)
  | .quotedLink text => (p.unheld '\x27').map (·.hold text)
  | .quotedText text => (p.unheld '"').map (·.emit (.operand text))
  | .errorCode text => (p.unheld '#').map (·.emit (.operand text))
  | .spaces _ =>
    .ok (if options.preserveWhitespace then p.flush.emit ⟨[' '], .whitespace⟩ else p.flush)
  | .operator first second =>
    .ok (if isExponentSign p first then p.hold [first]
      else p.flush.emit (p.flush.operatorToken first second))
  | .parenOpening =>
    if p.held = [] then p.openWith ⟨.paren, ['(']⟩
    else p.openWith ⟨.function, ('(' :: p.held).reverse⟩
  | .braceOpening => (p.unheld '{').bind (·.openWith ⟨.array, ['{']⟩)
  | .closing brace => p.flush.closeWith brace
  | .separator semicolon => .ok (p.flush.emit (p.flush.separatorToken semicolon))
  | .broken .bracketed _ => .error .unmatchedBracket
  | .broken cause _ => (p.unheld cause.opener).bind fun _ => .error cause.fault

/-- Takes pieces in turn, of which the first begins at `offset`. A fault comes with the place of its piece. -/
def acceptAll (options : Options) : List Piece → Nat → Progress → Except (Fault × Nat) Progress
  | [], _, p => .ok p
  | piece :: rest, offset, p =>
    match accept options p piece with
    | .error fault => .error (fault, offset)
    | .ok p => acceptAll options rest (offset + Text.byteLength piece.text) p

/-- The tokens of a finished scan of `length` bytes. -/
def finish (p : Progress) (length : Nat) : Except (Fault × Nat) (List Token) :=
  match p.nesting.innermost? with
  | some opener => .error (.unclosedSubexpression opener.value, length)
  | none => .ok p.flush.tokens.reverse

/-- Splits what follows the `=` of a formula. -/
def scan (options : Options) (body : List Char) : Except (Fault × Nat) (List Token) :=
  (acceptAll options (pieces body) 1 (.start options.maxDepth)).bind fun p =>
    finish p (1 + Text.byteLength body)

/-- Splits a formula into its tokens. -/
def tokenize (options : Options) (formula : List Char) : Except ScanError (List Token) :=
  match formula with
  | [] => .ok []
  | '=' :: body => (scan options body).mapError fun (fault, offset) => ⟨fault, offset, formula⟩
  | text => .ok [⟨text, .literal⟩]

/-- The text of tokens. A literal token in front stands for the whole text. -/
def render (tokens : List Token) : List Char :=
  match tokens with
  | [] => []
  | first :: rest =>
    if first.kind = .literal then first.value
    else '=' :: (first :: rest).flatMap Token.value

@[simp] theorem tokenize_nil (options : Options) : tokenize options [] = .ok [] := rfl

theorem acceptAll_append (options : Options) (before behind : List Piece) (offset : Nat)
    (p : Progress) :
    acceptAll options (before ++ behind) offset p =
      (acceptAll options before offset p).bind fun q =>
        acceptAll options behind (offset + Text.byteLength (before.flatMap Piece.text)) q := by
  induction before generalizing offset p with
  | nil => simp [acceptAll, Except.bind]
  | cons piece before ih =>
    rw [List.cons_append, acceptAll, acceptAll]
    split
    · rfl
    · rw [ih, List.flatMap_cons, Text.byteLength_append, Nat.add_assoc]

/-- The sign of an exponent does not end a number, and a name before a parenthesis is part of its token. -/
example : (tokenize {} "=F(1E+5,-2)".toList).toOption =
    some [⟨"F(".toList, .subexpression .function .opening⟩, ⟨"1E+5".toList, .operand .number⟩,
      ⟨[','], .separator .argument⟩, ⟨['-'], .prefixOperator⟩, ⟨['2'], .operand .number⟩,
      ⟨[')'], .subexpression .function .closing⟩] := by
  decide +kernel

/-- Of two faults the one that comes first in the formula is reported. -/
example : tokenize {} "=A1\"b".toList = .error ⟨.unexpectedCharacter '"', 3, "=A1\"b".toList⟩ := by
  cbv

end Spreadsheet.Formula
