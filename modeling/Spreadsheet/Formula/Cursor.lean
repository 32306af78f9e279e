import Spreadsheet.Formula.Scan
import Spreadsheet.Text.Place

/-!
# The scan with a cursor

A formula can also be split where it stands, without cutting it into pieces first: a cursor goes through its
bytes from left to right. In each turn the character at the cursor decides which consumer is called; the
consumer looks at as much of the rest as it likes and says how many bytes it has taken, and the turn moves the
cursor by as many. The sign of an exponent is taken before any consumer is called.

Everything that might go wrong in a scan of this kind is told apart from a fault of the formula: a place that
is not in front of a character, a token that cannot be built, and turns that are not enough.

* `turn` is one turn, `loop` goes on while there is something left, and `scanWithin` is the whole scan.
* `Reaches` says where the cursor is after so many turns.
-/

namespace Spreadsheet.Formula

/-- Why a scan with a cursor stops. -/
inductive Stop where
  /-- The formula has a fault at this place. -/
  | fault (fault : Fault) (place : Nat)
  /-- A token cannot be built. -/
  | refused (cause : TokenFault)
  /-- There is no character at a place, or the text is not cut there. -/
  | misplaced
  /-- More turns would have been needed. -/
  | unfinished
deriving DecidableEq

/-- A scan on its way. -/
structure Cursor where
  /-- How many bytes have been taken. -/
  offset : Nat
  /-- The tokens found, the newest first. -/
  tokens : List Token
  /-- The tokens of the open subexpressions. -/
  stack : Nesting Token
  /-- The text held for the next operand. -/
  pending : List Char
deriving DecidableEq

/-- The characters that end the operand in front of them. -/
def tokenEnders : List Char :=
  ",;\x7d) +-*/^&=><%".toList

/-- The length of the quoted run at the beginning of a text whose first `i` bytes have been passed and are
followed by these. A doubled delimiter is passed; it does not close the run. -/
def quotedLength? (delimiter : UInt8) (i : Nat) : List UInt8 → Option Nat
  | [] => none
  | [b] => if b = delimiter then some (i + 1) else none
  | b :: b' :: bytes =>
    if b = delimiter then
      if b' = delimiter then quotedLength? delimiter (i + 2) bytes else some (i + 1)
    else quotedLength? delimiter (i + 1) (b' :: bytes)

namespace Cursor

/-- The cursor stands behind the `=`. -/
def start (maxDepth : Nat) : Cursor :=
  ⟨1, [], .empty maxDepth, []⟩

/-- Holds more text. -/
def hold (c : Cursor) (text : List Char) : Cursor :=
  { c with pending := c.pending ++ text }

/-- Adds a token. -/
def emit (c : Cursor) (token : Token) : Cursor :=
  { c with tokens := token :: c.tokens }

/-- Makes an operand of the held text. -/
def flush (c : Cursor) : Cursor :=
  if c.pending = [] then c
  else { c with tokens := .operand c.pending :: c.tokens, pending := [] }

/-- The fault that shows at the cursor. -/
def fails {α : Type} (c : Cursor) (fault : Fault) : Except Stop α :=
  .error (.fault fault c.offset)

/-- Whether a character is the sign of the exponent that the held text awaits. -/
def awaits (c : Cursor) (ch : Char) : Bool :=
  (ch == '+' || ch == '-') && !c.pending.isEmpty && awaitsExponent c.pending

/-! ### Consumers

A consumer is given the rest of the formula from the cursor on, or only its first character. -/

/-- A quoted text, or a link between single quotes. -/
def takeQuoted (c : Cursor) (ch : Char) (rest : List Char) : Except Stop (Cursor × Nat) :=
  if c.pending ≠ [] then c.fails (.unexpectedCharacter ch)
  else
    match Text.bytes rest with
    | [] => .error .misplaced
    | delimiter :: bytes =>
      match quotedLength? delimiter 1 bytes with
      | none => c.fails (if delimiter = '"'.toUInt8 then .unterminatedString else .unterminatedLink)
      | some length =>
        match Text.cutAt? length rest with
        | none => .error .misplaced
        | some (matched, _) =>
          .ok (if delimiter = '"'.toUInt8 then c.emit (.operand matched) else c.hold matched, length)

/-- A bracketed part. -/
def takeBracketed (c : Cursor) (rest : List Char) : Except Stop (Cursor × Nat) :=
  match Text.find? ']' rest with
  | none => c.fails .unmatchedBracket
  | some close =>
    match Text.cutAt? (close + 1) rest with
    | none => .error .misplaced
    | some (matched, _) => .ok (c.hold matched, close + 1)

/-- An error code. -/
def takeErrorCode (c : Cursor) (ch : Char) (rest : List Char) : Except Stop (Cursor × Nat) :=
  if c.pending ≠ [] then c.fails (.unexpectedCharacter ch)
  else
    match errorCodes.find? (·.isPrefixOf rest) with
    | none => c.fails .invalidErrorCode
    | some code => .ok (c.emit (.operand code), Text.byteLength code)

/-- A run of spaces. -/
def takeSpaces (options : Options) (c : Cursor) (rest : List Char) : Cursor × Nat :=
  (if options.preserveWhitespace then c.emit ⟨[' '], .whitespace⟩ else c,
    Text.byteLength rest - Text.byteLength (rest.dropWhile (· = ' ')))

/-- The kind of an operator of one character. -/
def operatorKind (c : Cursor) (operator : List Char) : TokenKind :=
  if operator = ['%'] then .postfixOperator
  else if operator = ['+'] ∨ operator = ['-'] then
    if Token.infersInfix c.tokens.head? then .infixOperator else .prefixOperator
  else .infixOperator

/-- An operator, of two bytes if these are a comparison. -/
def takeOperator (c : Cursor) (rest : List Char) : Except Stop (Cursor × Nat) :=
  match (Text.cutAt? 2 rest).filter fun cut => cut.1 = ['>', '='] ∨ cut.1 = ['<', '='] ∨ cut.1 = ['<', '>'] with
  | some (pair, _) => .ok (c.emit ⟨pair, .infixOperator⟩, 2)
  | none =>
    match Text.cutAt? 1 rest with
    | none => .error .misplaced
    | some (operator, _) => .ok (c.emit ⟨operator, c.operatorKind operator⟩, 1)

/-- The token that a bracket begins a subexpression with, together with the held text. -/
def opener? (c : Cursor) (ch : Char) : Except TokenFault Token :=
  if ch = '{' then Token.subexpression? ['{'] false
  else if c.pending ≠ [] then Token.subexpression? (c.pending ++ ['(']) true
  else Token.subexpression? ['('] false

/-- The beginning of a subexpression. -/
def takeOpener (c : Cursor) (ch : Char) : Except Stop (Cursor × Nat) :=
  if ch = '{' ∧ c.pending ≠ [] then c.fails (.unexpectedCharacter ch)
  else
    match c.opener? ch with
    | .error cause => .error (.refused cause)
    | .ok token =>
      match c.stack.push? token with
      | none => c.fails (.nestingTooDeep c.stack.limit)
      | some stack => .ok ({ c with tokens := token :: c.tokens, stack, pending := [] }, 1)

/-- The end of a subexpression. -/
def takeCloser (c : Cursor) (ch : Char) : Except Stop (Cursor × Nat) :=
  match c.stack.pop? with
  | none => c.fails (.unmatchedCloser ch)
  | some (opener, stack) =>
    match opener.closer? with
    | .error cause => .error (.refused cause)
    | .ok closer =>
      if closer.value.head? = some ch then .ok ({ c with tokens := closer :: c.tokens, stack }, 1)
      else c.fails .mismatchedPair

/-- The token of a separator. -/
def separator? (c : Cursor) (ch : Char) : Except TokenFault Token :=
  if ch = ';' then Token.separator? [';']
  else
    match Token.commaRole (c.stack.innermost?.map Token.kind) with
    | .union => .ok ⟨[','], .infixOperator⟩
    | .separator => Token.separator? [',']

/-- A separator. -/
def takeSeparator (c : Cursor) (ch : Char) : Except Stop (Cursor × Nat) :=
  match c.separator? ch with
  | .error cause => .error (.refused cause)
  | .ok token => .ok (c.emit token, 1)

/-- Calls the consumer for the character `ch`, with which the rest begins. -/
def consume (options : Options) (c : Cursor) (ch : Char) (rest : List Char) : Except Stop (Cursor × Nat) :=
  match ch with
  | '"' | '\x27' => c.takeQuoted ch rest
  | '[' => c.takeBracketed rest
  | '#' => c.takeErrorCode ch rest
  | ' ' => .ok (c.takeSpaces options rest)
  | '{' | '(' => c.takeOpener ch
  | ')' | '}' => c.takeCloser ch
  | ';' | ',' => c.takeSeparator ch
  | ch => if ch ∈ operators then c.takeOperator rest else .ok (c.hold [ch], ch.utf8Size)

/-! ### Turns -/

/-- What the consumer for a character starts from. -/
def before (c : Cursor) (ch : Char) : Cursor :=
  if ch ∈ tokenEnders then c.flush else c

/-- One turn: the sign of an exponent is held, and anything else is left to its consumer. -/
def turn (options : Options) (formula : List Char) (c : Cursor) : Except Stop Cursor :=
  match Text.cutAt? c.offset formula with
  | some (_, ch :: rest) =>
    if c.awaits ch then .ok { c.hold [ch] with offset := c.offset + 1 }
    else
      match (c.before ch).consume options ch (ch :: rest) with
      | .error stop => .error stop
      | .ok (c', taken) => .ok { c' with offset := c.offset + taken }
  | _ => .error .misplaced

/-- Goes on while there is something left, for at most so many turns. -/
def loop (options : Options) (formula : List Char) : Nat → Cursor → Except Stop Cursor
  | turns, c =>
    if c.offset < Text.byteLength formula then
      match turns with
      | 0 => .error .unfinished
      | turns + 1 => (c.turn options formula).bind (loop options formula turns)
    else .ok c

/-- The tokens when there is nothing left of a formula of `length` bytes. -/
def finish (c : Cursor) (length : Nat) : Except Stop (List Token) :=
  match c.stack.innermost? with
  | some opener => .error (.fault (.unclosedSubexpression opener.value) length)
  | none => .ok c.flush.tokens.reverse

/-- Where the cursor is after so many turns. -/
inductive Reaches (options : Options) (formula : List Char) : Nat → Cursor → Prop
  | start : Reaches options formula 0 (start options.maxDepth)
  | turn {turns : Nat} {c c' : Cursor} : Reaches options formula turns c →
      c.offset < Text.byteLength formula → c.turn options formula = .ok c' →
      Reaches options formula (turns + 1) c'

end Cursor

/-- Splits a formula with a cursor, in at most so many turns. -/
def scanWithin (options : Options) (formula : List Char) (turns : Nat) : Except Stop (List Token) :=
  (Cursor.loop options formula turns (.start options.maxDepth)).bind (·.finish (Text.byteLength formula))

/-- Of a quoted text with a doubled quote, and of a character of two bytes, all bytes are taken at once. -/
example : (scanWithin {} "=\"é\"\"\"&é".toList 3).toOption =
    some [⟨"\"é\"\"\"".toList, .operand .text⟩, ⟨['&'], .infixOperator⟩, ⟨['é'], .operand .range⟩] := by
  decide +kernel

end Spreadsheet.Formula
