import Spreadsheet.Number.Reading
import Spreadsheet.Text.Quoted

/-!
# Tokens

A token is a piece of a formula with its kind. A kind holds only what makes sense for it: an operand is a
text, a number, a logical value, an error code or a range of cells; a subexpression token opens or closes a
function call, an array or a parenthesis; a separator stands between arguments or between array rows.

* `Token.operand` finds the kind of an operand from its text.
* `Token.subexpression?`, `Token.closer?` and `Token.separator?` refuse a text of the wrong shape, and the
  cause is a `TokenFault`.
* `infersInfix` and `commaRole` are the two places where the meaning of a character depends on the tokens
  around it.
-/

namespace Spreadsheet

/-- What an operand denotes. -/
inductive OperandKind where
  | text
  | number
  | logical
  | error
  | range
deriving DecidableEq

/-- What encloses a subexpression. -/
inductive Bracket where
  | function
  | array
  | paren
deriving DecidableEq

/-- Which end of a subexpression a token stands at. -/
inductive Boundary where
  | opening
  | closing
deriving DecidableEq

/-- What a separator stands between: arguments, or rows of an array. -/
inductive SeparatorKind where
  | argument
  | row
deriving DecidableEq

/-- The kind of a token. -/
inductive TokenKind where
  | literal
  | operand (kind : OperandKind)
  | subexpression (bracket : Bracket) (boundary : Boundary)
  | separator (kind : SeparatorKind)
  | prefixOperator
  | infixOperator
  | postfixOperator
  | whitespace
deriving DecidableEq

/-- A piece of a formula with its kind. -/
structure Token where
  value : List Char
  kind : TokenKind
deriving DecidableEq

namespace TokenKind

/-- The name of the kind, without what it holds. -/
def typeName : TokenKind → String
  | .literal => "LITERAL"
  | .operand _ => "OPERAND"
  | .subexpression .function _ => "FUNC"
  | .subexpression .array _ => "ARRAY"
  | .subexpression .paren _ => "PAREN"
  | .separator _ => "SEP"
  | .prefixOperator => "OPERATOR_PREFIX"
  | .infixOperator => "OPERATOR_INFIX"
  | .postfixOperator => "OPERATOR_POSTFIX"
  | .whitespace => "WHITESPACE"

/-- The name of what the kind holds, if it holds anything. -/
def subtypeName? : TokenKind → Option String
  | .operand .text => some "TEXT"
  | .operand .number => some "NUMBER"
  | .operand .logical => some "LOGICAL"
  | .operand .error => some "ERROR"
  | .operand .range => some "RANGE"
  | .subexpression _ .opening => some "OPEN"
  | .subexpression _ .closing => some "CLOSE"
  | .separator .argument => some "ARG"
  | .separator .row => some "ROW"
  | _ => none

/-- All kinds of tokens. -/
def all : List TokenKind :=
  [.literal, .operand .text, .operand .number, .operand .logical, .operand .error, .operand .range,
    .subexpression .function .opening, .subexpression .function .closing,
    .subexpression .array .opening, .subexpression .array .closing,
    .subexpression .paren .opening, .subexpression .paren .closing,
    .separator .argument, .separator .row,
    .prefixOperator, .infixOperator, .postfixOperator, .whitespace]

/-- Every kind is listed. -/
theorem mem_all (kind : TokenKind) : kind ∈ all := by
  rcases kind with _ | (_ | _ | _ | _ | _) | ⟨_ | _ | _, _ | _⟩ | (_ | _) | _ | _ | _ | _ <;> decide

/-- The two names tell the kinds apart. -/
theorem eq_of_names {a b : TokenKind} (type : a.typeName = b.typeName)
    (subtype : a.subtypeName? = b.subtypeName?) : a = b := by
  have apart : ∀ x ∈ all, ∀ y ∈ all,
      x.typeName = y.typeName → x.subtypeName? = y.subtypeName? → x = y := by
    decide +kernel
  exact apart a (mem_all a) b (mem_all b) type subtype

/-- The kind with these names. -/
def ofNames? (type : String) (subtype : Option String) : Option TokenKind :=
  all.find? fun kind => kind.typeName = type ∧ kind.subtypeName? = subtype

end TokenKind

/-- Why a token cannot be built. -/
inductive TokenFault where
  | invalidSubexpression (value : List Char)
  | notAnOpener (value : List Char)
  | invalidSeparator (value : List Char)
deriving DecidableEq

/-- The wording of a fault. -/
def TokenFault.message : TokenFault → String
  | .invalidSubexpression value =>
    String.ofList (Text.quoted value) ++ " does not end with a subexpression bracket"
  | .notAnOpener value => String.ofList (Text.quoted value) ++ " is not a subexpression opener"
  | .invalidSeparator value => String.ofList (Text.quoted value) ++ " is not a separator"

namespace Token

/-- The kind of an operand: a double quote starts a text and a number sign an error code; the two logical
values are written in capitals; what is neither these nor a number is a range of cells or a name. -/
def operandKind (value : List Char) : OperandKind :=
  if value.head? = some '"' then .text
  else if value.head? = some '#' then .error
  else if value = "TRUE".toList ∨ value = "FALSE".toList then .logical
  else if (Number.read? value).isSome then .number
  else .range

/-- The operand with this text. -/
def operand (value : List Char) : Token :=
  ⟨value, .operand (operandKind value)⟩

/-- The token that begins or ends a subexpression. The last character decides; it also tells an array from a
parenthesis unless the subexpression is a function call. -/
def subexpression? (value : List Char) (isFunction : Bool) : Except TokenFault Token :=
  let token (bracket : Bracket) (boundary : Boundary) : Except TokenFault Token :=
    .ok ⟨value, .subexpression (if isFunction then .function else bracket) boundary⟩
  match value.getLast? with
  | some '{' => token .array .opening
  | some '}' => token .array .closing
  | some '(' => token .paren .opening
  | some ')' => token .paren .closing
  | _ => .error (.invalidSubexpression value)

/-- Whether the token begins a subexpression. -/
def isOpening (t : Token) : Bool :=
  t.kind matches .subexpression _ .opening

/-- Whether the token ends a subexpression. -/
def isClosing (t : Token) : Bool :=
  t.kind matches .subexpression _ .closing

/-- The token that ends a subexpression in this bracket. -/
def closerOf (bracket : Bracket) : Token :=
  match bracket with
  | .array => ⟨['}'], .subexpression .array .closing⟩
  | bracket => ⟨[')'], .subexpression bracket .closing⟩

/-- The token that ends the subexpression begun by this one. -/
def closer? (t : Token) : Except TokenFault Token :=
  match t.kind with
  | .subexpression bracket .opening => .ok (closerOf bracket)
  | _ => .error (.notAnOpener t.value)

/-- The separator with this text: a comma for arguments, a semicolon for rows. -/
def separator? (value : List Char) : Except TokenFault Token :=
  if value = [','] then .ok ⟨value, .separator .argument⟩
  else if value = [';'] then .ok ⟨value, .separator .row⟩
  else .error (.invalidSeparator value)

/-- A token in words: the names of its kind and its quoted text. -/
def describe (t : Token) : String :=
  let name :=
    match t.kind.subtypeName? with
    | some subtype => t.kind.typeName ++ "/" ++ subtype
    | none => t.kind.typeName
  name ++ " " ++ String.ofList (Text.quoted t.value)

/-- Whether a plus or a minus behind this token joins two operands. It does behind an operand, a closed
subexpression or a postfix operator; elsewhere it is a sign. -/
def infersInfix (previous : Option Token) : Bool :=
  match previous.map kind with
  | some (.operand _) | some (.subexpression _ .closing) | some .postfixOperator => true
  | _ => false

/-- What a comma does. -/
inductive CommaRole where
  /-- The comma joins ranges. -/
  | union
  /-- The comma stands between arguments or array columns. -/
  | separator
deriving DecidableEq

/-- What a comma does inside this innermost subexpression: within a parenthesis and outside of all
subexpressions it joins ranges. -/
def commaRole (innermost : Option TokenKind) : CommaRole :=
  match innermost with
  | none | some (.subexpression .paren _) => .union
  | some _ => .separator

/-- Words are logical values only in capitals, and number words are numbers. -/
example : operandKind "TRUE".toList = .logical ∧ operandKind "True".toList = .range ∧
    operandKind "nan".toList = .number := by decide +kernel

/-- A function call ends with a parenthesis, an array with a brace. -/
example : (operand "A1".toList).closer? = .error (.notAnOpener "A1".toList) ∧
    (subexpression? "IF(".toList true).bind closer? = .ok (closerOf .function) := ⟨rfl, rfl⟩

end Token

end Spreadsheet
