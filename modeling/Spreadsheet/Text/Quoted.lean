import Spreadsheet.Text.Hidden

/-!
# Quoted text in messages

Messages show a text between double quotes and a single character between single quotes. The delimiter and
the backslash are written behind a backslash, as are tab, line feed, carriage return and NUL under their
letters. A hidden character is written as its number in hexadecimal between braces, and every other
character stands for itself.
-/

namespace Spreadsheet.Text

/-- The letter under which a control character is written behind a backslash. -/
def controlLetter? : Char → Option Char
  | '\x00' => some '0'
  | '\t' => some 't'
  | '\n' => some 'n'
  | '\r' => some 'r'
  | _ => none

/-- A character as its number: `\u` and the hexadecimal digits between braces. -/
def numbered (c : Char) : List Char :=
  '\\' :: 'u' :: '{' :: Nat.toDigits 16 c.toNat ++ ['}']

/-- How a character is written inside quotes that are closed by `delimiter`. -/
def escaped (delimiter c : Char) : List Char :=
  match controlLetter? c with
  | some letter => ['\\', letter]
  | none =>
    if c = '\\' || c = delimiter then ['\\', c]
    else if isHidden c then numbered c
    else [c]

/-- A text between double quotes. -/
def quoted (s : List Char) : List Char :=
  '"' :: s.flatMap (escaped '"') ++ ['"']

/-- A character between single quotes. -/
def quotedChar (c : Char) : List Char :=
  '\x27' :: escaped '\x27' c ++ ['\x27']

/-- A combining accent is written as its number, a single quote stands for itself in a text. -/
example : quoted ['a', '\x27', '"', '\u0301'] = "\"a'\\\"\\u\x7b301\x7d\"".toList := by decide +kernel

/-- A double quote stands for itself between single quotes. -/
example : quotedChar '"' = ['\x27', '"', '\x27'] := by decide +kernel

end Spreadsheet.Text
