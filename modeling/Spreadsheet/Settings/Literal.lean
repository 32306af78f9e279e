import Spreadsheet.Settings
import Spreadsheet.Text.Blank

/-!
# Values in a settings file

A value is `true` or `false`, a whole number or a text.

* A number is decimal without zeros in front, or has the base mark `0x`, `0o` or `0b`. Single underscores may
  stand between digits. It is below `2 ^ 63` and not negative.
* A text stands between single quotes, which take every character literally, or between double quotes, where
  a backslash begins an escape. Tripled quotes of either kind allow line breaks; a line break directly behind
  the opening does not count, and up to two quotes may stand before the closing.
-/

namespace Spreadsheet.Settings

/-! ### Numbers -/

/-- The value of a digit in a base up to 16. -/
def digitValue? (base : Nat) (c : Char) : Option Nat :=
  let value :=
    if c.isDigit then some (c.toNat - '0'.toNat)
    else if c.isAlpha then some (c.toLower.toNat - 'a'.toNat + 10)
    else none
  value.filter (· < base)

/-- The number with these digits, most significant first. -/
def ofDigits? (base : Nat) (s : List Char) : Option Nat :=
  s.foldlM (fun n c => (digitValue? base c).map fun d => n * base + d) 0

/-- The number with these digits, of which there is at least one, and single underscores between them. -/
def readDigits? (base : Nat) (s : List Char) : Option Nat :=
  let groups := Text.split (· = '_') s
  if [] ∈ groups then none else ofDigits? base groups.flatten

/-- Reads decimal digits without a zero in front. -/
def readDecimal? (s : List Char) : Option Nat :=
  if s.head? = some '0' ∧ s ≠ ['0'] then none else readDigits? 10 s

/-- Reads a whole number that is not negative. Only a decimal number may have a sign. -/
def readCount? (s : List Char) : Option Nat :=
  let n :=
    match s with
    | '0' :: 'x' :: s => readDigits? 16 s
    | '0' :: 'o' :: s => readDigits? 8 s
    | '0' :: 'b' :: s => readDigits? 2 s
    | '+' :: s => readDecimal? s
    | '-' :: s => (readDecimal? s).filter (· = 0)
    | s => readDecimal? s
  n.filter (· < Nat.pow 2 63)

example : readCount? "1_000".toList = some 1000 ∧ readCount? "0xFf".toList = some 255 ∧
    readCount? "007".toList = none := by decide +kernel

/-! ### Characters of a text -/

/-- Whether a character may stand in a text or a comment: tabs and everything from the space on, but for the
delete character. -/
def isTextual (c : Char) : Bool :=
  c = '\t' || (0x20 ≤ c.toNat && c.toNat != 0x7F)

/-- The character with a number of `count` hexadecimal digits, and what is left. -/
def readCode? (count : Nat) (s : List Char) : Option (Char × List Char) :=
  let digits := s.take count
  if digits.length < count then none
  else
    (ofDigits? 16 digits).bind fun n =>
      if n.isValidChar then some (Char.ofNat n, s.drop count) else none

/-- The character of an escape behind its backslash, and what is left. -/
def readEscape? (s : List Char) : Option (Char × List Char) :=
  match s with
  | 'b' :: s => some ('\x08', s)
  | 't' :: s => some ('\t', s)
  | 'n' :: s => some ('\n', s)
  | 'f' :: s => some ('\x0c', s)
  | 'r' :: s => some ('\r', s)
  | '"' :: s => some ('"', s)
  | '\\' :: s => some ('\\', s)
  | 'u' :: s => readCode? 4 s
  | 'U' :: s => readCode? 8 s
  | _ => none

theorem length_readCode? {count : Nat} {s rest : List Char} {c : Char}
    (h : readCode? count s = some (c, rest)) : rest.length ≤ s.length := by
  simp only [readCode?] at h
  split at h
  · simp at h
  · obtain ⟨n, _, h⟩ := Option.bind_eq_some_iff.1 h
    split at h
    · obtain ⟨_, rfl⟩ := Prod.mk.inj (Option.some.inj h)
      simp
    · simp at h

theorem length_readEscape? {s rest : List Char} {c : Char} (h : readEscape? s = some (c, rest)) :
    rest.length < s.length := by
  unfold readEscape? at h
  split at h
  case h_8 | h_9 =>
    have := length_readCode? h
    simp only [List.length_cons]
    omega
  case h_10 => simp at h
  all_goals
    obtain ⟨_, rfl⟩ := Prod.mk.inj (Option.some.inj h)
    simp

/-! ### Texts on one line -/

/-- Reads up to the closing double quote. What has been read stands in `done`, the newest first. -/
def readBasic? (done : List Char) (s : List Char) : Option (List Char × List Char) :=
  match s with
  | [] => none
  | '"' :: s => some (done.reverse, s)
  | '\\' :: s =>
    match _ : readEscape? s with
    | some (c, rest) => readBasic? (c :: done) rest
    | none => none
  | c :: s => if isTextual c then readBasic? (c :: done) s else none
termination_by s.length
decreasing_by
  · have := length_readEscape? (s := s) (by assumption)
    simp only [List.length_cons]
    omega
  · simp

/-- Reads up to the closing single quote. -/
def readLiteral? (s : List Char) : Option (List Char × List Char) :=
  match s.dropWhile (· ≠ '\x27') with
  | [] => none
  | _ :: rest =>
    let text := s.takeWhile (· ≠ '\x27')
    if text.all isTextual then some (text, rest) else none

/-! ### Texts over several lines -/

/-- Whether a character is a space or a tab. -/
def isSpace (c : Char) : Bool :=
  c = ' ' || c = '\t'

/-- Whether a character is a space, a tab or a line break. -/
def isGap (c : Char) : Bool :=
  isSpace c || c = '\n'

/-- The text without a line break in front. -/
def skipBreak (s : List Char) : List Char :=
  match s with
  | '\n' :: s => s
  | s => s

/-- The text that is complete at a triple of closing quotes, of which `s` is what stands behind. Up to two
more quotes belong to the text. -/
def close (quote : Char) (done s : List Char) : List Char × List Char :=
  let more := min 2 (s.takeWhile (· = quote)).length
  (done.reverse ++ List.replicate more quote, s.drop more)

/-- The gap that a backslash at the end of a line passes over: what stands behind the gap. -/
def readContinuation? (s : List Char) : Option (List Char) :=
  match s.dropWhile isSpace with
  | '\n' :: _ => some (s.dropWhile isGap)
  | _ => none

theorem length_dropWhile_le (p : Char → Bool) (s : List Char) : (s.dropWhile p).length ≤ s.length :=
  (List.dropWhile_sublist p).length_le

theorem length_readContinuation? {s rest : List Char} (h : readContinuation? s = some rest) :
    rest.length ≤ s.length := by
  unfold readContinuation? at h
  split at h
  · obtain rfl := Option.some.inj h
    exact length_dropWhile_le _ _
  · simp at h

/-- Reads up to a triple of double quotes. -/
def readBasicBlock? (done : List Char) (s : List Char) : Option (List Char × List Char) :=
  match s with
  | [] => none
  | '"' :: '"' :: '"' :: s => some (close '"' done s)
  | '\\' :: s =>
    match _ : readContinuation? s with
    | some rest => readBasicBlock? done rest
    | none =>
      match _ : readEscape? s with
      | some (c, rest) => readBasicBlock? (c :: done) rest
      | none => none
  | c :: s => if isTextual c || c = '\n' then readBasicBlock? (c :: done) s else none
termination_by s.length
decreasing_by
  · have := length_readContinuation? (s := s) (by assumption)
    simp only [List.length_cons]
    omega
  · have := length_readEscape? (s := s) (by assumption)
    simp only [List.length_cons]
    omega
  · simp

/-- Reads up to a triple of single quotes. -/
def readLiteralBlock? (done : List Char) (s : List Char) : Option (List Char × List Char) :=
  match s with
  | [] => none
  | '\x27' :: '\x27' :: '\x27' :: s => some (close '\x27' done s)
  | c :: s => if isTextual c || c = '\n' then readLiteralBlock? (c :: done) s else none

/-! ### Values -/

/-- Reads a text with its quotes. -/
def readText? (s : List Char) : Option (List Char × List Char) :=
  match s with
  | '"' :: '"' :: '"' :: s => readBasicBlock? [] (skipBreak s)
  | '"' :: s => readBasic? [] s
  | '\x27' :: '\x27' :: '\x27' :: s => readLiteralBlock? [] (skipBreak s)
  | '\x27' :: s => readLiteral? s
  | _ => none

/-- Whether a character ends a value without quotes. -/
def endsWord (c : Char) : Bool :=
  isGap c || c = '#'

/-- The value of a word without quotes. -/
def wordValue? (word : List Char) : Option Value :=
  if word = "true".toList then some (.switch true)
  else if word = "false".toList then some (.switch false)
  else (readCount? word).map .count

/-- Reads a value. -/
def readValue? (s : List Char) : Option (Value × List Char) :=
  if s.head? = some '"' ∨ s.head? = some '\x27' then
    (readText? s).map fun (text, rest) => (.text text, rest)
  else
    (wordValue? (s.takeWhile fun c => !endsWord c)).map fun value =>
      (value, s.dropWhile fun c => !endsWord c)

/-- A backslash before a line break passes over the gap, and two quotes may stand before the closing. -/
example : readText? "\"\"\"\na\\  \n \n b\"\"\"\"\"#".toList = some ("ab\"\"".toList, ['#']) := by
  decide +kernel

end Spreadsheet.Settings
