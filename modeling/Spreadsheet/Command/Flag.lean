import Spreadsheet.Text.Digits

/-!
# Flags of the command line

A flag is two hyphens and a name, or one hyphen and letters that each stand for a flag. Some flags take a
value, which is the next argument or stands behind an equals sign. General flags may stand before and behind
the name of the command; the others belong to certain commands.
-/

namespace Spreadsheet.Command

/-- What a flag is about. -/
inductive Flag where
  | verbose
  | config
  | noConfig
  | preserveWhitespace
  | maxDepth
  | json
  | collapse
  | columns
  | rows
  | help
  | version
deriving DecidableEq

namespace Flag

/-- The name behind two hyphens. -/
def name : Flag → List Char
  | .verbose => "verbose".toList
  | .config => "config".toList
  | .noConfig => "no-config".toList
  | .preserveWhitespace => "preserve-whitespace".toList
  | .maxDepth => "max-depth".toList
  | .json => "json".toList
  | .collapse => "collapse".toList
  | .columns => "cols".toList
  | .rows => "rows".toList
  | .help => "help".toList
  | .version => "version".toList

/-- The letter behind one hyphen, for a flag that has one. -/
def letter? : Flag → Option Char
  | .verbose => some 'v'
  | .help => some 'h'
  | .version => some 'V'
  | _ => none

/-- Whether the flag takes a value. -/
def takesValue : Flag → Bool
  | .config | .maxDepth | .columns | .rows => true
  | _ => false

/-- Whether the next argument is the value of the flag even if it begins with a hyphen. -/
def takesHyphens : Flag → Bool
  | .columns | .rows => true
  | _ => false

/-- Whether the flag may be repeated. -/
def repeats : Flag → Bool
  | .verbose => true
  | _ => false

/-- Reads a count below `2 ^ 64`, with an optional plus. -/
def readCount? (s : List Char) : Option Nat :=
  let digits :=
    match s with
    | '+' :: s => s
    | s => s
  (Text.readNumeral? digits).filter (· < Nat.pow 2 64)

/-- Reads a signed distance of 64 bits. -/
def readDistance? (s : List Char) : Option Int :=
  (Text.readInteger? s).filter fun n => -(Nat.pow 2 63 : Nat) ≤ n ∧ n < (Nat.pow 2 63 : Nat)

/-- Whether a text is a value for the flag. -/
def admits (f : Flag) (value : List Char) : Bool :=
  match f with
  | .maxDepth => (readCount? value).isSome
  | .columns | .rows => (readDistance? value).isSome
  | .config => !value.isEmpty
  | _ => false

/-- The flags that may stand anywhere. -/
def general : List Flag :=
  [.verbose, .config, .noConfig, .preserveWhitespace, .maxDepth, .help]

example : readCount? "+5".toList = some 5 ∧ readCount? "-0".toList = none ∧
    readDistance? "-9223372036854775809".toList = none := by decide +kernel

end Flag

end Spreadsheet.Command
