import Spreadsheet.Command.Flag
import Spreadsheet.Command.Invocation

/-!
# Arguments of the command line

The arguments are general flags, the name of a command, and the flags and the operand of that command. An
operand that is a formula may begin with a hyphen: an argument that is not made of flags known at that place
is then the formula. Behind two hyphens nothing is a flag. A flag that is given both before and behind the
name of the command counts as it is given behind it.

`Invocation.ofArguments` says what the arguments ask for; arguments that make no sense ask for nothing.
-/

namespace Spreadsheet.Command

/-- What the operand of a command is. At the top there is none. -/
inductive Operand where
  | none
  | formula
  | file
deriving DecidableEq

/-- What may be given at one place: flags and an operand. -/
structure Level where
  flags : List Flag
  operand : Operand

namespace Level

/-- Before the name of the command. -/
def top : Level := ⟨.version :: Flag.general, .none⟩

/-- The flag with this name. -/
def named? (l : Level) (name : List Char) : Option Flag :=
  l.flags.find? fun f => f.name = name

/-- The flag with this letter. -/
def lettered? (l : Level) (c : Char) : Option Flag :=
  l.flags.find? fun f => f.letter? = some c

end Level

/-- Why the reading of arguments stops early. -/
inductive Stop where
  | misuse
  | help
  | version
deriving DecidableEq

/-- What has been given at one place. -/
structure Given where
  /-- The flags without a value. -/
  flags : List Flag := []
  /-- The flags with their values. -/
  values : List (Flag × List Char) := []
  operand : Option (List Char) := none
  /-- The flag that waits for its value. -/
  awaiting : Option Flag := none
  /-- Whether nothing is a flag any more. -/
  literal : Bool := false

namespace Given

/-- Whether a flag has been given. -/
def has (g : Given) (f : Flag) : Bool :=
  g.flags.contains f || (g.values.map Prod.fst).contains f

/-- The value of a flag. -/
def value? (g : Given) (f : Flag) : Option (List Char) :=
  (g.values.find? fun entry => entry.1 = f).map Prod.snd

/-- Adds the value of a flag. -/
def addValue (g : Given) (f : Flag) (value : List Char) : Except Stop Given :=
  if g.has f ∨ ¬f.admits value then .error .misuse
  else .ok { g with values := (f, value) :: g.values, awaiting := none }

/-- Adds a flag without a value. No flag may be waiting for one. -/
def addFlag (g : Given) (f : Flag) : Except Stop Given :=
  if g.awaiting.isSome then .error .misuse
  else
    match f with
    | .help => .error .help
    | .version => .error .version
    | f => if g.has f ∧ ¬f.repeats then .error .misuse else .ok { g with flags := f :: g.flags }

/-- Adds the operand, or the value that a flag waits for. -/
def addPlain (l : Level) (g : Given) (argument : List Char) : Except Stop Given :=
  match g.awaiting with
  | some f => g.addValue f argument
  | none =>
    if l.operand = .none ∨ g.operand.isSome then .error .misuse
    else if l.operand = .file ∧ argument = [] then .error .misuse
    else .ok { g with operand := some argument }

/-- Whether an unknown argument with a hyphen in front can be the operand. -/
def expectsFormula (l : Level) (g : Given) : Bool :=
  l.operand = .formula && g.operand.isNone

/-- Adds an argument with a hyphen in front that is made of no known flags. -/
def addUnknown (l : Level) (g : Given) (argument : List Char) : Except Stop Given :=
  if g.expectsFormula l then g.addPlain l argument else .error .misuse

/-- Adds an argument with two hyphens in front. -/
def addNamed (l : Level) (g : Given) (argument : List Char) : Except Stop Given :=
  let text := argument.drop 2
  let attached := text.dropWhile (· ≠ '=')
  match l.named? (text.takeWhile (· ≠ '=')) with
  | none => g.addUnknown l argument
  | some f =>
    if g.awaiting.isSome then .error .misuse
    else
      match attached with
      | [] =>
        if ¬f.takesValue then g.addFlag f
        else if g.has f then .error .misuse
        else .ok { g with awaiting := some f }
      | _ :: value => if f.takesValue then g.addValue f value else .error .misuse

/-- Adds an argument with one hyphen in front of letters. All of them must be known if it could be a
formula. -/
def addLetters (l : Level) (g : Given) (argument : List Char) : Except Stop Given :=
  let letters := argument.drop 1
  if g.expectsFormula l ∧ letters.any fun c => (l.lettered? c).isNone then g.addPlain l argument
  else
    letters.foldlM
      (fun g c =>
        match l.lettered? c with
        | some f => g.addFlag f
        | none => .error .misuse)
      g

/-- Adds an argument. -/
def add (l : Level) (g : Given) (argument : List Char) : Except Stop Given :=
  if g.literal ∨ g.awaiting.any Flag.takesHyphens then g.addPlain l argument
  else
    match argument with
    | ['-', '-'] => if g.awaiting.isSome then .error .misuse else .ok { g with literal := true }
    | '-' :: '-' :: _ => g.addNamed l argument
    | '-' :: _ :: _ => g.addLetters l argument
    | _ => g.addPlain l argument

/-- What has been given when the arguments have ended. Nothing may be missing, and a settings file may not be
both named and refused. -/
def finish (l : Level) (g : Given) : Except Stop Given :=
  if g.awaiting.isSome ∨ (l.operand ≠ .none ∧ g.operand.isNone) ∨ (g.has .config ∧ g.has .noConfig) then
    .error .misuse
  else .ok g

end Given

/-! ### Commands -/

/-- A command. -/
inductive Verb where
  | tokenize
  | roundtrip
  | dependencies
  | relocate
  | check
deriving DecidableEq

namespace Verb

/-- All commands. -/
def all : List Verb := [.tokenize, .roundtrip, .dependencies, .relocate, .check]

/-- The name of a command. -/
def name : Verb → List Char
  | .tokenize => "tokenize".toList
  | .roundtrip => "roundtrip".toList
  | .dependencies => "deps".toList
  | .relocate => "translate".toList
  | .check => "check".toList

/-- What may be given behind the name of a command. -/
def level : Verb → Level
  | .tokenize => ⟨.json :: Flag.general, .formula⟩
  | .roundtrip => ⟨Flag.general, .formula⟩
  | .dependencies => ⟨.collapse :: Flag.general, .formula⟩
  | .relocate => ⟨.columns :: .rows :: Flag.general, .formula⟩
  | .check => ⟨.json :: Flag.general, .file⟩

/-- The command with this name. -/
def named? (name : List Char) : Option Verb :=
  all.find? fun c => c.name = name

end Verb

/-- Reads arguments at one place to their end. -/
def readAll (l : Level) (g : Given) : List (List Char) → Except Stop Given
  | [] => g.finish l
  | argument :: rest =>
    match g.add l argument with
    | .ok g => readAll l g rest
    | .error stop => .error stop

/-- What the arguments behind the word `help` ask for: at most one command, which must exist. -/
def helpFor : List (List Char) → Stop
  | [] => .help
  | [name] => if (Verb.named? name).isSome ∨ name = "help".toList then .help else .misuse
  | _ => .misuse

/-- Reads general flags up to the name of a command, then what belongs to that command. -/
def readTop (g : Given) : List (List Char) → Except Stop (Given × Verb × Given)
  | [] => .error .misuse
  | argument :: rest =>
    let command? := if g.literal ∨ g.awaiting.isSome then none else Verb.named? argument
    match command? with
    | some command =>
      match readAll command.level {} rest with
      | .error stop => .error stop
      | .ok own => (g.finish .top).map fun g => (g, command, own)
    | none =>
      if argument = "help".toList ∧ ¬g.literal ∧ g.awaiting.isNone then .error (helpFor rest)
      else
        match g.add .top argument with
        | .ok g => readTop g rest
        | .error stop => .error stop

/-! ### Invocations -/

namespace Invocation

/-- The task of a command. -/
def taskOf (command : Verb) (g : Given) : Task :=
  let operand := g.operand.getD []
  let distance (f : Flag) : Int := ((g.value? f).bind Flag.readDistance?).getD 0
  match command with
  | .tokenize => .tokenize operand (g.has .json)
  | .roundtrip => .roundtrip operand
  | .dependencies => .dependencies operand (g.has .collapse)
  | .relocate => .relocate operand (distance .columns) (distance .rows)
  | .check => .check operand (g.has .json)

/-- What arguments ask for. -/
def ofArguments (arguments : List (List Char)) : Except Stop Invocation :=
  (readTop {} arguments).map fun (general, command, own) =>
    { config := (own.value? .config).or (general.value? .config)
      noConfig := own.has .noConfig || general.has .noConfig
      preserveWhitespace := own.has .preserveWhitespace || general.has .preserveWhitespace
      maxDepth := ((own.value? .maxDepth).or (general.value? .maxDepth)).bind Flag.readCount?
      task := taskOf command own }

/-- An argument that is no flag of the command is the formula even with a hyphen in front. -/
example : (ofArguments ["--max-depth=3".toList, "tokenize".toList, "-1".toList]).toOption =
    some ⟨none, false, false, some 3, .tokenize "-1".toList false⟩ := by decide +kernel

/-- A value is not taken for a command, and the command is missing then. -/
example : (ofArguments ["--config".toList, "tokenize".toList]).toOption = none := by
  decide +kernel

end Invocation

end Spreadsheet.Command
