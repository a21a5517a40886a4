import BoundFields.Text.Pieces

/-!
# Words of a command line

A command takes options, which start with hyphens, and values in fixed positions. The words are
read one by one (`Parsing.step`); a value is settled when the next argument begins, so that a
fault in it is noticed then. Behind two hyphens every word is a value.
-/

set_option autoImplicit false

namespace BoundFields

/-- Why a command line is not carried out. -/
inductive UsageProblem where
  | invalidValue
  | unknownArgument
  | invalidSubcommand
  | missingSubcommand
  | tooManyValues
  | argumentConflict
  | missingRequiredArgument
  /-- Help is asked for. -/
  | displayHelp
  | displayVersion
  /-- Nothing is asked for at all. -/
  | displayHelpOnMissingArgumentOrSubcommand
deriving DecidableEq, Repr

namespace UsageProblem

/-- The name of the problem. -/
def name : UsageProblem → String
  | .invalidValue => "InvalidValue"
  | .unknownArgument => "UnknownArgument"
  | .invalidSubcommand => "InvalidSubcommand"
  | .missingSubcommand => "MissingSubcommand"
  | .tooManyValues => "TooManyValues"
  | .argumentConflict => "ArgumentConflict"
  | .missingRequiredArgument => "MissingRequiredArgument"
  | .displayHelp => "DisplayHelp"
  | .displayVersion => "DisplayVersion"
  | .displayHelpOnMissingArgumentOrSubcommand => "DisplayHelpOnMissingArgumentOrSubcommand"

end UsageProblem

/-- What an argument of a command line takes. -/
inductive ValueKind where
  /-- No value. -/
  | flag
  | text
  /-- A text that is not empty. -/
  | path
  | oneOf (choices : List String)
  /-- No value; the user is told how to use the program, and nothing is done. -/
  | help
  | version
deriving DecidableEq, Repr

namespace ValueKind

/-- Whether a value follows an argument of the kind. -/
def takesValue : ValueKind → Bool
  | .text | .path | .oneOf _ => true
  | .flag | .help | .version => false

/-- Whether a value is one of the kind. -/
def admits (value : String) : ValueKind → Bool
  | .path => !value.isEmpty
  | .oneOf choices => choices.contains value
  | _ => true

end ValueKind

/-- An argument of a command line. -/
structure ArgumentSpec where
  name : String
  kind : ValueKind
  /-- The letter that stands for the option, if there is one. -/
  letter : Option Char := none
  isRequired : Bool := false
deriving DecidableEq, Repr

/-- What the words at one level of a command line may be. -/
structure Grammar where
  positional : List ArgumentSpec := []
  options : List ArgumentSpec := []
  subcommands : List String := []
deriving DecidableEq, Repr

/-- How far the words of one level have been read. -/
structure Parsing where
  /-- The arguments that are settled, with their values. -/
  given : List (String × String) := []
  /-- The argument that came last and is not settled yet, with its value if that is there. -/
  pending : Option (ArgumentSpec × Option String) := none
  /-- How many values stood in fixed positions. -/
  position : Nat := 0
  /-- Whether all further words are values. -/
  isTrailing : Bool := false
deriving DecidableEq, Repr

namespace Parsing

/-- The value of an argument. -/
def value? (p : Parsing) (name : String) : Option String := p.given.lookup name

/-- Whether the next word is the value of an option. -/
def awaitsValue (p : Parsing) : Bool :=
  match p.pending with
  | some (_, none) => true
  | _ => false

/-- Takes an argument with its value, once at most. -/
def give (p : Parsing) (spec : ArgumentSpec) (value : String) : Except UsageProblem Parsing :=
  if (p.value? spec.name).isSome then .error .argumentConflict
  else if spec.kind.admits value then .ok { p with given := p.given ++ [(spec.name, value)] }
  else .error .invalidValue

/-- Settles the argument that came last. -/
def settle (p : Parsing) : Except UsageProblem Parsing :=
  match p.pending with
  | none => .ok p
  | some (_, none) => .error .invalidValue
  | some (spec, some value) => { p with pending := none }.give spec value

/-- Reads an option without a value, or one whose value may follow. -/
def takeOption (p : Parsing) (spec : ArgumentSpec) : Except UsageProblem Parsing := do
  let p ← p.settle
  match spec.kind with
  | .help => throw .displayHelp
  | .version => throw .displayVersion
  | .flag => p.give spec "true"
  | _ => return { p with pending := some (spec, none) }

/-- Reads an option whose value is part of the word. -/
def takeAttached (p : Parsing) (spec : ArgumentSpec) (value : String) :
    Except UsageProblem Parsing := do
  (← p.settle).give spec value

/-- Reads the letters of a word behind one hyphen. -/
def takeLetters (g : Grammar) (p : Parsing) : List Char → Except UsageProblem Parsing
  | [] => .ok p
  | c :: more =>
      match g.options.find? (·.letter = some c) with
      | none => .error .unknownArgument
      | some spec =>
          -- The rest of the word is the value, with or without an equals sign.
          if spec.kind.takesValue then
            match more with
            | [] => p.takeOption spec
            | '=' :: value => p.takeAttached spec (String.ofList value)
            | value => p.takeAttached spec (String.ofList value)
          else do takeLetters g (← p.takeOption spec) more

/-- Reads a word behind two hyphens. -/
def takeName (g : Grammar) (p : Parsing) (word : List Char) : Except UsageProblem Parsing :=
  let (name, attached) := match Text.cutAt '=' word with
    | some (name, value) => (name, some (String.ofList value))
    | none => (word, none)
  match g.options.find? (·.name.toList = name), attached with
  | none, _ => .error .unknownArgument
  | some spec, none => p.takeOption spec
  | some spec, some value =>
      if spec.kind.takesValue then p.takeAttached spec value else .error .tooManyValues

/-- What is wrong with a word that is no option and has no position. -/
def strayWord (g : Grammar) (p : Parsing) (word : String) : UsageProblem :=
  if g.subcommands.isEmpty then .unknownArgument
  else if p.isTrailing && g.subcommands.contains word then .unknownArgument
  else .invalidSubcommand

/-- Reads a word as a value, of an option that waits for one or in the next position. -/
def takeWord (g : Grammar) (p : Parsing) (word : String) : Except UsageProblem Parsing := do
  match p.pending, p.isTrailing with
  | some (spec, none), false => return { p with pending := some (spec, some word) }
  | _, _ =>
      match g.positional[p.position]? with
      | some spec =>
          let p ← p.settle
          return { p with pending := some (spec, some word), position := p.position + 1 }
      | none => throw (strayWord g p word)

/-- Reads a word that names no subcommand. -/
def step (g : Grammar) (p : Parsing) (word : String) : Except UsageProblem Parsing :=
  if p.isTrailing then takeWord g p word
  else match word.toList with
    | ['-', '-'] => .ok { p with isTrailing := true }
    | '-' :: '-' :: name => takeName g p name
    | '-' :: c :: letters => takeLetters g p (c :: letters)
    | _ => takeWord g p word

/-- Reads words up to the name of a subcommand; gives that name and the words behind it. -/
def run (g : Grammar) (p : Parsing) :
    List String → Except UsageProblem (Parsing × Option (String × List String))
  | [] => .ok (p, none)
  | word :: words =>
      if !p.isTrailing && !p.awaitsValue && g.subcommands.contains word then
        .ok (p, some (word, words))
      else do run g (← p.step g word) words

/-- Every argument that is required was given. -/
def checkRequired (g : Grammar) (p : Parsing) : Except UsageProblem Unit :=
  if (g.positional ++ g.options).all fun spec =>
      !spec.isRequired || (p.value? spec.name).isSome then .ok ()
  else .error .missingRequiredArgument

end Parsing

/-- Reads the words of a level without subcommands. -/
def Grammar.read (g : Grammar) (words : List String) : Except UsageProblem Parsing := do
  let (p, _) ← Parsing.run g {} words
  let p ← p.settle
  Parsing.checkRequired g p
  return p

end BoundFields
