import BoundFields.Command.Grammar
import BoundFields.Command.Run

/-!
# Command lines

The options that every command takes, and the arguments of each command. Common options may stand
before or behind the name of the command; of two values the one behind it counts.
-/

set_option autoImplicit false

namespace BoundFields

/-- A command line. -/
structure Invocation where
  command : Command
  vault : Option String := none
  settings : Option String := none
  noColor : Bool := false
  debug : Bool := false
deriving DecidableEq, Repr

namespace Invocation

/-- The options that every command takes. -/
def commonOptions : List ArgumentSpec :=
  [{ name := "vault", kind := .path },
    { name := "settings", kind := .path, letter := some 's' },
    { name := "no-color", kind := .flag },
    { name := "debug", kind := .flag },
    { name := "help", kind := .help, letter := some 'h' },
    { name := "version", kind := .version, letter := some 'V' }]

/-- The option for a report that programs can read. -/
def jsonOption : ArgumentSpec := { name := "json", kind := .flag }

/-- A value in a fixed position, which must be given. -/
def required (name : String) (kind : ValueKind) : ArgumentSpec :=
  { name, kind, isRequired := true }

/-- The shells for which there are completions. -/
def shells : List String := ["bash", "elvish", "fish", "powershell", "zsh"]

/-- The arguments of a command beyond the common options. -/
def ownGrammar? : String → Option Grammar
  | "parse" => some { positional := [required "declaration" .text], options := [jsonOption] }
  | "scan" => some { positional := [required "file" .path], options := [jsonOption] }
  | "resolve" => some
      { positional := [required "bind" .text]
        options := [required "from" .path, { name := "first", kind := .flag }] }
  | "templates" => some { options := [jsonOption] }
  | "set" => some
      { positional := [required "file" .path, required "field_path" .text, required "value" .text] }
  | "schema" => some {}
  | "completions" => some { positional := [required "shell" (.oneOf shells)] }
  | _ => none

/-- The names of the commands. -/
def commandNames : List String :=
  ["parse", "scan", "resolve", "templates", "set", "schema", "completions"]

/-- What stands before the name of a command. -/
def topGrammar : Grammar := { options := commonOptions, subcommands := commandNames ++ ["help"] }

/-- The command of a name, given its arguments. -/
def command? (name : String) (p : Parsing) : Option Command :=
  let has (option : String) : Bool := (p.value? option).isSome
  match name with
  | "parse" => return .parse (← p.value? "declaration") (has "json")
  | "scan" => return .scan (← p.value? "file") (has "json")
  | "resolve" => return .resolve (← p.value? "bind") (← p.value? "from") (has "first")
  | "templates" => return .templates (has "json")
  | "set" => return .set (← p.value? "file") (← p.value? "field_path") (← p.value? "value")
  | "schema" => return .schema
  | "completions" => return .completions (← p.value? "shell")
  | _ => none

/-- What asking for help on some words comes to. -/
def helpOn : List String → UsageProblem
  | [] => .displayHelp
  | [word] => if topGrammar.subcommands.contains word then .displayHelp else .invalidSubcommand
  | _ => .invalidSubcommand

/-- What a command line without a command comes to. -/
def withoutCommand (p : Parsing) : UsageProblem :=
  if p.given.isEmpty then .displayHelpOnMissingArgumentOrSubcommand else .missingSubcommand

/-- The command line that some words make. -/
def ofWords (words : List String) : Except UsageProblem Invocation := do
  let (top, rest) ← Parsing.run topGrammar {} words
  match rest with
  | none => throw (withoutCommand (← top.settle))
  | some ("help", words) => throw (helpOn words)
  | some (name, words) =>
      let some own := ownGrammar? name | throw .invalidSubcommand
      let p ← { own with options := own.options ++ commonOptions }.read words
      -- Values before the name of the command are settled last.
      let top ← top.settle
      let common (option : String) : Option String := (p.value? option).or (top.value? option)
      match command? name p with
      | some command =>
          return { command, vault := common "vault", settings := common "settings"
                   noColor := (common "no-color").isSome, debug := (common "debug").isSome }
      | none => throw .missingRequiredArgument

end Invocation

end BoundFields
