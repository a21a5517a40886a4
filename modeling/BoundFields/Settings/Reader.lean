import BoundFields.Settings.Basic
import BoundFields.Yaml.Reader

/-!
# Reading settings

The text of the settings is read with the kinds of values in mind: where a text is expected, any
scalar counts as its text, and an empty place counts as an empty mapping or sequence. Entries that
the settings do not know are passed over, and those that they know may not occur twice.
-/

set_option autoImplicit false

namespace BoundFields

open Yaml Yaml.NodeReader

namespace Settings

/-- Reads entries up to the end of a mapping; `entry` reads the value under a key. -/
def readEntries {σ : Type} (entry : Nat → String → σ → NodeReader σ) : Nat → σ → NodeReader σ
  | 0, _ => throw .tooDeep
  | fuel + 1, state => do
      match (← get).items with
      | .mappingEnd :: items =>
          modify fun p => { p with items }
          return state
      | _ =>
          let key ← text fuel
          readEntries entry fuel (← entry fuel key state)

/-- Reads a mapping entry by entry. -/
def readMapping {σ : Type} (entry : Nat → String → σ → NodeReader σ) : Nat → σ → NodeReader σ
  | 0, _ => throw .tooDeep
  | fuel + 1, state => do
      match ← next with
      | .mappingStart _ => readEntries entry fuel state
      | .alias number => follow number (readMapping entry fuel state)
      | .scalar _ .bare [] => return state
      | _ => throw .unexpectedShape

/-- Reads items up to the end of a sequence. -/
def readItems {α : Type} (item : Nat → NodeReader α) : Nat → NodeReader (List α)
  | 0 => throw .tooDeep
  | fuel + 1 => do
      match (← get).items with
      | .sequenceEnd :: items =>
          modify fun p => { p with items }
          return []
      | _ => return (← item fuel) :: (← readItems item fuel)

/-- Reads a sequence item by item. -/
def readSequence {α : Type} (item : Nat → NodeReader α) : Nat → NodeReader (List α)
  | 0 => throw .tooDeep
  | fuel + 1 => do
      match ← next with
      | .sequenceStart _ => readItems item fuel
      | .alias number => follow number (readSequence item fuel)
      | .scalar _ .bare [] => return []
      | _ => throw .unexpectedShape

/-- Reads a truth value, which must be bare or a literal block under the tag of truth
values. -/
def readBool : Nat → NodeReader Bool
  | 0 => throw .tooDeep
  | fuel + 1 => do
      match ← next with
      | .alias number => follow number (readBool fuel)
      | .scalar tag written cs =>
          if written = .bare || (written = .literal && tag = some (commonTag "bool")) then
            match Plain.boolOfWord? cs with
            | some b => return b
            | none => throw .unexpectedShape
          else throw .unexpectedShape
      | _ => throw .unexpectedShape

/-- Reads the value of an entry that may occur only once. -/
def readOnce {α : Type} (key : String) (before : Option α) (value : NodeReader α) :
    NodeReader (Option α) := do
  if before.isSome then
    throw (.repeatedEntry key)
  return some (← value)

/-- A value that must have been given. -/
def require {α : Type} (key : String) : Option α → NodeReader α
  | some a => return a
  | none => throw (.missingEntry key)

/-- Reads a template, whose name and declaration must be given. -/
def readTemplate (fuel : Nat) : NodeReader TemplateSource := do
  let entry (fuel : Nat) (key : String) : Option String × Option String →
      NodeReader (Option String × Option String)
    | (name, declaration) =>
        match key with
        | "name" => return (← readOnce key name (text fuel), declaration)
        | "declaration" => return (name, ← readOnce key declaration (text fuel))
        | _ => do
            skipNode
            return (name, declaration)
  let (name, declaration) ← readMapping entry fuel (none, none)
  return ⟨← require "name" name, ← require "declaration" declaration⟩

/-- What the settings say, as far as it was read. -/
structure Given where
  dateFormat : Option String := none
  devMode : Option Bool := none
  templates : Option (List TemplateSource) := none

/-- Reads the value of one entry of the settings. -/
def readEntry (fuel : Nat) (key : String) (given : Given) : NodeReader Given := do
  match key with
  | "date_format" =>
      return { given with dateFormat := ← readOnce key given.dateFormat (text fuel) }
  | "dev_mode" => return { given with devMode := ← readOnce key given.devMode (readBool fuel) }
  | "input_templates" =>
      return { given with
        templates := ← readOnce key given.templates (readSequence readTemplate fuel) }
  | _ =>
      skipNode
      return given

/-- The settings that a text stands for, without the name of its file. -/
def read (content : String) : Except Yaml.Error Settings := do
  if Text.isBlankString content then
    return {}
  match ← Document.ofText? content with
  | none => return {}
  | some document =>
      let given ← document.read fun fuel => readMapping readEntry fuel {}
      return { dateFormat := given.dateFormat.getD defaultDateFormat
               devMode := given.devMode.getD false
               templates := given.templates.getD [] }

/-- The settings that the text of the file `path` stands for. -/
def ofText (path content : String) : Except Error Settings :=
  (read content).mapError (.unreadableSettings path)

end Settings

end BoundFields
