import BoundFields.Settings.Schema
import BoundFields.Command.Context
import BoundFields.Command.Report
import BoundFields.Command.Structured

/-!
# Commands

What the program can be told to do. A command looks at a vault and reports; only `set` changes
anything, and it writes to one document, once everything before has succeeded.
-/

set_option autoImplicit false

namespace BoundFields

/-- What the program is told to do. -/
inductive Command where
  /-- Show the parts of a declaration. -/
  | parse (declaration : String) (json : Bool)
  /-- Find and render the declarations of a document. -/
  | scan (file : String) (json : Bool)
  /-- Show what a bind target in the document `context` means. -/
  | resolve (target context : String) (first : Bool)
  /-- List the templates of the settings. -/
  | templates (json : Bool)
  /-- Set a field of a document, as a bound input field would. -/
  | set (file path value : String)
  /-- Show the schema of the settings. -/
  | schema
  /-- Write a script that completes command lines; the script is no part of the report. -/
  | completions (shell : String)
deriving DecidableEq, Repr

/-- What a command leaves behind. -/
structure Outcome where
  /-- Whether the command did what it was told. -/
  result : Except Fault Bool
  lines : List Line
  disk : Directory

namespace Command

/-- The parts of a declaration, one to a line. -/
def declarationLines (d : Declaration) : List Line :=
  [.header d.text, .pair "type" d.fieldType.name]
    ++ (d.templateName.map (Line.pair "template")).toList
    ++ d.arguments.map (fun a => .pair "argument" a.text)
    ++ [.pair "bind target" (d.target.getD "(unbound)")]

/-- Shows the parts of a declaration, or what is wrong with it. -/
def runParse (c : Context) (declaration : String) (json : Bool) :
    Except Fault (Bool × List Line) := do
  let settings ← c.settings.mapError .refused
  match settings.parser.1.readOutcome declaration with
  | .error error => return (false, [.error error.message])
  | .ok outcome =>
      let warnings := outcome.warnings.map fun warning => Line.warning warning.message
      let d := outcome.declaration
      return (true, warnings ++ if json then [.message d.toJson.text] else declarationLines d)

/-- Renders declarations of a document one after the other. -/
def renderSites (file : FileRef) (store : Store) (r : Renderer) :
    List Site → Except Fault (List (Site × Rendered) × Renderer)
  | [] => .ok ([], r)
  | site :: more => do
      let (rendered, r) ← r.render site.text file store
      let (others, r) ← renderSites file store r more
      return ((site, rendered) :: others, r)

/-- Renders all declarations of a document. -/
def renderDocument (settings : Settings) (vault : Vault) (file : FileRef) :
    Except Fault (List (Site × Rendered) × Renderer) :=
  renderSites file vault.store (.ofSettings settings vault.index)
    (Scan.scan ((vault.document? file).getD ""))

/-- The line about a declaration of a document. -/
def foundLine (found : Site × Rendered) : Line :=
  let start := s!"line {found.1.line}: "
  match found.2 with
  | .live field =>
      let view := field.view
      let label := match view.label with
        | some label => " \"" ++ label ++ "\""
        | none => ""
      .success (start ++ view.type.name ++ label ++ " = " ++ view.display)
  | .placeholder message _ => .error (start ++ message)

/-- Whether a declaration could not be made a field. -/
def isPlaceholder : Rendered → Bool
  | .placeholder .. => true
  | .live _ => false

/-- Renders the declarations of a document; it fails if one of them is shown as a placeholder. -/
def runScan (c : Context) (path : String) (json : Bool) : Except Fault (Bool × List Line) := do
  let settings ← c.settings.mapError .refused
  let vault ← c.vault.mapError .refused
  let file ← (c.document vault path).mapError .refused
  let (found, _) ← renderDocument settings vault file
  let lines :=
    if json then [.message (JsonValue.array (found.map foundToJson)).text]
    else .header s!"{file.path} ({found.length} declaration(s))" :: found.map foundLine
  return (!found.any (fun (_, rendered) => isPlaceholder rendered), lines)

/-- Shows the documents that a bind target could mean, and the one that it does. -/
def runResolve (c : Context) (target context : String) (first : Bool) :
    Except Fault (Bool × List Line) := do
  let vault ← c.vault.mapError .refused
  let context ← (c.document vault context).mapError .refused
  let index := vault.index
  match Target.candidates target context index with
  | .error error => return (false, [.error error.message])
  | .ok found =>
      let lines := .pair "field path" found.path.text
        :: found.files.map fun file => Line.pair "candidate" file.path
      match Target.resolve target context index (if first then .first else .reject) with
      | .ok target => return (true, lines ++ [.success target.text])
      | .error error => return (false, lines ++ [.error error.message])

/-- Lists the templates of the settings, and the errors among them. -/
def runTemplates (c : Context) (json : Bool) : Except Fault (Bool × List Line) := do
  let settings ← c.settings.mapError .refused
  let (parser, errors) := settings.parser
  let templates := parser.templates.names.filterMap parser.templates.get?
  let lines :=
    if json then
      let report := JsonValue.object
        [("errors", .ofTexts (errors.map (·.message))),
          ("templates", .array (templates.map (·.toJson)))]
      [.message report.text]
    else
      [.header s!"{parser.templates.size} template(s)"]
        ++ templates.map (fun t => .pair t.name t.source)
        ++ errors.map (fun error => .warning error.message)
  return (errors.isEmpty, lines)

/-- The value that is given on the command line: a truth value, a number or a sequence if it reads
as one, else the text as it is. -/
def givenValue (raw : String) : Value :=
  match Value.ofText raw with
  | .ok (.bool b) => .bool b
  | .ok (.number n) => .number n
  | .ok (.sequence items) => .sequence items
  | _ => .string raw

/-- The live fields among what was rendered. -/
def liveFields (found : List (Site × Rendered)) : List LiveField :=
  found.filterMap fun
    | (_, .live field) => some field
    | (_, .placeholder ..) => none

/-- Applies the values that wait for fields. -/
def flushAll (r : Renderer) : List LiveField → Except Fault Renderer
  | [] => .ok r
  | field :: more =>
      match r.flush field with
      | (.ok _, _, r) => flushAll r more
      | (.error fault, _, _) => .error fault

/-- The store of a vault after a value was set at a target, and the number of live fields of the
document that got a new value. If a field of the document is bound to the target, the value goes
through the first such field. -/
def setTarget (settings : Settings) (vault : Vault) (target : Target) (v : Value) :
    Except Fault (Store × Nat) := do
  let (found, r) ← renderDocument settings vault target.file
  let fields := liveFields found
  let isBoundHere (field : LiveField) : Bool :=
    ((r.sync.registry.get? field.uid).bind (·.target?)) = some target
  let (r, store) ← match fields.find? isBoundHere with
    | some field =>
        let edited := r.edit field v vault.store
        edited.outcome.map fun _ => (edited.renderer, edited.store)
    | none =>
        let (outcome, store) := vault.store.write target v
        (outcome.mapError .refused).map fun _ => (r, store)
  let (updated, r, store) := r.deliver store
  let _ ← flushAll r fields
  return (store, updated.length)

/-- The lines about a value that was set. -/
def setLines (store : Store) (target : Target) (updated : Nat) : List Line :=
  let written := ((store.read? target).map Value.display).getD ""
  .success (target.text ++ " = " ++ written)
    :: if updated = 0 then [] else [.message s!"{updated} other live field(s) updated"]

/-- Sets a field of a document and writes the document back. -/
def runSet (c : Context) (path fieldPath raw : String) : Outcome :=
  let give (result : Except Fault Bool) (lines : List Line) : Outcome := ⟨result, lines, c.disk⟩
  match c.settings, c.vault with
  | .error error, _ | .ok _, .error error => give (.error (.refused error)) []
  | .ok settings, .ok vault =>
      match c.document vault path, FieldPath.ofText fieldPath with
      | .error error, _ => give (.error (.refused error)) []
      | .ok _, .error error => give (.ok false) [.error error.message]
      | .ok file, .ok fieldPath =>
          let target : Target := ⟨file, fieldPath⟩
          match setTarget settings vault target (givenValue raw) with
          | .error fault => give (.error fault) []
          | .ok (store, updated) =>
              match vault.persist store file c.device with
              | (.ok _, vault) => ⟨.ok true, setLines store target updated, vault.disk⟩
              | (.error error, vault) => ⟨.error (.refused error), [], vault.disk⟩

/-- Runs a command. -/
def run (c : Context) (command : Command) : Outcome :=
  let look : Except Fault (Bool × List Line) → Outcome
    | .ok (done, lines) => ⟨.ok done, lines, c.disk⟩
    | .error fault => ⟨.error fault, [], c.disk⟩
  match command with
  | .parse declaration json => look (runParse c declaration json)
  | .scan file json => look (runScan c file json)
  | .resolve target context first => look (runResolve c target context first)
  | .templates json => look (runTemplates c json)
  | .set file path value => runSet c file path value
  | .schema => look (.ok (true, [.message Settings.schema.text]))
  | .completions _ => look (.ok (true, []))

end Command

end BoundFields
