import BoundFields.Settings.Basic
import BoundFields.Sync.Synchronizer

/-!
# Rendering declarations

The renderer turns declaration text into live fields and keeps their controls in step with the
store. A text that does not make a field is shown as a placeholder with the error, so that one
broken declaration does no harm to the others.
-/

set_option autoImplicit false

namespace BoundFields

/-- A mounted control with the number of its entry, and its view as it was last drawn. -/
structure LiveField where
  uid : Nat
  control : Control
  view : View
deriving DecidableEq, Repr

/-- What a declaration text is shown as. -/
inductive Rendered where
  | live (field : LiveField)
  | placeholder (message source : String)
deriving DecidableEq, Repr

/-- What makes declarations live fields: a reader of declarations and a synchronizer. -/
structure Renderer where
  parser : Parser := {}
  sync : Synchronizer := {}
deriving DecidableEq, Repr

namespace LiveField

/-- The field with another value, drawn anew. -/
def set (field : LiveField) (v : Value) : Except Fault LiveField := do
  let control ← field.control.set v
  return { field with control, view := control.view }

end LiveField

/-- What an edit leaves behind. -/
structure Edited where
  outcome : Except Fault Unit
  field : LiveField
  renderer : Renderer
  store : Store

namespace Renderer

/-- The renderer for some documents. -/
def ofSettings (settings : Settings) (index : FileIndex) : Renderer :=
  { parser := settings.parser.1, sync := { index } }

/-- Applies the value that waits for a field, and tells whether there was one. -/
def flush (r : Renderer) (field : LiveField) : Except Fault Bool × LiveField × Renderer :=
  let (v, sync) := r.sync.takePending field.uid
  let r := { r with sync }
  match v with
  | none => (.ok false, field, r)
  | some v =>
      match field.set v with
      | .ok field => (.ok true, field, r)
      | .error fault => (.error fault, field, r)

/-- Makes a control for a declaration live. -/
def mountControl (r : Renderer) (d : Declaration) (context : FileRef) (control : Control)
    (store : Store) : Except Fault LiveField × Renderer :=
  let (uid, sync) := r.sync.attach d context control store
  let control := control.mount
  -- The first value waits in the mailbox of the new entry.
  match ({ r with sync } : Renderer).flush ⟨uid, control, control.view⟩ with
  | (.ok _, field, r) => (.ok field, r)
  | (.error fault, _, r) => (.error fault, { r with sync := r.sync.detach uid })

/-- Makes the field of a declaration text in the document `context` live. -/
def mount (r : Renderer) (text : String) (context : FileRef) (store : Store) :
    Except Fault LiveField × Renderer :=
  match r.parser.read text with
  | .error error => (.error (.refused error), r)
  | .ok d =>
      match Control.ofDeclaration d r.parser.dateFormat with
      | .error fault => (.error fault, r)
      | .ok control => r.mountControl d context control store

/-- Renders a declaration text in the document `context`. An error becomes a placeholder; the only
fault is a date that cannot be written. -/
def render (r : Renderer) (text : String) (context : FileRef) (store : Store) :
    Except Fault (Rendered × Renderer) :=
  match r.mount text context store with
  | (.ok field, r) => .ok (.live field, r)
  | (.error (.refused error), r) => .ok (.placeholder error.message text, r)
  | (.error (.unwritableDate format), _) => .error (.unwritableDate format)

/-- Gives a field a value on behalf of its user, and writes what the control made of it to the
store. -/
def edit (r : Renderer) (field : LiveField) (v : Value) (store : Store) : Edited :=
  match field.set v with
  | .error fault => ⟨.error fault, field, r, store⟩
  | .ok field =>
      match field.control.value with
      | .error error => ⟨.error (.refused error), field, r, store⟩
      | .ok stored =>
          let (outcome, sync, store) := r.sync.onEdit field.uid stored store
          ⟨(outcome.map fun _ => ()).mapError .refused, field, { r with sync }, store⟩

/-- Reports changes one by one, and gives the numbers of the fields that got a new value, behind
those in `done`, each once. -/
def report (done : List Nat) (sync : Synchronizer) : List Change → List Nat × Synchronizer
  | [] => (done, sync)
  | change :: more =>
      let (updated, sync) := sync.onChange change
      report (done ++ updated.filter (!done.contains ·)) sync more

/-- Reports all changes of the store, and gives the numbers of the fields that got a new value. -/
def deliver (r : Renderer) (store : Store) : List Nat × Renderer × Store :=
  let (changes, store) := store.drain
  let (updated, sync) := report [] r.sync changes
  (updated, { r with sync }, store)

/-- Takes a field off the page; its entry is forgotten. -/
def unmount (r : Renderer) (field : LiveField) : Renderer :=
  { r with sync := r.sync.detach field.uid }

/-- Takes over other settings, and gives the errors of the templates. Fields that are live stay as
they are. -/
def reconfigure (r : Renderer) (settings : Settings) : List Error × Renderer :=
  let (parser, errors) :=
    { r.parser with dateFormat := settings.dateFormat }.loadTemplates settings.templates
  (errors, { r with parser })

end Renderer

end BoundFields
