import BoundFields.Control.Basic
import BoundFields.Metadata.Store
import BoundFields.Sync.Mailbox

/-!
# Live fields

What the synchronizer knows of a live field: where it is bound, the value that it last had, the
values that it wrote and that have not come back as changes yet, and its mailbox. A value that
comes back is an echo and is not posted (`Entry.receive`).
-/

set_option autoImplicit false

namespace BoundFields

/-- How a field is bound. -/
inductive Binding where
  | unbound
  /-- The target names no single field so far. -/
  | unresolved (cause : Error)
  | resolved (target : Target)
deriving DecidableEq, Repr

namespace Binding

/-- How a field with this declaration in the document `context` is bound. -/
def ofDeclaration (d : Declaration) (context : FileRef) (index : FileIndex)
    (policy : AmbiguityPolicy) : Binding :=
  match d.target with
  | none => .unbound
  | some raw =>
      match Target.resolve raw context index policy with
      | .ok target => .resolved target
      | .error cause => .unresolved cause

/-- What the field is bound to, if its target was found. -/
def target? : Binding → Option Target
  | .resolved target => some target
  | _ => none

end Binding

/-- A live field. -/
structure Entry where
  declaration : Declaration
  /-- The document that the declaration stands in. -/
  context : FileRef
  binding : Binding
  /-- The equality rule of the control. -/
  rule : EqualityRule
  /-- The value of a field that the metadata lacks. -/
  default : Value
  /-- The value that was last posted, or written by the field itself. -/
  lastKnown : Value
  /-- The values written by the field that have not come back, the oldest first. -/
  unechoed : List Value
  mailbox : Mailbox Value
deriving DecidableEq, Repr

/-- The writes behind the first one that equals `v`, if there is one. -/
def echoRest? (rule : EqualityRule) (v : Value) : List Value → Option (List Value)
  | [] => none
  | written :: more => if rule.eq written v then some more else echoRest? rule v more

namespace Entry

/-- What the field of an entry is bound to, if its target was found. -/
def target? (e : Entry) : Option Target := e.binding.target?

/-- The entry of a field that goes live; the first value is posted to it. -/
def start (d : Declaration) (context : FileRef) (control : Control) (index : FileIndex)
    (policy : AmbiguityPolicy) (store : Store) : Entry :=
  let binding := Binding.ofDeclaration d context index policy
  let default := control.role.default
  let first := (binding.target?.bind store.read?).getD default
  { declaration := d, context, binding, rule := control.role.rule, default, lastKnown := first,
    unechoed := [], mailbox := ⟨some first⟩ }

/-- The entry, bound anew if its target could not be resolved before. -/
def retry (e : Entry) (index : FileIndex) (policy : AmbiguityPolicy) : Entry :=
  match e.binding with
  | .unresolved _ => { e with binding := .ofDeclaration e.declaration e.context index policy }
  | _ => e

/-- Tells the entry that its field has the value `v` now, and whether that was news. Echoes come
back in the order of the writes, so that the writes before the one that came back are dropped; a
value that is no echo voids all writes. -/
def receive (e : Entry) (v : Value) : Bool × Entry :=
  match echoRest? e.rule v e.unechoed with
  | some rest => (false, { e with unechoed := rest })
  | none =>
      -- Somebody else wrote in between, so that what this field wrote is no longer awaited.
      let e := { e with unechoed := [] }
      if e.rule.eq e.lastKnown v then (false, e)
      else (true, { e with lastKnown := v, mailbox := (e.mailbox.post v).2 })

/-- Tells the entry about a change, if its field is in that document. -/
def notice (e : Entry) (change : Change) : Bool × Entry :=
  match e.target? with
  | some target =>
      if target.file = change.file then
        e.receive ((change.snapshot.read? target.path).getD e.default)
      else (false, e)
  | none => (false, e)

/-- The entry after its field wrote a value; a message from before is dropped. -/
def wrote (e : Entry) (v : Value) : Entry :=
  { e with lastKnown := v, unechoed := e.unechoed ++ [v], mailbox := {} }

end Entry

end BoundFields
