import BoundFields.Sync.Entry

/-!
# The synchronizer

The synchronizer keeps the live fields, by numbers that are never given twice, in step with the
store: a change is posted to the fields that it concerns, and an edit is written to the store. A
field whose target cannot be resolved is tried again with every change.
-/

set_option autoImplicit false

namespace BoundFields

/-- The live fields by number. The entries are in the order of their numbers, and no number above
`issued` was given out yet. -/
structure Registry where
  entries : Keyed Nat Entry := {}
  issued : Nat := 0
deriving DecidableEq, Repr

namespace Registry

/-- Registers an entry under a new number. -/
def register (r : Registry) (e : Entry) : Nat × Registry :=
  (r.issued + 1, { entries := r.entries.put (r.issued + 1) e, issued := r.issued + 1 })

/-- Forgets the entry under a number, which is not given out again. -/
def unregister (r : Registry) (uid : Nat) : Registry := { r with entries := r.entries.erase uid }

/-- The entry under a number. -/
def get? (r : Registry) (uid : Nat) : Option Entry := r.entries.get? uid

/-- Whether there is an entry under a number. -/
def contains (r : Registry) (uid : Nat) : Bool := r.entries.contains uid

/-- The numbers of all entries, in order. -/
def uids (r : Registry) : List Nat := r.entries.keys

/-- The numbers of the entries with a property, in order. -/
def find (r : Registry) (p : Entry → Bool) : List Nat :=
  (r.entries.entries.filter fun (_, e) => p e).map (·.1)

/-- The registry with another entry under a number. -/
def set (r : Registry) (uid : Nat) (e : Entry) : Registry :=
  { r with entries := r.entries.put uid e }

end Registry

/-- The live fields, and the documents that their targets are looked up in. -/
structure Synchronizer where
  registry : Registry := {}
  index : FileIndex := {}
  policy : AmbiguityPolicy := .reject
deriving DecidableEq, Repr

namespace Synchronizer

/-- Replaces the index; targets that could not be resolved are tried again with the next
change. -/
def setIndex (s : Synchronizer) (index : FileIndex) : Synchronizer := { s with index }

/-- Makes a field live, and gives its number. -/
def attach (s : Synchronizer) (d : Declaration) (context : FileRef) (control : Control)
    (store : Store) : Nat × Synchronizer :=
  let (uid, registry) :=
    s.registry.register (Entry.start d context control s.index s.policy store)
  (uid, { s with registry })

/-- Forgets a field. -/
def detach (s : Synchronizer) (uid : Nat) : Synchronizer :=
  { s with registry := s.registry.unregister uid }

/-- The entries after a change, each with whether it got a new value. -/
def noticed (index : FileIndex) (policy : AmbiguityPolicy) (change : Change)
    (entries : List (Nat × Entry)) : List (Nat × Bool × Entry) :=
  entries.map fun (uid, e) => (uid, (e.retry index policy).notice change)

/-- Reports a change, and gives the numbers of the fields that got a new value. -/
def onChange (s : Synchronizer) (change : Change) : List Nat × Synchronizer :=
  -- A document that was not in the index may be what a target was waiting for.
  let index := s.index.insert change.file
  let after := noticed index s.policy change s.registry.entries.entries
  let entries := ⟨after.map fun (uid, _, e) => (uid, e)⟩
  ((after.filter (·.2.1)).map (·.1), { s with index, registry := { s.registry with entries } })

/-- Writes an edit to the store; `false` if the field is gone or its target not resolved. -/
def onEdit (s : Synchronizer) (uid : Nat) (v : Value) (store : Store) :
    Except Error Bool × Synchronizer × Store :=
  match s.registry.get? uid with
  | none => (.ok false, s, store)
  | some e =>
      match e.target? with
      | none => (.ok false, s, store)
      | some target =>
          match store.write target v with
          | (.ok _, store) =>
              (.ok true, { s with registry := s.registry.set uid (e.wrote v) }, store)
          | (.error error, store) => (.error error, s, store)

/-- Takes the value that waits for a field. -/
def takePending (s : Synchronizer) (uid : Nat) : Option Value × Synchronizer :=
  match s.registry.get? uid with
  | none => (none, s)
  | some e =>
      let (v, mailbox) := e.mailbox.take
      (v, { s with registry := s.registry.set uid { e with mailbox } })

end Synchronizer

end BoundFields
