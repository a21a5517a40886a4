/-!
# Mailboxes

A mailbox holds one message at most; a new one takes the place of one that was not taken yet.
-/

set_option autoImplicit false

namespace BoundFields

/-- Room for one message. -/
structure Mailbox (α : Type) where
  slot : Option α := none
deriving DecidableEq, Repr

namespace Mailbox

variable {α : Type}

/-- Leaves a message, and tells whether another one was still there. -/
def post (m : Mailbox α) (message : α) : Bool × Mailbox α := (m.slot.isSome, ⟨some message⟩)

/-- Takes the message out. -/
def take (m : Mailbox α) : Option α × Mailbox α := (m.slot, {})

/-- The message, which stays where it is. -/
def peek? (m : Mailbox α) : Option α := m.slot

/-- Whether there is no message. -/
def isEmpty (m : Mailbox α) : Bool := m.slot.isNone

end Mailbox

end BoundFields
