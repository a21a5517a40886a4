/-!
# Bracket groups

A group ends at the first closing bracket that matches none of the brackets opened in it; brackets
between double quotes do not count, and neither does a quote behind a backslash there. The scan is
a machine over single characters, so it runs over a concatenation piece by piece (`scan_append`).
-/

set_option autoImplicit false

namespace BoundFields

/-- Where a scan stands, with the number of brackets open. -/
inductive BracketState where
  | plain (depth : Nat)
  | quoted (depth : Nat)
  /-- Between quotes, just behind a backslash. -/
  | escaped (depth : Nat)
deriving DecidableEq, Repr

namespace BracketState

/-- The state behind one more character, unless that character ends the group. -/
def next : BracketState → Char → Option BracketState
  | .plain depth, '"' => some (.quoted depth)
  | .plain depth, '[' => some (.plain (depth + 1))
  | .plain 0, ']' => none
  | .plain (depth + 1), ']' => some (.plain depth)
  | .plain depth, _ => some (.plain depth)
  | .quoted depth, '\\' => some (.escaped depth)
  | .quoted depth, '"' => some (.plain depth)
  | .quoted depth, _ => some (.quoted depth)
  | .escaped depth, _ => some (.quoted depth)

/-- The state behind a text, unless the group ends within it. -/
def scan : BracketState → List Char → Option BracketState
  | s, [] => some s
  | s, c :: cs => (s.next c).bind (scan · cs)

theorem scan_append (s : BracketState) (xs ys : List Char) :
    s.scan (xs ++ ys) = (s.scan xs).bind (·.scan ys) := by
  induction xs generalizing s with
  | nil => rfl
  | cons c cs ih =>
    simp only [List.cons_append, scan]
    cases s.next c <;> simp [ih]

/-- The text up to the bracket that ends the group, and the text behind that bracket. -/
def splitGroup : BracketState → List Char → Option (List Char × List Char)
  | _, [] => none
  | s, c :: cs =>
      match s.next c with
      | none => some ([], cs)
      | some s => (splitGroup s cs).map fun (inner, rest) => (c :: inner, rest)

end BracketState

/-- A text in which every bracket and every quote is closed, and none is closed too often. -/
def IsClosed (cs : List Char) : Prop := (BracketState.plain 0).scan cs = some (.plain 0)

instance (cs : List Char) : Decidable (IsClosed cs) := inferInstanceAs (Decidable (_ = _))

end BoundFields
