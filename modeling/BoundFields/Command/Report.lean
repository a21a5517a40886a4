import BoundFields.Text.Pieces

/-!
# Reports

What a command tells its user, line by line. Each line is of a kind that can be told from its
first characters.
-/

set_option autoImplicit false

namespace BoundFields

/-- A line of a report. -/
inductive Line where
  | message (text : String)
  | success (text : String)
  | warning (text : String)
  | error (text : String)
  | header (text : String)
  | pair (key value : String)
deriving DecidableEq, Repr

namespace Line

/-- The line without colours. -/
def text : Line → String
  | .message text | .header text => text
  | .success text => "✓ " ++ text
  | .warning text => "⚠ " ++ text
  | .error text => "✗ " ++ text
  | .pair key value => key ++ ": " ++ value

/-- What the line tells, without the mark of its kind or the key. -/
def content : Line → String
  | .message text | .success text | .warning text | .error text | .header text => text
  | .pair _ value => value

/-- The key and the value of a line that has them. -/
def pair? : Line → Option (String × String)
  | .pair key value => some (key, value)
  | _ => none

end Line

/-- Whether a text stands somewhere in another one. -/
def Text.occursIn (needle : List Char) : List Char → Bool
  | [] => needle.isEmpty
  | c :: cs => (Text.dropPrefix? needle (c :: cs)).isSome || occursIn needle cs

/-- The lines that a command has written. -/
structure Report where
  lines : List Line := []
deriving DecidableEq, Repr

namespace Report

/-- The report with one more line. -/
def add (r : Report) (line : Line) : Report := ⟨r.lines ++ [line]⟩

/-- Whether a text occurs in what a line tells. -/
def mentions (r : Report) (needle : String) : Bool :=
  r.lines.any fun line => Text.occursIn needle.toList line.content.toList

/-- The pairs of keys and values. -/
def pairs (r : Report) : List (String × String) := r.lines.filterMap Line.pair?

/-- The value in the first line with a key. -/
def valueOf? (r : Report) (key : String) : Option String :=
  (r.pairs.find? fun (k, _) => k = key).map (·.2)

end Report

end BoundFields
