import BoundFields.Number.Style

/-!
# Structured output

Trees of objects, arrays and scalars, written as JSON text with two columns to a level. The
entries of an object are written in the order in which they are given.
-/

set_option autoImplicit false

namespace BoundFields

/-- A tree for structured output. -/
inductive JsonValue where
  | null
  | bool (b : Bool)
  | natural (n : Nat)
  | number (d : Double)
  | string (s : String)
  | array (items : List JsonValue)
  | object (entries : List (String × JsonValue))
deriving Inhabited, Repr

namespace JsonValue

/-- The text of an optional string. -/
def ofText? : Option String → JsonValue
  | some s => .string s
  | none => .null

/-- An array of strings. -/
def ofTexts (items : List String) : JsonValue := .array (items.map .string)

/-- The entry with a key, if its value is there. -/
def entryOf? (key : String) : Option JsonValue → List (String × JsonValue)
  | some value => [(key, value)]
  | none => []

/-- A character as it stands within quotes. -/
def escape (c : Char) : List Char :=
  match c with
  | '"' => ['\\', '"']
  | '\\' => ['\\', '\\']
  | '\n' => ['\\', 'n']
  | '\r' => ['\\', 'r']
  | '\t' => ['\\', 't']
  | c =>
      if c.toNat = 8 then ['\\', 'b']
      else if c.toNat = 12 then ['\\', 'f']
      else if c.toNat < 0x20 then
        let digits := Nat.toDigits 16 c.toNat
        '\\' :: 'u' :: (List.replicate (4 - digits.length) '0' ++ digits)
      else [c]

/-- A string between quotes. -/
def quoted (s : String) : String := String.ofList ('"' :: (s.toList.flatMap escape ++ ['"']))

/-- The start of a line at a level. -/
def newLine (level : Nat) : String := "\n" ++ String.ofList (List.replicate (2 * level) ' ')

/-- Parts between brackets, one below the other, the bracket standing at `level`. -/
def block (level : Nat) (opening closing : String) (parts : List String) : String :=
  if parts.isEmpty then opening ++ closing
  else
    opening ++ newLine (level + 1) ++ String.intercalate ("," ++ newLine (level + 1)) parts
      ++ newLine level ++ closing

mutual

/-- The text of a tree that starts at a level. -/
def render (level : Nat) : JsonValue → String
  | .null => "null"
  | .bool b => if b then "true" else "false"
  | .natural n => toString n
  | .number d => d.write .structured
  | .string s => quoted s
  | .array items => block level "[" "]" (renderItems (level + 1) items)
  | .object entries => block level "\x7b" "\x7d" (renderEntries (level + 1) entries)

/-- The texts of items. -/
def renderItems (level : Nat) : List JsonValue → List String
  | [] => []
  | item :: more => render level item :: renderItems level more

/-- The texts of entries. -/
def renderEntries (level : Nat) : List (String × JsonValue) → List String
  | [] => []
  | (key, value) :: more =>
      (quoted key ++ ": " ++ render level value) :: renderEntries level more

end

/-- The text of a tree. -/
def text (j : JsonValue) : String := j.render 0

end JsonValue

end BoundFields
