import BoundFields.Declaration.Raw
import BoundFields.Proofs.Declaration.Bracket

/-!
# The forms of a declaration

The grammar of declaration texts as data: a form is a declaration text taken apart, blanks included,
and no form breaks the grammar. `chars` is the text of a form, and `raw` is what the text says, with
the positions in it. Nothing is said here about how the form of a text is found.
-/

set_option autoImplicit false

namespace BoundFields

open Text

namespace Form

/-! ## Forms -/

/-- A run of blanks, which may be empty. -/
@[ext] structure Blanks where
  chars : List Char
  blank : isBlankText chars = true

/-- A name: ASCII letters, digits and underscores, no digit first. -/
@[ext] structure Name where
  first : Char
  more : List Char
  isStart : isIdentStart first = true
  isMore : ∀ c ∈ more, isIdentChar c = true

/-- A text that is not all blanks. -/
@[ext] structure Filled where
  chars : List Char
  filled : trim chars ≠ []

/-- A piece of a text between double quotes. -/
inductive Piece where
  | plain (c : Char) (isPlain : c ≠ '"' ∧ c ≠ '\\')
  /-- A character behind a backslash. -/
  | escaped (c : Char)

/-- The value of an argument. -/
inductive Value where
  | quoted (before : Blanks) (pieces : List Piece) (after : Blanks)
  | bare (chars : List Char) (balanced : IsBalanced chars)
      (unquoted : (trimStart chars).head? ≠ some '"')

/-- An argument, with the value that it may have. -/
@[ext] structure Argument where
  before : Blanks
  name : Name
  after : Blanks
  value : Option (Value × Blanks)

/-- What stands between the parentheses behind a type. -/
inductive Arguments where
  | empty (blanks : Blanks)
  | list (first : Argument) (more : List Argument)

/-- What stands between the last two brackets. -/
@[ext] structure Body where
  before : Blanks
  type : Option (Name × Blanks)
  arguments : Option (Arguments × Blanks)
  target : Option Filled

/-! ## Texts of forms -/

/-- The characters of a name. -/
def Name.chars (n : Name) : List Char := n.first :: n.more

/-- A piece as it is written, with its backslash if it has one. -/
def Piece.chars : Piece → List Char
  | .plain c _ => [c]
  | .escaped c => ['\\', c]

/-- A value as it is written: between quotes, with blanks around them, or bare. -/
def Value.chars : Value → List Char
  | .quoted before pieces after =>
      before.chars ++ '"' :: (pieces.flatMap Piece.chars ++ '"' :: after.chars)
  | .bare chars _ _ => chars

/-- A group that may be missing, with the blanks behind it. -/
def group {α : Type} (opening closing : Char) (chars : α → List Char) :
    Option (α × Blanks) → List Char
  | none => []
  | some (inner, after) => opening :: (chars inner ++ closing :: after.chars)

/-- An argument as it is written, its value between parentheses. -/
def Argument.chars (a : Argument) : List Char :=
  a.before.chars ++ (a.name.chars ++ (a.after.chars ++ group '(' ')' Value.chars a.value))

/-- Arguments with a comma in between. -/
def joined : Argument → List Argument → List Char
  | a, [] => a.chars
  | a, b :: more => a.chars ++ ',' :: joined b more

/-- What is written between the parentheses behind a type. -/
def Arguments.chars : Arguments → List Char
  | .empty blanks => blanks.chars
  | .list first more => joined first more

/-- A type with the blanks behind it, or nothing. -/
def typeChars : Option (Name × Blanks) → List Char
  | none => []
  | some (name, after) => name.chars ++ after.chars

/-- A colon and a target, or nothing. -/
def targetChars : Option Filled → List Char
  | none => []
  | some target => ':' :: target.chars

/-- What is written between the last two brackets: type, arguments and target. -/
def Body.chars (b : Body) : List Char :=
  b.before.chars ++
    (typeChars b.type ++ (group '(' ')' Arguments.chars b.arguments ++ targetChars b.target))

/-- What stands between the brackets of a template. -/
@[ext] structure Template where
  name : Filled
  closed : IsClosed name.chars

/-- A declaration text. -/
@[ext] structure Declaration where
  before : Blanks
  behindInput : Blanks
  template : Option (Template × Blanks)
  body : Body
  after : Blanks
  closed : IsClosed body.chars
  filled : isBlankText body.chars = false

/-- What is written between the brackets of a template. -/
def Template.chars (t : Template) : List Char := t.name.chars

/-- The text in front of the body and its bracket. -/
def Declaration.head (d : Declaration) : List Char :=
  d.before.chars ++
    ("INPUT".toList ++ (d.behindInput.chars ++ group '[' ']' Template.chars d.template))

/-- The whole text of a declaration. -/
def Declaration.chars (d : Declaration) : List Char :=
  d.head ++ '[' :: (d.body.chars ++ ']' :: d.after.chars)

/-! ## What forms say -/

/-- The name as a string. -/
def Name.text (n : Name) : String := String.ofList n.chars

/-- What a text says: the blanks at its ends do not count. -/
def Filled.text (f : Filled) : String := String.ofList (trim f.chars)

/-- A backslash stands for itself unless a quote or a backslash follows. -/
def Piece.content : Piece → List Char
  | .plain c _ => [c]
  | .escaped c => if c = '"' || c = '\\' then [c] else ['\\', c]

/-- What a value says: the content of its pieces, or the bare text without the blanks at its ends.
-/
def Value.text : Value → String
  | .quoted _ pieces _ => String.ofList (pieces.flatMap Piece.content)
  | .bare chars _ _ => String.ofList (trim chars)

/-- The argument as written, if its text starts at character number `start`. -/
def Argument.raw (start : Nat) (a : Argument) : RawArgument :=
  ⟨a.name.text, a.value.map (·.1.text), start + a.before.chars.length⟩

/-- The arguments of a list as written, each with its position; a comma takes one character. -/
def joinedRaws : Nat → Argument → List Argument → List RawArgument
  | start, a, [] => [a.raw start]
  | start, a, b :: more => a.raw start :: joinedRaws (start + a.chars.length + 1) b more

/-- The arguments between parentheses as written, if their text starts at character number `start`.
-/
def Arguments.raws (start : Nat) : Arguments → List RawArgument
  | .empty _ => []
  | .list first more => joinedRaws start first more

/-- The arguments of a group that starts with its parenthesis at character number `start`. -/
def groupRaws (start : Nat) (arguments : Option (Arguments × Blanks)) : List RawArgument :=
  (arguments.map fun (inner, _) => inner.raws (start + 1)).getD []

/-- The body as written, if its text starts at character number `start`. -/
def Body.raw (start : Nat) (b : Body) : RawBody where
  type := b.type.map fun (name, _) => (name.text, start + b.before.chars.length)
  arguments := groupRaws (start + b.before.chars.length + (typeChars b.type).length) b.arguments
  target := b.target.map Filled.text

/-- The declaration as written. -/
def Declaration.raw (d : Declaration) : RawDeclaration where
  template := d.template.map (·.1.name.text)
  body := d.body.raw (d.head.length + 1)

end Form

end BoundFields
