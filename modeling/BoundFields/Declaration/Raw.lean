import BoundFields.Error
import BoundFields.Declaration.Quoted
import BoundFields.Declaration.Bracket

/-!
# Declarations as written

A declaration is `INPUT[body]` or `INPUT[template][body]`, and a body is a type, arguments between
parentheses and a bind target behind a colon, each of which may be missing. This module takes such
a text apart; whether the type and the arguments exist is not looked at here.

The readers work on what is left of a stretch of text that ends at character number `stop`, so the
position of a remainder `cs` is `stop - cs.length`.
-/

set_option autoImplicit false

namespace BoundFields

open Text

/-- An argument as written, with the position of its name. -/
structure RawArgument where
  name : String
  value : Option String
  position : Nat
deriving DecidableEq, Repr

/-- The body of a declaration as written; the type has its position. -/
structure RawBody where
  type : Option (String × Nat) := none
  arguments : List RawArgument := []
  target : Option String := none
deriving DecidableEq, Repr

/-- A declaration as written. -/
structure RawDeclaration where
  template : Option String
  body : RawBody
deriving DecidableEq, Repr

/-- The most characters that an error quotes. -/
def snippetLength : Nat := 12

/-- A problem noticed where `rest` is left of a stretch that ends at `stop`. -/
def SyntaxError.at (stop : Nat) (problem : SyntaxProblem) (rest : List Char) : SyntaxError where
  problem := problem
  position := some (stop - rest.length)
  snippet := if rest.isEmpty then none else some (String.ofList (rest.take snippetLength))

/-- An ASCII letter or an underscore, which a name can start with. -/
def isIdentStart (c : Char) : Bool := c.isAlpha || c = '_'

/-- An ASCII letter, a digit or an underscore. -/
def isIdentChar (c : Char) : Bool := c.isAlphanum || c = '_'

theorem isIdentChar_of_isIdentStart {c : Char} (h : isIdentStart c = true) :
    isIdentChar c = true := by
  unfold isIdentStart at h
  unfold isIdentChar Char.isAlphanum
  rw [Bool.or_assoc, Bool.or_left_comm, h, Bool.or_true]

/-- The name at the start of a text: ASCII letters, digits and underscores, no digit first. -/
def identifier? : List Char → Option (List Char × List Char)
  | c :: cs =>
      if isIdentStart c then
        some (c :: cs.takeWhile isIdentChar, cs.dropWhile isIdentChar)
      else none
  | [] => none

/-- The value of an argument, between double quotes or up to the matching parenthesis. -/
def readValue (stop : Nat) (cs : List Char) : Except SyntaxError (String × List Char) :=
  let cs := trimStart cs
  match cs with
  | '"' :: inner =>
      match quotedText? inner with
      | some (text, rest) => .ok (String.ofList text, rest)
      | none => .error (.at stop .unterminatedString cs)
  | cs =>
      match bareText? 0 cs with
      | some (text, rest) => .ok (String.ofList (trim text), rest)
      | none => .error (.at stop .unterminatedValue cs)

/-- The value between the parentheses behind an argument's name, if there are any. -/
def readArgumentValue (stop : Nat) (cs : List Char) :
    Except SyntaxError (Option String × List Char) :=
  match trimStart cs with
  | '(' :: inner => do
      let (value, rest) ← readValue stop inner
      match trimStart rest with
      | ')' :: rest => .ok (some value, rest)
      | rest => .error (.at stop .unclosedArgument rest)
  | rest => .ok (none, rest)

/-- One argument. -/
def readArgument (stop : Nat) (cs : List Char) : Except SyntaxError (RawArgument × List Char) :=
  let cs := trimStart cs
  match identifier? cs with
  | none => .error (.at stop .missingArgumentName cs)
  | some (name, rest) => do
      let (value, rest) ← readArgumentValue stop rest
      .ok (⟨String.ofList name, value, stop - cs.length⟩, rest)

/-- Arguments between commas up to the closing parenthesis, at most `fuel` of them; every argument
takes a character, so the length of the text is enough. -/
def readArgumentsWithin :
    Nat → Nat → List Char → Except SyntaxError (List RawArgument × List Char)
  | 0, stop, cs => .error (.at stop .unclosedArgumentList cs)
  | fuel + 1, stop, cs => do
      let (argument, rest) ← readArgument stop cs
      match trimStart rest with
      | ',' :: rest =>
          let (arguments, rest) ← readArgumentsWithin fuel stop rest
          .ok (argument :: arguments, rest)
      | ')' :: rest => .ok ([argument], rest)
      | rest => .error (.at stop .unclosedArgumentList rest)

/-- The arguments behind an opening parenthesis. -/
def readArguments (stop : Nat) (cs : List Char) :
    Except SyntaxError (List RawArgument × List Char) :=
  match trimStart cs with
  | ')' :: rest => .ok ([], rest)
  | cs => readArgumentsWithin (cs.length + 1) stop cs

/-- The arguments between parentheses, if there are any. -/
def readArgumentGroup (stop : Nat) (cs : List Char) :
    Except SyntaxError (List RawArgument × List Char) :=
  match trimStart cs with
  | '(' :: inner => readArguments stop inner
  | cs => .ok ([], cs)

/-- The bind target behind a colon; without a colon nothing may be left. -/
def readTarget (stop : Nat) (cs : List Char) : Except SyntaxError (Option String) :=
  match trimStart cs with
  | ':' :: target =>
      if isBlankText target then .error (.at stop .emptyTarget [])
      else .ok (some (String.ofList (trim target)))
  | [] => .ok none
  | cs => .error (.at stop .unexpectedCharacter cs)

/-- The body of a declaration. -/
def readBody (stop : Nat) (cs : List Char) : Except SyntaxError RawBody :=
  match trimStart cs with
  | [] => .error ⟨.emptyDeclaration, some (stop - cs.length), none⟩
  | inner => do
      let (type, rest) := match identifier? inner with
        | some (name, rest) => (some (String.ofList name, stop - inner.length), rest)
        | none => (none, inner)
      let (arguments, rest) ← readArgumentGroup stop rest
      let target ← readTarget stop rest
      .ok { type, arguments, target }

/-- The text between two brackets and the position of the closing one. -/
structure BracketGroup where
  inner : List Char
  stop : Nat
deriving DecidableEq, Repr

/-- The bracket groups that a text consists of, at most `fuel` of them; every group takes a
character, so the length of the text is enough. -/
def readGroupsWithin : Nat → Nat → List Char → Except SyntaxError (List BracketGroup)
  | 0, _, _ => .ok []
  | fuel + 1, stop, cs =>
      match trimStart cs with
      | [] => .ok []
      | '[' :: cs =>
          match (BracketState.plain 0).splitGroup cs with
          | none => .error (.at stop .unclosedGroup ('[' :: cs))
          | some (inner, rest) => do
              let groups ← readGroupsWithin fuel stop rest
              .ok (⟨inner, stop - rest.length - 1⟩ :: groups)
      | cs => .error (.at stop .textBehindGroups cs)

/-- The bracket groups that a text consists of, up to the position `stop`. -/
def readGroups (stop : Nat) (cs : List Char) : Except SyntaxError (List BracketGroup) :=
  readGroupsWithin (cs.length + 1) stop cs

/-- A declaration text taken apart. -/
def RawDeclaration.ofChars (text : List Char) : Except SyntaxError RawDeclaration :=
  let stop := text.length
  let cs := trimStart text
  match cs with
  | 'I' :: 'N' :: 'P' :: 'U' :: 'T' :: rest => do
      match ← readGroups stop rest with
      | [] => .error (.at stop .missingStart cs)
      | [body] => .ok ⟨none, ← readBody body.stop body.inner⟩
      | [template, body] =>
          if isBlankText template.inner then
            .error ⟨.emptyTemplateName, some (template.stop - template.inner.length), none⟩
          else
            .ok ⟨some (String.ofList (trim template.inner)), ← readBody body.stop body.inner⟩
      | _ => .error ⟨.tooManyGroups, none, none⟩
  | cs => .error (.at stop .missingStart cs)

/-- A declaration text taken apart. -/
def RawDeclaration.ofText (text : String) : Except SyntaxError RawDeclaration :=
  RawDeclaration.ofChars text.toList

end BoundFields
