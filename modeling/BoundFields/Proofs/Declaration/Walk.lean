import BoundFields.Declaration.Raw

/-!
# Reading by index

The readers of declarations pass on what is left of a text, so there is nothing in them that could
be out of bounds. This module reads the same texts as they lie in memory, an array of characters and
an index into it. Pieces are cut out between two indices and parentheses and brackets are counted up
and down; every piece and every count is checked, and a check that fails ends the walk
(`Halt.outOfBounds`). The conditions of a loop look at a character that may not be there, which is
no failure.

The two ways of reading come to the same result on every text, so none of these checks ever fails
(`BoundFields.Proofs.Declaration.Positions`).
-/

set_option autoImplicit false

namespace BoundFields

open Text

/-- Why a walk over a text ends early. -/
inductive Halt where
  /-- A piece does not lie in the text, or a count leaves the range from nothing to all characters
  of the text. -/
  | outOfBounds
  /-- A loop goes round more often than the text has characters. -/
  | outOfFuel
  | refused (error : SyntaxError)
deriving DecidableEq, Repr

namespace Walk

/-! ## Checks -/

/-- One less than a count, which is not zero. -/
def less : Nat → Except Halt Nat
  | 0 => .error .outOfBounds
  | count + 1 => .ok count

section

variable (chars : List Char)

/-- One more than a count of characters, which is not all of them. -/
def more (count : Nat) : Except Halt Nat :=
  if count < chars.length then .ok (count + 1) else .error .outOfBounds

/-- The characters from one index up to another that is not smaller. -/
def slice (start stop : Nat) : Except Halt (List Char) :=
  if start ≤ stop ∧ stop ≤ chars.length then .ok ((chars.take stop).drop start)
  else .error .outOfBounds

/-- An error at a position, with the characters there. -/
def refuse {α : Type} (problem : SyntaxProblem) (position : Nat) : Except Halt α := do
  let stop := min (position + snippetLength) chars.length
  let snippet ← slice chars (min position stop) stop
  .error (.refused ⟨problem, some position,
    if snippet.isEmpty then none else some (String.ofList snippet)⟩)

theorem lt_length_of_getElem? {c : Char} {pos : Nat} (h : chars[pos]? = some c) :
    pos < chars.length := (List.getElem?_eq_some_iff.1 h).1

/-! ## Tokens -/

/-- The index behind the characters from `pos` on that have a property. -/
def skipWhile (p : Char → Bool) (pos : Nat) : Nat :=
  match h : chars[pos]? with
  | some c => if p c then skipWhile p (pos + 1) else pos
  | none => pos
termination_by chars.length - pos
decreasing_by
  have := lt_length_of_getElem? chars h
  omega

/-- The index behind a text, if it stands at `pos`. -/
def expect : List Char → Nat → Option Nat
  | [], pos => some pos
  | c :: cs, pos => if chars[pos]? = some c then expect cs (pos + 1) else none

/-- The name at `pos` and the index behind it. -/
def name (pos : Nat) : Except Halt (Option (List Char) × Nat) :=
  match chars[pos]? with
  | some c =>
      if isIdentStart c then do
        let stop := skipWhile chars isIdentChar pos
        .ok (some (← slice chars pos stop), stop)
      else .ok (none, pos)
  | none => .ok (none, pos)

/-! ## Values -/

/-- What a character behind a backslash stands for. -/
def unescaped (c : Char) : List Char := if c = '"' || c = '\\' then [c] else ['\\', c]

/-- What stands between quotes from `pos` on, and the index behind the closing quote; `text` was
read before, and `start` is where the opening quote is. -/
def quotedFrom (start : Nat) (text : List Char) (pos : Nat) :
    Except Halt (List Char × Nat) :=
  match h : chars[pos]? with
  | none => refuse chars .unterminatedString start
  | some c =>
      if c = '"' then .ok (text, pos + 1)
      else if c = '\\' then
        match chars[pos + 1]? with
        | none => refuse chars .unterminatedString start
        | some d => quotedFrom start (text ++ unescaped d) (pos + 2)
      else quotedFrom start (text ++ [c]) (pos + 1)
termination_by chars.length - pos
decreasing_by
  all_goals
    have := lt_length_of_getElem? chars h
    omega

/-- The index of the parenthesis that closes one more than was opened, `depth` being open at `pos`
and `start` being where the value starts. -/
def bareEnd (start depth pos : Nat) : Except Halt Nat :=
  match h : chars[pos]? with
  | none => refuse chars .unterminatedValue start
  | some c =>
      if c = ')' then
        if depth = 0 then .ok pos
        else do
          let depth ← less depth
          bareEnd start depth (pos + 1)
      else if c = '(' then do
        let depth ← more chars depth
        bareEnd start depth (pos + 1)
      else bareEnd start depth (pos + 1)
termination_by chars.length - pos
decreasing_by
  all_goals
    have := lt_length_of_getElem? chars h
    omega

/-- The value from `pos` on, and the index behind it. -/
def value (pos : Nat) : Except Halt (String × Nat) := do
  let pos := skipWhile chars isBlank pos
  if chars[pos]? = some '"' then
    let start ← less (pos + 1)
    let (text, pos) ← quotedFrom chars start [] (pos + 1)
    .ok (String.ofList text, pos)
  else
    let stop ← bareEnd chars pos 0 pos
    .ok (String.ofList (trim (← slice chars pos stop)), stop)

/-! ## Arguments -/

/-- The value between parentheses behind an argument's name, if there are any. -/
def argumentValue (pos : Nat) : Except Halt (Option String × Nat) := do
  let pos := skipWhile chars isBlank pos
  if chars[pos]? = some '(' then
    let (text, pos) ← value chars (pos + 1)
    let pos := skipWhile chars isBlank pos
    if chars[pos]? = some ')' then .ok (some text, pos + 1)
    else refuse chars .unclosedArgument pos
  else .ok (none, pos)

/-- An argument behind blanks: its name, and its value if there is one. -/
def argument (pos : Nat) : Except Halt (RawArgument × Nat) := do
  let pos := skipWhile chars isBlank pos
  let (found, behind) ← name chars pos
  match found with
  | none => refuse chars .missingArgumentName behind
  | some found =>
      let (text, behind) ← argumentValue chars behind
      .ok (⟨String.ofList found, text, pos⟩, behind)

/-- Arguments between commas up to the closing parenthesis, less than `fuel` of them. -/
def argumentsWithin : Nat → Nat → Except Halt (List RawArgument × Nat)
  | 0, _ => .error .outOfFuel
  | fuel + 1, pos => do
      let (first, pos) ← argument chars pos
      let pos := skipWhile chars isBlank pos
      if chars[pos]? = some ',' then
        let (others, pos) ← argumentsWithin fuel (pos + 1)
        .ok (first :: others, pos)
      else if chars[pos]? = some ')' then .ok ([first], pos + 1)
      else refuse chars .unclosedArgumentList pos

/-- The arguments between parentheses, if there are any. -/
def argumentGroup (pos : Nat) : Except Halt (List RawArgument × Nat) :=
  let pos := skipWhile chars isBlank pos
  if chars[pos]? = some '(' then
    let pos := skipWhile chars isBlank (pos + 1)
    if chars[pos]? = some ')' then .ok ([], pos + 1)
    else argumentsWithin chars (chars.length + 1) pos
  else .ok ([], pos)

/-! ## Bodies -/

/-- The bind target behind a colon, or nothing at the end. -/
def target (pos : Nat) : Except Halt (Option String) := do
  let pos := skipWhile chars isBlank pos
  if chars[pos]? = some ':' then
    let text := trim (← slice chars (pos + 1) chars.length)
    if text.isEmpty then refuse chars .emptyTarget chars.length
    else .ok (some (String.ofList text))
  else if pos < chars.length then refuse chars .unexpectedCharacter pos
  else .ok none

/-- The body from `start` on. -/
def body (start : Nat) : Except Halt RawBody := do
  let pos := skipWhile chars isBlank start
  if chars.length ≤ pos then .error (.refused ⟨.emptyDeclaration, some start, none⟩)
  else
    let (found, behind) ← name chars pos
    let (arguments, behind) ← argumentGroup chars behind
    let target ← target chars behind
    .ok { type := found.map fun found => (String.ofList found, pos), arguments, target }

/-! ## Declarations -/

/-- The index of the bracket that ends a group, `depth` brackets being open at `pos`; `start` is
where the opening bracket is. -/
def groupEnd (start depth : Nat) (inString : Bool) (pos : Nat) : Except Halt Nat :=
  match h : chars[pos]? with
  | none => refuse chars .unclosedGroup start
  | some c =>
      if inString then
        if c = '\\' then
          match chars[pos + 1]? with
          | some _ => groupEnd start depth true (pos + 2)
          | none => groupEnd start depth true (pos + 1)
        else if c = '"' then groupEnd start depth false (pos + 1)
        else groupEnd start depth true (pos + 1)
      else if c = '"' then groupEnd start depth true (pos + 1)
      else if c = '[' then do
        let depth ← more chars depth
        groupEnd start depth false (pos + 1)
      else if c = ']' then
        if depth = 0 then less (pos + 1)
        else do
          let depth ← less depth
          groupEnd start depth false (pos + 1)
      else groupEnd start depth false (pos + 1)
termination_by chars.length - pos
decreasing_by
  all_goals
    have := lt_length_of_getElem? chars h
    omega

/-- The bracket groups from `pos` on, each with the index behind its opening bracket and that of its
closing one, less than `fuel` of them. -/
def groupsWithin : Nat → Nat → Except Halt (List (Nat × Nat))
  | 0, _ => .error .outOfFuel
  | fuel + 1, pos => do
      let pos := skipWhile chars isBlank pos
      match chars[pos]? with
      | none => .ok []
      | some c =>
          if c = '[' then
            let stop ← groupEnd chars pos 0 false (pos + 1)
            let others ← groupsWithin fuel (stop + 1)
            .ok ((pos + 1, stop) :: others)
          else refuse chars .textBehindGroups pos

/-- The body between two indices; it is read from a text that ends where the body does. -/
def bodyBetween (start stop : Nat) : Except Halt RawBody := do
  let chars ← slice chars 0 stop
  body chars start

/-- A declaration text taken apart. -/
def declaration : Except Halt RawDeclaration := do
  let start := skipWhile chars isBlank 0
  match expect chars ['I', 'N', 'P', 'U', 'T'] start with
  | none => refuse chars .missingStart start
  | some pos =>
      match ← groupsWithin chars (chars.length + 1) pos with
      | [] => refuse chars .missingStart start
      | [(start, stop)] => .ok ⟨none, ← bodyBetween chars start stop⟩
      | [(templateStart, templateStop), (start, stop)] =>
          let template := trim (← slice chars templateStart templateStop)
          if template.isEmpty then
            .error (.refused ⟨.emptyTemplateName, some templateStart, none⟩)
          else .ok ⟨some (String.ofList template), ← bodyBetween chars start stop⟩
      | _ => .error (.refused ⟨.tooManyGroups, none, none⟩)

end

end Walk

end BoundFields
