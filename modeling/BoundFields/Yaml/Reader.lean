import BoundFields.Yaml.Document

/-!
# Reading metadata

The value of a document. A bare scalar has the meaning of its text; a tag of one's own stays with
the value, and the common tags for truth values, numbers and null decide what a scalar is. A key
may occur only once in a mapping.
-/

set_option autoImplicit false

namespace BoundFields.Yaml

/-- How many collections may lie within each other. -/
def deepest : Nat := 128

/-- The name of a tag without its exclamation mark; a lone one stays. -/
def tagName (cs : List Char) : String :=
  match cs with
  | '!' :: c :: rest => String.ofList (c :: rest)
  | cs => String.ofList cs

/-- Whether a tag is one of one's own, by its exclamation mark. -/
def isOwn (tag : TagBytes) : Bool := tag.head? = some '!'.toUInt8

/-- The name of a tag that is not one of the common ones; a tag that is no text has none. -/
def ownTag? (tag : Option TagBytes) : Option String :=
  (tag.filter isOwn).bind fun tag =>
    tag.text?.map fun text =>
      match text.toList with
      | '!' :: c :: rest => tagName (c :: rest)
      | cs => tagName cs

/-- A common tag, `name` being its last part. -/
def commonTag (name : String) : TagBytes := .ofText ("tag:yaml.org,2002:" ++ name)

/-- The value of a bare scalar. -/
def bareValue (cs : List Char) : Except Error Value :=
  match Plain.ofText cs with
  | .null => .ok .null
  | .bool b => .ok (.bool b)
  | .number n => .ok (.number n)
  | .hugeInteger => .error .badScalar
  | .text => .ok (.string (String.ofList cs))

/-- The value of a scalar under a tag that has no name of its own. -/
def scalarValue (tag : Option TagBytes) (written : Written) (cs : List Char) : Except Error Value :=
  let plainOr (other : Value) : Except Error Value :=
    if written = .bare then bareValue cs else .ok other
  let text := Value.string (String.ofList cs)
  match tag with
  | none => plainOr text
  | some tag =>
      if tag = commonTag "bool" then
        match Plain.boolOfWord? cs with
        | some b => .ok (.bool b)
        | none => .error .badScalar
      else if tag = commonTag "int" then
        match (Plain.integer? cs).bind Plain.ofInteger? with
        | some (.number n) => .ok (.number n)
        | _ => .error .badScalar
      else if tag = commonTag "float" then
        match Plain.float? cs with
        | some d => .ok (.number (.float d))
        | none => .error .badScalar
      else if tag = commonTag "null" then
        if Plain.isNullWord cs then .ok .null else .error .badScalar
      else if isOwn tag then plainOr text
      else .ok text

/-- A value under a tag, if it has one. -/
def underTag (tag : Option TagBytes) (v : Value) : Value :=
  match ownTag? tag with
  | some name => .tagged name v
  | none => v

open NodeReader

mutual

/-- The value of the next node, in which `depth` collections may lie within each other. -/
def readValue : Nat → Nat → NodeReader Value
  | 0, _ => throw .tooDeep
  | fuel + 1, depth => do
      match ← next with
      | .alias number => follow number (readValue fuel depth)
      | .scalar tag written cs =>
          match ownTag? tag with
          | some name => return .tagged name (← (scalarValue none written cs : Except Error Value))
          | none => scalarValue tag written cs
      | .sequenceStart tag =>
          if depth = 0 then
            throw .tooDeep
          return underTag tag (.sequence (← readItems fuel (depth - 1)))
      | .mappingStart tag =>
          if depth = 0 then
            throw .tooDeep
          return underTag tag (.mapping (← readEntries fuel (depth - 1) []))
      | .sequenceEnd | .mappingEnd => throw .unexpectedPart

/-- The values up to the end of a sequence. -/
def readItems : Nat → Nat → NodeReader (List Value)
  | 0, _ => throw .tooDeep
  | fuel + 1, depth => do
      match (← get).items with
      | .sequenceEnd :: items =>
          modify fun p => { p with items }
          return []
      | _ => return (← readValue fuel depth) :: (← readItems fuel depth)

/-- The entries up to the end of a mapping, behind the entries `done`. -/
def readEntries : Nat → Nat → List (Value × Value) → NodeReader (List (Value × Value))
  | 0, _, _ => throw .tooDeep
  | fuel + 1, depth, done => do
      match (← get).items with
      | .mappingEnd :: items =>
          modify fun p => { p with items }
          return done
      | _ =>
          let key ← readValue fuel depth
          -- A key is looked up before its value is read.
          if (Value.lookup? key done).isSome then
            throw .repeatedKey
          let value ← readValue fuel depth
          readEntries fuel depth (done ++ [(key, value)])

end

/-- Runs a reader on a whole document. The readers here go down one level of `deepest`, or on by
one item of the document or of an alias in it, with every step of their fuel. -/
def Document.read {α : Type} (d : Document) (reader : Nat → NodeReader α) : Except Error α :=
  ((reader ((deepest + 2) * (d.items.length + 4))).run d |>.run { items := d.items }).map (·.1)

end BoundFields.Yaml

namespace BoundFields

/-- The value of a text; a text without any node is null. -/
def Value.ofText (text : String) : Except Yaml.Error Value := do
  match ← Yaml.Document.ofText? text with
  | none => return .null
  | some document => document.read fun fuel => Yaml.readValue fuel Yaml.deepest

end BoundFields
