import BoundFields.Yaml.Event

/-!
# Documents

A document with the nodes that its aliases stand for. Every anchor has a number, an alias that of
the last anchor of its name before it. An anchor gets as its number the count of names in use, so
a name used again may share its number with a later anchor; the last anchor of a number counts.
-/

set_option autoImplicit false

namespace BoundFields.Yaml

/-- The events of a document; `anchored` holds, by number, the events from an anchored node on,
last anchor first, and aliases are numbers. -/
inductive Item where
  | alias (number : Nat)
  | scalar (tag : Option TagBytes) (written : Written) (text : List Char)
  | sequenceStart (tag : Option TagBytes)
  | sequenceEnd
  | mappingStart (tag : Option TagBytes)
  | mappingEnd
deriving DecidableEq, Repr

/-- A document as its events, and what its anchors stand for. -/
structure Document where
  items : List Item
  anchored : List (Nat × List Item)

namespace Document

/-- The anchors' names with their numbers, once `anchor` is met. -/
def addAnchor (names : List (String × Nat)) (anchor : Option String) : List (String × Nat) :=
  match anchor with
  | none => names
  | some name => (name, names.length) :: names.filter (·.1 ≠ name)

/-- The document of a list of events, given the names in use. -/
def ofEvents (names : List (String × Nat)) : List Event → Except Error Document
  | [] => .ok ⟨[], []⟩
  | event :: events => do
      let (anchor, item) : Option String × Item ← match event with
        | .alias name => match names.lookup name with
            | some number => pure (none, .alias number)
            | none => throw .unknownAlias
        | .scalar p written text => pure (p.anchor, .scalar p.tag written text)
        | .sequenceStart p => pure (p.anchor, .sequenceStart p.tag)
        | .sequenceEnd => pure (none, .sequenceEnd)
        | .mappingStart p => pure (p.anchor, .mappingStart p.tag)
        | .mappingEnd => pure (none, .mappingEnd)
      -- The events behind this one see its anchor, and a later anchor of the same number wins.
      let rest ← ofEvents (addAnchor names anchor) events
      let items := item :: rest.items
      let anchored := match anchor with
        | some _ =>
            if (rest.anchored.lookup names.length).isSome then rest.anchored
            else (names.length, items) :: rest.anchored
        | none => rest.anchored
      return ⟨items, anchored⟩

/-- The only document of a text; `none` if the text has none. -/
def ofText? (text : String) : Except Error (Option Document) := do
  match ← Event.document? (← Token.ofText text.toList) with
  | some events => return some (← ofEvents [] events)
  | none => return none

end Document

/-! ## Reading nodes -/

/-- What is left to read, and how many aliases have been followed. -/
structure Progress where
  items : List Item
  jumps : Nat := 0

/-- A reader of nodes of a document. -/
abbrev NodeReader := ReaderT Document (StateT Progress (Except Error))

namespace NodeReader

/-- The next item. -/
def next : NodeReader Item := do
  match (← get).items with
  | item :: items =>
      modify fun p => { p with items }
      return item
  | [] => throw .unexpectedPart

/-- Reads the node that an alias stands for; each item may be an alias a hundred times over. -/
def follow {α : Type} (number : Nat) (read : NodeReader α) : NodeReader α := do
  let document ← (ReaderT.read : NodeReader Document)
  let p ← get
  if 100 * document.items.length < p.jumps + 1 then
    throw .tooManyAliases
  match document.anchored.lookup number with
  | none => throw .unknownAlias
  | some items =>
      set ({ items, jumps := p.jumps + 1 } : Progress)
      -- The node is read where its anchor stands; reading then goes on behind the alias.
      let result ← read
      modify fun q => { q with items := p.items }
      return result

/-- What is left of a list of items behind its first node, `depth` collections being open. -/
def dropNode : Nat → List Item → List Item
  | _, [] => []
  | depth, .sequenceStart _ :: items | depth, .mappingStart _ :: items =>
      dropNode (depth + 1) items
  | depth, .sequenceEnd :: items | depth, .mappingEnd :: items =>
      if depth ≤ 1 then items else dropNode (depth - 1) items
  | depth, _ :: items => if depth = 0 then items else dropNode depth items

/-- Passes over a node. -/
def skipNode : NodeReader Unit := modify fun p => { p with items := dropNode 0 p.items }

/-- The text of a scalar, however it was written. -/
def text (fuel : Nat) : NodeReader String := do
  match ← next with
  | .scalar _ _ cs => return String.ofList cs
  | .alias number =>
      match fuel with
      | 0 => throw .tooDeep
      | fuel + 1 => follow number (text fuel)
  | _ => throw .unexpectedShape

end NodeReader

end BoundFields.Yaml
