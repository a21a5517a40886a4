import BoundFields.Yaml.Token.Stream

/-!
# Events

A document as the list of its nodes in the order of the text: scalars, aliases, and the starts and
ends of collections. `Event.document?` reads the one document that a token list holds.
-/

set_option autoImplicit false

namespace BoundFields.Yaml

/-- The anchor and the full tag before a node. -/
structure Properties where
  anchor : Option String := none
  tag : Option TagBytes := none
deriving DecidableEq, Repr

/-- A part of a document: a scalar, an alias, or the start or end of a collection. -/
inductive Event where
  | alias (name : String)
  | scalar (properties : Properties) (written : Written) (text : List Char)
  | sequenceStart (properties : Properties)
  | sequenceEnd
  | mappingStart (properties : Properties)
  | mappingEnd
deriving DecidableEq, Repr

namespace Event

/-- A node that is not there. -/
def missing : Event := .scalar {} .bare []

/-- What tag handles stand for, the directives of the document first. -/
abbrev TagHandles := List (String × TagBytes)

/-- The handles that need no directive. -/
def defaultHandles : TagHandles := [("!", .ofText "!"), ("!!", .ofText "tag:yaml.org,2002:")]

/-- The full tag with a handle and an ending. -/
def fullTag (handles : TagHandles) (handle : String) (ending : TagBytes) :
    Except Error TagBytes :=
  if handle.isEmpty then .ok ending
  else match handles.lookup handle with
    | some start => .ok (start ++ ending)
    | none => .error .badTag

/-- The anchor and the tag before a node, in either order. -/
def readProperties (handles : TagHandles) : List Token → Except Error (Properties × List Token)
  | .anchor a :: .tag h e :: ts => do return (⟨some a, some (← fullTag handles h e)⟩, ts)
  | .anchor a :: ts => .ok (⟨some a, none⟩, ts)
  | .tag h e :: .anchor a :: ts => do return (⟨some a, some (← fullTag handles h e)⟩, ts)
  | .tag h e :: ts => do return (⟨none, some (← fullTag handles h e)⟩, ts)
  | ts => .ok ({}, ts)

/-- Whether the list goes on with one of the tokens that mean a node is not there. -/
def startsWith (stops : List Token) : List Token → Bool
  | t :: _ => stops.contains t
  | [] => true

/-- Events with the tokens left behind them. -/
abbrev Read := Except Error (List Event × List Token)

mutual

/-- A node. Within brackets (`inBlock` false) there are no blocks; under a key, the items of a
sequence may stand in the column of the key (`underKey`). -/
def node (handles : TagHandles) : Nat → Bool → Bool → List Token → Read
  | 0, _, _, _ => .error .tooDeep
  | fuel + 1, inBlock, underKey, tokens =>
      match tokens with
      | .alias name :: ts => .ok ([.alias name], ts)
      | tokens => do
          let (properties, ts) ← readProperties handles tokens
          match ts with
          | .scalar written text :: ts => return ([.scalar properties written text], ts)
          | .flowSequenceStart :: ts => do
              let (items, ts) ← flowItems handles fuel true ts
              return (.sequenceStart properties :: items, ts)
          | .flowMappingStart :: ts => do
              let (entries, ts) ← flowEntries handles fuel true ts
              return (.mappingStart properties :: entries, ts)
          | ts =>
              -- Items in the column of their key come without a token that opens a block.
              if underKey && startsWith [.blockEntry] ts && !ts.isEmpty then do
                let (items, ts) ← bareItems handles fuel ts
                return (.sequenceStart properties :: items, ts)
              else match inBlock, ts with
                | true, .blockSequenceStart :: ts => do
                    let (items, ts) ← blockItems handles fuel ts
                    return (.sequenceStart properties :: items, ts)
                | true, .blockMappingStart :: ts => do
                    let (entries, ts) ← blockEntries handles fuel ts
                    return (.mappingStart properties :: entries, ts)
                | _, ts =>
                    if properties = {} then throw .unexpectedPart
                    else return ([.scalar properties .bare []], ts)

/-- A node, or a missing one before any of the tokens `stops`. -/
def nodeUnless (handles : TagHandles) :
    Nat → List Token → Bool → Bool → List Token → Read
  | 0, _, _, _, _ => .error .tooDeep
  | fuel + 1, stops, inBlock, underKey, ts =>
      if startsWith stops ts then .ok ([missing], ts) else node handles fuel inBlock underKey ts

/-- The items of a block sequence, up to the end of the block. -/
def blockItems (handles : TagHandles) : Nat → List Token → Read
  | 0, _ => .error .tooDeep
  | fuel + 1, tokens =>
      match tokens with
      | .blockEntry :: ts => do
          let (item, ts) ← nodeUnless handles fuel [.blockEntry, .blockEnd] true false ts
          let (items, ts) ← blockItems handles fuel ts
          return (item ++ items, ts)
      | .blockEnd :: ts => .ok ([.sequenceEnd], ts)
      | _ => .error .unexpectedPart

/-- The items of a sequence in the column of its key, up to the next token that is no item. -/
def bareItems (handles : TagHandles) : Nat → List Token → Read
  | 0, _ => .error .tooDeep
  | fuel + 1, tokens =>
      match tokens with
      | .blockEntry :: ts => do
          let (item, ts) ←
            nodeUnless handles fuel [.blockEntry, .key, .value, .blockEnd] true false ts
          let (items, ts) ← bareItems handles fuel ts
          return (item ++ items, ts)
      | ts => .ok ([.sequenceEnd], ts)

/-- The entries of a block mapping, up to the end of the block. -/
def blockEntries (handles : TagHandles) : Nat → List Token → Read
  | 0, _ => .error .tooDeep
  | fuel + 1, tokens =>
      match tokens with
      | .key :: ts => do
          let (key, ts) ← nodeUnless handles fuel [.key, .value, .blockEnd] true true ts
          let (value, ts) ← match ts with
            | .value :: ts => nodeUnless handles fuel [.key, .value, .blockEnd] true true ts
            | ts => pure ([missing], ts)
          let (entries, ts) ← blockEntries handles fuel ts
          return (key ++ value ++ entries, ts)
      | .blockEnd :: ts => .ok ([.mappingEnd], ts)
      | _ => .error .unexpectedPart

/-- The items of a sequence in brackets; behind the first one a comma comes first. -/
def flowItems (handles : TagHandles) : Nat → Bool → List Token → Read
  | 0, _, _ => .error .tooDeep
  | fuel + 1, isFirst, tokens => do
      let tokens ← match isFirst, tokens with
        | true, ts => pure ts
        | false, .flowEntry :: ts => pure ts
        | false, .flowSequenceEnd :: ts => pure (.flowSequenceEnd :: ts)
        | false, _ => throw .unexpectedPart
      match tokens with
      | .flowSequenceEnd :: ts => return ([.sequenceEnd], ts)
      | .key :: ts => do
          let (entry, ts) ← singleEntry handles fuel ts
          let (items, ts) ← flowItems handles fuel false ts
          return (.mappingStart {} :: entry ++ .mappingEnd :: items, ts)
      | ts => do
          let (item, ts) ← node handles fuel false false ts
          let (items, ts) ← flowItems handles fuel false ts
          return (item ++ items, ts)

/-- The entry of a mapping that is an item of a sequence in brackets. Where its key is not there,
the token behind the key mark is passed over. -/
def singleEntry (handles : TagHandles) : Nat → List Token → Read
  | 0, _ => .error .tooDeep
  | fuel + 1, tokens => do
      let (key, ts) ←
        if startsWith [.value, .flowEntry, .flowSequenceEnd] tokens then
          pure ([missing], tokens.drop 1)
        else node handles fuel false false tokens
      let (value, ts) ← match ts with
        | .value :: ts => nodeUnless handles fuel [.flowEntry, .flowSequenceEnd] false false ts
        | ts => pure ([missing], ts)
      return (key ++ value, ts)

/-- The entries of a mapping in braces; behind the first one a comma comes first. -/
def flowEntries (handles : TagHandles) : Nat → Bool → List Token → Read
  | 0, _, _ => .error .tooDeep
  | fuel + 1, isFirst, tokens => do
      let tokens ← match isFirst, tokens with
        | true, ts => pure ts
        | false, .flowEntry :: ts => pure ts
        | false, .flowMappingEnd :: ts => pure (.flowMappingEnd :: ts)
        | false, _ => throw .unexpectedPart
      match tokens with
      | .flowMappingEnd :: ts => return ([.mappingEnd], ts)
      | .key :: ts => do
          let (key, ts) ←
            nodeUnless handles fuel [.value, .flowEntry, .flowMappingEnd] false false ts
          let (value, ts) ← match ts with
            | .value :: ts => nodeUnless handles fuel [.flowEntry, .flowMappingEnd] false false ts
            | ts => pure ([missing], ts)
          let (entries, ts) ← flowEntries handles fuel false ts
          return (key ++ value ++ entries, ts)
      | ts => do
          let (key, ts) ← node handles fuel false false ts
          let (entries, ts) ← flowEntries handles fuel false ts
          return (key ++ missing :: entries, ts)

end

/-- The directives before a document: a version at most once, and a tag handle at most once. -/
def readDirectives : Bool → TagHandles → List Token → Except Error (TagHandles × List Token)
  | hasVersion, handles, .versionDirective major minor :: ts =>
      if hasVersion || major ≠ 1 || (minor ≠ 1 && minor ≠ 2) then .error .badDirective
      else readDirectives true handles ts
  | hasVersion, handles, .tagDirective handle start :: ts =>
      if (handles.lookup handle).isSome then .error .badDirective
      else readDirectives hasVersion (handles ++ [(handle, start)]) ts
  | _, handles, ts => .ok (handles, ts)

/-- The root node of a document behind its start. -/
def root (handles : TagHandles) (tokens : List Token) : Read :=
  let isOver : Bool := match tokens with
    | .versionDirective .. :: _ | .tagDirective .. :: _ | .documentStart :: _ | .documentEnd :: _
    | .streamEnd :: _ => true
    | _ => false
  if isOver then .ok ([missing], tokens)
  else node handles (4 * tokens.length + 4) true false tokens

/-- The events of the only document of a token list; `none` if it has no document at all. -/
def document? : List Token → Except Error (Option (List Event))
  | [.streamEnd] => .ok none
  | tokens => do
      let isExplicit : Bool := match tokens with
        | .versionDirective .. :: _ | .tagDirective .. :: _ | .documentStart :: _ => true
        | _ => false
      let (events, ts) ←
        if isExplicit then do
          let (handles, ts) ← readDirectives false [] tokens
          match ts with
          | .documentStart :: ts => root (handles ++ defaultHandles) ts
          | _ => throw .unexpectedPart
        else node defaultHandles (4 * tokens.length + 4) true false tokens
      match ts.dropWhile (· = .documentEnd) with
      | [.streamEnd] => return some events
      | _ => throw .severalDocuments

end Event

end BoundFields.Yaml
