import BoundFields.JsonValue
import BoundFields.Scan
import BoundFields.Sync.Renderer

/-!
# Structured forms

Declarations, views and what was found in a document as trees for structured output. What is not
there is left out, except the value of an argument.
-/

set_option autoImplicit false

namespace BoundFields

open JsonValue

/-- The value of an argument; that of a flag is null. -/
def ArgumentValue.toJson : ArgumentValue → JsonValue
  | .flag => .null
  | .number n => .number n
  | .text s => .string s
  | .date d => .string d.iso

/-- An argument, with its text as it was written if there was one. -/
def Argument.toJson (a : Argument) : JsonValue :=
  .object ([("kind", .string a.kind.name), ("value", a.value.toJson)]
    ++ entryOf? "raw" (a.raw.map .string))

/-- A declaration, in the order of its fields. -/
def Declaration.toJson (d : Declaration) : JsonValue :=
  .object ([("field_type", .string d.fieldType.name),
      ("arguments", .array (d.arguments.map (·.toJson))), ("is_bound", .bool d.isBound)]
    ++ entryOf? "bind_target" (d.target.map .string)
    ++ entryOf? "template_name" (d.templateName.map .string))

/-- A list of texts, unless it is empty. -/
def nonEmptyTexts? (items : List String) : Option JsonValue :=
  if items.isEmpty then none else some (.ofTexts items)

/-- What a control looks like, without the lists that are empty. -/
def View.toJson (v : View) : JsonValue :=
  .object ([("kind", .string v.type.name)] ++ entryOf? "label" (v.label.map .string)
    ++ entryOf? "classes" (nonEmptyTexts? v.classes) ++ [("align_right", .bool v.alignRight)]
    ++ entryOf? "options" (nonEmptyTexts? v.options) ++ [("display", .string v.display)])

/-- A live field by its view, or a placeholder. -/
def Rendered.toJson : Rendered → JsonValue
  | .live field => .object [("live", field.view.toJson)]
  | .placeholder message source =>
      .object [("error", .object [("message", .string message), ("source", .string source)])]

/-- The name of a way of embedding. -/
def SiteKind.name : SiteKind → String
  | .inline => "inline"
  | .codeBlock => "code_block"

/-- A declaration of a document, and what it was rendered as. -/
def foundToJson (found : Site × Rendered) : JsonValue :=
  .object [("text", .string found.1.text), ("kind", .string found.1.kind.name),
    ("line", .natural found.1.line), ("outcome", found.2.toJson)]

/-- A template, the entries in the order of their keys. -/
def Template.toJson (t : Template) : JsonValue :=
  .object [("declaration", .string t.source), ("field_type", ofText? (t.fieldType.map (·.name))),
    ("name", .string t.name)]

end BoundFields
