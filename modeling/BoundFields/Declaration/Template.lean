import BoundFields.Declaration.Argument

/-!
# Templates

A template is a partial declaration with a name. A declaration that uses it keeps what it says
itself: an argument kind that it gives drops every template argument of that kind.
-/

set_option autoImplicit false

namespace BoundFields

/-- A template as it stands in the settings. -/
structure TemplateSource where
  name : String
  declaration : String
deriving DecidableEq, Repr, Inhabited

/-- A partial declaration with a name, and the text it was read from. -/
structure Template where
  name : String
  fieldType : Option FieldType
  arguments : List Argument
  target : Option String
  source : String
deriving DecidableEq, Repr

/-- The template's arguments of the kinds that `literal` does not give, then those of `literal`. -/
def Template.merge (t : Template) (literal : List Argument) : List Argument :=
  t.arguments.filter (fun a => !(literal.map (·.kind)).contains a.kind) ++ literal

/-- Templates by name, each name once. -/
structure TemplateTable where
  templates : List Template := []
deriving DecidableEq, Repr

namespace TemplateTable

/-- The template of a name. -/
def get? (table : TemplateTable) (name : String) : Option Template :=
  table.templates.find? (·.name = name)

/-- The table with one more template, unless its name is taken. -/
def insertNew (table : TemplateTable) (t : Template) : TemplateTable :=
  if (table.get? t.name).isSome then table else ⟨table.templates ++ [t]⟩

/-- The table that keeps the first template of each name. -/
def ofList (templates : List Template) : TemplateTable := templates.foldl insertNew {}

/-- The names, in order. -/
def names (table : TemplateTable) : List String :=
  (table.templates.map (·.name)).mergeSort fun a b => decide (a ≤ b)

/-- The number of templates. -/
def size (table : TemplateTable) : Nat := table.templates.length

end TemplateTable

end BoundFields
