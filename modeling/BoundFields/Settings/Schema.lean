import BoundFields.JsonValue
import BoundFields.Settings.Basic

/-!
# The schema of the settings

A description of the settings file for editors that complete and check it.
-/

set_option autoImplicit false

namespace BoundFields.Settings

/-- The schema of the list of templates. -/
def templatesSchema : JsonValue :=
  let types := Text.commaJoined (FieldType.all.map (·.name))
  let arguments := Text.commaJoined (ArgumentKind.all.map (·.name))
  let declaration := JsonValue.object
    [("description", .string "Declaration text the template expands to"),
      ("pattern", .string "^\\s*INPUT\\["),
      ("type", .string "string")]
  let name := JsonValue.object
    [("description", .string "Name used in INPUT[name][...]"),
      ("minLength", .natural 1),
      ("type", .string "string")]
  .object
    [("description",
        .string s!"Named declaration templates. Types: {types}. Arguments: {arguments}."),
      ("items", .object
        [("additionalProperties", .bool false),
          ("properties", .object [("declaration", declaration), ("name", name)]),
          ("required", .ofTexts ["name", "declaration"]),
          ("type", .string "object")]),
      ("type", .string "array")]

/-- The schema of the settings, the entries of every object in the order of their keys. -/
def schema : JsonValue :=
  let dateFormat := JsonValue.object
    [("default", .string defaultDateFormat),
      ("description", .string "chrono strftime format for date arguments and date controls"),
      ("type", .string "string")]
  let devMode := JsonValue.object
    [("default", .bool false),
      ("description", .string "Enable developer diagnostics"),
      ("type", .string "boolean")]
  .object
    [("$schema", .string "http://json-schema.org/draft-07/schema#"),
      ("additionalProperties", .bool false),
      ("description", .string "Settings for inline input field declarations"),
      ("properties", .object
        [("date_format", dateFormat), ("dev_mode", devMode),
          ("input_templates", templatesSchema)]),
      ("title", .string "metabind settings"),
      ("type", .string "object")]

end BoundFields.Settings
