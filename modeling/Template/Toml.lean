import Template.Json

/-!
# TOML values

The values of a TOML document. A date or time is kept as its normalised text.
-/

namespace Template

/-- A TOML value. -/
inductive Toml where
  | string (value : String)
  | integer (value : Int)
  | float (value : Double)
  | nan
  | boolean (value : Bool)
  | dateTime (text : String)
  | array (items : List Toml)
  | table (entries : List (String × Toml))
  deriving Repr

namespace Toml

/-- The string that a value is. -/
def string? : Toml → Option String
  | .string value => some value
  | _ => none

/-- The name of the one member by which JSON holds a date or time. -/
def dateTimeKey : String := "$__toml_private_datetime"

mutual

/-- A value as JSON, which has no place for NaN and the infinities. -/
def json : Toml → Json
  | .string value => .string value
  | .integer value => .integer value
  | .float value => if value.isFinite then .float value else .null
  | .nan => .null
  | .boolean value => .boolean value
  | .dateTime text => .object [(dateTimeKey, .string text)]
  | .array items => .array (jsonItems items)
  | .table entries => .object (jsonEntries entries)

/-- The items of an array as JSON. -/
def jsonItems : List Toml → List Json
  | [] => []
  | item :: rest => item.json :: jsonItems rest

/-- The entries of a table as JSON. -/
def jsonEntries : List (String × Toml) → List (String × Json)
  | [] => []
  | (key, value) :: rest => (key, value.json) :: jsonEntries rest

end

end Toml

end Template
