import Template.Settings
import Template.Toml.Reader

/-!
# Reading settings

Settings are read from a TOML document. Keys that are not known are ignored, what is
missing has its default, and a value of the wrong type is refused. The tables
`runtime` and `log` may also be arrays of their fields in order.
-/

namespace Template.Settings

/-- The fields of a table or of an array that stands for one, in the order of their
names; what is missing is `none`. A date or time counts as a table without them. -/
def fields? (names : List String) : Toml → Option (List (Option Toml))
  | .table entries => some (names.map fun name => entries.lookup name)
  | .array items => some ((List.range names.length).map fun index => items[index]?)
  | .dateTime _ => some (names.map fun _ => none)
  | _ => none

/-- Read a field that has a default. -/
def field {α : Type} (read : Toml → Option α) (default : α) : Option Toml → Option α
  | none => some default
  | some value => read value

/-- The mode with a name. -/
def modeOfName? (name : String) : Option Linkage :=
  if name == "require" then some .require
  else if name == "inline" then some .inline
  else none

/-- Whether a value is an empty table or array. -/
def isUnit : Toml → Bool
  | .table entries => entries.isEmpty
  | .array items => items.isEmpty
  | _ => false

/-- Read a mode, which is a name or a table with the name as its only key. -/
def mode? : Toml → Option Linkage
  | .string name => modeOfName? name
  | .table [(name, value)] => if isUnit value then modeOfName? name else none
  | _ => none

/-- Read the fields that say how helpers are declared and indices are named. -/
def withRuntime (settings : Settings) : Option Toml → Option Settings
  | none => some settings
  | some value => do
    match ← fields? ["module", "mode", "index_name"] value with
    | [module, mode, indexName] =>
        return { settings with
          module := ← field Toml.string? settings.module module
          mode := ← field mode? settings.mode mode
          indexName := ← field Toml.string? settings.indexName indexName }
    | _ => none

/-- Read the level of the log. -/
def withLog (settings : Settings) : Option Toml → Option Settings
  | none => some settings
  | some value => do
    match ← fields? ["level"] value with
    | [level] => return { settings with level := ← field Toml.string? settings.level level }
    | _ => none

/-- Read settings from the value of a document. -/
def ofToml? : Toml → Option Settings
  | .table entries => do
      let settings ← withRuntime {} (entries.lookup "runtime")
      let settings ← withLog settings (entries.lookup "log")
      return { settings with
        options := (entries.lookup "options").elim settings.options Toml.json }
  | _ => none

/-- Read settings from a text. -/
def parse? (text : String) : Option Settings := (Toml.parse? text).bind ofToml?

end Template.Settings
