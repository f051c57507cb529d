import Template.Json
import Template.Preamble

/-!
# Settings

How helpers are declared, the name of the index of iterations that name none, the
level of the log, and options that are handed to the target as they are.
-/

namespace Template

/-- The settings of a compilation. -/
structure Settings where
  module : String := "pugjsx/runtimes"
  mode : Linkage := .require
  indexName : String := "$index"
  level : String := "info"
  options : Json := .null

end Template
