import Template.Helper

/-!
# Preambles

The helpers that a program needs, each once and in the order of first need. The
preamble grows while the program is generated and is declared in front of it.
-/

namespace Template

/-- How helpers are declared: loaded from a module, or by their sources. -/
inductive Linkage where
  | require
  | inline
  deriving DecidableEq, Repr

/-- The helpers needed so far, in the order of first need. -/
structure Preamble where
  helpers : List Helper := []
  deriving DecidableEq, Repr

/-- Append an entry unless the list holds it. -/
def appendNew {α : Type} [BEq α] (list : List α) (entry : α) : List α :=
  if list.contains entry then list else list ++ [entry]

namespace Preamble

/-- Whether a helper is needed. -/
def contains (preamble : Preamble) (helper : Helper) : Bool :=
  preamble.helpers.contains helper

/-- Note that a helper is needed. -/
def need (preamble : Preamble) (helper : Helper) : Preamble :=
  { helpers := appendNew preamble.helpers helper }

/-- A text without the slashes at its end. -/
def dropSlashes (text : String) : String :=
  String.ofList (text.toList.reverse.dropWhile (· == '/')).reverse

/-- The statement that loads a helper from a module. -/
def requireLine (module : String) (helper : Helper) : String :=
  "var " ++ helper.identifier ++ " = require('" ++ dropSlashes module ++ "/" ++ helper.file ++ "');"

/-- Append a helper after the helpers that it calls. -/
def appendAfterNeeds (ordered : List Helper) (helper : Helper) : List Helper :=
  appendNew (helper.dependencies.foldl appendNew ordered) helper

/-- The helpers in an order in which each comes after those it calls. -/
def inlineOrder (helpers : List Helper) : List Helper :=
  helpers.foldl appendAfterNeeds []

/-- The declarations of all helpers needed. -/
def declarations (preamble : Preamble) (mode : Linkage) (module : String) : List String :=
  match mode with
  | .require => preamble.helpers.map (requireLine module)
  | .inline => (inlineOrder preamble.helpers).map Helper.source

end Preamble

end Template
