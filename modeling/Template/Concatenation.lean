import Template.Text.Quoted

/-!
# Concatenations

The argument of a text sentinel: literal terms and expressions in order, whose
values are concatenated into one string. A literal at the end grows when characters
are appended, so that no two literals stand side by side and none is empty.
-/

namespace Template

/-- A term of a concatenation: characters as they are, or the source of an
expression. -/
inductive Term where
  | literal (text : String)
  | expr (source : String)
  deriving DecidableEq, Repr

/-- Terms in order. A coerced concatenation is a string even when it is a single
expression. -/
structure Concatenation where
  terms : List Term := []
  coerced : Bool := false
  deriving DecidableEq, Repr

namespace Term

/-- Whether a term is an expression. -/
def isExpr : Term → Bool
  | .expr _ => true
  | .literal _ => false

/-- The source of a term among others. -/
def render : Term → String
  | .literal text => Text.quote text
  | .expr source => "(" ++ source ++ ")"

/-- Append characters to a list of terms, extending a literal it ends with. -/
def append (text : String) : List Term → List Term
  | [] => [.literal text]
  | [.literal last] => [.literal (last ++ text)]
  | term :: rest => term :: append text rest

end Term

namespace Concatenation

/-- The concatenation of nothing, as a string. -/
def start : Concatenation := { coerced := true }

/-- The concatenation of one expression, which keeps its type. -/
def ofExpr (source : String) : Concatenation := { terms := [.expr source] }

/-- Append characters; the empty string adds nothing. -/
def appendText (concatenation : Concatenation) (text : String) : Concatenation :=
  if text.isEmpty then concatenation
  else { concatenation with terms := Term.append text concatenation.terms }

/-- Append an expression. -/
def appendExpr (concatenation : Concatenation) (source : String) : Concatenation :=
  { concatenation with terms := concatenation.terms ++ [.expr source] }

/-- The concatenation of some characters. -/
def ofText (text : String) : Concatenation := appendText {} text

/-- Whether there are no terms. -/
def isEmpty (concatenation : Concatenation) : Bool := concatenation.terms.isEmpty

/-- The source of a concatenation. It starts with a string wherever its value has to
be one. -/
def render (concatenation : Concatenation) : String :=
  match concatenation.terms, concatenation.coerced with
  | [], _ => Text.quote ""
  | [.literal text], _ => Text.quote text
  | [.expr source], false => source
  | first :: rest, _ =>
      let sources := (first :: rest).map Term.render
      " + ".intercalate (if first.isExpr then Text.quote "" :: sources else sources)

end Concatenation

end Template
