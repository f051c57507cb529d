import Template.Helper
import Template.Program

/-!
# The source of attributes

Object literals with quoted keys, calls of the class helper for the dynamic terms
of a class name, and calls of the merging helper.
-/

namespace Template

/-- The source of a term of a class name. -/
def ClassTerm.render : ClassTerm → String
  | .static name => Text.quote name
  | .dynamic source => Helper.join.identifier ++ "(" ++ source ++ ")"

/-- The value of a property; the terms of a class name are joined by spaces. -/
def PropertyValue.render : PropertyValue → String
  | .source code => code
  | .classes terms => " + \" \" + ".intercalate (terms.map ClassTerm.render)

/-- A property with its quoted key. -/
def renderProperty (key : String) (value : PropertyValue) : String :=
  Text.quote key ++ ": " ++ value.render

/-- An object literal on one line. -/
def ObjectLiteral.render (object : ObjectLiteral) : String :=
  let props := object.props.map fun (key, value) => renderProperty key value
  "\x7b" ++ ", ".intercalate props ++ "\x7d"

/-- An argument of the merging helper. -/
def MergeArgument.render : MergeArgument → String
  | .object literal => literal.render
  | .source code => code

/-- Attributes as an expression. -/
def Attributes.render : Attributes → String
  | .object literal => literal.render
  | .merge arguments =>
      Helper.merge.identifier ++ "(" ++ ", ".intercalate (arguments.map MergeArgument.render) ++ ")"

/-- Attributes that may be missing, which is spelled `null`. -/
def renderAttributes : Option Attributes → String
  | none => "null"
  | some attributes => attributes.render

end Template
