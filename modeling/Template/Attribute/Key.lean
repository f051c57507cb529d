import Template.Text.Uppercase

/-!
# Attribute keys

The name of an attribute decides the property it becomes. Class attributes gather
in one property, `data-` and `aria-` attributes keep their names, `for` has a name
of its own, and every other name loses its hyphens.
-/

namespace Template

/-- The key that the name of an attribute stands for. -/
inductive AttributeKey where
  /-- A part of the class name. -/
  | classes
  /-- A property that is left out when its value is null. -/
  | data (name : String)
  /-- Any other property. -/
  | plain (name : String)
  deriving DecidableEq, Repr

namespace AttributeKey

/-- Drop hyphens and put the character after each into upper case, also the first
one if `raised` is set. -/
def raiseFrom (raised : Bool) : List Char → List Char
  | [] => []
  | char :: rest =>
    if char == '-' then raiseFrom true rest
    else (if raised then Text.uppercase char else [char]) ++ raiseFrom false rest

/-- A name with capitals in place of hyphens. -/
def raiseHyphens (name : String) : String :=
  String.ofList (raiseFrom false name.toList)

/-- The key of an attribute name. -/
def ofName (name : String) : AttributeKey :=
  if name == "class" || name == "className" then .classes
  else if name == "for" then .plain "htmlFor"
  else if "data-".toList.isPrefixOf name.toList then .data name
  else if "aria-".toList.isPrefixOf name.toList then .plain name
  else if name.toList.contains '-' then .plain (raiseHyphens name)
  else .plain name

end AttributeKey

end Template
