import Template.Attribute.Key
import Template.ClassList
import Template.Fragment
import Template.Node
import Template.Preamble
import Template.Program

/-!
# Compiling attributes

The attributes of a tag become one object literal in which all class attributes
share the last property. Class names that are literals are evaluated at once; the
others, and attribute blocks, need helpers, which are noted in the preamble.
-/

namespace Template

namespace ClassTerm

/-- The term that one element of a class list becomes. Blank literals disappear
and a source that is no literal is left to the class helper. -/
def ofElement (source : String) : StateM Preamble (List ClassTerm) :=
  match Literal.read? source with
  | some literal =>
      if literal.isBlank then pure []
      else
        let name := Json.joinClasses [literal.value]
        pure (if (Text.strip name.toList).isEmpty then [] else [.static name])
  | none => do
      modify (·.need .join)
      pure [.dynamic (Text.trim source)]

/-- The terms of several elements in order. -/
def ofElements : List String → StateM Preamble (List ClassTerm)
  | [] => pure []
  | source :: rest => do
      let first ← ofElement source
      let others ← ofElements rest
      pure (first ++ others)

/-- The terms of a class attribute: those of its elements if it is an array
literal, and of the whole source otherwise. -/
def ofSource (source : String) : StateM Preamble (List ClassTerm) :=
  match Fragment.arrayElements? source with
  | some elements => ofElements elements
  | none => ofElement source

end ClassTerm

namespace Attributes

/-- Whether a source is spelled like a null value. -/
def isNullSource (source : String) : Bool :=
  let bare := Text.trim source
  bare == "null" || bare == "undefined" || bare == "\"null\"" || bare == "'null'"

/-- The properties and the class terms of attributes, each in order. A `data-`
attribute with a null value is left out. -/
def entries : List Attribute → StateM Preamble (List (String × PropertyValue) × List ClassTerm)
  | [] => pure ([], [])
  | first :: rest => do
    let source := first.value.text
    match AttributeKey.ofName first.name with
    | .classes =>
        let front ← ClassTerm.ofSource source
        let (props, terms) ← entries rest
        pure (props, front ++ terms)
    | .data key =>
        let (props, terms) ← entries rest
        pure (if isNullSource source then props else (key, .source source) :: props, terms)
    | .plain key =>
        let (props, terms) ← entries rest
        pure ((key, .source source) :: props, terms)

/-- The property that holds the class name. -/
def classProperty : String := "className"

/-- The object literal of attributes, with the class name at its end. -/
def objectOf (attributes : List Attribute) : StateM Preamble ObjectLiteral := do
  let (props, terms) ← entries attributes
  pure { props := if terms.isEmpty then props else props ++ [(classProperty, .classes terms)] }

/-- The object literal of attributes as an argument, if there are attributes. -/
def leadingObject (attributes : List Attribute) : StateM Preamble (List MergeArgument) :=
  if attributes.isEmpty then pure [] else return [.object (← objectOf attributes)]

/-- The attributes of an element. Attribute blocks are merged when the program
runs, after the object literal of the other attributes. -/
def compile (attributes : List Attribute) (blocks : List AttributeBlock) :
    StateM Preamble (Option Attributes) :=
  if blocks.isEmpty then
    if attributes.isEmpty then pure none
    else return some (.object (← objectOf attributes))
  else do
    let objects ← leadingObject attributes
    let sources := blocks.map fun block => MergeArgument.source (Text.trim block.text)
    modify (·.need .merge)
    modify (·.need .join)
    pure (some (.merge (objects ++ sources)))

end Attributes

end Template
