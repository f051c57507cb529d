import Template.Json
import Template.Literal

/-!
# Class lists

The value of a class attribute is a list of values that are joined by spaces into
one string. `null` and the empty string disappear, and an array, or an object with
a `length`, stands for its items.
-/

namespace Template

/-- The value of a literal; an infinite number has none that JSON can hold. -/
def Literal.value : Literal → Json
  | .text value => .string value
  | .number value => if value.isFinite then .float value else .null
  | .boolean value => .boolean value
  | .null => .null

namespace Json

/-- Whether a value adds nothing to a class list. -/
def isNoClass : Json → Bool
  | .null => true
  | .string value => value.isEmpty
  | _ => false

/-- The items of an array, or of an object whose `length` is a natural number,
where an item that is missing is passed over. -/
def items? : Json → Option (List Json)
  | .array items => some items
  | .object members =>
      ((lastMember? "length" members).bind natural?).map fun length =>
        (List.range length).filterMap fun index =>
          lastMember? (String.ofList (Nat.toDigits 10 index)) members
  | _ => none

/-- The classes that one value contributes. -/
def classes (value : Json) : List String :=
  if value.isNoClass then []
  else
    match value.items? with
    | some items => (items.filter fun item => !item.isNoClass).map text
    | none => [value.text]

/-- All classes of a list of values, joined by spaces. -/
def joinClasses (values : List Json) : String :=
  " ".intercalate (values.flatMap classes)

end Json

end Template
