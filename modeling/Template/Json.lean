import Template.Double.Shortest

/-!
# JSON values

Values of JSON with the members of an object in the order in which they were
read, repeated names included. A number written as an integer of 64 bits is kept
apart from every other number.
-/

namespace Template

/-- A JSON value. -/
inductive Json where
  | null
  | boolean (value : Bool)
  | integer (value : Int)
  | float (value : Double)
  | string (value : String)
  | array (items : List Json)
  | object (members : List (String × Json))
  deriving Repr

namespace Json

/-- Whether a value is `null`. -/
def isNull : Json → Bool
  | .null => true
  | _ => false

/-- The string that a value is. -/
def string? : Json → Option String
  | .string value => some value
  | _ => none

/-- The boolean that a value is. -/
def boolean? : Json → Option Bool
  | .boolean value => some value
  | _ => none

/-- The natural number that a value is, if it is written as an integer. -/
def natural? : Json → Option Nat
  | .integer (.ofNat value) => some value
  | _ => none

/-- The value of the last member with a name. -/
def lastMember? (name : String) : List (String × Json) → Option Json
  | [] => none
  | (key, value) :: rest =>
    match lastMember? name rest with
    | some found => some found
    | none => if key == name then some value else none

/-- The member of an object; other values have no members. -/
def member? (name : String) : Json → Option Json
  | .object members => lastMember? name members
  | _ => none

mutual

/-- The depth to which arrays and objects are nested. -/
def depth : Json → Nat
  | .array items => depthItems items + 1
  | .object members => depthMembers members + 1
  | _ => 0

/-- The depth of the deepest item. -/
def depthItems : List Json → Nat
  | [] => 0
  | item :: rest => max item.depth (depthItems rest)

/-- The depth of the deepest member. -/
def depthMembers : List (String × Json) → Nat
  | [] => 0
  | (_, value) :: rest => max value.depth (depthMembers rest)

end

mutual

/-- The string that JavaScript makes of a value: items of an array are joined by
commas, `null` among them leaves its place empty, and no object shows its members. -/
def text : Json → String
  | .null => "null"
  | .boolean value => if value then "true" else "false"
  | .integer value => (Double.ofInt value).text
  | .float value => value.text
  | .string value => value
  | .array items => ",".intercalate (itemTexts items)
  | .object _ => "[object Object]"

/-- The strings of the items of an array. -/
def itemTexts : List Json → List String
  | [] => []
  | item :: rest => (if item.isNull then "" else item.text) :: itemTexts rest

end

end Json

end Template
