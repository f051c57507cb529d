import Template.Json.Reader
import Template.Node

/-!
# Reading node trees

A node is a JSON object with its kind in the member `type`. Members that a kind does
not know are ignored, even when they are repeated; a member that it knows may occur
once only, under any of its names. `Node.parse` reads a tree from a text. The kind of
the root is judged as soon as it is read, and everything else about the shape after
the whole root has been read.
-/

namespace Template

variable {α : Type}

/-- The members of an object, in the order in which they were read. -/
abbrev Members := List (String × Json)

namespace Members

/-- The member known by some names, if it is there; `none` if it is repeated. -/
def single? (names : List String) (members : Members) : Option (Option Json) :=
  match members.filter fun (name, _) => names.contains name with
  | [] => some none
  | [(_, value)] => some (some value)
  | _ => none

/-- Read a member that has to be there. -/
def required (members : Members) (names : List String) (read : Json → Option α) : Option α := do
  match ← members.single? names with
  | some value => read value
  | none => none

/-- Read a member that has a default. -/
def optional (members : Members) (names : List String) (default : α)
    (read : Json → Option α) : Option α := do
  match ← members.single? names with
  | some value => read value
  | none => some default

/-- Read a member that may be missing or `null`. -/
def nullable (members : Members) (names : List String) (read : Json → Option α) :
    Option (Option α) := do
  match ← members.single? names with
  | some .null | none => some none
  | some value => (read value).map some

end Members

namespace Node.Shape

/-- Read all values of a list; `none` if one of them is refused. -/
def readAll (read : Json → Option α) : List Json → Option (List α)
  | [] => some []
  | value :: rest => do
      let first ← read value
      return first :: (← readAll read rest)

/-- Read an array. -/
def list (read : Json → Option α) : Json → Option (List α)
  | .array items => readAll read items
  | _ => none

/-- Read a natural number of 64 bits. -/
def position (value : Json) : Option Nat :=
  value.natural?.filter (· ≤ Text.nat64Max)

/-- Read the location that the members of a node give. -/
def location (members : Members) : Option Location := do
  let line ← members.nullable ["line"] position
  let column ← members.nullable ["column"] position
  let filename ← members.nullable ["filename"] Json.string?
  return { line, column, filename }

/-- Read the value of an attribute. -/
def attributeValue : Json → Option AttributeValue
  | .string value => some (.source value)
  | .boolean value => some (.flag value)
  | _ => none

/-- Read an attribute, which is an object or an array of its fields in order. -/
def attributeOf : Json → Option Attribute
  | .object members => do
      let name ← Members.required members ["name"] Json.string?
      let value ← Members.required members ["val"] attributeValue
      let mustEscape ← Members.optional members ["mustEscape"] false Json.boolean?
      return { name, value, mustEscape }
  | .array [name, value] => do
      return { name := ← name.string?, value := ← attributeValue value }
  | .array [name, value, mustEscape] => do
      return {
        name := ← name.string?, value := ← attributeValue value,
        mustEscape := ← mustEscape.boolean? }
  | _ => none

/-- Read an attribute block, which is a string or an object that holds one. -/
def attributeBlock : Json → Option AttributeBlock
  | .string value => some (.source value)
  | .object members => (Members.required members ["val"] Json.string?).map .node
  | _ => none

/-- The block that stands for a missing one. -/
def emptyBlock : Block := ⟨[], {}⟩

/-- Read a block. -/
def block (node : Json → Option Node) : Json → Option Block
  | .object members => do
      let nodes ← Members.optional members ["nodes"] [] (list node)
      return ⟨nodes, ← location members⟩
  | _ => none

/-- Read code from its members. -/
def code (node : Json → Option Node) (members : Members) : Option Code := do
  return {
    source := ← members.required ["val"] Json.string?
    buffered := ← members.optional ["buffer"] false Json.boolean?
    mustEscape := ← members.optional ["mustEscape", "escape"] false Json.boolean?
    block := ← members.nullable ["block"] (block node)
    location := ← location members }

/-- Read the code of a tag. -/
def tagCode (node : Json → Option Node) : Json → Option Code
  | .object members => code node members
  | _ => none

/-- Read a tag from its members. -/
def tag (node : Json → Option Node) (members : Members) : Option Tag := do
  return {
    name := ← members.required ["name"] Json.string?
    attributes := ← members.optional ["attrs"] [] (list attributeOf)
    attributeBlocks := ← members.optional ["attributeBlocks"] [] (list attributeBlock)
    code := ← members.nullable ["code"] (tagCode node)
    block := ← members.optional ["block"] emptyBlock (block node)
    location := ← location members }

/-- Read a condition from its members. -/
def conditional (node : Json → Option Node) (alternate : Json → Option Alternate)
    (members : Members) : Option Conditional := do
  return {
    test := ← members.required ["test"] Json.string?
    consequent := ← members.optional ["consequent"] emptyBlock (block node)
    alternate := ← members.nullable ["alternate"] alternate
    location := ← location members }

/-- Read an iteration from its members. -/
def each (node : Json → Option Node) (members : Members) : Option Each := do
  return {
    object := ← members.required ["obj"] Json.string?
    value := ← members.required ["val"] Json.string?
    key := ← members.nullable ["key"] Json.string?
    block := ← members.optional ["block"] emptyBlock (block node)
    alternate := ← members.nullable ["alternate", "alternative"] (block node)
    location := ← location members }

/-- Read a node of a kind from its members, given how the nodes and the alternates
inside it are read. -/
def nodeOf (node : Json → Option Node) (alternate : Json → Option Alternate)
    (kind : NodeKind) (members : Members) : Option Node :=
  match kind with
  | .block => (block node (.object members)).map .block
  | .tag => (tag node members).map .tag
  | .text => do
      let value ← members.optional ["val"] "" Json.string?
      return .text value (← location members)
  | .literal => do
      let text ← members.optional ["str"] "" Json.string?
      return .literal text (← location members)
  | .code => (code node members).map .code
  | .conditional => (conditional node alternate members).map .conditional
  | .loop => do
      let test ← members.required ["test"] Json.string?
      let content ← members.optional ["block"] emptyBlock (block node)
      return .loop test content (← location members)
  | .each => (each node members).map .each
  | .comment => do
      let value ← members.optional ["val"] "" Json.string?
      let visible ← members.optional ["buffer"] false Json.boolean?
      return .comment value visible (← location members)
  | .blockComment => do
      let value ← members.optional ["val"] "" Json.string?
      let visible ← members.optional ["buffer"] false Json.boolean?
      let content ← members.optional ["block"] emptyBlock (block node)
      return .blockComment value visible content (← location members)
  | .mixinBlock => (location members).map .mixinBlock
  | .rejected kind => (location members).map (.rejected kind)

/-- The choice that a value makes from a list by name or by index. -/
def choice (kinds : List NodeKind) : Json → Option NodeKind
  | .string name => kinds.find? fun kind => kind.name == name
  | .integer (.ofNat index) => kinds[index]?
  | _ => none

/-- The kinds of alternates. -/
def alternateKinds : List NodeKind := [.conditional, .block]

mutual

/-- Read a node whose value is nested to at most a depth. -/
def node : (depth : Nat) → Json → Option Node
  | depth + 1, .object members => do
      let kind ← Members.required members ["type"] (choice NodeKind.all)
      nodeOf (node depth) (alternate depth) kind members
  | _, _ => none

/-- Read the other branch of a condition, nested to at most a depth. -/
def alternate : (depth : Nat) → Json → Option Alternate
  | depth + 1, .object members => do
      match ← Members.required members ["type"] (choice alternateKinds) with
      | .conditional =>
          (conditional (node depth) (alternate depth) members).map .conditional
      | _ => (block (node depth) (.object members)).map .block
  | _, _ => none

end

end Node.Shape

namespace Node

/-- Read a node of a kind from its members. -/
def ofMembers? (kind : NodeKind) (members : Members) : Option Node :=
  let depth := Json.depthMembers members
  Shape.nodeOf (Shape.node depth) (Shape.alternate depth) kind members

/-- Why a text is not a node tree. -/
inductive Fault where
  /-- The text is not JSON. -/
  | text (fault : Json.Fault)
  /-- The text is JSON and not a tree. -/
  | shape
  deriving DecidableEq, Repr

/-- What is said of every text that is not a node tree. -/
def Fault.message (_ : Fault) : String := "解析模板节点树失败"

/-- Read a part of the text. -/
def lift (result : Except Json.Fault α) : Except Fault α :=
  result.mapError .text

/-- The depth to which arrays and objects of a tree may be nested. -/
def maxDepth : Nat := 127

variable (convert : Numeral → Double)

/-- Read a value inside the root. -/
def inner : Json.Reader Json := Json.Read.value convert (maxDepth - 1)

/-- Read a value that is no array and no object. -/
def scalar : Json.Reader Json := Json.Read.value convert 0

/-- Read the kind of the root. A value that is not a string is judged by its first
character, and as far as it is a scalar it has to be complete. -/
def rootKind (input : List Char) : Except Fault (NodeKind × List Char) :=
  match Json.Read.skipSpace input with
  | [] => .error (.text .truncated)
  | char :: rest =>
    if char == Text.doubleQuote then do
      let (name, rest) ← lift (Json.Read.string rest)
      match NodeKind.ofName? name with
      | some kind => .ok (kind, rest)
      | none => .error .shape
    else if char == '[' || char == '{' then .error .shape
    else do
      let _ ← lift (scalar convert (char :: rest))
      .error .shape

/-- What is read of the root: its kind, once it has been met, and its other members. -/
structure Root where
  kind : Option NodeKind := none
  members : Members := []

/-- Read the members of the root up to its closing brace; `fuel` bounds their number.
A second kind is refused at its name. -/
def rootFrom (kind : Option NodeKind) :
    (fuel : Nat) → (first : Bool) → List Char → Except Fault (Root × List Char)
  | 0, _, _ => .error (.text .truncated)
  | fuel + 1, first, input => do
    match ← lift (Json.Read.next '}' first input) with
    | .closed rest => .ok ({ kind }, rest)
    | .entry input =>
        let (name, rest) ← lift (Json.Read.name input)
        if name == "type" then
          if kind.isSome then .error .shape
          else
            let (found, rest) ← rootKind convert (← lift (Json.Read.colon rest))
            rootFrom (some found) fuel false rest
        else
          let (value, rest) ← lift (inner convert (← lift (Json.Read.colon rest)))
          let (root, rest) ← rootFrom kind fuel false rest
          .ok ({ root with members := (name, value) :: root.members }, rest)

/-- Read a root that is an array, which is never a tree. -/
def rootArray (input : List Char) : Except Fault Node := do
  match ← lift (Json.Read.next ']' true input) with
  | .closed _ => .error .shape
  | .entry input =>
      let (_, rest) ← rootKind convert input
      let _ ← lift (Json.Read.entries ']' (inner convert) false rest)
      .error .shape

/-- Read a root that is an object, and see that nothing follows it. -/
def rootObject (input : List Char) : Except Fault Node := do
  let (root, rest) ← rootFrom convert none (input.length + 1) true input
  match root.kind.bind fun kind => ofMembers? kind root.members with
  | none => .error .shape
  | some node =>
      if (Json.Read.skipSpace rest).isEmpty then .ok node else .error (.text .malformed)

/-- Read a node tree from a text, with a conversion of the numbers in it. They show in a
tree only as line and column, which are integers, so what counts is which numbers the
conversion makes infinite: those are refused. -/
def parseWith (input : String) : Except Fault Node :=
  match Json.Read.skipSpace input.toList with
  | [] => .error (.text .truncated)
  | char :: rest =>
    if char == '{' then rootObject convert rest
    else if char == '[' then rootArray convert rest
    else do
      let _ ← lift (scalar convert (char :: rest))
      .error .shape

/-- Read a node tree from a text. Numbers are scaled, so some that are next to the greatest
finite double are refused. -/
def parse (input : String) : Except Fault Node := parseWith Numeral.scaled input

end Node

end Template
