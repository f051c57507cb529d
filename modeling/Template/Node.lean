/-!
# Node trees

The tree that a template is parsed into. Each node has a location in the template,
any part of which may be unknown.
-/

namespace Template

/-- A place in a template. -/
structure Location where
  line : Option Nat := none
  column : Option Nat := none
  filename : Option String := none
  deriving DecidableEq, Repr

/-- The value of an attribute: the source of an expression, or a flag. -/
inductive AttributeValue where
  | source (source : String)
  | flag (value : Bool)
  deriving DecidableEq, Repr

/-- The source of an attribute value. -/
def AttributeValue.text : AttributeValue → String
  | .source code => code
  | .flag value => if value then "true" else "false"

/-- An attribute with a name known at compile time. -/
structure Attribute where
  name : String
  value : AttributeValue
  mustEscape : Bool := false
  deriving DecidableEq, Repr

/-- The source of an object whose members become attributes, which is given
alone or as the value of a node. -/
inductive AttributeBlock where
  | source (source : String)
  | node (source : String)
  deriving DecidableEq, Repr

/-- The source of an attribute block. -/
def AttributeBlock.text : AttributeBlock → String
  | .source code | .node code => code

/-- The kinds of nodes that a tree may hold and that no program is generated for. -/
inductive RejectedKind where
  | caseBlock
  | whenClause
  | doctype
  | mixin
  | filter
  deriving DecidableEq, Repr

mutual

/-- A node of a template. -/
inductive Node where
  | block (block : Block)
  | tag (tag : Tag)
  | text (value : String) (location : Location)
  | literal (text : String) (location : Location)
  | code (code : Code)
  | conditional (conditional : Conditional)
  | loop (test : String) (block : Block) (location : Location)
  | each (each : Each)
  | comment (value : String) (visible : Bool) (location : Location)
  | blockComment (value : String) (visible : Bool) (block : Block) (location : Location)
  | mixinBlock (location : Location)
  | rejected (kind : RejectedKind) (location : Location)

/-- Nodes in order. -/
structure Block where
  nodes : List Node
  location : Location

/-- An element: its code stands in front of its block. -/
structure Tag where
  name : String
  attributes : List Attribute
  attributeBlocks : List AttributeBlock
  code : Option Code
  block : Block
  location : Location

/-- Source in a template. Buffered code puts out its value, escaped or not. -/
structure Code where
  source : String
  buffered : Bool
  mustEscape : Bool
  block : Option Block
  location : Location

/-- A condition with the block it guards and the branch taken otherwise. -/
structure Conditional where
  test : String
  consequent : Block
  alternate : Option Alternate
  location : Location

/-- The other branch of a condition: a further condition or a block. -/
inductive Alternate where
  | conditional (conditional : Conditional)
  | block (block : Block)

/-- An iteration, with a block for the case that there is nothing to iterate over. -/
structure Each where
  object : String
  value : String
  key : Option String
  block : Block
  alternate : Option Block
  location : Location

end

/-- The name of a rejected kind. -/
def RejectedKind.name : RejectedKind → String
  | .caseBlock => "Case"
  | .whenClause => "When"
  | .doctype => "Doctype"
  | .mixin => "Mixin"
  | .filter => "Filter"

/-- The kinds of nodes. -/
inductive NodeKind where
  | block
  | tag
  | text
  | literal
  | code
  | conditional
  | loop
  | each
  | comment
  | blockComment
  | mixinBlock
  | rejected (kind : RejectedKind)
  deriving DecidableEq, Repr

namespace NodeKind

/-- All kinds; a nested node may give its kind by the index in this list. -/
def all : List NodeKind :=
  [.block, .tag, .text, .literal, .code, .conditional, .loop, .each, .comment, .blockComment,
    .mixinBlock, .rejected .caseBlock, .rejected .whenClause, .rejected .doctype,
    .rejected .mixin, .rejected .filter]

/-- The name of a kind. -/
def name : NodeKind → String
  | .block => "Block"
  | .tag => "Tag"
  | .text => "Text"
  | .literal => "Literal"
  | .code => "Code"
  | .conditional => "Conditional"
  | .loop => "While"
  | .each => "Each"
  | .comment => "Comment"
  | .blockComment => "BlockComment"
  | .mixinBlock => "MixinBlock"
  | .rejected kind => kind.name

/-- The kind with a name. -/
def ofName? (name : String) : Option NodeKind :=
  all.find? fun kind => kind.name == name

end NodeKind

/-- The kind of a node. -/
def Node.kind : Node → NodeKind
  | .block _ => .block
  | .tag _ => .tag
  | .text .. => .text
  | .literal .. => .literal
  | .code _ => .code
  | .conditional _ => .conditional
  | .loop .. => .loop
  | .each _ => .each
  | .comment .. => .comment
  | .blockComment .. => .blockComment
  | .mixinBlock _ => .mixinBlock
  | .rejected kind _ => .rejected kind

end Template
