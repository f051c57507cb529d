import Template.Attribute.Compile
import Template.Rejection
import Template.Segment

/-!
# Generating programs

A node tree becomes a list of statements, in the order of the tree. While it does,
the helpers that the statements need are noted, and a construct that is not
supported ends the generation. Silent comments give nothing and their blocks are
not looked at.
-/

namespace Template

/-- A computation that notes helpers and may reject a construct. -/
abbrev Generation := StateT Preamble (Except Rejection)

namespace Generation

/-- The statement of code without its block. -/
def codeStmt (code : Code) : Stmt :=
  let source := Text.trim code.source
  if code.buffered then
    if code.mustEscape then .sentinel (.text (Concatenation.ofExpr source))
    else .sentinel (.unescape source)
  else .code source

/-- The name of the key of an iteration; a blank name counts as none. -/
def keyName (indexName : String) (key : Option String) : String :=
  ((key.map Text.trim).filter fun name => !name.isEmpty).getD indexName

mutual

/-- The statements of a node; `indexName` is the key of iterations that name none. -/
def node (indexName : String) : Node → Generation (List Stmt)
  | .block content => block indexName content
  | .tag content => return [← tag indexName content]
  | .text value _ => pure ((Segment.sentinelsOfText value).map Stmt.sentinel)
  | .literal text _ => pure [.sentinel (.text (Concatenation.ofText text))]
  | .code content => code indexName content
  | .conditional content => do
      let (test, consequent, alternate) ← conditional indexName content
      return [.branch test consequent alternate]
  | .loop test ⟨nodes, _⟩ _ => return [.loop (Text.trim test) (← nodesApart indexName nodes)]
  | .each content => return [← each indexName content]
  | .comment value visible _ => pure (if visible then [.lineComment value] else [])
  | .blockComment value visible content _ =>
      if visible then return [.blockComment value (← block indexName content)] else pure []
  | .mixinBlock _ => pure [.mixinBlock]
  | .rejected kind location => throw ⟨kind.name, location⟩

/-- The statements of a block. -/
def block (indexName : String) : Block → Generation (List Stmt)
  | ⟨nodes, _⟩ => nodesTogether indexName nodes

/-- The statements of nodes, one after the other. -/
def nodesTogether (indexName : String) : List Node → Generation (List Stmt)
  | [] => pure []
  | first :: rest => do
      let stmts ← node indexName first
      return stmts ++ (← nodesTogether indexName rest)

/-- The statements of nodes, those of each node by themselves. -/
def nodesApart (indexName : String) : List Node → Generation (List (List Stmt))
  | [] => pure []
  | first :: rest => do
      let stmts ← node indexName first
      return stmts :: (← nodesApart indexName rest)

/-- The element of a tag, whose code stands in front of its block. -/
def tag (indexName : String) : Tag → Generation Stmt
  | ⟨name, attributes, attributeBlocks, content, body, _⟩ => do
      let attributes ← modifyGet (Attributes.compile attributes attributeBlocks).run
      let front ← optionalCode indexName content
      return .sentinel (.element name attributes (front ++ (← block indexName body)))

/-- The statements of code: those of its block follow its value, or stand in a scope
if it has none. -/
def code (indexName : String) : Code → Generation (List Stmt)
  | ⟨source, buffered, mustEscape, content, location⟩ => do
      let first := codeStmt ⟨source, buffered, mustEscape, content, location⟩
      match ← optionalBlock indexName content with
      | none => return [first]
      | some body => return first :: if buffered then body else [.scope body]

/-- The statements of code that may be missing. -/
def optionalCode (indexName : String) : Option Code → Generation (List Stmt)
  | none => pure []
  | some content => code indexName content

/-- The statements of a block that may be missing. -/
def optionalBlock (indexName : String) : Option Block → Generation (Option (List Stmt))
  | none => pure none
  | some content => return some (← block indexName content)

/-- The test, the consequent and the alternate of a condition. -/
def conditional (indexName : String) : Conditional → Generation (String × List Stmt × Else)
  | ⟨test, consequent, other, _⟩ => do
      let consequent ← block indexName consequent
      return (Text.trim test, consequent, ← optionalAlternate indexName other)

/-- What follows the consequent of a condition. -/
def alternate (indexName : String) : Alternate → Generation Else
  | .conditional content => do
      let (test, consequent, other) ← conditional indexName content
      return .branch test consequent other
  | .block content => return .block (← block indexName content)

/-- What follows the consequent of a condition, if anything does. -/
def optionalAlternate (indexName : String) : Option Alternate → Generation Else
  | none => pure .none
  | some content => alternate indexName content

/-- The call that iterates. -/
def each (indexName : String) : Each → Generation Stmt
  | ⟨object, value, key, content, other, _⟩ => do
      modify (·.need .iterate)
      let body ← block indexName content
      let other ← optionalBlock indexName other
      return .each Helper.iterate.identifier (Text.trim object) (Text.trim value)
        (keyName indexName key) body other

end

end Generation

end Template
