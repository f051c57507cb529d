import Template.Concatenation

/-!
# Intermediate programs

A program is a list of statements. Most of them carry source text; the three
sentinels are the places that are later replaced by the construction forms of a user
interface: escaped text, unescaped text, and elements with attributes
and children.
-/

namespace Template

/-- A term of a class name: known at compile time, or the source of a value that
is joined when the program runs. -/
inductive ClassTerm where
  | static (name : String)
  | dynamic (source : String)
  deriving DecidableEq, Repr

/-- The value of a property: a source, or the terms of a class name. -/
inductive PropertyValue where
  | source (source : String)
  | classes (terms : List ClassTerm)
  deriving DecidableEq, Repr

/-- An object literal with its properties in order. -/
structure ObjectLiteral where
  props : List (String × PropertyValue) := []
  deriving DecidableEq, Repr

/-- An argument of the call that merges attributes when the program runs. -/
inductive MergeArgument where
  | object (object : ObjectLiteral)
  | source (source : String)
  deriving DecidableEq, Repr

/-- The attributes of an element: an object literal or a merge of several. -/
inductive Attributes where
  | object (object : ObjectLiteral)
  | merge (arguments : List MergeArgument)
  deriving DecidableEq, Repr

mutual

/-- A statement of an intermediate program. -/
inductive Stmt where
  /-- A place that is to be replaced. -/
  | sentinel (sentinel : Sentinel)
  /-- Source that is kept as it is. -/
  | code (source : String)
  /-- Statements in a scope of their own. -/
  | scope (body : List Stmt)
  /-- A condition with what follows it. -/
  | branch (test : String) (consequent : List Stmt) (alternate : Else)
  /-- A loop whose body consists of one closure for each entry of `bodies`. -/
  | loop (test : String) (bodies : List (List Stmt))
  /-- An iteration by a call of a helper. -/
  | each (helper object value key : String) (body : List Stmt) (alternate : Option (List Stmt))
  /-- A comment to the end of the line. -/
  | lineComment (text : String)
  /-- A comment around statements. -/
  | blockComment (text : String) (body : List Stmt)
  /-- The place of the block that is passed to a mixin. -/
  | mixinBlock

/-- What follows the consequent of a condition. -/
inductive Else where
  | none
  | branch (test : String) (consequent : List Stmt) (alternate : Else)
  | block (body : List Stmt)

/-- A place that is to be replaced. -/
inductive Sentinel where
  | text (text : Concatenation)
  | unescape (source : String)
  | element (tag : String) (attributes : Option Attributes) (children : List Stmt)

end

/-- A list of statements. -/
abbrev Program := List Stmt

namespace Stmt

/-- The sentinel that a statement is. -/
def sentinel? : Stmt → Option Sentinel
  | .sentinel found => some found
  | _ => none

end Stmt

mutual

/-- The sentinels of a statement in source order, an element before its children. -/
def Stmt.sentinels : Stmt → List Sentinel
  | .sentinel found => found :: found.inner
  | .scope body | .blockComment _ body => Stmt.sentinelsOf body
  | .branch _ consequent alternate => Stmt.sentinelsOf consequent ++ alternate.sentinels
  | .loop _ bodies => Stmt.sentinelsOfAll bodies
  | .each _ _ _ _ body alternate => Stmt.sentinelsOf body ++ Stmt.sentinelsOfOption alternate
  | .code _ | .lineComment _ | .mixinBlock => []

/-- The sentinels of what follows a condition. -/
def Else.sentinels : Else → List Sentinel
  | .none => []
  | .branch _ consequent alternate => Stmt.sentinelsOf consequent ++ alternate.sentinels
  | .block body => Stmt.sentinelsOf body

/-- The sentinels below a sentinel. -/
def Sentinel.inner : Sentinel → List Sentinel
  | .element _ _ children => Stmt.sentinelsOf children
  | .text _ | .unescape _ => []

/-- The sentinels of a list of statements. -/
def Stmt.sentinelsOf : List Stmt → List Sentinel
  | [] => []
  | stmt :: rest => stmt.sentinels ++ Stmt.sentinelsOf rest

/-- The sentinels of a list of bodies. -/
def Stmt.sentinelsOfAll : List (List Stmt) → List Sentinel
  | [] => []
  | body :: rest => Stmt.sentinelsOf body ++ Stmt.sentinelsOfAll rest

/-- The sentinels of a body that may be missing. -/
def Stmt.sentinelsOfOption : Option (List Stmt) → List Sentinel
  | none => []
  | some body => Stmt.sentinelsOf body

end

/-- The sentinels of a program in source order, an element before its children. -/
def Program.sentinels (program : Program) : List Sentinel :=
  Stmt.sentinelsOf program

end Template
