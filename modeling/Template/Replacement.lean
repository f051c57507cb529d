import Template.Attribute.Render
import Template.Json

/-!
# Replacing sentinels

Each sentinel of a program is answered with a statement that takes its place.
Answering may keep state and may fail, so it happens in a monad; `Program.replaceM`
leaves everything else as it is. Sentinels are answered in source order, an element
after its children have been replaced.
-/

namespace Template

variable {m : Type → Type}

mutual

/-- Replace the sentinels of a statement. -/
def Stmt.replaceM [Monad m] (answer : Sentinel → m Stmt) : Stmt → m Stmt
  | .sentinel found => do answer (← Sentinel.replaceInnerM answer found)
  | .code source => pure (.code source)
  | .scope body => return .scope (← Stmt.replaceAllM answer body)
  | .branch test consequent alternate => do
      let consequent ← Stmt.replaceAllM answer consequent
      return .branch test consequent (← Else.replaceM answer alternate)
  | .loop test bodies => return .loop test (← Stmt.replaceBodiesM answer bodies)
  | .each helper object value key body alternate => do
      let body ← Stmt.replaceAllM answer body
      return .each helper object value key body (← Stmt.replaceOptionM answer alternate)
  | .lineComment text => pure (.lineComment text)
  | .blockComment text body => return .blockComment text (← Stmt.replaceAllM answer body)
  | .mixinBlock => pure .mixinBlock

/-- Replace the sentinels of what follows a condition. -/
def Else.replaceM [Monad m] (answer : Sentinel → m Stmt) : Else → m Else
  | .none => pure .none
  | .branch test consequent alternate => do
      let consequent ← Stmt.replaceAllM answer consequent
      return .branch test consequent (← Else.replaceM answer alternate)
  | .block body => return .block (← Stmt.replaceAllM answer body)

/-- Replace the sentinels below a sentinel. -/
def Sentinel.replaceInnerM [Monad m] (answer : Sentinel → m Stmt) : Sentinel → m Sentinel
  | .text text => pure (.text text)
  | .unescape source => pure (.unescape source)
  | .element tag attributes children =>
      return .element tag attributes (← Stmt.replaceAllM answer children)

/-- Replace the sentinels of statements in order. -/
def Stmt.replaceAllM [Monad m] (answer : Sentinel → m Stmt) : List Stmt → m (List Stmt)
  | [] => pure []
  | stmt :: rest => do
      let stmt ← Stmt.replaceM answer stmt
      return stmt :: (← Stmt.replaceAllM answer rest)

/-- Replace the sentinels of bodies in order. -/
def Stmt.replaceBodiesM [Monad m] (answer : Sentinel → m Stmt) :
    List (List Stmt) → m (List (List Stmt))
  | [] => pure []
  | body :: rest => do
      let body ← Stmt.replaceAllM answer body
      return body :: (← Stmt.replaceBodiesM answer rest)

/-- Replace the sentinels of a body that may be missing. -/
def Stmt.replaceOptionM [Monad m] (answer : Sentinel → m Stmt) :
    Option (List Stmt) → m (Option (List Stmt))
  | none => pure none
  | some body => return some (← Stmt.replaceAllM answer body)

end

/-- Replace the sentinels of a program. -/
def Program.replaceM [Monad m] (answer : Sentinel → m Stmt) (program : Program) : m Program :=
  Stmt.replaceAllM answer program

namespace Sentinel

/-- The number of children of a sentinel that are sentinels themselves. -/
def childCount : Sentinel → Nat
  | .element _ _ children => (children.filterMap Stmt.sentinel?).length
  | .text _ | .unescape _ => 0

/-- The answer that keeps a sentinel. -/
def keep (sentinel : Sentinel) : Stmt := .sentinel sentinel

/-- The object whose methods are called when the options do not name another. -/
def defaultPragma : String := "h"

/-- The object whose methods are called, by the option `pragma`. -/
def pragma (options : Json) : String :=
  ((options.member? "pragma").bind Json.string?).getD defaultPragma

/-- The answer that calls methods of an object: one for a text, one for unescaped text,
and a pair around the children of an element. -/
def call (pragma : String) : Sentinel → Stmt
  | .text content => .code (pragma ++ ".text(" ++ content.render ++ ");")
  | .unescape source => .code (pragma ++ ".raw(" ++ source ++ ");")
  | .element tag attributes children =>
      let arguments := Text.quote tag ++ ", " ++ renderAttributes attributes
      .scope (.code (pragma ++ ".open(" ++ arguments ++ ");") :: children ++
        [.code (pragma ++ ".close();")])

end Sentinel

end Template
