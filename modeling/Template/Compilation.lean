import Template.Generation
import Template.Layout
import Template.Replacement
import Template.Settings

/-!
# Compilation

From a node tree to the final source: a program is generated, its sentinels are
replaced, the result is printed, and the declarations of the helpers are put in
front of it.
-/

namespace Template

/-- A generated program with the declarations of its helpers. -/
structure Intermediate where
  program : Program
  declarations : List String

namespace Intermediate

/-- The program with its sentinels as calls. -/
def render (generated : Intermediate) : String :=
  generated.program.render Program.defaultIndent

end Intermediate

variable {m : Type → Type}

/-- What a program is compiled for: how sentinels are answered, given the options, and
how the result is printed. Both may have effects. -/
structure Target (m : Type → Type) where
  answer : Json → Sentinel → m Stmt
  print : Program → m String

namespace Target

/-- The target that keeps sentinels and prints them as calls. -/
def intermediate [Monad m] : Target m where
  answer _ sentinel := pure sentinel.keep
  print program := pure (program.render Program.defaultIndent)

end Target

/-- Declarations, each on lines of its own. -/
def joinDeclarations (declarations : List String) : String :=
  let text := "\n".intercalate declarations
  if text.isEmpty then text else text ++ "\n"

namespace Settings

/-- Generate the program of a node tree. -/
def generate (settings : Settings) (root : Node) : Except Rejection Intermediate := do
  let (program, preamble) ← (Generation.node settings.indexName root).run {}
  return { program, declarations := preamble.declarations settings.mode settings.module }

/-- Compile a node tree for a target. A rejection is known before the target is
asked for anything. -/
def compile [Monad m] (settings : Settings) (target : Target m) (root : Node) :
    Except Rejection (m String) := do
  let generated ← settings.generate root
  return do
    let program ← generated.program.replaceM (target.answer settings.options)
    let source ← target.print program
    return joinDeclarations generated.declarations ++ source

end Settings

end Template
