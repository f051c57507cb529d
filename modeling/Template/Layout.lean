import Template.Attribute.Render

/-!
# Layout

A program is printed line by line. A line is a text at a depth, and the depth says
how often the indentation is repeated in front of it. Sentinels are printed as
calls.
-/

namespace Template

/-- A text at a depth of nesting. -/
structure Line where
  depth : Nat
  text : String
  deriving DecidableEq, Repr

/-- A line with its indentation and its end. -/
def Line.render (indent : String) (line : Line) : String :=
  String.join (List.replicate line.depth indent) ++ line.text ++ "\n"

namespace Stmt

/-- The name of the closure at an index of a loop. -/
def bodyName (index : Nat) : String :=
  "__body" ++ String.ofList (Nat.toDigits 10 index)

mutual

/-- The lines of a statement at a depth. -/
def lines (depth : Nat) : Stmt → List Line
  | .sentinel found => sentinelLines depth found
  | .code source => [⟨depth, source⟩]
  | .scope body => ⟨depth, "\x7b"⟩ :: linesOf (depth + 1) body ++ [⟨depth, "\x7d"⟩]
  | .branch test consequent alternate =>
      ⟨depth, "if (" ++ test ++ ") \x7b"⟩ ::
        linesOf (depth + 1) consequent ++ elseLines depth alternate
  | .loop test bodies =>
      ⟨depth, "(function () \x7b"⟩ ::
        ⟨depth + 1, "var __return = [];"⟩ ::
        closureLines (depth + 1) 0 bodies ++
        ⟨depth + 1, "while (" ++ test ++ ") \x7b"⟩ ::
        ((List.range bodies.length).map fun index =>
          (⟨depth + 2, "__return.push(" ++ bodyName index ++ ".call(this));"⟩ : Line)) ++
        [⟨depth + 1, "\x7d"⟩,
          ⟨depth + 1, "return __return;"⟩,
          ⟨depth, "\x7d).call(this);"⟩]
  | .each helper object value key body alternate =>
      ⟨depth, helper ++ "(" ++ object ++ ", (" ++ value ++ ", " ++ key ++ ") => \x7b"⟩ ::
        linesOf (depth + 1) body ++ alternateLines depth alternate
  | .lineComment text => [⟨depth, "//" ++ text⟩]
  | .blockComment text body =>
      ⟨depth, "/*" ++ text⟩ :: linesOf (depth + 1) body ++ [⟨depth, "*/"⟩]
  | .mixinBlock => [⟨depth, "block ? block() : null;"⟩]

/-- The lines of a sentinel at a depth. -/
def sentinelLines (depth : Nat) : Sentinel → List Line
  | .text text => [⟨depth, "TEXT(" ++ text.render ++ ");"⟩]
  | .unescape source => [⟨depth, "UNESCAPE(" ++ source ++ ");"⟩]
  | .element tag attributes children =>
      ⟨depth, "ELEMENT(" ++ Text.quote tag ++ ", " ++ renderAttributes attributes ++ ");"⟩ ::
        ⟨depth, "\x7b"⟩ :: linesOf (depth + 1) children ++ [⟨depth, "\x7d"⟩]

/-- The lines after the consequent of a condition, down to the closing brace. -/
def elseLines (depth : Nat) : Else → List Line
  | .none => [⟨depth, "\x7d"⟩]
  | .branch test consequent alternate =>
      ⟨depth, "\x7d else if (" ++ test ++ ") \x7b"⟩ ::
        linesOf (depth + 1) consequent ++ elseLines depth alternate
  | .block body => ⟨depth, "\x7d else \x7b"⟩ :: linesOf (depth + 1) body ++ [⟨depth, "\x7d"⟩]

/-- The lines after the body of an iteration, down to the end of the call. -/
def alternateLines (depth : Nat) : Option (List Stmt) → List Line
  | none => [⟨depth, "\x7d);"⟩]
  | some body => ⟨depth, "\x7d, () => \x7b"⟩ :: linesOf (depth + 1) body ++ [⟨depth, "\x7d);"⟩]

/-- The lines of the closures of a loop, numbered from an index. -/
def closureLines (depth index : Nat) : List (List Stmt) → List Line
  | [] => []
  | body :: rest =>
      ⟨depth, "var " ++ bodyName index ++ " = function () \x7b"⟩ ::
        linesOf (depth + 1) body ++ ⟨depth, "\x7d;"⟩ :: closureLines depth (index + 1) rest

/-- The lines of statements in order. -/
def linesOf (depth : Nat) : List Stmt → List Line
  | [] => []
  | stmt :: rest => lines depth stmt ++ linesOf depth rest

end

end Stmt

namespace Program

/-- The indentation used when none is asked for. -/
def defaultIndent : String := "  "

/-- The text of a program. -/
def render (indent : String) (program : Program) : String :=
  String.join ((Stmt.linesOf 0 program).map (Line.render indent))

end Program

end Template
