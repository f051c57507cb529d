import Template.Program

/-!
# The statements of a program

A program is a tree of statements.  Here the tree is laid out as a list, each
statement in front of those it contains, so that what holds of all statements of a
program, or is collected from them in order, is said without a recursion of its
own.
-/

namespace Template

mutual

/-- A statement and the statements in it, in the order of their text. -/
def Stmt.statements : Stmt → List Stmt
  | .sentinel found => .sentinel found :: found.statements
  | .code source => [.code source]
  | .scope body => .scope body :: Stmt.statementsOf body
  | .branch test consequent alternate =>
      .branch test consequent alternate ::
        (Stmt.statementsOf consequent ++ alternate.statements)
  | .loop test bodies => .loop test bodies :: Stmt.statementsOfAll bodies
  | .each helper object value key body alternate =>
      .each helper object value key body alternate ::
        (Stmt.statementsOf body ++ Stmt.statementsOfOption alternate)
  | .lineComment text => [.lineComment text]
  | .blockComment text body => .blockComment text body :: Stmt.statementsOf body
  | .mixinBlock => [.mixinBlock]

def Else.statements : Else → List Stmt
  | .none => []
  | .branch _ consequent alternate => Stmt.statementsOf consequent ++ alternate.statements
  | .block body => Stmt.statementsOf body

def Sentinel.statements : Sentinel → List Stmt
  | .text _ | .unescape _ => []
  | .element _ _ children => Stmt.statementsOf children

def Stmt.statementsOf : List Stmt → List Stmt
  | [] => []
  | stmt :: rest => stmt.statements ++ Stmt.statementsOf rest

def Stmt.statementsOfAll : List (List Stmt) → List Stmt
  | [] => []
  | body :: rest => Stmt.statementsOf body ++ Stmt.statementsOfAll rest

def Stmt.statementsOfOption : Option (List Stmt) → List Stmt
  | none => []
  | some body => Stmt.statementsOf body

end

theorem Stmt.statementsOf_append (first second : List Stmt) :
    Stmt.statementsOf (first ++ second) =
      Stmt.statementsOf first ++ Stmt.statementsOf second := by
  induction first with
  | nil => simp only [List.nil_append, Stmt.statementsOf]
  | cons stmt rest inductionHypothesis =>
      simp only [List.cons_append, Stmt.statementsOf, inductionHypothesis, List.append_assoc]

/-- All statements of a program, each in front of those it contains. -/
def Program.statements (program : Program) : List Stmt :=
  Stmt.statementsOf program

end Template
