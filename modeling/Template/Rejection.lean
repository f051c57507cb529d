import Template.Node

/-!
# Rejections

A tree that holds a construct no program is generated for is rejected, with the
place of the construct and, where there is one, a hint at what to write instead.
-/

namespace Template

/-- A construct that is not supported, at a place. -/
structure Rejection where
  construct : String
  location : Location
  deriving DecidableEq, Repr

namespace Rejection

/-- What to write instead of a construct. -/
def hint? (rejection : Rejection) : Option String :=
  if rejection.construct == "Case" || rejection.construct == "When" then
    some "改用 if / else if / else 条件分支"
  else if rejection.construct == "Mixin" then some "将可复用片段拆成组件"
  else if rejection.construct == "Filter" then some "在模板外预处理内容后再以文本或代码传入"
  else if rejection.construct == "Doctype" then some "组件模板不需要文档类型声明，删除即可"
  else none

/-- The file a rejection points at, or a placeholder. -/
def file (rejection : Rejection) : String :=
  rejection.location.filename.getD "<template>"

/-- The line a rejection points at, zero if it is not known. -/
def line (rejection : Rejection) : Nat :=
  rejection.location.line.getD 0

/-- The column a rejection points at, zero if it is not known. -/
def column (rejection : Rejection) : Nat :=
  rejection.location.column.getD 0

/-- The digits of a line or a column. -/
def position (value : Nat) : String :=
  String.ofList (Nat.toDigits 10 value)

/-- The text of a rejection: a heading, the place, the construct and the hint. -/
def message (rejection : Rejection) : String :=
  "pugjsx 编译错误\n  → " ++ rejection.file ++ ":" ++ position rejection.line ++ ":" ++
    position rejection.column ++ "\n\n  错误：不支持的语法结构：" ++ rejection.construct ++
    match rejection.hint? with
    | some hint => "\n  提示：" ++ hint
    | none => ""

end Rejection

end Template
