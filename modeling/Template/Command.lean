import Template.Compilation
import Template.Files
import Template.Node.Reader
import Template.Request
import Template.Settings.Reader

/-!
# Commands

Carrying out what the arguments of the command line ask for: compile the tree in a
file, or show the source of a helper. The settings are read before the tree, and
nothing is written before everything else has succeeded.
-/

namespace Template

/-- Why a command fails. -/
inductive CommandFault where
  | unreadable (path : String) (fault : FileFault)
  | unwritable (path : String) (fault : FileFault)
  | badSettings (path : String)
  | badTree (fault : Node.Fault)
  | rejected (rejection : Rejection)
  | unknownHelper (name : String)

/-- The text of a fault. -/
def CommandFault.message : CommandFault → String
  | .unreadable path fault => "读取 " ++ path ++ " 失败：" ++ fault.message
  | .unwritable path fault => "写入 " ++ path ++ " 失败：" ++ fault.message
  | .badSettings path => "解析 " ++ path ++ " 失败："
  | .badTree fault => fault.message
  | .rejected rejection => rejection.message
  | .unknownHelper name => "未知的运行时辅助函数：" ++ name ++ "（可选 map / attr / class）"

/-- What a run of the program leaves: an exit code, the text it prints, and the text
of the fault it fails with. -/
structure Outcome where
  code : Nat
  stdout : String
  message : Option String
  deriving DecidableEq, Repr

namespace Command

/-- A computation on files that may fail. -/
abbrev Attempt (m : Type → Type) := ExceptT CommandFault m

variable {m : Type → Type} {α : Type}

/-- Use the result of an operation on a file, or fail with the fault it has. -/
def orFail [Monad m] (fault : FileFault → CommandFault) (operation : m (Except FileFault α)) :
    Attempt m α := do
  match ← operation with
  | .ok value => return value
  | .error reason => throw (fault reason)

/-- Load settings from a file; a missing file means the defaults. -/
def loadSettings [Monad m] (access : FileAccess m) (path : String) : Attempt m Settings := do
  if ← access.present path then
    let text ← orFail (.unreadable path) (access.read path)
    match Settings.parse? text with
    | some settings => return settings
    | none => throw (.badSettings path)
  else return {}

/-- The text that a tree is compiled to: the intermediate program alone, or the
helpers' declarations and the program. -/
def compiledText (settings : Settings) (intermediate : Bool) (root : Node) :
    Except Rejection String :=
  if intermediate then (settings.generate root).map Intermediate.render
  else (settings.compile (Target.intermediate : Target Id) root).map Id.run

/-- Compile the tree in a file, and give the text to print. -/
def compile [Monad m] (access : FileAccess m) (request : CompileRequest) : Attempt m String := do
  let settings ← loadSettings access request.config
  let text ← orFail (.unreadable request.input) (access.read request.input)
  match Node.parse text with
  | .error fault => throw (.badTree fault)
  | .ok root =>
    match compiledText settings request.intermediate root with
    | .error rejection => throw (.rejected rejection)
    | .ok code =>
      match request.output with
      | none => return code
      | some path =>
          orFail (.unwritable path) (access.write path code)
          return ""

/-- The source of a helper as a module of its own, after the helpers it calls. -/
def helperModule (helper : Helper) : String :=
  String.join (helper.dependencies.map fun needed => needed.source ++ "\n\n") ++
    helper.source ++ "\nmodule.exports = " ++ helper.identifier ++ ";\n"

/-- How the program is used. -/
def usage : String :=
  "模板节点树 → 带哨兵的 JavaScript 中间代码\n\n" ++
  "Usage: pugjsx compile <INPUT> [-c <CONFIG>] [-o <OUTPUT>] [--intermediate]\n" ++
  "       pugjsx runtime <NAME>\n"

/-- The version of the program. -/
def versionText : String := "pugjsx 0.1.0\n"

/-- Carry out a request, and give the text to print. -/
def perform [Monad m] (access : FileAccess m) : Request → Attempt m String
  | .compile request => compile access request
  | .helper name =>
    match Helper.ofName? name with
    | some helper => return helperModule helper
    | none => throw (.unknownHelper name)
  | .help => return usage
  | .version => return versionText

/-- Run the program on its arguments. The exit code is 2 when they ask for nothing
that can be done, and 1 when the request fails. -/
def run [Monad m] (access : FileAccess m) (arguments : List String) : m Outcome := do
  match Request.ofArguments? arguments with
  | none => return { code := 2, stdout := "", message := none }
  | some request =>
    match ← (perform access request).run with
    | .ok text => return { code := 0, stdout := text, message := none }
    | .error fault => return { code := 1, stdout := "", message := some fault.message }

end Command

end Template
