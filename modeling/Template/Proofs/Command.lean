import Template.Command
import Template.Proofs.Running

/-!
# Commands on files that are kept as a value

What a request to compile does, as a plain function of the files: `Command.codeIn` is
the text that the request asks for, or the fault that keeps it from being made, and
`Command.deliver` prints that text or writes it to a file.
-/

namespace Template.Command

/-- The settings in a file; a missing file means the defaults. -/
def settingsIn (files : Files) (path : String) : Except CommandFault Settings :=
  if files.present path then
    match files.read path with
    | .error fault => .error (.unreadable path fault)
    | .ok text =>
      match Settings.parse? text with
      | some settings => .ok settings
      | none => .error (.badSettings path)
  else .ok {}

/-- The tree in a file. -/
def treeIn (files : Files) (path : String) : Except CommandFault Node :=
  match files.read path with
  | .error fault => .error (.unreadable path fault)
  | .ok text => (Node.parse text).mapError .badTree

/-- The text that a request asks for. -/
def codeIn (files : Files) (request : CompileRequest) : Except CommandFault String := do
  let settings ← settingsIn files request.config
  let root ← treeIn files request.input
  (compiledText settings request.intermediate root).mapError .rejected

/-- Print a text, or write it to a file and print nothing. -/
def deliver (files : Files) (output : Option String) (text : String) :
    Except CommandFault String × Files :=
  match output with
  | none => (.ok text, files)
  | some path =>
    match files.write path text with
    | .ok files => (.ok "", files)
    | .error fault => (.error (.unwritable path fault), files)

theorem runFrom_orFail {α : Type} (files : Files) (fault : FileFault → CommandFault)
    (operation : StateM Files (Except FileFault α)) :
    runFrom files (orFail fault operation) =
      ((operation.run files).1.mapError fault, (operation.run files).2) := by
  have lifted : runFrom files (liftM operation : Attempt (StateM Files) (Except FileFault α)) =
      (.ok (operation.run files).1, (operation.run files).2) := runFrom_lift files operation
  rw [orFail, runFrom_bind, lifted]
  cases (operation.run files).1 <;> rfl

theorem runFrom_loadSettings (files : Files) (path : String) :
    runFrom files (loadSettings Files.access path) = (settingsIn files path, files) := by
  have present : runFrom files (liftM (Files.access.present path) :
      Attempt (StateM Files) Bool) = (.ok (files.present path), files) := rfl
  have read : runFrom files (orFail (.unreadable path) (Files.access.read path)) =
      ((files.read path).mapError (.unreadable path), files) := runFrom_orFail _ _ _
  rw [settingsIn, loadSettings, runFrom_bind, present]
  cases files.present path with
  | false => rfl
  | true =>
      simp only [↓reduceIte, runFrom_bind, read]
      cases files.read path with
      | error fault => rfl
      | ok text =>
          simp only [mapError_ok]
          cases Settings.parse? text <;> rfl

theorem runFrom_write (files : Files) (path text : String) :
    runFrom files (do
      orFail (.unwritable path) (Files.access.write path text)
      return "") = deliver files (some path) text := by
  have write : Files.access.write path text = (do
      match (← get).write path text with
      | .ok files =>
          set files
          return .ok ()
      | .error fault => return .error fault) := rfl
  rw [runFrom_bind, runFrom_orFail, deliver, write, StateT.run_bind, StateT.run_get]
  simp only [pure_bind]
  cases files.write path text <;> rfl

/-- A request to compile makes a text out of the files and delivers it, and nothing is
delivered where the text cannot be made. -/
theorem runFrom_compile (files : Files) (request : CompileRequest) :
    runFrom files (compile Files.access request) =
      match codeIn files request with
      | .error fault => (.error fault, files)
      | .ok text => deliver files request.output text := by
  have read : runFrom files (orFail (.unreadable request.input)
      (Files.access.read request.input)) =
      ((files.read request.input).mapError (.unreadable request.input), files) :=
    runFrom_orFail _ _ _
  rw [compile, runFrom_bind, runFrom_loadSettings, codeIn]
  cases settingsIn files request.config with
  | error fault => rfl
  | ok settings =>
      simp only [runFrom_bind, read, treeIn]
      cases files.read request.input with
      | error fault => rfl
      | ok text =>
          simp only [mapError_ok]
          cases Node.parse text with
          | error fault => rfl
          | ok root =>
              simp only [mapError_ok, bind, Except.bind]
              cases compiledText settings request.intermediate root with
              | error rejection => rfl
              | ok code =>
                  cases request.output with
                  | none => rfl
                  | some path => exact runFrom_write files path code

end Template.Command
