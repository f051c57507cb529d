import Template.Command

/-!
# The program

Runs commands on the files of the machine.
-/

namespace Template

/-- Whether an error has a number, which some operations negate. -/
def isCode (code number : UInt32) : Bool := code == number || code == 0 - number

/-- The fault that an error of the file system stands for. -/
def faultOf (error : IO.Error) : FileFault :=
  match error with
  | .noFileOrDirectory .. | .noSuchThing .. => .notFound
  | .inappropriateType _ code _ => if isCode code 20 then .notDirectory else .isDirectory
  | .invalidArgument _ code _ => if isCode code 36 then .nameTooLong else .other error.toString
  | error => .other error.toString

/-- Run an operation of the file system and keep its error as a fault. -/
def guarded {α : Type} (operation : IO α) : IO (Except FileFault α) := do
  try
    return .ok (← operation)
  catch error =>
    return .error (faultOf error)

/-- The operations on the files of the machine. -/
def machineAccess : FileAccess IO where
  present path := do
    match ← guarded (IO.FS.readFile path) with
    | .error .notFound | .error .notDirectory | .error .nameTooLong => return false
    | _ => return true
  read path := guarded (IO.FS.readFile path)
  write path text := guarded (IO.FS.writeFile path text)

end Template

/-- Run the program on its arguments. -/
def main (arguments : List String) : IO UInt32 := do
  let outcome ← Template.Command.run Template.machineAccess arguments
  IO.print outcome.stdout
  match outcome.message with
  | some message => IO.eprintln ("Error: " ++ message)
  | none =>
      if outcome.code == 2 then IO.eprint Template.Command.usage
  return outcome.code.toUInt32
