/-!
# Requests

What the arguments of the command line ask for. Arguments are read from left to
right; options may stand on either side of the input, and two hyphens end them.
-/

namespace Template

/-- A request to compile the tree in a file. -/
structure CompileRequest where
  input : String
  config : String
  output : Option String
  intermediate : Bool
  deriving DecidableEq, Repr

/-- What the arguments ask for. -/
inductive Request where
  | compile (request : CompileRequest)
  | helper (name : String)
  | help
  | version
  deriving DecidableEq, Repr

namespace Request

/-- The settings file that is used when none is named. -/
def defaultConfig : String := "pugjsx.toml"

/-- The arguments of a compilation read so far. -/
structure Partial where
  input : Option String := none
  config : Option String := none
  output : Option String := none
  intermediate : Bool := false

namespace Partial

/-- Set a path that is not set yet; paths are not empty. -/
def setPath (path : String) : Option String → Option (Option String)
  | none => if path.isEmpty then none else some (some path)
  | some _ => none

/-- Set the input. -/
def setInput (found : Partial) (path : String) : Option Partial :=
  (setPath path found.input).map fun input => { found with input }

/-- Set the settings file. -/
def setConfig (found : Partial) (path : String) : Option Partial :=
  (setPath path found.config).map fun config => { found with config }

/-- Set the output. -/
def setOutput (found : Partial) (path : String) : Option Partial :=
  (setPath path found.output).map fun output => { found with output }

/-- Ask for the intermediate program. -/
def setIntermediate (found : Partial) : Option Partial :=
  if found.intermediate then none else some { found with intermediate := true }

/-- The request, once all arguments are read. -/
def finish (found : Partial) : Option Request :=
  found.input.map fun input =>
    .compile {
      input, config := found.config.getD defaultConfig, output := found.output,
      intermediate := found.intermediate }

end Partial

/-- An option with how it takes effect. -/
inductive Flag where
  /-- An option that is followed by a value. -/
  | valued (set : Partial → String → Option Partial)
  /-- An option that stands alone. -/
  | plain (set : Partial → Option Partial)
  /-- A request for help, which ends the reading. -/
  | help

/-- The options with a long name. -/
def longFlag? (name : String) : Option Flag :=
  if name == "config" then some (.valued Partial.setConfig)
  else if name == "output" then some (.valued Partial.setOutput)
  else if name == "intermediate" then some (.plain Partial.setIntermediate)
  else if name == "help" then some .help
  else none

/-- The options with a short name. -/
def shortFlag? (char : Char) : Option Flag :=
  if char == 'c' then some (.valued Partial.setConfig)
  else if char == 'o' then some (.valued Partial.setOutput)
  else if char == 'h' then some .help
  else none

/-- What one argument is. -/
inductive Token where
  /-- A value that no option claims. -/
  | positional (value : String)
  /-- An option, with the value that is attached to it. -/
  | flag (flag : Flag) (attached : Option String)
  /-- The end of the options. -/
  | separator

/-- The text after an equals sign, if it starts with one. -/
def afterEquals (text : List Char) : List Char :=
  match text with
  | '=' :: rest => rest
  | _ => text

/-- Read a long option, with a value after an equals sign. -/
def longToken? (text : List Char) : Option Token := do
  let name := text.takeWhile (· != '=')
  let flag ← longFlag? (String.ofList name)
  let attached :=
    if name.length < text.length then some (String.ofList (text.drop (name.length + 1))) else none
  return .flag flag attached

/-- Read a short option, with a value directly after it. -/
def shortToken? (char : Char) (text : List Char) : Option Token := do
  match ← shortFlag? char with
  | .valued set =>
      return .flag (.valued set)
        (if text.isEmpty then none else some (String.ofList (afterEquals text)))
  | flag => return .flag flag none

/-- Read one argument; `none` if it is an option that is not known. -/
def token? (argument : String) : Option Token :=
  match argument.toList with
  | ['-', '-'] => some .separator
  | '-' :: '-' :: text => longToken? text
  | '-' :: char :: text => shortToken? char text
  | _ => some (.positional argument)

/-- Whether an argument can be the value of the option in front of it. -/
def isValue (argument : String) : Bool :=
  match argument.toList with
  | '-' :: _ :: _ => false
  | _ => true

/-- Read the inputs after the end of the options. -/
def inputsFrom (found : Partial) : List String → Option Request
  | [] => found.finish
  | argument :: rest => do inputsFrom (← found.setInput argument) rest

/-- Read the arguments of a compilation. -/
def compileFrom (found : Partial) : List String → Option Request
  | [] => found.finish
  | argument :: rest => do
    match ← token? argument with
    | .separator => inputsFrom found rest
    | .positional value => compileFrom (← found.setInput value) rest
    | .flag .help none => return .help
    | .flag (.plain set) none => compileFrom (← set found) rest
    | .flag (.valued set) (some value) => compileFrom (← set found value) rest
    | .flag (.valued set) none =>
      match rest with
      | [] => none
      | value :: rest =>
        if isValue value then compileFrom (← set found value) rest else none
    | .flag _ (some _) => none

/-- Whether an argument asks for help. -/
def isHelp (argument : String) : Bool :=
  argument == "--help" || "-h".toList.isPrefixOf argument.toList

/-- Read the name of a helper, the only argument. -/
def helperFrom (name : Option String) (ended : Bool) : List String → Option Request
  | [] => name.map .helper
  | argument :: rest =>
    if !ended && argument == "--" then helperFrom name true rest
    else if !ended && isHelp argument then some .help
    else if !ended && !isValue argument then none
    else if name.isSome then none
    else helperFrom (some argument) ended rest

/-- The names of commands that can be asked about. -/
def topics : List (List String) := [[], ["compile"], ["runtime"], ["help"]]

/-- Read all arguments; `none` if they ask for nothing that can be done. -/
def ofArguments? : List String → Option Request
  | "compile" :: rest => compileFrom {} rest
  | "runtime" :: rest => helperFrom none false rest
  | "help" :: rest => if topics.contains rest then some .help else none
  | first :: _ =>
      if isHelp first then some .help
      else if first == "--version" || "-V".toList.isPrefixOf first.toList then some .version
      else none
  | [] => none

end Request

end Template
