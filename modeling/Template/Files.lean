import Template.Path

/-!
# Files

What a command asks of the files around it, as a record of operations over any monad,
and a pure model of the files in which commands can be run without effects. A path is
followed name by name: each name but the last has to lead to a directory, and the first
name that leads nowhere decides the fault.
-/

namespace Template

/-- Why a file cannot be read or written. -/
inductive FileFault where
  | notFound
  | isDirectory
  | notDirectory
  | nameTooLong
  | other (reason : String)
  deriving DecidableEq, Repr

/-- The text of a fault. -/
def FileFault.message : FileFault → String
  | .notFound => "No such file or directory (os error 2)"
  | .isDirectory => "Is a directory (os error 21)"
  | .notDirectory => "Not a directory (os error 20)"
  | .nameTooLong => "File name too long (os error 36)"
  | .other reason => reason

/-- The operations on files that a command uses. -/
structure FileAccess (m : Type → Type) where
  present : String → m Bool
  read : String → m (Except FileFault String)
  write : String → String → m (Except FileFault Unit)

/-- What a place holds. -/
inductive Entry where
  | file (text : String)
  | directory
  deriving DecidableEq, Repr

/-- Files and directories by the spellings of their places. The root, the working
directory and the directories above it are there without being listed. -/
abbrev Files := List (String × Entry)

namespace Files

/-- The number of bytes that a name may have. -/
def maxName : Nat := 255

/-- The number of bytes that a path may have. -/
def maxPath : Nat := 4095

/-- The entry at a place. -/
def entry? (files : Files) (place : Place) : Option Entry :=
  if place.names.isEmpty then some .directory else files.lookup place.text

/-- Go from a directory to a name in it. -/
def step (files : Files) (place : Place) (name : String) : Except FileFault Place :=
  if files.entry? place ≠ some .directory then .error .notDirectory
  else if Path.isDots name then .ok (place.next name)
  else if maxName < name.utf8ByteSize then .error .nameTooLong
  else if (files.entry? (place.next name)).isSome then .ok (place.next name)
  else .error .notFound

/-- Follow names from a place. -/
def walk (files : Files) : Place → List String → Except FileFault Place
  | place, [] => .ok place
  | place, name :: rest => do files.walk (← files.step place name) rest

/-- Read the text of a path, which is neither empty nor too long. -/
def pathOf (text : String) : Except FileFault Path :=
  if text.isEmpty then .error .notFound
  else if maxPath < text.utf8ByteSize then .error .nameTooLong
  else .ok (.ofString text)

/-- The entry that a path leads to. Only a directory can have a slash after it. -/
def find (files : Files) (text : String) : Except FileFault Entry := do
  let path ← pathOf text
  match files.entry? (← files.walk path.start path.names) with
  | none => .error .notFound
  | some .directory => .ok .directory
  | some (.file text) => if path.closed then .error .notDirectory else .ok (.file text)

/-- Whether there is anything at a path. -/
def present (files : Files) (path : String) : Bool :=
  match files.find path with
  | .ok _ => true
  | .error _ => false

/-- The text of the file at a path. -/
def read (files : Files) (path : String) : Except FileFault String := do
  match ← files.find path with
  | .file text => .ok text
  | .directory => .error .isDirectory

/-- The place of the file that a path gives to be written: a name that is not too
long in a directory that is there. -/
def target (files : Files) (text : String) : Except FileFault Place := do
  let path ← pathOf text
  match path.names.getLast? with
  | none => .error .isDirectory
  | some name =>
    let parent ← files.walk path.start path.names.dropLast
    if files.entry? parent ≠ some .directory then .error .notDirectory
    else if Path.isDots name || path.closed then .error .isDirectory
    else if maxName < name.utf8ByteSize then .error .nameTooLong
    else if files.entry? (parent.next name) = some .directory then .error .isDirectory
    else .ok (parent.next name)

/-- Give a text to a place, in place of what is there. -/
def put (files : Files) (place text : String) : Files :=
  match files with
  | [] => [(place, .file text)]
  | (name, entry) :: rest =>
    if name == place then (name, .file text) :: rest else (name, entry) :: put rest place text

/-- Write a text to the file at a path. -/
def write (files : Files) (path text : String) : Except FileFault Files := do
  return files.put (← files.target path).text text

/-- The operations on files that are kept as a value. -/
def access : FileAccess (StateM Files) where
  present path := return (← get).present path
  read path := return (← get).read path
  write path text := do
    match (← get).write path text with
    | .ok files =>
        set files
        return .ok ()
    | .error fault => return .error fault

/-! ## A working directory on a machine -/

/-- The directories under the root of a machine. -/
def topDirectories : List String :=
  ["/bin", "/boot", "/dev", "/etc", "/home", "/lib", "/media", "/mnt", "/opt", "/proc",
    "/root", "/run", "/sbin", "/srv", "/sys", "/tmp", "/usr", "/var"]

/-- What is outside of a working directory: the directories under the root, and a device
without content. -/
def surroundings : Files :=
  topDirectories.map (·, .directory) ++ [("/dev/null", .file "")]

/-- The directories on the way to a place that are not listed yet. -/
def missingAncestors (files : Files) (place : Place) : Files :=
  place.ancestors.filterMap fun ancestor =>
    if (files.entry? ancestor).isSome then none else some (ancestor.text, .directory)

/-- Files and directories in a working directory by the paths that they are given by,
with the directories that they need and what is outside of the working directory. -/
def inDirectory (entries : List (Path × Entry)) : Files :=
  let listed := entries.map fun (path, entry) => (path.place.text, entry)
  entries.foldl (fun files (path, _) => files ++ files.missingAncestors path.place)
    (listed ++ surroundings)

end Files

end Template
