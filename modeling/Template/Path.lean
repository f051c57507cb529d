/-!
# Paths

A path is a list of names. It leads from the working directory, or from the root when
it starts with a slash, through directories to the place of its last name. A place is
kept apart from the paths that lead to it: it has one spelling, in which `..` stands at
the front only, where it leads above the working directory.
-/

namespace Template

/-- Where the names of a place are counted from. -/
inductive Anchor where
  /-- A directory that lies some levels above the working directory. -/
  | working (above : Nat)
  | root
  deriving DecidableEq, Repr

namespace Anchor

/-- The directory around it; the root is around itself. -/
def parent : Anchor → Anchor
  | .working above => .working (above + 1)
  | .root => .root

/-- The names that a spelling from the working directory begins with. -/
def names : Anchor → List String
  | .working above => List.replicate above ".."
  | .root => [""]

end Anchor

/-- A place in the tree of directories: the names that lead to it from its anchor. -/
structure Place where
  anchor : Anchor
  names : List String := []
  deriving DecidableEq, Repr

namespace Place

/-- The place of a name in a directory. -/
def child (place : Place) (name : String) : Place :=
  { place with names := place.names ++ [name] }

/-- The directory that a place lies in. -/
def parent (place : Place) : Place :=
  if place.names.isEmpty then { anchor := place.anchor.parent }
  else { place with names := place.names.dropLast }

/-- The place that a name leads to from a directory. -/
def next (place : Place) (name : String) : Place :=
  if name == "." then place else if name == ".." then place.parent else place.child name

/-- The places of the directories between the anchor and a place. -/
def ancestors (place : Place) : List Place :=
  (List.range place.names.length).map fun count => { place with names := place.names.take count }

/-- The spelling of a place. -/
def text (place : Place) : String :=
  "/".intercalate (place.anchor.names ++ place.names)

end Place

/-- A path as it is written. -/
structure Path where
  anchor : Anchor
  names : List String
  /-- Whether a slash follows the last name. -/
  closed : Bool
  deriving DecidableEq, Repr

namespace Path

/-- Cut a text at each slash. -/
def cutSlashes : List Char → List (List Char)
  | [] => [[]]
  | char :: rest =>
    match char == '/', cutSlashes rest with
    | true, parts => [] :: parts
    | false, part :: parts => (char :: part) :: parts
    | false, [] => [[char]]

/-- Read a path. Several slashes count as one. -/
def ofString (text : String) : Path where
  anchor := if text.toList.head? == some '/' then .root else .working 0
  names := ((cutSlashes text.toList).map String.ofList).filter (!·.isEmpty)
  closed := text.toList.getLast? == some '/'

/-- The place where a path starts. -/
def start (path : Path) : Place := { anchor := path.anchor }

/-- Whether a name stays in its directory or leaves it, instead of naming an entry. -/
def isDots (name : String) : Bool := name == "." || name == ".."

/-- The place that a path leads to when all directories on its way are there. -/
def place (path : Path) : Place := path.names.foldl Place.next path.start

end Path

end Template
