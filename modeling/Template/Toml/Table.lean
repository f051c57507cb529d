import Template.Toml

/-!
# Tables under construction

A table of a TOML document may be defined by a header, by the headers of the tables
inside it, or by dotted keys, and no table may be defined twice. A table under
construction remembers how it came about; `Table.update` walks to the table at a
path, making the tables on the way.
-/

namespace Template.Toml

mutual

/-- What a key of a table under construction stands for. -/
inductive Item where
  /-- A value, to which nothing can be added. -/
  | value (value : Toml)
  /-- A table, to which its definition can add. -/
  | table (table : Table)
  /-- An array of tables, of which the last can grow. -/
  | tables (tables : List Table)

/-- A table under construction. It is implicit until a header defines it, and dotted
if a dotted key made it. -/
structure Table where
  implicit : Bool
  dotted : Bool
  entries : List (String × Item)

end

namespace Table

/-- A table that a header has just defined. -/
def empty : Table := ⟨false, false, []⟩

/-- The item of a key. -/
def find? (table : Table) (key : String) : Option Item :=
  table.entries.lookup key

/-- Replace the item of a key, or append it. -/
def set (table : Table) (key : String) (item : Item) : Table :=
  let entries :=
    if (table.find? key).isSome then
      table.entries.map fun (name, old) => (name, if name == key then item else old)
    else table.entries ++ [(key, item)]
  { table with entries }

/-- Change the table at a path. Tables that are missing on the way are made, by a
header or by a dotted key; a dotted key enters no table that a header defined. -/
def update (dotted : Bool) (change : Table → Option Table) : List String → Table → Option Table
  | [], current => change current
  | key :: path, current =>
    match current.find? key with
    | none => do
        let child ← update dotted change path ⟨true, dotted, []⟩
        return current.set key (.table child)
    | some (.value _) => none
    | some (.table child) =>
        if dotted && !child.implicit then none
        else do
          let child ← update dotted change path child
          return current.set key (.table child)
    | some (.tables children) =>
        match children.getLast? with
        | none => none
        | some last => do
            let last ← update dotted change path last
            return current.set key (.tables (children.dropLast ++ [last]))

/-- Give a value to a key of a table; `direct` says that no dotted key led here. -/
def put (direct : Bool) (key : String) (value : Toml) (table : Table) : Option Table :=
  if table.dotted == direct || (table.find? key).isSome then none
  else some (table.set key (.value value))

/-- Give a value to a dotted key. -/
def assign (path : List String) (value : Toml) (table : Table) : Option Table :=
  match path.getLast? with
  | none => none
  | some key => update true (put (path.length == 1) key value) path.dropLast table

/-- Define the table of a key by a header. -/
def openTable (key : String) (table : Table) : Option Table :=
  match table.find? key with
  | none => some (table.set key (.table empty))
  | some (.table child) =>
      if child.implicit && !child.dotted then
        some (table.set key (.table { child with implicit := false }))
      else none
  | some _ => none

/-- Append a table to the array of a key. -/
def openElement (key : String) (table : Table) : Option Table :=
  match table.find? key with
  | none => some (table.set key (.tables [empty]))
  | some (.tables children) => some (table.set key (.tables (children ++ [empty])))
  | some _ => none

end Table

mutual

/-- The value of an item. -/
def Item.toml : Item → Toml
  | .value found => found
  | .table ⟨_, _, entries⟩ => .table (Item.entriesToml entries)
  | .tables found => .array (Item.tablesToml found)

/-- The values of tables. -/
def Item.tablesToml : List Table → List Toml
  | [] => []
  | ⟨_, _, entries⟩ :: rest => .table (Item.entriesToml entries) :: Item.tablesToml rest

/-- The values of entries. -/
def Item.entriesToml : List (String × Item) → List (String × Toml)
  | [] => []
  | (key, item) :: rest => (key, item.toml) :: Item.entriesToml rest

end

/-- The value of a finished table. -/
def Table.toml (table : Table) : Toml := .table (Item.entriesToml table.entries)

/-- A statement of a document. -/
inductive Statement where
  | assign (path : List String) (value : Toml)
  | openTable (path : List String)
  | openElement (path : List String)

/-- A document under construction: all tables, and the path of the last header. -/
structure Document where
  root : Table := Table.empty
  header : List String := []

namespace Document

/-- Apply a change at the table that a header names last. -/
def atHeader (document : Document) (path : List String)
    (change : String → Table → Option Table) : Option Document :=
  match path.getLast? with
  | none => none
  | some key => do
      let root ← document.root.update false (change key) path.dropLast
      return { root, header := path }

/-- Apply a statement; `none` if it defines something twice. -/
def step (document : Document) : Statement → Option Document
  | .assign path value => do
      let root ← document.root.update false (Table.assign path value) document.header
      return { document with root }
  | .openTable path => document.atHeader path Table.openTable
  | .openElement path => document.atHeader path Table.openElement

/-- Apply statements in order. -/
def run (document : Document) : List Statement → Option Document
  | [] => some document
  | first :: rest =>
    match document.step first with
    | none => none
    | some document => document.run rest

end Document

end Template.Toml
