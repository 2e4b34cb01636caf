import JavaOutline.Toml.Basic

/-!
# Building TOML tables

A document defines a table by a header, by dotted keys, or implicitly by a header or a key of
something inside it. A table is defined once: a header may define a table that until then was
implied by other headers, and dotted keys may add to tables that dotted keys implied. `Builder`
keeps the table of the current header apart until the next header comes.
-/

namespace JavaOutline.Toml

mutual

/-- What stands under a key while a document is read. -/
inductive Item where
  | value (value : Toml)
  | table (inner : Table)
  /-- The tables of headers in double brackets. -/
  | tables (elements : List Table)

/-- A table while a document is read. -/
inductive Table where
  /-- `implied` says that no header defined the table itself, and `dotted` that dotted keys
  implied it. -/
  | mk (implied dotted : Bool) (entries : List (String × Item))

end

namespace Table

/-- A table that a header defines, without entries. -/
def empty : Table := .mk false false []

/-- Whether no header defined the table itself. -/
def implied : Table → Bool
  | mk implied _ _ => implied

/-- Whether dotted keys implied the table. -/
def dotted : Table → Bool
  | mk _ dotted _ => dotted

/-- The entries in order. -/
def entries : Table → List (String × Item)
  | mk _ _ entries => entries

/-- The table with other entries. -/
def withEntries : Table → List (String × Item) → Table
  | mk implied dotted _, entries => mk implied dotted entries

/-- What stands under a key. -/
def find? (host : Table) (key : String) : Option Item :=
  (host.entries.find? (·.1 = key)).map (·.2)

/-- The table with another item under a key that it has. -/
def replace (host : Table) (key : String) (item : Item) : Table :=
  host.withEntries (host.entries.map fun entry => if entry.1 = key then (key, item) else entry)

/-- The table with a new last entry. -/
def append (host : Table) (key : String) (item : Item) : Table :=
  host.withEntries (host.entries ++ [(key, item)])

/-- The table without a key. -/
def erase (host : Table) (key : String) : Table :=
  host.withEntries (host.entries.filter (·.1 ≠ key))

/-- Changes the table that a path leads to, and implies the tables on the way that are not there.
A path leads into the last of several tables, and not into a value. Dotted keys lead only into
tables that are implied. -/
def update? (dotted : Bool) (change : Table → Option Table) :
    (path : List String) → Table → Option Table
  | [], host => change host
  | key :: path, host =>
    match host.find? key with
    | none => (update? dotted change path (.mk true dotted [])).map fun inner =>
      host.append key (.table inner)
    | some (.table inner) =>
      if dotted && !inner.implied then none
      else (update? dotted change path inner).map fun inner => host.replace key (.table inner)
    | some (.tables elements) =>
      match elements.getLast? with
      | none => none
      | some last => (update? dotted change path last).map fun last =>
        host.replace key (.tables (elements.dropLast ++ [last]))
    | some (.value _) => none

/-- Adds a value under a dotted key. The key must be new, and its table one that dotted keys may
add to. -/
def insert? (host : Table) (path : List String) (key : String) (value : Toml) : Option Table :=
  update? true (fun inner =>
    if inner.dotted = path.isEmpty || (inner.find? key).isSome then none
    else some (inner.append key (.value value))) path host

end Table

mutual

/-- The value of an item. -/
def Item.toToml : Item → Toml
  | .value value => value
  | .table inner => Table.toToml inner
  | .tables elements => .array (Table.allToToml elements)

/-- The value of a table. -/
def Table.toToml : Table → Toml
  | .mk _ _ entries => .table (Table.entriesToToml entries)

/-- The values of some tables. -/
def Table.allToToml : List Table → List Toml
  | [] => []
  | first :: rest => Table.toToml first :: Table.allToToml rest

/-- The values of some entries. -/
def Table.entriesToToml : List (String × Item) → List (String × Toml)
  | [] => []
  | (key, item) :: entries => (key, Item.toToml item) :: Table.entriesToToml entries

end

/-- A document while it is read. -/
structure Builder where
  /-- The tables of the headers before the current one. -/
  root : Table
  /-- The table of the current header. -/
  current : Table
  /-- The path of the current header: the tables on the way and the last key; before the first
  header there is none. -/
  header : Option (List String × String)
  /-- Whether the current header has double brackets. -/
  repeated : Bool

namespace Builder

/-- A document without entries. -/
def empty : Builder := ⟨.empty, .empty, none, false⟩

/-- Puts the table of the current header into the document. -/
def close? (builder : Builder) : Option Table :=
  match builder.header with
  | none => some builder.current
  | some (path, key) =>
    builder.root.update? false (fun parent =>
      match builder.repeated, parent.find? key with
      | true, none => some (parent.append key (.tables [builder.current]))
      | true, some (.tables elements) =>
        some (parent.replace key (.tables (elements ++ [builder.current])))
      | false, none => some (parent.append key (.table builder.current))
      | false, some (.table old) =>
        if old.implied then some (parent.replace key (.table builder.current)) else none
      | _, _ => none) path

/-- The table that a header in single brackets goes on to define: an implied one, or a new one. -/
def reopened? (parent : Table) (key : String) : Option Table :=
  match parent.find? key with
  | none => some .empty
  | some (.table (.mk true false entries)) => some (.mk false false entries)
  | some _ => none

/-- The table at the end of a path. -/
def tableAt? : (path : List String) → Table → Option Table
  | [], host => some host
  | key :: path, host =>
    match host.find? key with
    | none => some (.mk true false [])
    | some (.table inner) => tableAt? path inner
    | some (.tables elements) => elements.getLast?.bind (tableAt? path)
    | some (.value _) => none

/-- Begins the table of a header in single brackets. -/
def openTable? (builder : Builder) (path : List String) (key : String) : Option Builder := do
  let root ← builder.close?
  let parent ← tableAt? path root
  let current ← reopened? parent key
  let root ← root.update? false (fun parent => some (parent.erase key)) path
  return ⟨root, current, some (path, key), false⟩

/-- Begins a table of a header in double brackets. -/
def openElement? (builder : Builder) (path : List String) (key : String) : Option Builder := do
  let root ← builder.close?
  let root ← root.update? false (fun parent =>
    match parent.find? key with
    | none => some (parent.append key (.tables []))
    | some (.tables _) => some parent
    | some _ => none) path
  return ⟨root, .empty, some (path, key), true⟩

/-- Adds a value under a dotted key to the table of the current header. -/
def insert? (builder : Builder) (path : List String) (key : String) (value : Toml) :
    Option Builder :=
  (builder.current.insert? path key value).map fun current => { builder with current }

end Builder

end JavaOutline.Toml
