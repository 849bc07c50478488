/-!
# Items of a configuration file

A configuration file in the TOML format is a table of items. A table can be opened by a header, by
the path of a header below it, or by a dotted key; each of these ways says what may be added to the
table later.
-/

namespace Parcel.Toml

/-- How a table came to be. -/
inductive Opening where
  /-- By its own header. -/
  | header
  /-- By the path of a header below it. -/
  | path
  /-- By a dotted key. -/
  | dotted
  /-- As a whole, in braces; nothing can be added to it. -/
  | braces
  deriving DecidableEq, Repr

/-- An item of a configuration file. -/
inductive Item where
  | string (value : String)
  | integer (value : Int)
  | bool (value : Bool)
  /-- A floating-point number, a date or a time. -/
  | other
  | array (items : List Item)
  | table (opening : Opening) (entries : List (String × Item))
  /-- An array of tables, each with a header of its own. -/
  | tables (elements : List (List (String × Item)))

/-- The entries of a table, in the order in which they appear. -/
abbrev Table := List (String × Item)

def Table.get? (table : Table) (key : String) : Option Item :=
  table.lookup key

def Table.set (table : Table) (key : String) (item : Item) : Table :=
  match table with
  | [] => [(key, item)]
  | entry :: rest =>
    if entry.1 = key then (key, item) :: rest else entry :: Table.set rest key item

def onLast? (change : Table → Option Table) : List Table → Option (List Table)
  | [] => none
  | [last] => (change last).map ([·])
  | table :: rest => (onLast? change rest).map (table :: ·)

/-! ### Keys -/

/-- Adds an entry under a dotted key to a table that was opened in a given way. Dotted keys open
tables, and add only to tables that dotted keys opened. -/
def insertKey? (opening : Opening) (table : Table) : List String → Item → Option Table
  | [], _ => none
  | [key], item =>
    if (table.get? key).isSome then none
    else if opening = .path then none
    else some (table.set key item)
  | key :: path, item =>
    match table.get? key with
    | none => do
      let inner ← insertKey? .dotted [] path item
      return table.set key (.table .dotted inner)
    | some (.table .dotted inner) => do
      let inner ← insertKey? .dotted inner path item
      return table.set key (.table .dotted inner)
    | some (.table .path inner) => do
      let inner ← insertKey? .path inner path item
      return table.set key (.table .path inner)
    | some (.tables elements) => do
      let elements ← onLast? (insertKey? .path · path item) elements
      return table.set key (.tables elements)
    | _ => none

/-! ### Headers -/

/-- Changes the table under a path; tables on the way are opened if need be. -/
def atPath? (change : Table → Option Table) (table : Table) : List String → Option Table
  | [] => change table
  | key :: path =>
    match table.get? key with
    | none => do
      let inner ← atPath? change [] path
      return table.set key (.table .path inner)
    | some (.table .braces _) => none
    | some (.table opening inner) => do
      let inner ← atPath? change inner path
      return table.set key (.table opening inner)
    | some (.tables elements) => do
      let elements ← onLast? (atPath? change · path) elements
      return table.set key (.tables elements)
    | _ => none

/-- The path of the table around the one that a path leads to, and the name of that one. -/
def splitPath? (path : List String) : Option (List String × String) :=
  path.getLast?.map fun key => (path.dropLast, key)

/-- Opens the table of a header. A table has one header; its path may have opened it before. -/
def openTable? (root : Table) (path : List String) : Option Table := do
  let (parents, key) ← splitPath? path
  atPath?
    (fun table =>
      match table.get? key with
      | none => some (table.set key (.table .header []))
      | some (.table .path inner) => some (table.set key (.table .header inner))
      | _ => none)
    root parents

def openElement? (root : Table) (path : List String) : Option Table := do
  let (parents, key) ← splitPath? path
  atPath?
    (fun table =>
      match table.get? key with
      | none => some (table.set key (.tables [[]]))
      | some (.tables elements) => some (table.set key (.tables (elements ++ [[]])))
      | _ => none)
    root parents

def addEntry? (root : Table) (header key : List String) (item : Item) : Option Table :=
  atPath? (insertKey? .header · key item) root header

end Parcel.Toml
