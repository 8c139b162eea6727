import MailMerge.Datum

/-!
# Tables in the making

While a document is read its tables grow, and how a table came into being decides what may still be
added to it.  A table with a header of its own is not opened a second time; one that was only named on
the way to another may get its header later; one that was made by dotted keys gets more entries from
dotted keys and from nowhere else.  A value that is complete, such as an array or a table between
braces, is never extended.
-/

namespace MailMerge.Toml

set_option autoImplicit false

/-- How a table came into being. -/
inductive Origin where
  /-- It has a header. -/
  | header
  /-- It was named on the way to a table with a header. -/
  | implied
  /-- It was made by dotted keys. -/
  | dotted
  deriving DecidableEq, Repr

/-- What is under a key. -/
inductive Node where
  /-- A complete value. -/
  | leaf (value : Datum)
  /-- A table. -/
  | table (origin : Origin) (entries : List (String × Node))
  /-- Tables in a row, each begun by a header in double brackets. -/
  | tables (elements : List (List (String × Node)))

/-- The entries of a table in the order in which they were made. -/
abbrev Entries := List (String × Node)

/-- The entries with one of them replaced, or added at the end. -/
def Entries.put (entries : Entries) (key : String) (node : Node) : Entries :=
  if entries.any (·.1 == key) then
    entries.map fun entry => if entry.1 == key then (key, node) else entry
  else entries ++ [(key, node)]

/-- The elements with the last one changed. -/
def changeLast (change : Entries → Option Entries) : List Entries → Option (List Entries)
  | [] => none
  | [last] => (change last).map fun changed => [changed]
  | element :: rest => (changeLast change rest).map (element :: ·)

/-- The entries with a node added under a key at the end of a path of dotted keys. -/
def insertAt (key : String) (node : Node) : List String → Entries → Option Entries
  | [], entries => if entries.any (·.1 == key) then none else some (entries ++ [(key, node)])
  | name :: path, entries =>
    match entries.lookup name with
    | none => (insertAt key node path []).map fun inner => entries ++ [(name, .table .dotted inner)]
    | some (.table .dotted inner) =>
      (insertAt key node path inner).map fun inner => entries.put name (.table .dotted inner)
    | some (.table .implied inner) =>
      if path.isEmpty then none
      else (insertAt key node path inner).map fun inner => entries.put name (.table .implied inner)
    | some (.tables elements) =>
      if path.isEmpty then none
      else
        (changeLast (insertAt key node path) elements).map fun elements =>
          entries.put name (.tables elements)
    | some (.table .header _) | some (.leaf _) => none

/-- The entries with the table at the end of a path of headers changed. -/
def changeAt (change : Entries → Option Entries) : List String → Entries → Option Entries
  | [], entries => change entries
  | name :: path, entries =>
    match entries.lookup name with
    | none =>
      (changeAt change path []).map fun inner => entries ++ [(name, .table .implied inner)]
    | some (.table origin inner) =>
      (changeAt change path inner).map fun inner => entries.put name (.table origin inner)
    | some (.tables elements) =>
      (changeLast (changeAt change path) elements).map fun elements =>
        entries.put name (.tables elements)
    | some (.leaf _) => none

/-- The entries with a table opened by its header. -/
def openTable (key : String) (entries : Entries) : Option Entries :=
  match entries.lookup key with
  | none => some (entries ++ [(key, .table .header [])])
  | some (.table .implied inner) => some (entries.put key (.table .header inner))
  | some _ => none

/-- The entries with one more element opened by a header in double brackets. -/
def openElement (key : String) (entries : Entries) : Option Entries :=
  match entries.lookup key with
  | none => some (entries ++ [(key, .tables [[]])])
  | some (.tables elements) => some (entries.put key (.tables (elements ++ [[]])))
  | some _ => none

/-- Fields with one more in its place. -/
def insertSorted (name : String) (value : Datum) :
    List (String × Datum) → List (String × Datum)
  | [] => [(name, value)]
  | (n, v) :: rest =>
    if name < n then (name, value) :: (n, v) :: rest else (n, v) :: insertSorted name value rest

mutual

/-- The value of a complete node. -/
def Node.datum : Node → Datum
  | .leaf value => value
  | .table _ entries => .record (fieldsOf entries)
  | .tables elements => .list (recordsOf elements)

/-- The fields of a complete table. -/
def fieldsOf : List (String × Node) → List (String × Datum)
  | [] => []
  | (name, node) :: rest => insertSorted name node.datum (fieldsOf rest)

/-- The values of complete tables in a row. -/
def recordsOf : List (List (String × Node)) → List Datum
  | [] => []
  | entries :: rest => .record (fieldsOf entries) :: recordsOf rest

end

end MailMerge.Toml
