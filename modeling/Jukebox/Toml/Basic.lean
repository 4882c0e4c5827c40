/-!
TOML documents as data. Real numbers and times are told apart from other values, but what they are
is not kept.
-/

namespace Jukebox.Toml

/-- A TOML value. -/
inductive Value where
  | string (value : String)
  | integer (value : Int)
  | real
  | bool (value : Bool)
  | time
  | array (items : List Value)
  | table (entries : List (String × Value))

/-! ### Tables that are still being written -/

/-- How a table came about: by a header, as a parent named in a header, or by a dotted key. -/
inductive Origin where
  | header
  | parent
  | dotted
deriving DecidableEq

/-- A node of a document: a value, which is complete, a table, or an array of tables. -/
inductive Node where
  | value (value : Value)
  | table (origin : Origin) (entries : List (String × Node))
  | tables (items : List (List (String × Node)))

/-- The entries of a table. -/
abbrev Entries := List (String × Node)

namespace Entries

/-- Puts a node at a key; a node that is there already gives way. -/
def put (entries : Entries) (key : String) (node : Node) : Entries :=
  match entries with
  | [] => [(key, node)]
  | (other, old) :: rest =>
    if other = key then (key, node) :: rest else (other, old) :: put rest key node

/-- Adds a node at a key that is not in use. -/
def add? (entries : Entries) (key : String) (node : Node) : Option Entries :=
  if (entries.lookup key).isSome then none else some (entries.put key node)

/-- Assigns a value to a dotted key. The tables on the way are made as they are needed. A table
that was opened by a header is complete, and only a table of dotted keys takes the last key. -/
def assign? (entries : Entries) : (path : List String) → (key : String) → Value → Option Entries
  | [], key, value => entries.add? key (.value value)
  | step :: rest, key, value =>
    match entries.lookup step with
    | none => do
      entries.put step (.table .dotted (← assign? [] rest key value))
    | some (.table origin inner) =>
      if origin = .header ∨ (rest.isEmpty ∧ origin ≠ .dotted) then none
      else do entries.put step (.table origin (← assign? inner rest key value))
    | some (.tables items) =>
      match items.getLast? with
      | some last =>
        if rest.isEmpty then none
        else do entries.put step (.tables (items.dropLast ++ [← assign? last rest key value]))
      | none => none
    | some (.value _) => none

/-- Changes the table that a header path leads to, where an array of tables means its last one. The
tables on the way are made as they are needed. -/
def within? (edit : Entries → Option Entries) : Entries → (path : List String) → Option Entries
  | entries, [] => edit entries
  | entries, step :: rest =>
    match entries.lookup step with
    | none => do entries.put step (.table .parent (← within? edit [] rest))
    | some (.table origin inner) => do
      entries.put step (.table origin (← within? edit inner rest))
    | some (.tables items) => do
      let last ← items.getLast?
      entries.put step (.tables (items.dropLast ++ [← within? edit last rest]))
    | some (.value _) => none

/-- Opens the table of a header: a new one, or one that was only named as a parent so far. -/
def openTable? (key : String) (entries : Entries) : Option Entries :=
  match entries.lookup key with
  | none => some (entries.put key (.table .header []))
  | some (.table .parent inner) => some (entries.put key (.table .header inner))
  | some _ => none

/-- Opens another table of an array of tables. -/
def openTables? (key : String) (entries : Entries) : Option Entries :=
  match entries.lookup key with
  | none => some (entries.put key (.tables [[]]))
  | some (.tables items) => some (entries.put key (.tables (items ++ [[]])))
  | some _ => none

end Entries

mutual

/-- The value that a node has when the document is complete. -/
def Node.toValue : Node → Value
  | .value v => v
  | .table _ entries => .table (entriesToValues entries)
  | .tables items => .array (tablesToValues items)

/-- The values of the entries of a table. -/
def entriesToValues : List (String × Node) → List (String × Value)
  | [] => []
  | (key, node) :: rest => (key, node.toValue) :: entriesToValues rest

/-- The values of the tables of an array. -/
def tablesToValues : List (List (String × Node)) → List Value
  | [] => []
  | entries :: rest => .table (entriesToValues entries) :: tablesToValues rest

end

end Jukebox.Toml
