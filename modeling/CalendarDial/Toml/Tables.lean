import CalendarDial.Config.Value

/-!
# Tables under construction

A TOML text names the same table in several places: as a step of a dotted key, on the way to the
table of a header, or in the header itself. Which of these may come together depends on how the
table came into being, so that is kept until the text has been read.

- A header may open a table once; one that had only been passed on the way to others counts as new.
- A dotted key may enter tables that dotted keys or the ways to headers have made, not one that has
  been opened, and may add to the first kind alone.
- A header of a list of tables starts a new table in the list, and later headers enter the last one.
-/

namespace CalendarDial.Toml

open Config (Value lookup put)

/-- How a table came into being: on the way to the table of a header, by a dotted key, or by a
header of its own. -/
inductive Origin where
  | passed
  | dotted
  | opened
deriving DecidableEq

/-- What a key leads to: a value, a table, or a list of tables, the last one first. -/
inductive Node where
  | value (value : Value)
  | table (origin : Origin) (entries : List (String × Node))
  | tables (reversed : List (List (String × Node)))

/-- The entries of a table under construction. -/
abbrev Entries := List (String × Node)

namespace Entries

/-- Changes the table that a path of keys leads to. Tables that are missing on the way are made with
the given origin; the change is told the origin of the table that it is made in. -/
def alter (made : Origin) (change : Origin → Entries → Option Entries) :
    Origin → List String → Entries → Option Entries
  | origin, [], entries => change origin entries
  | _, key :: path, entries =>
    match lookup key entries with
    | none => (alter made change made path []).map fun inner => put key (.table made inner) entries
    | some (.table origin inner) =>
      if made = .dotted ∧ origin = .opened then none
      else (alter made change origin path inner).map fun inner =>
        put key (.table origin inner) entries
    | some (.tables (inner :: earlier)) =>
      (alter made change .opened path inner).map fun inner =>
        put key (.tables (inner :: earlier)) entries
    | some (.tables []) => none
    | some (.value _) => none

/-- Adds a value under a dotted key, which is given as the keys before the last and the last one. -/
def addValue (path : List String) (key : String) (value : Value) : Entries → Option Entries :=
  alter .dotted (fun origin entries =>
    if (path ≠ [] ∧ origin ≠ .dotted) ∨ (lookup key entries).isSome then none
    else some (put key (.value value) entries)) .opened path

/-- Opens the table that a header names. -/
def openTable (path : List String) (key : String) : Entries → Option Entries :=
  alter .passed (fun _ entries =>
    match lookup key entries with
    | none => some (put key (.table .opened []) entries)
    | some (.table .passed inner) => some (put key (.table .opened inner) entries)
    | some _ => none) .opened path

/-- Opens a new table in the list that a header names. -/
def openItem (path : List String) (key : String) : Entries → Option Entries :=
  alter .passed (fun _ entries =>
    match lookup key entries with
    | none => some (put key (.tables [[]]) entries)
    | some (.tables reversed) => some (put key (.tables ([] :: reversed)) entries)
    | some _ => none) .opened path

/-- Adds a value under a dotted key in the table that the last header opened. -/
def addUnder (header : List String) (path : List String) (key : String) (value : Value) :
    Entries → Option Entries :=
  alter .passed (fun _ entries => addValue path key value entries) .opened header

end Entries

mutual

/-- What is left of a node when it has been read. -/
def Node.toValue : Node → Value
  | .value value => value
  | .table _ entries => .table (Entries.toValues entries)
  | .tables reversed => .list (Entries.toTables reversed).reverse

/-- The entries of a table with their values. -/
def Entries.toValues : Entries → List (String × Value)
  | [] => []
  | (key, node) :: entries => (key, node.toValue) :: Entries.toValues entries

/-- The tables of a list as values. -/
def Entries.toTables : List Entries → List Value
  | [] => []
  | entries :: others => .table (Entries.toValues entries) :: Entries.toTables others

end

end CalendarDial.Toml
