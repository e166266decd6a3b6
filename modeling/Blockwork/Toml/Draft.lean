import Blockwork.Table
import Blockwork.Toml.Basic

/-!
Tables while their document is read.

A table may be filled from several places, and what may still be added to it depends on how it came
about: a header defines a table once, a dotted key adds only to tables that dotted keys made.
-/

namespace Blockwork.Toml

/-- A dotted key: the steps to a table, and a name in it. -/
structure Key where
  path : List String
  name : String

/-- How a table came into a document. -/
inductive Origin where
  /-- By a header of its own. -/
  | header
  /-- As a step of another table's header. -/
  | step
  /-- As a step of a dotted key. -/
  | dotted
  deriving DecidableEq

/-- What a name stands for so far. -/
inductive Draft where
  | value (v : Toml)
  | table (origin : Origin) (entries : List (String × Draft))
  /-- An array of tables, the latest first. -/
  | tables (latestFirst : List Draft)

namespace Draft

/-- Changes the table at the end of a path, and makes the tables that are missing on the way.  The
path goes through the latest table of an array.  A dotted key does not go through a table that has a
header. -/
def changeAt (dotted : Bool) (change : Origin → Table Draft → Option (Table Draft)) :
    List String → Origin → Table Draft → Option (Table Draft)
  | [], origin, entries => change origin entries
  | name :: path, _, entries => do
    let child ← match Table.get? name entries with
      | none =>
        let origin := if dotted then Origin.dotted else .step
        (changeAt dotted change path origin []).map (table origin)
      | some (table origin below) =>
        if dotted && origin == .header then none
        else (changeAt dotted change path origin below).map (table origin)
      | some (tables (table origin below :: earlier)) =>
        (changeAt dotted change path origin below).map (tables <| table origin · :: earlier)
      | some _ => none
    pure (Table.insert name child entries)

/-- Adds a value.  Its name must be new, and a dotted key must lead to a table of dotted keys. -/
def addValue (key : Key) (v : Toml) : Table Draft → Option (Table Draft) :=
  changeAt true (fun origin entries =>
    if (!key.path.isEmpty && origin != .dotted) || Table.contains key.name entries then none
    else some (Table.insert key.name (value v) entries)) key.path .header

/-- Opens the table of a header.  The name must be new, or be so far only a step of other headers. -/
def openTable (key : Key) : Table Draft → Option (Table Draft) :=
  changeAt false (fun _ entries =>
    match Table.get? key.name entries with
    | none => some (Table.insert key.name (table .header []) entries)
    | some (table .step below) => some (Table.insert key.name (table .header below) entries)
    | some _ => none) key.path .header

/-- Opens one more table of an array of tables. -/
def openElement (key : Key) : Table Draft → Option (Table Draft) :=
  changeAt false (fun _ entries =>
    match Table.get? key.name entries with
    | none => some (Table.insert key.name (tables [table .header []]) entries)
    | some (tables ts) => some (Table.insert key.name (tables (table .header [] :: ts)) entries)
    | some _ => none) key.path .header

mutual

/-- The finished value. -/
def toToml : Draft → Toml
  | value v => v
  | table _ entries => .table (toEntries entries)
  | tables latestFirst => .arr (toItems latestFirst).reverse

/-- The finished entries of a table. -/
def toEntries : List (String × Draft) → List (String × Toml)
  | [] => []
  | (name, d) :: rest => (name, toToml d) :: toEntries rest

/-- The finished tables of an array, in the order in which they are kept. -/
def toItems : List Draft → List Toml
  | [] => []
  | d :: rest => toToml d :: toItems rest

end

end Draft

/-- The table that holds the given entries and nothing else. -/
def ofEntries? (entries : List (Key × Toml)) : Option Toml :=
  (entries.foldlM (fun t e => Draft.addValue e.1 e.2 t) []).map fun t => .table (Draft.toEntries t)

end Blockwork.Toml
