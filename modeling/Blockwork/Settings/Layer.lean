import Blockwork.Settings.Datum
import Blockwork.Settings.Path
import Blockwork.Text.Case

/-!
Layers of settings.  A layer is a table of values, and a later layer goes over an earlier one: tables
are joined name by name, and everything else is replaced.  Names are taken in lower case.
-/

namespace Blockwork.Layer

mutual

/-- A value laid over what is there. -/
def onto : Datum → Datum → Datum
  | .table [], present => present
  | .table entries, present => .table (ontoEntries entries present.entries)
  | v, _ => v

/-- Entries laid over a table, one after another. -/
def ontoEntries : List (String × Datum) → Table Datum → Table Datum
  | [], t => t
  | (name, v) :: rest, t =>
    let name := Text.lowercase name
    ontoEntries rest (Table.insert name (onto v ((Table.get? name t).getD (.table []))) t)

end

/-- The position of an item: a negative number counts from the end. -/
def position (i : Int) (length : Nat) : Nat := (if i < 0 then length + i else i).toNat

/-- Puts an item into a list, which is filled up with nulls as far as needed. -/
def putItem (i : Nat) (v : Datum) (items : List Datum) : List Datum :=
  (items ++ List.replicate (i + 1 - items.length) Datum.null).set i v

/-- Lays a value over the place to which a path leads.  What stands in the way of the path and is of
the wrong kind gives way.  An item is replaced, where an entry is laid over. -/
def place (v : Datum) : List Settings.Step → Datum → Datum
  | [], present => onto v present
  | .name name :: path, present =>
    let name := Text.lowercase name
    let below := (Table.get? name present.entries).getD (.table [])
    .table (Table.insert name (place v path below) present.entries)
  | [.item i], present => .arr (putItem (position i present.items.length) v present.items)
  | .item i :: path, present =>
    let i := position i present.items.length
    .arr (putItem i (place v path (present.items[i]?.getD .null)) present.items)

/-- Lays entries whose names may be paths over a value. -/
def lay (entries : Table Datum) (present : Datum) : Datum :=
  entries.foldl (fun d e => place e.2 (Settings.Step.pathOf e.1) d) present

/-! ### Variables -/

/-- How the names of variables start that hold settings, in lower case. -/
def mark : List Char := "cadence_".toList

/-- Two underscores stand for the point of a path. -/
def pointed : List Char → List Char
  | [] => []
  | '_' :: '_' :: rest => '.' :: pointed rest
  | c :: rest => c :: pointed rest

/-- The setting that a variable holds, if it holds one. -/
def settingOf? (name : String) : Option String :=
  let cs := (Text.lowercase name).toList
  if mark.isPrefixOf cs then some (String.ofList (pointed (cs.drop mark.length))) else none

/-- What the text of a variable stands for: a truth value, a number, or itself. -/
def valueOf (text : String) : Datum :=
  let word := Text.lowercase text
  if word = "true" then .bool true
  else if word = "false" then .bool false
  else
    match readInt64 text.toList with
    | some n => .int n
    | none =>
      match readDouble text.toList with
      | some x => .float x
      | none => .str text

/-- The layer of the variables. -/
def ofVariables (vars : Table String) : Table Datum :=
  Table.ofList (vars.filterMap fun (name, text) => (settingOf? name).map fun s => (s, valueOf text))

end Blockwork.Layer
