import Blockwork.Settings.Basic
import Blockwork.Settings.Layer

/-!
Settings from a value, and back.  A value is taken for what a setting needs where it can
be: a whole number for a float, a word for a truth value, a number for its text.
-/

namespace Blockwork.Settings

/-- A number. -/
def toFloat? : Datum → Option Float
  | .float x => some x
  | .int n => some (doubleOfInt n)
  | .bool b => some (if b then 1 else 0)
  | .str s =>
    let word := Text.lowercase s
    if word ∈ ["true", "on", "yes"] then some 1
    else if word ∈ ["false", "off", "no"] then some 0
    else readDouble s.toList
  | _ => none

/-- A truth value. -/
def toBool? : Datum → Option Bool
  | .bool b => some b
  | .int n => some (n ≠ 0)
  | .float x => some (x != 0)
  | .str s =>
    let word := Text.lowercase s
    if word ∈ ["1", "true", "on", "yes"] then some true
    else if word ∈ ["0", "false", "off", "no"] then some false
    else none
  | _ => none

/-- A text. -/
def toText? : Datum → Option String
  | .str s => some s
  | .bool b => some (if b then "true" else "false")
  | .int n => some (toString n)
  | .float x => some (plainText x)
  | _ => none

/-- An error policy: its name in any letter case, or a table with that name alone. -/
def toPolicy? (v : Datum) : Option ErrorPolicy :=
  let named (name : String) : Option ErrorPolicy :=
    ErrorPolicy.all.find? fun p => p.name == Text.lowercase name
  match v with
  | .str s => named s
  | .table [(name, _)] => named name
  | _ => none

/-- The fields of a record: those of a table by name, or the items of an array by position.  What is
there beside them is ignored. -/
def fields? (names : List String) : Datum → Option (List Datum)
  | .table entries => names.mapM fun name => Table.get? name entries
  | .arr items => if names.length ≤ items.length then some (items.take names.length) else none
  | _ => none

/-- Settings of the scheduler from their value. -/
def toScheduler? (v : Datum) : Option SchedulerSettings := do
  let [rate, turbo, fraction, policy] ←
    fields? ["frame_rate", "turbo", "work_fraction", "error_policy"] v | none
  pure {
    frameRate := ← toFloat? rate
    turbo := ← toBool? turbo
    workFraction := ← toFloat? fraction
    errorPolicy := ← toPolicy? policy }

/-- Settings from their value. -/
def ofDatum? (v : Datum) : Option Settings := do
  let [scheduler, logging] ← fields? ["scheduler", "logging"] v | none
  let scheduler ← toScheduler? scheduler
  let [level] ← fields? ["level"] logging | none
  pure { scheduler, level := ← toText? level }

/-- Settings as a value. -/
def toDatum (s : Settings) : Datum :=
  .table [
    ("scheduler", .table [
      ("frame_rate", .float s.scheduler.frameRate),
      ("turbo", .bool s.scheduler.turbo),
      ("work_fraction", .float s.scheduler.workFraction),
      ("error_policy", .str s.scheduler.errorPolicy.name)]),
    ("logging", .table [("level", .str s.level)])]

end Blockwork.Settings
