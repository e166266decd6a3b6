import Blockwork.Ini
import Blockwork.Json.Relaxed
import Blockwork.Ron
import Blockwork.Toml.Reader
import Blockwork.Yaml.Node

/-!
Documents of settings.  The ending of a file's name says of which format its text is, and each format
gives a table of values.
-/

namespace Blockwork.Datum

/-! ### TOML -/

/-- A table whose first name is this one stands for a date or a time. -/
def momentName : String := "$__toml_private_datetime"

mutual

/-- A TOML value.  A date or a time is its text. -/
def ofToml? : Toml → Option Datum
  | .str s => some (.str s)
  | .int n => some (.int n)
  | .float x => some (.float x)
  | .bool b => some (.bool b)
  | .moment text => some (.str text)
  | .arr items => (ofTomlItems? items).map .arr
  | .table ((name, v) :: rest) =>
    if name = momentName then
      match v with
      | .str s => (Toml.momentOfText? s).map .str
      | _ => none
    else do
      let d ← ofToml? v
      let ds ← ofTomlEntries? rest
      pure (.table ((name, d) :: ds))
  | .table [] => some (.table [])

def ofTomlItems? : List Toml → Option (List Datum)
  | [] => some []
  | v :: rest => do
    let d ← ofToml? v
    let ds ← ofTomlItems? rest
    pure (d :: ds)

def ofTomlEntries? : List (String × Toml) → Option (List (String × Datum))
  | [] => some []
  | (name, v) :: rest => do
    let d ← ofToml? v
    let ds ← ofTomlEntries? rest
    pure ((name, d) :: ds)

end

/-! ### JSON -/

mutual

/-- A JSON document.  A whole number of more than 64 bits with its sign is a float. -/
def ofJson : Json → Datum
  | .null => .null
  | .bool b => .bool b
  | .int n => if fitsInt64 n then .int n else .float (doubleOfInt n)
  | .real x => .float x
  | .str s => .str s
  | .arr items => .arr (ofJsonItems items)
  | .obj fields => .table (ofJsonFields fields)

def ofJsonItems : List Json → List Datum
  | [] => []
  | j :: rest => ofJson j :: ofJsonItems rest

def ofJsonFields : List (String × Json) → List (String × Datum)
  | [] => []
  | (name, j) :: rest => (name, ofJson j) :: ofJsonFields rest

end

/-! ### INI -/

/-- The entries of an INI document, all of which are texts.  A section is a table, and the last of
several sections with one name is the one that counts. -/
def ofIni (d : Ini.Document) : Datum :=
  let texts (entries : List (String × String)) : Table Datum :=
    Table.ofList (entries.map fun (name, text) => (name, .str text))
  .table (Table.ofList (texts d.general ++ d.sections.map fun (name, es) => (name, .table (texts es))))

end Blockwork.Datum

namespace Blockwork.Settings

/-- The formats of documents. -/
inductive Format where
  | toml
  | json
  | yaml
  | ini
  | ron
  | json5
  deriving DecidableEq, Repr

namespace Format

/-- The endings that stand for formats. -/
def endings : List (String × Format) :=
  [("toml", toml), ("json", json), ("yaml", yaml), ("yml", yaml), ("ini", ini), ("ron", ron),
    ("json5", json5)]

/-- The format that an ending stands for. -/
def ofEnding? (ending : String) : Option Format := Table.get? ending endings

/-- The value of a document. -/
def readDatum? (text : String) : Format → Option Datum
  | toml => (Toml.parse? text).bind fun entries => Datum.ofToml? (.table entries)
  | json => (Json.parse? text).map Datum.ofJson
  | yaml => Yaml.parse? text
  | ini => (Ini.parse? text).map Datum.ofIni
  | ron => Ron.parse? text
  | json5 => (Json.Relaxed.parse? text).map Datum.ofJson

/-- The entries of a document. -/
def read? (f : Format) (text : String) : Option (Table Datum) :=
  (f.readDatum? text).bind Datum.root?

end Format

/-- The ending of a file's name, which is what follows its last point.  A name that is all ending has
none. -/
def endingOf? (path : String) : Option String :=
  let reversed := ((path.splitOn "/").getLast?.getD "").toList.reverse
  match reversed.dropWhile (· ≠ '.') with
  | '.' :: _ :: _ => some (String.ofList (reversed.takeWhile (· ≠ '.')).reverse)
  | _ => none

/-- The entries of a file, if its ending names a format and its text is of that format.  A byte order
mark in front of the text is left out. -/
def readFile? (path text : String) : Option (Table Datum) := do
  let f ← Format.ofEnding? (← endingOf? path)
  f.read? (String.ofList (Text.dropOrderMark text.toList))

end Blockwork.Settings
