import Blockwork.Settings.Decode
import Blockwork.Settings.Document
import Blockwork.Settings.EnvFile

/-!
Loading settings.  From the lowest to the highest, the layers are the defaults, a file, variables of
the environment, and overrides.
-/

namespace Blockwork.Settings

/-- What a request to load settings says. -/
structure Request where
  /-- The file to read, in place of the usual ones. -/
  path : Option String := none
  frameRate : Option Float := none
  turbo : Option Bool := none
  errorPolicy : Option ErrorPolicy := none
  /-- Whether variables, and the file that sets them, are read. -/
  environment : Bool := true

/-- What settings are loaded from. -/
structure Sources where
  /-- The texts of the files in the working directory. -/
  files : Table String
  /-- The variables of the environment. -/
  vars : Table String

/-- The file that sets variables. -/
def variablesFile : String := ".env"

/-- The variable that names a file of settings. -/
def pathVariable : String := "CADENCE_CONFIG_PATH"

/-- The file of settings that is read if no other is named. -/
def usualFile : String := "cadence.toml"

/-- The text of the file at a path from the working directory.  Steps that stay where they are do not
count, but the last step must be the file's name. -/
def Sources.fileAt? (src : Sources) (path : String) : Option String :=
  let steps := path.splitOn "/"
  let stays (step : String) : Bool := step = "" || step = "."
  if steps.head? = some "" || steps.getLast?.any stays then none
  else Table.get? ("/".intercalate (steps.filter (!stays ·))) src.files

/-- Whether a path leads to a directory: it has only steps that name no file. -/
def isDirectory (path : String) : Bool :=
  path ≠ "" && (path.splitOn "/").all fun step => step ∈ ["", ".", ".."]

/-- The layer of a file. -/
def fileLayer (path text : String) : Except SettingsError (Table Datum) :=
  match readFile? path text with
  | some entries => .ok entries
  | none => .error .unreadable

/-- The layer of the file that the request, a variable or custom names. -/
def chosenLayer (src : Sources) (path : Option String) : Except SettingsError (Table Datum) :=
  match path with
  | some path =>
    match src.fileAt? path with
    | some text => fileLayer path text
    | none => .error (if isDirectory path then .unreadable else .fileNotFound path)
  | none =>
    match src.fileAt? usualFile with
    | some text => fileLayer usualFile text
    | none => .ok []

/-- The layer of the overrides. -/
def Request.overrides (r : Request) : Table Datum :=
  [("scheduler.frame_rate", r.frameRate.map Datum.float),
    ("scheduler.turbo", r.turbo.map Datum.bool),
    ("scheduler.error_policy", r.errorPolicy.map (Datum.str ·.name))].filterMap
    fun (name, v) => v.map (name, ·)

/-- Loads settings and checks them. -/
def load (src : Sources) (r : Request) : Except SettingsError Settings := do
  let vars :=
    if r.environment then EnvFile.load ((src.fileAt? variablesFile).getD "") src.vars else []
  let file ← chosenLayer src (r.path.or (Table.get? pathVariable vars))
  let layers := [file, Layer.ofVariables vars, r.overrides]
  match ofDatum? (layers.foldl (fun d layer => Layer.lay layer d) (toDatum {})) with
  | some s =>
    s.validate
    pure s
  | none => .error .invalid

end Blockwork.Settings
