import Blockwork.Settings.Basic
import Blockwork.Toml.Basic

/-!
Settings as a TOML document.
-/

namespace Blockwork.Settings

/-- The settings in effect, as a TOML document. -/
def toToml (s : Settings) : String :=
  "[scheduler]\n" ++
  "frame_rate = " ++ Toml.floatText s.scheduler.frameRate ++ "\n" ++
  "turbo = " ++ (if s.scheduler.turbo then "true" else "false") ++ "\n" ++
  "work_fraction = " ++ Toml.floatText s.scheduler.workFraction ++ "\n" ++
  "error_policy = " ++ Toml.stringText s.scheduler.errorPolicy.name ++ "\n" ++
  "\n" ++
  "[logging]\n" ++
  "level = " ++ Toml.stringText s.level ++ "\n"

end Blockwork.Settings
