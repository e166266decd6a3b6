import Blockwork.Number.Decimal
import Blockwork.Time

/-!
Settings of the scheduler and of the log.
-/

namespace Blockwork

/-- What the scheduler does when a block fails. -/
inductive ErrorPolicy where
  /-- The frame ends with the error. -/
  | abortFrame
  /-- The failing thread is gone, and the frame goes on. -/
  | retireThread
  deriving DecidableEq, Repr, Inhabited

namespace ErrorPolicy

def name : ErrorPolicy → String
  | .abortFrame => "abort-frame"
  | .retireThread => "retire-thread"

def all : List ErrorPolicy := [.abortFrame, .retireThread]

end ErrorPolicy

/-- Settings of the scheduler. -/
structure SchedulerSettings where
  /-- Frames per second. -/
  frameRate : Float := 30
  /-- Whether stepping goes on after a redraw request. -/
  turbo : Bool := false
  /-- The share of each frame that is spent on stepping threads. -/
  workFraction : Float := 0.75
  errorPolicy : ErrorPolicy := .abortFrame
  deriving Inhabited

namespace SchedulerSettings

/-- The work budget of a frame when the settings give none: 25 milliseconds. -/
def defaultWorkTime : Nanos := 25000000

/-- A usable frame rate is finite and positive. -/
def isUsableRate (rate : Float) : Bool := rate.isFinite && decide (0 < rate)

/-- The work budget of a frame. -/
def workTime (s : SchedulerSettings) : Nanos :=
  if isUsableRate s.frameRate then
    (nanosOfSeconds? (s.workFraction / s.frameRate)).getD defaultWorkTime
  else defaultWorkTime

end SchedulerSettings

/-- What can be wrong with settings. -/
inductive SettingsError where
  | rate (rate : Float)
  | frameRate (rate : Float)
  | workFraction (fraction : Float)
  | fileNotFound (path : String)
  | unreadable
  | invalid

namespace SettingsError

def message : SettingsError → String
  | rate r => "frame rate must be a positive number, got " ++ plainText r
  | frameRate r => "scheduler.frame_rate must be a positive number, got " ++ plainText r
  | workFraction f => "scheduler.work_fraction must be in (0, 1], got " ++ plainText f
  | fileNotFound path => "config file not found: " ++ path
  | unreadable => "Failed to read configuration sources"
  | invalid => "Invalid configuration"

end SettingsError

/-- All settings. -/
structure Settings where
  scheduler : SchedulerSettings := {}
  /-- The log filter. -/
  level : String := "info"
  deriving Inhabited

namespace Settings

/-- The frame rate must be usable, and the work fraction in `(0, 1]`. -/
def validate (s : Settings) : Except SettingsError Unit :=
  if !SchedulerSettings.isUsableRate s.scheduler.frameRate then
    .error (.frameRate s.scheduler.frameRate)
  else if decide (0 < s.scheduler.workFraction) && decide (s.scheduler.workFraction ≤ 1) then .ok ()
  else .error (.workFraction s.scheduler.workFraction)

end Settings

end Blockwork
