import Blockwork.Engine.Calls
import Blockwork.Engine.Outbox
import Blockwork.Engine.Timers
import Blockwork.Scene.Basic

/-!
What a running block can reach: the scene, the clock, the services of the scheduler, and the calls
and the origin of its own thread.
-/

namespace Blockwork

/-- What the scheduler does for running blocks. -/
structure Services where
  timers : Timers := {}
  outbox : Outbox := []
  redraw : Bool := false
  deriving Inhabited

/-- Everything that outlives a thread's turn, threads aside. -/
structure World where
  scene : Scene := {}
  services : Services := {}
  signals : Signals := {}
  clock : Clock := {}
  deriving Inhabited

namespace World

def now (w : World) : Nanos := w.clock.now

/-- Settles the delays that are due, and says how many there were. -/
def fireDue (w : World) : Nat × World :=
  let (fired, timers, signals) := w.services.timers.fireDue w.now w.signals
  (fired, { w with services := { w.services with timers }, signals })

/-- Drops every delay under way. -/
def clearTimers (w : World) : World :=
  let (timers, signals) := w.services.timers.clear w.signals
  { w with services := { w.services with timers }, signals }

/-- Throws away the effects in the outbox. -/
def clearOutbox (w : World) : World :=
  { w with
    services := { w.services with outbox := [] }
    signals := w.signals.abandonAll (Outbox.tokens w.services.outbox) }

/-- Restarts the stopwatch. -/
def resetTimer (w : World) : World :=
  { w with services := { w.services with timers := w.services.timers.reset w.now } }

end World

/-- What a running block can reach. -/
structure Context where
  world : World
  /-- The target that the block runs on. -/
  target : Nat
  calls : CallStack := {}
  payload : Option Value := none
  thread : Option Nat := none
  deriving Inhabited

namespace Context

def scene (cx : Context) : Scene := cx.world.scene

def withScene (scene : Scene) (cx : Context) : Context := { cx with world := { cx.world with scene } }

def withServices (services : Services) (cx : Context) : Context :=
  { cx with world := { cx.world with services } }

def services (cx : Context) : Services := cx.world.services

/-! ### The running target -/

def self (cx : Context) : Target := (cx.scene.target? cx.target).getD default

def modifySelf (f : Target → Target) (cx : Context) : Context :=
  cx.withScene (cx.scene.modifyTarget cx.target f)

def requestRedraw (cx : Context) : Context := cx.withServices { cx.services with redraw := true }

def redrawIfVisible (cx : Context) : Context :=
  if cx.self.visible then cx.requestRedraw else cx

/-! ### Variables and lists -/

/-- A variable of the running target, else of the stage. -/
def getVariable (cx : Context) (name : String) : Except ExecError Value :=
  match cx.scene.getVariable? cx.target name with
  | some v => .ok v
  | none => .error (.unknownVariable name)

def setVariable (name : String) (v : Value) (cx : Context) : Except ExecError Context :=
  match cx.scene.setVariable? cx.target name v with
  | some scene => .ok (cx.withScene scene)
  | none => .error (.unknownVariable name)

/-- A list of the running target, else of the stage. -/
def getList (cx : Context) (name : String) : Except ExecError (List Value) :=
  match cx.scene.getList? cx.target name with
  | some items => .ok items
  | none => .error (.unknownList name)

def setList (name : String) (items : List Value) (cx : Context) : Except ExecError Context :=
  match cx.scene.setList? cx.target name items with
  | some scene => .ok (cx.withScene scene)
  | none => .error (.unknownList name)

/-! ### Services -/

/-- Starts a delay. -/
def delay (length : Nanos) (cx : Context) : Awaitable × Context :=
  let (awaitable, timers, signals) :=
    cx.services.timers.delay cx.world.now length cx.world.signals
  (awaitable, { cx with
    world := { cx.world with services := { cx.services with timers }, signals } })

/-- Seconds on the stopwatch. -/
def timerSeconds (cx : Context) : Float := cx.services.timers.elapsedSeconds cx.world.now

def resetTimer (cx : Context) : Context := { cx with world := cx.world.resetTimer }

/-- Puts an effect in the outbox. -/
def post (e : Effect) (cx : Context) : Context :=
  cx.withServices { cx.services with outbox := cx.services.outbox ++ [e] }

/-- Begins a signal. -/
def freshSignal (cx : Context) : Token × Context :=
  let (token, signals) := cx.world.signals.fresh
  (token, { cx with world := { cx.world with signals } })

/-- Begins a signal whose token the host holds. -/
def freshHostedSignal (cx : Context) : Token × Context :=
  let (token, signals) := cx.world.signals.freshHosted
  (token, { cx with world := { cx.world with signals } })

/-! ### Calls -/

/-- A parameter of the innermost call. -/
def argument? (cx : Context) (name : String) : Option Value :=
  cx.calls.top?.bind fun c => Table.get? name c.args

def enterCall (c : Call) (cx : Context) : Context := { cx with calls := cx.calls.push c }

def exitCall (cx : Context) : Context := { cx with calls := cx.calls.pop.2 }

end Context

end Blockwork
