import Blockwork.Engine.Thread
import Blockwork.Settings.Basic

/-!
The interpreter: the live threads of a session and the rounds in which they take turns.

Threads take turns in the order in which they were launched.  Finished threads are taken out between
rounds, and the order of the others never changes.
-/

namespace Blockwork

/-- A broadcast that its sender waits for: the threads it started, and the token of its signal. -/
structure Watcher where
  threads : List Nat
  token : Token
  deriving DecidableEq, Repr, Inhabited

/-- What the edge hats reported last, by target and top block. -/
abbrev EdgeMemory := List ((Nat × String) × Bool)

namespace EdgeMemory

/-- The last report; false if there is none. -/
def latest (key : Nat × String) : EdgeMemory → Bool
  | [] => false
  | (k, value) :: rest => if k = key then value else latest key rest

/-- Replaces the last report. -/
def remember (key : Nat × String) (value : Bool) : EdgeMemory → EdgeMemory
  | [] => [(key, value)]
  | (k, old) :: rest => if k = key then (k, value) :: rest else (k, old) :: remember key value rest

end EdgeMemory

structure Interpreter where
  world : World := {}
  threads : List Thread := []
  watchers : List Watcher := []
  edges : EdgeMemory := []
  /-- The id of the next thread. -/
  nextId : Nat := 0
  settings : SchedulerSettings := {}
  deriving Inhabited

namespace Interpreter

/-! ### Threads -/

def thread? (s : Interpreter) (id : Nat) : Option Thread := s.threads.find? (·.id = id)

/-- Changes the thread with the id. -/
def modifyThread (id : Nat) (f : Thread → Thread) (s : Interpreter) : Interpreter :=
  { s with threads := s.threads.map fun t => if t.id = id then f t else t }

/-- Whether a thread is live and runs the script with the given top block. -/
def isLive (top : String) (t : Thread) : Bool := !t.isDone && t.script.topId = top

def isRunning (s : Interpreter) (script : Script) : Bool := s.threads.any (isLive script.topId)

/-- Whether some thread waits for the signal. -/
def isHeard (s : Interpreter) (token : Token) : Bool := s.threads.any (·.waitsFor token)

/-- Starts a script on a target.  If asked to, it restarts the first live thread that runs the script
already, wherever that is, in place of adding one. -/
def launch (script : Script) (target : Nat) (payload : Option Value) (restart : Bool)
    (s : Interpreter) : Nat × Interpreter :=
  let existing := if restart then s.threads.find? (isLive script.topId) else none
  match existing with
  | some t => (t.id, s.modifyThread t.id (Thread.restart payload))
  | none =>
    (s.nextId, { s with
      threads := s.threads ++ [.launch s.nextId script target payload]
      nextId := s.nextId + 1 })

/-- Stops every thread, and drops every broadcast under way and every effect asked for. -/
def stopAll (s : Interpreter) : Interpreter :=
  let world := s.world.clearOutbox
  { s with
    threads := []
    watchers := []
    world := { world with signals := world.signals.abandonAll (s.watchers.map (·.token)) } }

/-- Stops every thread, and drops the delays under way. -/
def destroy (s : Interpreter) : Interpreter :=
  let s := s.stopAll
  { s with world := s.world.clearTimers }

/-! ### Triggers -/

/-- The scripts whose hats a trigger fires, with their targets and whether they restart. -/
def fired (scene : Scene) (t : Trigger) : List (Nat × Script × Bool) :=
  scene.scripts.filterMap fun (target, script) =>
    match script.hat with
    | some h => if h.isFiredBy script.top t then some (target, script, h.restart) else none
    | none => none

/-- Launches scripts one after another. -/
def launchAll (payload : Option Value) :
    List (Nat × Script × Bool) → Interpreter → List Nat × Interpreter
  | [], s => ([], s)
  | (target, script, restart) :: rest, s =>
    let (id, s) := s.launch script target payload restart
    let (ids, s) := launchAll payload rest s
    (id :: ids, s)

/-- Starts every script whose hat the trigger fires. -/
def trigger (t : Trigger) (s : Interpreter) : List Nat × Interpreter :=
  launchAll t.payload (fired s.world.scene t) s

/-- Stops everything, restarts the stopwatch, forgets the edge hats, and fires the flag. -/
def greenFlag (s : Interpreter) : List Nat × Interpreter :=
  let s := s.stopAll
  trigger .greenFlag { s with world := s.world.resetTimer, edges := [] }

/-! ### Effects -/

/-- Settles a signal. -/
def settle (token : Token) (v : Value) (s : Interpreter) : Interpreter :=
  { s with world := { s.world with signals := s.world.signals.settle token v } }

/-- Carries out one effect. -/
def applyEffect (s : Interpreter) : Effect → Interpreter
  | .broadcast t completion =>
    let (started, s) := s.trigger t
    match completion with
    | none => s
    | some token =>
      if started.isEmpty then s.settle token .null
      else { s with watchers := s.watchers ++ [⟨started, token⟩] }
  | .stopAll => s.stopAll
  | .stopOthers target except =>
    { s with
      threads := s.threads.map fun t =>
        if t.target = target ∧ some t.id ≠ except then t.retire else t }

/-- Empties the outbox and carries out its effects in order. -/
def applyEffects (s : Interpreter) : Interpreter :=
  let effects := s.world.services.outbox
  let emptied := { s with
    world := { s.world with services := { s.world.services with outbox := [] } } }
  effects.foldl applyEffect emptied

/-- Whether every thread that a watcher watches has finished or is gone. -/
def isSettled (threads : List Thread) (w : Watcher) : Bool :=
  !w.threads.any fun id => threads.any fun t => t.id = id && !t.isDone

/-- Settles the broadcasts whose threads have all finished. -/
def settleWatchers (s : Interpreter) : Interpreter :=
  let (finished, waiting) := s.watchers.partition (isSettled s.threads)
  finished.foldl (fun s w => s.settle w.token .null) { s with watchers := waiting }

/-! ### Edge hats -/

/-- Takes in what an edge hat reports, and starts its script if the report has become true. -/
def noteEdge (target : Nat) (script : Script) (value : Bool) (s : Interpreter) :
    List Nat × Interpreter :=
  let key := (target, script.topId)
  let previous := EdgeMemory.latest key s.edges
  let s := { s with edges := EdgeMemory.remember key value s.edges }
  if value && !previous then
    let (id, s) := s.launch script target none true
    ([id], s)
  else ([], s)

/-- Whether an error ends the frame. -/
def isFatal (s : Interpreter) (e : ExecError) : Bool :=
  e.isProtocolViolation || s.settings.errorPolicy = .abortFrame

/-- Evaluates the report of an edge hat. -/
def checkEdge (fuel : Nat) (target : Nat) (script : Script) (s : Interpreter) :
    Option (Except ExecError Bool × Interpreter) :=
  let cx : Context := { world := s.world, target }
  (cx.evaluateAtOnce fuel (.block script.top)).map fun (reply, cx) =>
    let s := { s with world := cx.world }
    match reply with
    | .ok v => (.ok v.toBool, s)
    | .error e => (if s.isFatal e then .error e else .ok false, s)

/-- Checks edge hats one after another, up to the first error that ends the frame. -/
def checkEdges (fuel : Nat) :
    List (Nat × Script) → Interpreter → Option (Except ExecError (List Nat) × Interpreter)
  | [], s => some (.ok [], s)
  | (target, script) :: rest, s =>
    (s.checkEdge fuel target script).bind fun
      | (.error e, s) => some (.error e, s)
      | (.ok value, s) =>
        let (ids, s) := s.noteEdge target script value
        (checkEdges fuel rest s).map fun (result, s) => (result.map (ids ++ ·), s)

/-- The scripts with an edge hat, in scene order. -/
def edgeScripts (scene : Scene) : List (Nat × Script) :=
  scene.scripts.filter fun (_, script) => script.hat.any Hat.isEdge

/-- Checks every edge hat, and starts the scripts whose reports have become true. -/
def startEdgeHats (fuel : Nat) (s : Interpreter) :
    Option (Except ExecError (List Nat) × Interpreter) :=
  (checkEdges fuel (edgeScripts s.world.scene) s).map fun
    | (.error e, s) => (.error e, s)
    | (.ok ids, s) => (.ok ids, s.applyEffects)

/-! ### Rounds -/

/-- What a frame of stepping came to. -/
structure Report where
  rounds : Nat := 0
  /-- Slices run. -/
  stepped : Nat := 0
  /-- Threads that finished and were taken out. -/
  finished : Nat := 0
  /-- Whether the work budget ran out while threads were active. -/
  timedOut : Bool := false
  deriving DecidableEq, Repr, Inhabited

/-- How much work a frame may do: any amount, or as many rounds as its time allows. -/
inductive Budget where
  | unlimited
  | rounds (n : Nat)
  deriving DecidableEq, Repr, Inhabited

namespace Budget

/-- Whether the budget is spent after a number of rounds. -/
def isSpent (done : Nat) : Budget → Bool
  | .unlimited => false
  | .rounds n => decide (n ≤ done)

end Budget

/-- Takes out the finished threads, and says how many there were. -/
def compact (s : Interpreter) : Nat × Interpreter :=
  let live := s.threads.filter fun t => !t.isDone
  (s.threads.length - live.length, { s with threads := live })

/-- The turn of the thread at a position: a parked thread is polled, and a running one runs a slice,
after which its effects are carried out.  Says whether a slice was run and whether it failed. -/
def turn (fuel : Nat) (i : Nat) (s : Interpreter) :
    Option (Option (Except ExecError Status) × Interpreter) :=
  match s.threads[i]? with
  | none => some (none, s)
  | some t =>
    let polled := if t.status = .parked then (t.poll s.world.signals).2 else t
    if polled.status = .running then
      (polled.step fuel s.world).map fun (outcome, t, world) =>
        (some outcome, applyEffects { s with threads := s.threads.set i t, world })
    else some (none, { s with threads := s.threads.set i polled })

/-- The turns of the threads from a position on, those launched meanwhile included.  Counts the slices
run, and stops at an error that ends the frame. -/
def turns (fuel : Nat) : Nat → Nat → Nat → Interpreter →
    Option (Nat × Option ExecError × Interpreter)
  | 0, _, _, _ => none
  | gas + 1, i, stepped, s =>
    if i < s.threads.length then
      match s.turn fuel i with
      | none => none
      | some (none, s) => turns fuel gas (i + 1) stepped s
      | some (some (.ok _), s) => turns fuel gas (i + 1) (stepped + 1) s
      | some (some (.error e), s) =>
        if s.isFatal e then some (stepped + 1, some e, s)
        else turns fuel gas (i + 1) (stepped + 1) s
    else some (stepped, none, s)

/-- One round: a turn for each thread, after which the finished ones are taken out and, unless the
frame has failed, the broadcasts whose threads have all finished are settled.  Says how many slices
were run, how many threads finished, and whether the frame has failed. -/
def round (fuel : Nat) (s : Interpreter) : Option (Nat × Nat × Option ExecError × Interpreter) :=
  (turns fuel fuel 0 0 s).map fun (active, failure, s) =>
    let (finished, s) := s.compact
    (active, finished, failure, if failure.isSome then s else s.settleWatchers)

/-- Rounds, until no thread is left or active, the budget is spent, or a redraw is wanted. -/
def rounds (fuel : Nat) (budget : Budget) : Nat → Report → Interpreter →
    Option (Except ExecError Report × Interpreter)
  | 0, _, _ => none
  | gas + 1, report, s =>
    match s.round fuel with
    | none => none
    | some (_, _, some e, s) => some (.error e, s)
    | some (active, finished, none, s) =>
      let report := { report with
        rounds := report.rounds + 1
        stepped := report.stepped + active
        finished := report.finished + finished }
      if s.threads.isEmpty || active = 0 then some (.ok report, s)
      else if budget.isSpent report.rounds then some (.ok { report with timedOut := true }, s)
      else if !s.settings.turbo && s.world.services.redraw then some (.ok report, s)
      else rounds fuel budget gas report s

/-- Forgets redraw requests and settles the delays that are due. -/
def beginFrame (s : Interpreter) : Interpreter :=
  let world := { s.world with services := { s.world.services with redraw := false } }
  { s with world := world.fireDue.2 }

/-- Runs a frame's worth of rounds.  The fuel bounds the steps of a slice, the turns of a round and
the rounds. -/
def stepThreads (fuel : Nat) (budget : Budget) (s : Interpreter) :
    Option (Except ExecError Report × Interpreter) :=
  rounds fuel budget fuel {} s.beginFrame

/-- Checks the edge hats, then runs a frame. -/
def tick (fuel : Nat) (budget : Budget) (s : Interpreter) :
    Option (Except ExecError Report × Interpreter) :=
  (s.startEdgeHats fuel).bind fun
    | (.error e, s) => some (.error e, s)
    | (.ok _, s) => s.stepThreads fuel budget

/-! ### Settings and the host -/

/-- Changes the frame rate, which must be usable. -/
def setFrameRate (rate : Float) (s : Interpreter) : Except SettingsError Interpreter :=
  if SchedulerSettings.isUsableRate rate then
    .ok { s with settings := { s.settings with frameRate := rate } }
  else .error (.rate rate)

/-- Settles a signal that the host holds, and says whether some thread was waiting for it. -/
def settleHosted (token : Token) (v : Value) (s : Interpreter) : Bool × Interpreter :=
  (s.isHeard token, s.settle token v)

/-- Lets go of a signal that the host holds. -/
def abandonHosted (token : Token) (s : Interpreter) : Interpreter :=
  { s with world := { s.world with signals := s.world.signals.abandon token } }

end Interpreter

end Blockwork
