import Blockwork.Engine.Routine

/-!
The machine that runs a thread's routines.

Routines under way stand on a stack of frames, the innermost on top.  One step resumes the top frame
and does what it asks for: evaluating something pushes a frame, finishing pops one and hands its
value down.  A slice is a run of steps up to the first that ends or suspends the computation.
-/

namespace Blockwork

/-- How a slice ended. -/
inductive Slice where
  /-- Nothing is left to run; this is the last value. -/
  | finished (value : Value)
  /-- The script gave way. -/
  | yielded
  /-- The top frame waits for this. -/
  | awaiting (awaitable : Awaitable)
  /-- The script ended itself. -/
  | exited
  deriving Inhabited

/-- The frames of a computation, the innermost first, and the value for the top one. -/
structure FrameStack where
  frames : List Routine := []
  resumed : Option Value := none
  deriving Inhabited

namespace FrameStack

/-- A computation that runs blocks in order. -/
def ofBlocks (blocks : List Block) : FrameStack := { frames := [.stack blocks] }

def depth (s : FrameStack) : Nat := s.frames.length

/-- The opcode at the innermost fence, if the computation is inside one. -/
def fence? (s : FrameStack) : Option String :=
  s.frames.findSome? fun
    | .fence opcode => some opcode
    | _ => none

end FrameStack

/-- Frames, and the context they run in. -/
structure Machine where
  stack : FrameStack
  cx : Context
  deriving Inhabited

/-- What one step leads to. -/
inductive Step where
  | next (m : Machine)
  | halt (result : Except ExecError Slice) (m : Machine)

namespace Machine

/-- Suspends or ends the computation, which is a violation inside a fence. -/
def suspend (m : Machine) (slice : Slice) (reason : String) : Step :=
  match m.stack.fence? with
  | some opcode =>
    .halt (.error (.protocolViolation opcode
      (reason ++ " during a non-suspending evaluation"))) m
  | none => .halt (.ok slice) m

/-- Pushes the frame for an evaluation on the given frames, or hands over the value at once. -/
def evaluate (frames : List Routine) (i : Input) (cx : Context) : Step :=
  match i with
  | .literal v => .next ⟨⟨frames, some v⟩, cx⟩
  | .block b =>
    match b.start with
    | .ok r => .next ⟨⟨r :: frames, none⟩, cx⟩
    | .error e => .halt (.error e) ⟨⟨frames, none⟩, cx⟩
  | .stack [] => .next ⟨⟨frames, some .null⟩, cx⟩
  | .stack blocks => .next ⟨⟨.stack blocks :: frames, none⟩, cx⟩

/-- Fences off an evaluation that must not suspend, named for the block it starts with. -/
def evaluateAtOnce (frames : List Routine) (i : Input) (cx : Context) : Step :=
  match i with
  | .literal v => .next ⟨⟨frames, some v⟩, cx⟩
  | .block b => evaluate (.fence b.opcode :: frames) i cx
  | .stack [] => .next ⟨⟨frames, some .null⟩, cx⟩
  | .stack (b :: _) => evaluate (.fence b.opcode :: frames) i cx

/-- Does what the routine that was on top asks for.  It has become `top`, above `rest`. -/
def follow (flow : Flow) (top : Routine) (rest : List Routine) (cx : Context) : Step :=
  match flow with
  | .done v =>
    match rest with
    | [] => .halt (.ok (.finished v)) ⟨{}, cx⟩
    | _ => .next ⟨⟨rest, some v⟩, cx⟩
  | .evaluate i => evaluate (top :: rest) i cx
  | .evaluateAtOnce i => evaluateAtOnce (top :: rest) i cx
  | .pause =>
    let m : Machine := ⟨⟨top :: rest, none⟩, cx⟩
    if 0 < cx.calls.warpDepth then .next m else m.suspend .yielded "yielded"
  | .await a => suspend ⟨⟨top :: rest, none⟩, cx⟩ (.awaiting a) "awaited"
  | .quit => suspend ⟨⟨top :: rest, none⟩, cx⟩ .exited "stopped its script"

/-- One step: resume the top frame and do what it asks for. -/
def step (m : Machine) : Step :=
  match m.stack.frames with
  | [] => .halt (.ok (.finished (m.stack.resumed.getD .null))) ⟨{}, m.cx⟩
  | top :: rest =>
    match top.resume m.stack.resumed m.cx with
    | (.ok (flow, top), cx) => follow flow top rest cx
    | (.error e, cx) => .halt (.error e) ⟨⟨top :: rest, none⟩, cx⟩

/-- Runs to the end of the slice, if that comes within the given number of steps. -/
def drive : Nat → Machine → Option (Except ExecError Slice × Machine)
  | 0, _ => none
  | fuel + 1, m =>
    match m.step with
    | .next m => drive fuel m
    | .halt result m => some (result, m)

/-- Runs on from what a step leads to. -/
def driveFrom (fuel : Nat) : Step → Option (Except ExecError Slice × Machine)
  | .next m => drive fuel m
  | .halt result m => some (result, m)

end Machine

namespace Context

/-- Evaluates an input at once.  Reaching a point of suspension is a violation. -/
def evaluateAtOnce (fuel : Nat) (i : Input) (cx : Context) : Option (Reply Value) :=
  (Machine.driveFrom fuel (Machine.evaluateAtOnce [] i cx)).map fun
    | (.ok (.finished v), m) => (.ok v, m.cx)
    | (.ok _, m) => (.ok .null, m.cx)
    | (.error e, m) => (.error e, m.cx)

end Context

end Blockwork
