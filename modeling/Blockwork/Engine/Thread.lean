import Blockwork.Engine.Machine

/-!
Threads: runs of scripts that are scheduled on their own.
-/

namespace Blockwork

inductive Status where
  | running
  | parked
  | done
  deriving DecidableEq, Repr, Inhabited

namespace Status

def name : Status → String
  | .running => "running"
  | .parked => "parked"
  | .done => "done"

end Status

/-- What a parked thread waits for, and the generation in which the wait began. -/
structure Pending where
  generation : Nat
  awaitable : Awaitable
  deriving Inhabited

structure Thread where
  id : Nat
  script : Script
  target : Nat
  status : Status := .running
  /-- How often the thread has been restarted. -/
  generation : Nat := 0
  payload : Option Value := none
  stack : FrameStack
  calls : CallStack := {}
  pending : Option Pending := none
  /-- The value that the script finished with. -/
  result : Option Value := none
  deriving Inhabited

namespace Thread

/-- A thread at the top of its script. -/
def launch (id : Nat) (script : Script) (target : Nat) (payload : Option Value) : Thread :=
  { id, script, target, payload, stack := .ofBlocks script.body }

def isDone (t : Thread) : Bool := t.status = .done

/-- Whether the thread waits for the signal. -/
def waitsFor (t : Thread) (token : Token) : Bool :=
  match t.pending with
  | some ⟨_, .waiting u⟩ => u = token
  | _ => false

/-- Ends the thread. -/
def finish (result : Option Value) (t : Thread) : Thread :=
  { t with status := .done, result, stack := {}, calls := {}, pending := none }

/-- Stops the thread, whatever it is doing. -/
def retire (t : Thread) : Thread := t.finish none

/-- Starts over from the top of the script.  What the thread was waiting for no longer matters. -/
def restart (payload : Option Value) (t : Thread) : Thread :=
  { t with
    status := .running
    generation := t.generation + 1
    payload
    stack := .ofBlocks t.script.body
    calls := {}
    pending := none
    result := none }

/-- Delivers a value.  It is taken only if the thread is parked and in the given generation. -/
def resolve (generation : Nat) (v : Value) (t : Thread) : Bool × Thread :=
  if generation ≠ t.generation ∨ t.status ≠ .parked then (false, t)
  else
    (true, { t with
      status := .running
      pending := none
      stack := { t.stack with resumed := some v } })

/-- Looks at what the thread waits for, and resumes it if that is settled. -/
def poll (s : Signals) (t : Thread) : Bool × Thread :=
  match t.pending with
  | none => (false, t)
  | some p =>
    match p.awaitable.poll s with
    | (.settled v, _) => ({ t with pending := none } : Thread).resolve p.generation v
    | (_, awaitable) => (false, { t with pending := some { p with awaitable } })

/-- The thread after a slice that ended as given. -/
def absorb (t : Thread) (result : Except ExecError Slice) (m : Machine) : Thread :=
  let moved := { t with stack := m.stack, calls := m.cx.calls }
  match result with
  | .error _ => moved.finish none
  | .ok (.finished v) => moved.finish (some v)
  | .ok .exited => moved.finish none
  | .ok .yielded => moved
  | .ok (.awaiting awaitable) =>
    let parked := { moved with status := .parked, pending := some ⟨t.generation, awaitable⟩ }
    -- what is settled already resumes without losing a round
    (parked.poll m.cx.world.signals).2

/-- Runs one slice of a running thread; other threads stay as they are.  A failure ends the
thread. -/
def step (fuel : Nat) (t : Thread) (w : World) :
    Option (Except ExecError Status × Thread × World) :=
  if t.status ≠ .running then some (.ok t.status, t, w)
  else if (w.scene.target? t.target).isNone then
    some (.error (.unknownTarget t.target), t.finish none, w)
  else
    let cx : Context :=
      { world := w, target := t.target, calls := t.calls, payload := t.payload, thread := some t.id }
    (Machine.drive fuel ⟨t.stack, cx⟩).map fun (result, m) =>
      let t := t.absorb result m
      (result.map fun _ => t.status, t, m.cx.world)

end Thread

end Blockwork
