import Blockwork.Proofs.CallFrames
import Blockwork.Proofs.Warp

/-!
The recursive meaning of programs, and the machine that implements it.

`read` says what the evaluation of an input comes to, by recursion: no frames, no phases, and nothing
of giving way.  The machine does the same with an explicit stack.  That is proved in continuation
style: `Step.Implements` relates a step to a meaning and to how the computation goes on with what the
meaning comes to, so that each routine is handled on its own, above any frames at all.
-/

namespace Blockwork

open Relation

/-! ### Meanings -/

/-- Why an evaluation comes to no value: it fails, or it asks for a suspension. -/
inductive Stop where
  | fails (e : ExecError)
  | suspends (slice : Slice) (reason : String)

/-- What a stop makes of the slice.  Inside a fence a suspension is a failure as well. -/
def Stop.result (fence : Option String) : Stop → Except ExecError Slice
  | .fails e => .error e
  | .suspends slice reason =>
    match fence with
    | some opcode =>
      .error (.protocolViolation opcode (reason ++ " during a non-suspending evaluation"))
    | none => .ok slice

/-- A computation that changes the world, and may stop; none if it is not finished. -/
abbrev Meaning := ExceptT Stop (StateT World Option)

/-- The context on another world. -/
def Context.on (w : World) (cx : Context) : Context := { cx with world := w }

namespace Meaning

variable {α β : Type}

/-- What a meaning comes to on a world, and the world it leaves. -/
def on (w : World) (x : Meaning α) : Option (Except Stop α × World) := (ExceptT.run x).run w

/-- A computation that is cut off. -/
def unfinished : Meaning α := ExceptT.mk fun _ => none

/-- What a body comes to, in a context on the world at hand. -/
def ofReply (reply : World → Reply α) : Meaning α :=
  ExceptT.mk fun w => some ((reply w).1.mapError .fails, (reply w).2.world)

/-- The same thing a number of times. -/
def times (turn : Meaning Value) : Nat → Meaning Value
  | 0 => pure .null
  | n + 1 => do
    let _ ← turn
    times turn n

/-- The same thing without end; cut off after a number of turns. -/
def forever (turn : Meaning Value) : Nat → Meaning Value
  | 0 => unfinished
  | n + 1 => do
    let _ ← turn
    forever turn n

/-- A test, and the same thing after each test that fails; cut off after a number of turns. -/
def untilHolds (test turn : Meaning Value) : Nat → Meaning Value
  | 0 => unfinished
  | n + 1 => do
    let v ← test
    if v.toBool then pure .null
    else do
      let _ ← turn
      untilHolds test turn n

section

variable (ev : Input → Meaning Value)

/-- The blocks of a stack in order.  The value is that of the last one. -/
def ofStack : List Block → Value → Meaning Value
  | [], last => pure last
  | b :: rest, _ => do
    let v ← ev (.block b)
    ofStack rest v

/-- What an eager block makes of an input: a stack is not run. -/
def ofInput : Input → Meaning Value
  | .literal v => pure v
  | .block b => ev (.block b)
  | .stack _ => pure .null

/-- The inputs of an eager block, in order. -/
def ofInputs : Table Input → Args → Meaning Args
  | [], args => pure args
  | (name, i) :: rest, args => do
    let v ← ofInput ev i
    ofInputs rest (Table.insert name v args)

/-- The arguments of a call, in the order of the parameters. -/
def ofArguments (b : Block) : List String → Args → Meaning Args
  | [], args => pure args
  | name :: rest, args => do
    let v ← ev (b.input name)
    ofArguments b rest (Table.insert name v args)

/-- The stack that a branch chooses. -/
def ofChoice (b : Block) (hasElse holds : Bool) : Meaning Value :=
  if holds then ev (b.input "SUBSTACK")
  else if hasElse then ev (b.input "SUBSTACK2")
  else pure .null

/-- What a body asks for.  Giving way is nothing. -/
def ofFlow : Flow → Meaning Value
  | .done v => pure v
  | .evaluate i | .evaluateAtOnce i => ev i
  | .pause => pure .null
  | .await a => throw (.suspends (.awaiting a) "awaited")
  | .quit => throw (.suspends .exited "stopped its script")

end

/-- The body of a custom block, inside a new call with the arguments. -/
def ofCall (ev : Context → Input → Meaning Value) (cx : Context) (d : Declaration) (args : Args) :
    Meaning Value := do
  match (← get).scene.bodyOf? d.signature with
  | none => throw (.fails (.missingBody d.signature))
  | some body =>
    let _ ← ev (cx.enterCall ⟨d.id, args, d.warp⟩) (.stack body)
    pure .null

/-- What a block does, given what inputs come to. -/
def ofBlock (ev : Context → Input → Meaning Value) (turns : Nat) (cx : Context) (b : Block) :
    Meaning Value :=
  match b.operation with
  | .eager body => do
    let args ← ofInputs (ev cx) b.inputs []
    let flow ← ofReply fun w => body.run b.opcode args (cx.on w)
    ofFlow (ev cx) flow
  | .repeatTimes => do
    let n ← ev cx (b.input "TIMES")
    times (ev cx (b.input "SUBSTACK")) (roundInt64 n.toNumber).toNat
  | .forever => forever (ev cx (b.input "SUBSTACK")) turns
  | .branch hasElse => do
    let v ← ev cx (b.input "CONDITION")
    let _ ← ofChoice (ev cx) b hasElse v.toBool
    pure .null
  | .repeatUntil hasBody =>
    untilHolds (ev cx (b.input "CONDITION"))
      (if hasBody then ev cx (b.input "SUBSTACK") else pure .null) turns
  | .call d => do
    let args ← ofArguments (ev cx) b d.params []
    ofCall ev cx d args
  | .evaluateInput name | .evaluateAtOnce name => ev cx (b.input name)
  | .refuse text => throw (.fails (.block b.opcode text))

end Meaning

/-- What the evaluation of an input comes to, cut off at a depth.  The context says in which calls,
and for which target and thread; the world is the state. -/
def read : Nat → Context → Input → Meaning Value
  | _, _, .literal v => pure v
  | 0, _, _ => .unfinished
  | depth + 1, cx, .block b => Meaning.ofBlock (read depth) depth cx b
  | depth + 1, cx, .stack bs => Meaning.ofStack (read depth cx) bs .null

/-! ### Steps that implement a meaning -/

namespace Step

variable {α β : Type}

/-- The machine gets from one step to another without returning. -/
def GetsTo : Step → Step → Prop := ReflTransGen fun s s' => ∃ m, s = .next m ∧ s' = m.step

/-- The step comes to a result: it gets to how a value is gone on with, or the slice ends as the stop
says. -/
def ComesTo (s : Step) (goOn : α → World → Step) : Except Stop α × World → Prop
  | (.ok a, w) => s.GetsTo (goOn a w)
  | (.error stop, w) => ∃ m, m.cx.world = w ∧ s.GetsTo (.halt (stop.result m.stack.fence?) m)

/-- On a world, the step does what is meant, and goes on with what that comes to. -/
def Implements (s : Step) (x : Meaning α) (w : World) (goOn : α → World → Step) : Prop :=
  ∀ r, x.on w = some r → s.ComesTo goOn r

variable {s : Step} {w : World} {goOn : α → World → Step}

theorem GetsTo.comesTo {s' : Step} (h : s.GetsTo s') {r : Except Stop α × World}
    (hr : s'.ComesTo goOn r) : s.ComesTo goOn r := by
  obtain ⟨stop | a, w'⟩ := r
  · obtain ⟨m, hw, hm⟩ := hr
    exact ⟨m, hw, ReflTransGen.trans h hm⟩
  · exact ReflTransGen.trans h hr

theorem implements_pure {a : α} (hs : s = goOn a w) : s.Implements (pure a) w goOn := by
  rintro r ⟨⟩
  rw [hs]
  exact ReflTransGen.refl

/-- The world at hand is looked at. -/
theorem implements_get {f : World → Meaning α} (h : s.Implements (f w) w goOn) :
    s.Implements (get >>= f) w goOn := h

theorem implements_unfinished : s.Implements .unfinished w goOn := by
  rintro r ⟨⟩

theorem implements_throw {stop : Stop} {m : Machine} (hw : m.cx.world = w)
    (hs : s = .halt (stop.result m.stack.fence?) m) : s.Implements (throw stop) w goOn := by
  rintro r ⟨⟩
  rw [hs]
  exact ⟨m, hw, ReflTransGen.refl⟩

/-- A step that goes on implements what the next step does. -/
theorem Implements.next {x : Meaning α} {m : Machine} (h : m.step.Implements x w goOn) :
    (Step.next m).Implements x w goOn := by
  intro r hr
  have hstep : (Step.next m).GetsTo m.step := .single ⟨m, rfl, rfl⟩
  exact hstep.comesTo (h r hr)

/-- One thing after another. -/
theorem Implements.bind {x : Meaning α} {f : α → Meaning β} {goOn' : β → World → Step}
    (hx : s.Implements x w goOn) (hf : ∀ a w', (goOn a w').Implements (f a) w' goOn') :
    s.Implements (x >>= f) w goOn' := by
  intro r hr
  obtain ⟨⟨res, w'⟩, hon, hr⟩ := Option.bind_eq_some_iff.mp hr
  have hcomes := hx _ hon
  cases res with
  | error stop =>
    cases hr
    exact hcomes
  | ok a =>
    have hgets : s.GetsTo (goOn a w') := hcomes
    exact hgets.comesTo (hf a w' r hr)

end Step

/-! ### Contexts -/

theorem CallStack.pop_push (c : Call) (s : CallStack) : (s.push c).pop.2 = s := by
  cases hwarp : c.warp <;> simp [push, pop, hwarp]

theorem CallStack.warpDepth_le_push (c : Call) (s : CallStack) :
    s.warpDepth ≤ (s.push c).warpDepth := by
  rw [push]
  split
  · exact Nat.le_succ _
  · exact Nat.le_refl _

/-- Leaving a call undoes entering it. -/
theorem Context.exitCall_on_enterCall (c : Call) (cx : Context) (w : World) :
    ((cx.enterCall c).on w).exitCall = cx.on w := by
  simp only [exitCall, on, enterCall, CallStack.pop_push]

theorem Context.Keeps.eq_on {cx cx' : Context} (h : cx.Keeps cx') : cx' = cx.on cx'.world := by
  obtain ⟨⟨htarget, hpayload, hthread, -⟩, hcalls⟩ := h
  cases cx
  cases cx'
  simp only at htarget hpayload hthread hcalls
  rw [htarget, hpayload, hthread, hcalls]
  rfl

theorem Machine.suspend_eq_halt (m : Machine) (slice : Slice) (reason : String) :
    m.suspend slice reason = .halt ((Stop.suspends slice reason).result m.stack.fence?) m := by
  rw [suspend]
  cases m.stack.fence? <;> rfl

/-! ### Routines -/

/-- A value is handed to the frames, in the context on the world at hand. -/
def Machine.hand (frames : List Routine) (cx : Context) (v : Value) (w : World) : Step :=
  .next ⟨⟨frames, some v⟩, cx.on w⟩

/-- The machine implements a reading of inputs: above any frames, inside a warp call, evaluating an
input comes to what is read, with the same frames and calls. -/
structure Implemented (ev : Context → Input → Meaning Value) : Prop where
  literal : ∀ cx v, ev cx (.literal v) = pure v
  input : ∀ cx x top rest w, 0 < cx.calls.warpDepth →
    (Machine.evaluate (top :: rest) x (cx.on w)).Implements (ev cx x) w
      (Machine.hand (top :: rest) cx)

namespace Implemented

open Machine

variable {ev : Context → Input → Meaning Value} {cx : Context} {top : Routine}
  {rest : List Routine}

/-- The step that resumes a routine above the frames. -/
def resuming (r : Routine) (resumed : Option Value) (top : Routine) (rest : List Routine)
    (cx : Context) (w : World) : Step :=
  (Machine.mk ⟨r :: top :: rest, resumed⟩ (cx.on w)).step

theorem stack (h : Implemented ev) (hwarp : 0 < cx.calls.warpDepth) (bs : List Block)
    (resumed : Option Value) (w : World) :
    (resuming (.stack bs) resumed top rest cx w).Implements
      (Meaning.ofStack (ev cx) bs (resumed.getD .null)) w (hand (top :: rest) cx) := by
  induction bs generalizing resumed w with
  | nil => exact Step.implements_pure rfl
  | cons b bs ih =>
    exact (h.input cx (.block b) (.stack bs) (top :: rest) w hwarp).bind
      fun v w' => (ih (some v) w').next

/-- A value is handed on through a frame that reports what it is resumed with. -/
theorem handed_on {r : Routine} (hr : ∀ resumed cx, r.resume resumed cx =
      (.ok (.done (resumed.getD .null), .relay), cx)) {x : Meaning Value} {s : Step} {w : World}
    (h : s.Implements x w (hand (r :: top :: rest) cx)) :
    s.Implements x w (hand (top :: rest) cx) := by
  have hpure : s.Implements (x >>= pure) w (hand (top :: rest) cx) := by
    refine h.bind fun v w' => Step.Implements.next ?_
    rw [step_of_ok rfl (hr _ _)]
    exact Step.implements_pure rfl
  rwa [bind_pure] at hpure

theorem atOnce (h : Implemented ev) (hwarp : 0 < cx.calls.warpDepth) (i : Input) (w : World) :
    (evaluateAtOnce (top :: rest) i (cx.on w)).Implements (ev cx i) w (hand (top :: rest) cx) := by
  have hfence : ∀ opcode, (evaluate (.fence opcode :: top :: rest) i (cx.on w)).Implements (ev cx i)
      w (hand (top :: rest) cx) :=
    fun opcode => handed_on (fun _ _ => rfl) (h.input cx i (.fence opcode) (top :: rest) w hwarp)
  cases i with
  | literal v => exact h.input cx (.literal v) top rest w hwarp
  | block b => exact hfence b.opcode
  | stack bs =>
    cases bs with
    | nil => exact h.input cx (.stack []) top rest w hwarp
    | cons b bs => exact hfence b.opcode

theorem flow (h : Implemented ev) (hwarp : 0 < cx.calls.warpDepth) (flow : Flow) (w : World) :
    (follow flow .relay (top :: rest) (cx.on w)).Implements (Meaning.ofFlow (ev cx) flow) w
      (hand (top :: rest) cx) := by
  cases flow with
  | done v => exact Step.implements_pure rfl
  | evaluate i => exact handed_on (fun _ _ => rfl) (h.input cx i .relay (top :: rest) w hwarp)
  | evaluateAtOnce i => exact handed_on (fun _ _ => rfl) (h.atOnce hwarp i w)
  | pause =>
    have hpos : 0 < (cx.on w).calls.warpDepth := hwarp
    rw [follow, if_pos hpos]
    exact Step.Implements.next (Step.implements_pure rfl)
  | await a => exact Step.implements_throw rfl (suspend_eq_halt ..)
  | quit => exact Step.implements_throw rfl (suspend_eq_halt ..)

variable {r : Routine} {resumed : Option Value} {w : World}

/-- What a routine asks for is done above the frames. -/
theorem asks {flow : Flow} {r' : Routine} {cx' : Context} {x : Meaning Value}
    (hr : r.resume resumed (cx.on w) = (.ok (flow, r'), cx'))
    (h : (follow flow r' (top :: rest) cx').Implements x w (hand (top :: rest) cx)) :
    (resuming r resumed top rest cx w).Implements x w (hand (top :: rest) cx) := by
  rw [resuming, step_of_ok rfl hr]
  exact h

/-- A body runs in the context of its block, and changes nothing but the world. -/
theorem body (h : Implemented ev) (hwarp : 0 < cx.calls.warpDepth) {b : Block} {body : Body}
    {args : Args} (hr : r.resume resumed (cx.on w) =
      (Routine.gather b body none [] args).resume none (cx.on w)) :
    (resuming r resumed top rest cx w).Implements
      (Meaning.ofReply (fun w => body.run b.opcode args (cx.on w)) >>= Meaning.ofFlow (ev cx)) w
      (hand (top :: rest) cx) := by
  have hbody : (resuming r resumed top rest cx w).Implements
      (Meaning.ofReply fun w => body.run b.opcode args (cx.on w)) w
      (fun flow w' => follow flow .relay (top :: rest) (cx.on w')) := by
    rintro x ⟨⟩
    have hkeeps := (Body.run_keeps body b.opcode args (cx.on w)).eq_on
    simp only
    cases hrun : body.run b.opcode args (cx.on w) with
    | mk reply cx' =>
      rw [hrun] at hkeeps
      cases reply with
      | error e =>
        have hresume : r.resume resumed (cx.on w) = (.error e, cx') := by
          rw [hr]
          simp only [Routine.resume, Blockwork.gather, takeResumed, hrun]
        refine ⟨⟨⟨r :: top :: rest, none⟩, cx'⟩, rfl, ?_⟩
        rw [resuming, step_of_error rfl hresume]
        exact ReflTransGen.refl
      | ok flow =>
        have hresume : r.resume resumed (cx.on w) = (.ok (flow, .relay), cx') := by
          rw [hr]
          simp only [Routine.resume, Blockwork.gather, takeResumed, hrun]
        have hcx : cx' = cx.on cx'.world := hkeeps
        show Step.GetsTo _ (follow flow .relay (top :: rest) (cx.on cx'.world))
        rw [resuming, step_of_ok rfl hresume, ← hcx]
        exact ReflTransGen.refl
  exact hbody.bind fun flow w' => h.flow hwarp flow w'

theorem eager (h : Implemented ev) (hwarp : 0 < cx.calls.warpDepth) {b : Block} {body : Body}
    {inputs : Table Input} {args : Args} (hr : ∀ w, r.resume resumed (cx.on w) =
      (Routine.gather b body none inputs args).resume none (cx.on w)) (w : World) :
    (resuming r resumed top rest cx w).Implements
      (Meaning.ofInputs (ev cx) inputs args >>= fun args =>
        Meaning.ofReply (fun w => body.run b.opcode args (cx.on w)) >>= Meaning.ofFlow (ev cx)) w
      (hand (top :: rest) cx) := by
  induction inputs generalizing r resumed args w with
  | nil => exact h.body hwarp (hr w)
  | cons e inputs ih =>
    obtain ⟨name, i⟩ := e
    cases i with
    | literal v => exact ih hr w
    | stack bs => exact ih hr w
    | block i =>
      rw [Meaning.ofInputs, bind_assoc]
      refine asks (hr w) ((h.input cx (.block i) (.gather b body (some name) inputs args)
        (top :: rest) w hwarp).bind fun v w' => ?_)
      exact Step.Implements.next (@ih (.gather b body (some name) inputs args) (some v) _
        (fun _ => rfl) w')

/-- A loop gives way between its turns, and inside a warp call goes on at once. -/
theorem pauses {r' : Routine} {x : Meaning Value} (hwarp : 0 < cx.calls.warpDepth)
    (hr : r.resume resumed (cx.on w) = (.ok (.pause, r'), cx.on w))
    (h : (resuming r' none top rest cx w).Implements x w (hand (top :: rest) cx)) :
    (resuming r resumed top rest cx w).Implements x w (hand (top :: rest) cx) := by
  have hpos : 0 < (cx.on w).calls.warpDepth := hwarp
  refine asks hr ?_
  rw [follow, if_pos hpos]
  exact h.next

theorem times (h : Implemented ev) (hwarp : 0 < cx.calls.warpDepth) (b : Block) {n : Int}
    (hr : ∀ w, r.resume resumed (cx.on w) = (.ok (Routine.repeatBody b n), cx.on w)) (w : World) :
    (resuming r resumed top rest cx w).Implements
      (Meaning.times (ev cx (b.input "SUBSTACK")) n.toNat) w (hand (top :: rest) cx) := by
  induction hn : n.toNat generalizing r resumed n w with
  | zero =>
    have hle : n ≤ 0 := by omega
    rw [resuming, step_of_ok rfl ((hr w).trans (by rw [Routine.repeatBody, if_pos hle]))]
    exact Step.implements_pure rfl
  | succ k ih =>
    have hpos : ¬ n ≤ 0 := by omega
    refine asks ((hr w).trans (by rw [Routine.repeatBody, if_neg hpos])) ?_
    refine (h.input cx _ _ (top :: rest) w hwarp).bind fun v w' => Step.Implements.next ?_
    have hpause : (Routine.repeatTimes b (.pause (n - 1))).resume (some v) (cx.on w') =
        (.ok (.pause, .repeatTimes b (.body (n - 1))), cx.on w') := rfl
    exact pauses hwarp hpause (ih (fun _ => rfl) w' (by omega))

theorem forever (h : Implemented ev) (hwarp : 0 < cx.calls.warpDepth) (b : Block) (turns : Nat)
    (resumed : Option Value) (w : World) :
    (resuming (.forever b false) resumed top rest cx w).Implements
      (Meaning.forever (ev cx (b.input "SUBSTACK")) turns) w (hand (top :: rest) cx) := by
  induction turns generalizing resumed w with
  | zero => exact Step.implements_unfinished
  | succ turns ih =>
    refine (h.input cx _ (.forever b true) (top :: rest) w hwarp).bind
      fun v w' => Step.Implements.next ?_
    have hpause : (Routine.forever b true).resume (some v) (cx.on w') =
        (.ok (.pause, .forever b false), cx.on w') := rfl
    exact pauses hwarp hpause (ih none w')

theorem untilHolds (h : Implemented ev) (hwarp : 0 < cx.calls.warpDepth) (b : Block)
    (hasBody : Bool) (turns : Nat) (resumed : Option Value) (w : World) :
    (resuming (.repeatUntil b hasBody .test) resumed top rest cx w).Implements
      (Meaning.untilHolds (ev cx (b.input "CONDITION"))
        (if hasBody then ev cx (b.input "SUBSTACK") else pure .null) turns) w
      (hand (top :: rest) cx) := by
  induction turns generalizing resumed w with
  | zero => exact Step.implements_unfinished
  | succ turns ih =>
    refine (h.input cx _ (.repeatUntil b hasBody .check) (top :: rest) w hwarp).bind
      fun v w' => Step.Implements.next ?_
    show (resuming (.repeatUntil b hasBody .check) (some v) top rest cx w').Implements _ _ _
    cases hv : v.toBool with
    | true =>
      have hres : (Routine.repeatUntil b hasBody .check).resume (some v) (cx.on w') =
          (.ok (.done .null, .relay), cx.on w') := if_pos hv
      rw [resuming, step_of_ok rfl hres]
      exact Step.implements_pure rfl
    | false =>
      have hholds : ¬ Routine.holds (some v) = true := ne_true_of_eq_false hv
      cases hasBody with
      | false =>
        have hres : (Routine.repeatUntil b false .check).resume (some v) (cx.on w') =
            (.ok (.pause, .repeatUntil b false .test), cx.on w') := if_neg hholds
        exact pauses hwarp hres (ih none w')
      | true =>
        have hres : (Routine.repeatUntil b true .check).resume (some v) (cx.on w') =
            (.ok (.evaluate (b.input "SUBSTACK"), .repeatUntil b true .body), cx.on w') :=
          if_neg hholds
        refine asks hres ((h.input cx _ _ (top :: rest) w' hwarp).bind
          fun u w' => Step.Implements.next ?_)
        have hpause : (Routine.repeatUntil b true .body).resume (some u) (cx.on w') =
            (.ok (.pause, .repeatUntil b true .test), cx.on w') := rfl
        exact pauses hwarp hpause (ih none w')

theorem branch (h : Implemented ev) (hwarp : 0 < cx.calls.warpDepth) (b : Block) (hasElse : Bool)
    (v : Value) (w : World) :
    (resuming (.branch b hasElse .choose) (some v) top rest cx w).Implements
      (Meaning.ofChoice (ev cx) b hasElse v.toBool >>= fun _ => pure .null) w
      (hand (top :: rest) cx) := by
  have hleave : ∀ i w, (evaluate (.branch b hasElse .leave :: top :: rest) i (cx.on w)).Implements
      (ev cx i >>= fun _ => pure .null) w (hand (top :: rest) cx) := by
    intro i w
    exact (h.input cx i _ (top :: rest) w hwarp).bind
      fun v w' => Step.Implements.next (Step.implements_pure rfl)
  cases hv : v.toBool with
  | true =>
    have hres : (Routine.branch b hasElse .choose).resume (some v) (cx.on w) =
        (.ok (.evaluate (b.input "SUBSTACK"), .branch b hasElse .leave), cx.on w) := if_pos hv
    exact asks hres (hleave _ w)
  | false =>
    have hholds : ¬ Routine.holds (some v) = true := ne_true_of_eq_false hv
    cases hasElse with
    | true =>
      have hres : (Routine.branch b true .choose).resume (some v) (cx.on w) =
          (.ok (.evaluate (b.input "SUBSTACK2"), .branch b true .leave), cx.on w) := if_neg hholds
      exact asks hres (hleave _ w)
    | false =>
      have hres : (Routine.branch b false .choose).resume (some v) (cx.on w) =
          (.ok (.done .null, .branch b false .leave), cx.on w) := if_neg hholds
      exact asks hres (Step.implements_pure rfl)

/-! ### Calls -/

/-- The body of a custom block runs inside a new call, which is left again. -/
theorem enters (h : Implemented ev) (hwarp : 0 < cx.calls.warpDepth) {b : Block} {d : Declaration}
    {args : Args} (hr : r.resume resumed (cx.on w) = Routine.enterBody b d args (cx.on w)) :
    (resuming r resumed top rest cx w).Implements (Meaning.ofCall ev cx d args) w
      (hand (top :: rest) cx) := by
  refine Step.implements_get ?_
  rw [Routine.enterBody] at hr
  have hscene : (cx.on w).scene = w.scene := rfl
  rw [hscene] at hr
  cases hbody : w.scene.bodyOf? d.signature with
  | none =>
    rw [hbody] at hr
    exact Step.implements_throw rfl (step_of_error rfl hr)
  | some body =>
    rw [hbody] at hr
    have hinside : 0 < (cx.enterCall ⟨d.id, args, d.warp⟩).calls.warpDepth :=
      Nat.lt_of_lt_of_le hwarp (CallStack.warpDepth_le_push _ _)
    refine asks hr ((h.input (cx.enterCall ⟨d.id, args, d.warp⟩) _ (.call b d .leave) (top :: rest) w
      hinside).bind fun v w' => Step.Implements.next ?_)
    have hleave : (Routine.call b d .leave).resume (some v) ((cx.enterCall ⟨d.id, args, d.warp⟩).on w')
        = (.ok (.done .null, .relay), cx.on w') := by
      rw [← cx.exitCall_on_enterCall ⟨d.id, args, d.warp⟩ w']
      rfl
    rw [step_of_ok rfl hleave]
    exact Step.implements_pure rfl

theorem call (h : Implemented ev) (hwarp : 0 < cx.calls.warpDepth) {b : Block} {d : Declaration}
    {params : List String} {args : Args} (hr : ∀ w, r.resume resumed (cx.on w) =
      (Routine.call b d (.arguments none params args)).resume none (cx.on w)) (w : World) :
    (resuming r resumed top rest cx w).Implements
      (Meaning.ofArguments (ev cx) b params args >>= Meaning.ofCall ev cx d) w
      (hand (top :: rest) cx) := by
  induction params generalizing r resumed args w with
  | nil =>
    have hguard : r.resume resumed (cx.on w) = Routine.guardCall b d args (cx.on w) := hr w
    rw [Routine.guardCall] at hguard
    split at hguard
    · exact pauses hwarp hguard (h.enters hwarp rfl)
    · exact h.enters hwarp hguard
  | cons name params ih =>
    rw [Meaning.ofArguments, bind_assoc]
    have hasked : (∀ w, r.resume resumed (cx.on w) = (.ok (.evaluate (b.input name),
          .call b d (.arguments (some name) params args)), cx.on w)) →
        (resuming r resumed top rest cx w).Implements
          (ev cx (b.input name) >>= fun v =>
            Meaning.ofArguments (ev cx) b params (Table.insert name v args) >>=
              Meaning.ofCall ev cx d) w (hand (top :: rest) cx) := by
      intro hwants
      refine asks (hwants w) ((h.input cx _ _ (top :: rest) w hwarp).bind
        fun v w' => Step.Implements.next ?_)
      exact @ih (.call b d (.arguments (some name) params args)) (some v) _ (fun _ => rfl) w'
    cases hi : b.input name with
    | literal v =>
      -- a literal is passed without a step of its own
      rw [h.literal]
      refine ih (fun w => (hr w).trans ?_) w
      simp only [Routine.resume, takeResumed, passArguments, hi]
    | block | stack =>
      rw [← hi]
      refine hasked fun w => (hr w).trans ?_
      simp only [Routine.resume, takeResumed, passArguments, hi]

/-! ### Evaluations -/

theorem block (h : Implemented ev) (hwarp : 0 < cx.calls.warpDepth) (b : Block) (turns : Nat)
    (w : World) :
    (evaluate (top :: rest) (.block b) (cx.on w)).Implements (Meaning.ofBlock ev turns cx b) w
      (hand (top :: rest) cx) := by
  rw [evaluate, Block.start, Meaning.ofBlock]
  cases b.operation with
  | eager body => exact (h.eager hwarp (fun _ => rfl) w).next
  | repeatTimes =>
    refine Step.Implements.next ((h.input cx (b.input "TIMES") (.repeatTimes b .count) (top :: rest) w
      hwarp).bind fun n w' => Step.Implements.next ?_)
    exact @times _ _ _ _ (.repeatTimes b .count) (some n) h hwarp b _ (fun _ => rfl) w'
  | forever => exact (h.forever hwarp b turns none w).next
  | branch hasElse =>
    exact Step.Implements.next ((h.input cx (b.input "CONDITION") (.branch b hasElse .choose)
      (top :: rest) w hwarp).bind fun v w' => (h.branch hwarp b hasElse v w').next)
  | repeatUntil hasBody => exact (h.untilHolds hwarp b hasBody turns none w).next
  | call d => exact (h.call hwarp (fun _ => rfl) w).next
  | evaluateInput name => exact Step.Implements.next (h.flow hwarp (.evaluate (b.input name)) w)
  | evaluateAtOnce name =>
    exact Step.Implements.next (h.flow hwarp (.evaluateAtOnce (b.input name)) w)
  | refuse text => exact Step.implements_throw rfl rfl

end Implemented

/-- The machine implements the recursive meaning. -/
theorem implemented_read (depth : Nat) : Implemented (read depth) := by
  induction depth with
  | zero =>
    refine ⟨fun _ _ => rfl, fun cx x top rest w _ => ?_⟩
    cases x with
    | literal v => exact Step.implements_pure rfl
    | block | stack => exact Step.implements_unfinished
  | succ depth ih =>
    refine ⟨fun _ _ => rfl, fun cx x top rest w hwarp => ?_⟩
    cases x with
    | literal v => exact Step.implements_pure rfl
    | block b => exact ih.block hwarp b depth w
    | stack bs =>
      cases bs with
      | nil => exact Step.implements_pure rfl
      | cons b bs => exact (ih.stack hwarp (b :: bs) none w).next

/-! ### Drives -/

/-- The steps that a machine gets to are the steps of the machines that it reaches. -/
theorem Step.GetsTo.reaches {m : Machine} {s : Step} (h : m.step.GetsTo s) :
    ∃ last, m.Reaches last ∧ last.step = s := by
  induction h with
  | refl => exact ⟨m, .refl, rfl⟩
  | tail _ hstep ih =>
    obtain ⟨last, hreach, hlast⟩ := ih
    obtain ⟨m', rfl, rfl⟩ := hstep
    exact ⟨m', hreach.tail hlast, rfl⟩

/-- A drive returns what the last step it reaches returns. -/
theorem Machine.Reaches.drive {m last m' : Machine} {result : Except ExecError Slice}
    (h : m.Reaches last) (hlast : last.step = .halt result m') :
    ∃ n, m.drive n = some (result, m') := by
  induction h using ReflTransGen.head_induction_on with
  | refl =>
    refine ⟨1, ?_⟩
    rw [Machine.drive, hlast]
  | head hstep _ ih =>
    obtain ⟨n, hn⟩ := ih
    refine ⟨n + 1, ?_⟩
    rw [Machine.drive, hstep]
    exact hn

/-- The machine implements the recursive meaning of programs.  Inside a warp call, let the top frame
ask for the evaluation of an input.  If the input is read as a value, the drive reaches, without
returning, the same frames with that value, in the same calls, on the world that the reading leaves.
If the reading stops, the drive returns what the stop makes of it, on the world at the stop. -/
theorem drive_implements_read {m : Machine} {top top' : Routine} {rest : List Routine} {x : Input}
    {cx : Context} (hframes : m.stack.frames = top :: rest)
    (hasks : top.resume m.stack.resumed m.cx = (.ok (.evaluate x, top'), cx))
    (hwarp : 0 < cx.calls.warpDepth) (depth : Nat) :
    (∀ v w, (read depth cx x).on cx.world = some (.ok v, w) →
      m.Reaches ⟨⟨top' :: rest, some v⟩, cx.on w⟩) ∧
    ∀ stop w, (read depth cx x).on cx.world = some (.error stop, w) →
      ∃ n m', m.drive n = some (stop.result m'.stack.fence?, m') ∧ m'.cx.world = w := by
  have himplements := (implemented_read depth).input cx x top' rest cx.world hwarp
  have hstep : m.step = Machine.evaluate (top' :: rest) x (cx.on cx.world) :=
    Machine.step_of_ok hframes hasks
  rw [← hstep] at himplements
  constructor
  · intro v w hread
    obtain ⟨last, hreach, hlast⟩ := Step.GetsTo.reaches (himplements _ hread)
    exact hreach.tail hlast
  · intro stop w hread
    obtain ⟨m', hw, hgets⟩ := himplements _ hread
    obtain ⟨last, hreach, hlast⟩ := hgets.reaches
    obtain ⟨n, hn⟩ := hreach.drive hlast
    exact ⟨n, m', hn, hw⟩

/-- A context inside a warp call, on a scene whose custom block loops and calls itself. -/
def Context.settling : Context :=
  { world := { scene := .settling }
    target := 0
    calls := ({} : CallStack).push ⟨"outer", [], true⟩ }

/-- The recursive call returns, with the variable set and the calls as they were. -/
theorem drive_implements_read_settling :
    ∃ w, (read 8 .settling (.block .settling)).on { scene := .settling } = some (.ok .null, w) ∧
      w.scene.getVariable? 0 "settled" = some (.bool true) ∧
      Machine.Reaches ⟨⟨[.stack [.settling]], none⟩, .settling⟩
        ⟨⟨[.stack []], some .null⟩, Context.settling.on w⟩ := by
  have hread : (read 8 .settling (.block .settling)).on { scene := .settling } =
      some (.ok .null, _) := rfl
  exact ⟨_, hread, rfl, (drive_implements_read rfl rfl Nat.one_pos 8).1 _ _ hread⟩

end Blockwork
