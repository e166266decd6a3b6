import Blockwork.Engine.Body

/-!
Routines: block evaluations under way, as data.

A routine is resumed with at most one value, the value of what it asked for last, and answers with
what it asks for next and the routine it has become.
-/

namespace Blockwork

inductive RepeatPhase where
  | start
  | count
  | body (remaining : Int)
  | pause (remaining : Int)
  deriving DecidableEq, Repr

inductive BranchPhase where
  | test
  | choose
  | leave
  deriving DecidableEq, Repr

inductive UntilPhase where
  | test
  | check
  | body
  deriving DecidableEq, Repr

inductive CallPhase where
  /-- Evaluating arguments, in the caller's frame. -/
  | arguments (waiting : Option String) (rest : List String) (args : Args)
  /-- About to run the body. -/
  | enter (args : Args)
  /-- The body has been run; the call is still on the call stack. -/
  | leave

/-- A block evaluation under way. -/
inductive Routine where
  /-- Evaluating the inputs of an eager block in order; `waiting` is the input being evaluated. -/
  | gather (block : Block) (body : Body) (waiting : Option String) (rest : Table Input)
      (args : Args)
  /-- Reports what it is resumed with. -/
  | relay
  /-- Running the blocks of a stack in order. -/
  | stack (rest : List Block)
  | repeatTimes (block : Block) (phase : RepeatPhase)
  | forever (block : Block) (inBody : Bool)
  | branch (block : Block) (hasElse : Bool) (phase : BranchPhase)
  | repeatUntil (block : Block) (hasBody : Bool) (phase : UntilPhase)
  | call (block : Block) (declaration : Declaration) (phase : CallPhase)
  /-- About to ask for the evaluation of an input. -/
  | ask (input : Input)
  /-- About to ask for the evaluation of an input at once. -/
  | askAtOnce (input : Input)
  /-- Marks the bottom of an evaluation that must not suspend, started for the given opcode. -/
  | fence (opcode : String)
  deriving Inhabited

/-- The routine for one evaluation of a block. -/
def Block.start (b : Block) : Except ExecError Routine :=
  match b.operation with
  | .eager body => .ok (.gather b body none b.inputs [])
  | .repeatTimes => .ok (.repeatTimes b .start)
  | .forever => .ok (.forever b false)
  | .branch hasElse => .ok (.branch b hasElse .test)
  | .repeatUntil hasBody => .ok (.repeatUntil b hasBody .test)
  | .call d => .ok (.call b d (.arguments none d.params []))
  | .evaluateInput input => .ok (.ask (b.input input))
  | .evaluateAtOnce input => .ok (.askAtOnce (b.input input))
  | .refuse text => .error (.block b.opcode text)

/-! ### Evaluating inputs -/

/-- How far the evaluation of inputs gets without running a block. -/
inductive Gathered where
  | complete (args : Args)
  | wants (name : String) (input : Input) (rest : Table Input) (args : Args)

/-- Takes inputs as far as they need no evaluation: literals as they are, stacks as null. -/
def gather : Table Input → Args → Gathered
  | [], args => .complete args
  | (name, i) :: rest, args =>
    match i with
    | .literal v => gather rest (Table.insert name v args)
    | .stack _ => gather rest (Table.insert name .null args)
    | .block _ => .wants name i rest args

/-- How far the evaluation of arguments gets without running a block. -/
inductive Passed where
  | complete (args : Args)
  | wants (name : String) (input : Input) (rest : List String) (args : Args)

/-- Takes the arguments of a call as far as they are literals. -/
def passArguments (b : Block) : List String → Args → Passed
  | [], args => .complete args
  | name :: rest, args =>
    match b.input name with
    | .literal v => passArguments b rest (Table.insert name v args)
    | other => .wants name other rest args

/-- Adds the value that an input was waiting for. -/
def takeResumed (waiting : Option String) (resumed : Option Value) (args : Args) : Args :=
  match waiting with
  | some name => Table.insert name (resumed.getD .null) args
  | none => args

namespace Routine

/-! ### Resuming -/

/-- Runs the body of a custom block inside a new call. -/
def enterBody (b : Block) (d : Declaration) (args : Args) (cx : Context) : Reply (Flow × Routine) :=
  match cx.scene.bodyOf? d.signature with
  | none => (.error (.missingBody d.signature), cx)
  | some body =>
    (.ok (.evaluate (.stack body), .call b d .leave), cx.enterCall ⟨d.id, args, d.warp⟩)

/-- A call whose arguments are there.  A custom block that is being run already gives way once
before it is entered again, unless it is a warp one. -/
def guardCall (b : Block) (d : Declaration) (args : Args) (cx : Context) : Reply (Flow × Routine) :=
  if !d.warp && cx.calls.contains d.id then (.ok (.pause, .call b d (.enter args)), cx)
  else enterBody b d args cx

/-- The next turn of a counted loop. -/
def repeatBody (b : Block) (remaining : Int) : Flow × Routine :=
  if remaining ≤ 0 then (.done .null, .relay)
  else (.evaluate (b.input "SUBSTACK"), .repeatTimes b (.pause (remaining - 1)))

/-- The truth of what a test came to. -/
def holds (resumed : Option Value) : Bool := resumed.any Value.toBool

/-- Resumes a routine. -/
def resume (r : Routine) (resumed : Option Value) (cx : Context) : Reply (Flow × Routine) :=
  match r with
  | .gather b body waiting rest args =>
    match Blockwork.gather rest (takeResumed waiting resumed args) with
    | .wants name i rest args => (.ok (.evaluate i, .gather b body (some name) rest args), cx)
    | .complete args =>
      match body.run b.opcode args cx with
      | (.ok flow, cx) => (.ok (flow, .relay), cx)
      | (.error e, cx) => (.error e, cx)
  | .relay => (.ok (.done (resumed.getD .null), .relay), cx)
  | .stack [] => (.ok (.done (resumed.getD .null), .stack []), cx)
  | .stack (b :: rest) => (.ok (.evaluate (.block b), .stack rest), cx)
  | .repeatTimes b phase =>
    match phase with
    | .start => (.ok (.evaluate (b.input "TIMES"), .repeatTimes b .count), cx)
    | .count => (.ok (repeatBody b (roundInt64 (resumed.elim 0 Value.toNumber))), cx)
    | .body remaining => (.ok (repeatBody b remaining), cx)
    | .pause remaining => (.ok (.pause, .repeatTimes b (.body remaining)), cx)
  | .forever b inBody =>
    if inBody then (.ok (.pause, .forever b false), cx)
    else (.ok (.evaluate (b.input "SUBSTACK"), .forever b true), cx)
  | .branch b hasElse phase =>
    match phase with
    | .test => (.ok (.evaluate (b.input "CONDITION"), .branch b hasElse .choose), cx)
    | .choose =>
      if holds resumed then (.ok (.evaluate (b.input "SUBSTACK"), .branch b hasElse .leave), cx)
      else if hasElse then
        (.ok (.evaluate (b.input "SUBSTACK2"), .branch b hasElse .leave), cx)
      else (.ok (.done .null, .branch b hasElse .leave), cx)
    | .leave => (.ok (.done .null, .branch b hasElse .leave), cx)
  | .repeatUntil b hasBody phase =>
    match phase with
    | .test => (.ok (.evaluate (b.input "CONDITION"), .repeatUntil b hasBody .check), cx)
    | .check =>
      if holds resumed then (.ok (.done .null, .relay), cx)
      else if hasBody then
        (.ok (.evaluate (b.input "SUBSTACK"), .repeatUntil b hasBody .body), cx)
      else (.ok (.pause, .repeatUntil b hasBody .test), cx)
    | .body => (.ok (.pause, .repeatUntil b hasBody .test), cx)
  | .call b d phase =>
    match phase with
    | .arguments waiting rest args =>
      match passArguments b rest (takeResumed waiting resumed args) with
      | .wants name i rest args => (.ok (.evaluate i, .call b d (.arguments (some name) rest args)), cx)
      | .complete args => guardCall b d args cx
    | .enter args => enterBody b d args cx
    | .leave => (.ok (.done .null, .relay), cx.exitCall)
  | .ask i => (.ok (.evaluate i, .relay), cx)
  | .askAtOnce i => (.ok (.evaluateAtOnce i, .relay), cx)
  | .fence _ => (.ok (.done (resumed.getD .null), .relay), cx)

end Routine

end Blockwork
