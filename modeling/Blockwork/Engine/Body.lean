import Blockwork.Engine.Arithmetic
import Blockwork.Engine.Context

/-!
Bodies: what a block does once its inputs are evaluated, and what it asks for next.
-/

namespace Blockwork

/-- What a routine asks for after it has been resumed. -/
inductive Flow where
  /-- It is finished with this value. -/
  | done (value : Value)
  /-- Evaluate this, then resume with its value. -/
  | evaluate (input : Input)
  /-- Evaluate this at once, without suspension, then resume with its value. -/
  | evaluateAtOnce (input : Input)
  /-- Let the other threads run.  Nothing happens in warp mode. -/
  | pause
  /-- Park the thread until the awaitable is settled, then resume with its value. -/
  | await (awaitable : Awaitable)
  /-- End the script. -/
  | quit
  deriving Inhabited

/-- What a body comes to, and the context it leaves. -/
abbrev Reply (α : Type) := Except ExecError α × Context

/-- The inputs of a block, evaluated. -/
abbrev Args := Table Value

namespace Args

/-- An input; null if there is none of that name. -/
def value (args : Args) (name : String) : Value := (Table.get? name args).getD .null

def number (args : Args) (name : String) : Float := (value args name).toNumber

def text (args : Args) (name : String) : String := (value args name).text

end Args

/-! ### Motion -/

/-- A degree in radians. -/
def radiansPerDegree : Float := Float.ofBits 0x3f91df46a2529d39

namespace Motion

/-- What a motion does to its target. -/
def apply (m : Motion) (args : Args) (t : Target) : Target :=
  match m with
  | .moveSteps =>
    let steps := args.number "STEPS"
    let radians := (90 - t.direction) * radiansPerDegree
    { t with x := t.x + steps * radians.cos, y := t.y + steps * radians.sin }
  | .goTo => { t with x := args.number "X", y := args.number "Y" }
  | .changeX => { t with x := t.x + args.number "DX" }
  | .changeY => { t with y := t.y + args.number "DY" }
  | .setX => { t with x := args.number "X" }
  | .setY => { t with y := args.number "Y" }
  | .turnRight => t.setDirection (t.direction + args.number "DEGREES")
  | .turnLeft => t.setDirection (t.direction - args.number "DEGREES")
  | .pointIn => t.setDirection (args.number "DIRECTION")

end Motion

namespace Reading

def apply (r : Reading) (t : Target) : Float :=
  match r with
  | .x => t.x
  | .y => t.y
  | .direction => t.direction

end Reading

/-! ### Lists -/

/-- The position that an index value selects in a list: the text `last` the last one, a number its
floor, counted from 1. -/
def listIndex? (index : Value) (length : Nat) : Option Nat :=
  let byNumber : Option Nat :=
    match Dyad.ofFloat? index.toNumber with
    | some d => if 1 ≤ d.floor ∧ d.floor ≤ length then some (d.floor.toNat - 1) else none
    | none => none
  match index with
  | .str s => if Text.eqIgnoringCase s "last" then (if length = 0 then none else some (length - 1))
              else byNumber
  | _ => byNumber

/-! ### Bodies -/

/-- A thread's name. -/
def threadName (id : Nat) : String := "thread-" ++ toString id

namespace Extension

/-- Runs a body that the host has added. -/
def run (e : Extension) (opcode : String) (args : Args) (cx : Context) : Reply Flow :=
  match e with
  | .constant v => (.ok (.done v), cx)
  | .echo input => (.ok (.done (args.value input)), cx)
  | .inputs => (.ok (.done (.list (args.map fun a => .list [.str a.1, a.2]))), cx)
  | .casts input =>
    let v := args.value input
    (.ok (.done (Value.object [
      ("number", .num v.toNumber),
      ("string", .str v.text),
      ("bool", .bool v.toBool),
      ("len", .num (doubleOfNat args.length)),
      ("empty", .bool args.isEmpty)])), cx)
  | .payload => (.ok (.done (cx.payload.getD (.str "no payload"))), cx)
  | .whereabouts =>
    (.ok (.done (.list [
      .str (cx.thread.elim "none" threadName),
      .num (doubleOfNat cx.target),
      .num (doubleOfNat cx.scene.targets.length)])), cx)
  | .pause => (.ok .pause, cx)
  | .quit => (.ok .quit, cx)
  | .fail text => (.error (.block opcode text), cx)
  | .evaluateConstant v => (.ok (.evaluate (.literal v)), cx)
  | .awaitHost =>
    let (token, cx) := cx.freshHostedSignal
    (.ok (.await (.waiting token)), cx)
  | .awaitReady v => (.ok (.await (.ready (some v))), cx)
  | .awaitNothing => (.ok (.await (.ready none)), cx)
  | .argument name => (.ok (.done ((cx.argument? name).getD (.str "no argument"))), cx)
  | .calls =>
    let depths := [.num (doubleOfNat cx.calls.depth), .num (doubleOfNat cx.calls.warpDepth)]
    let innermost := cx.calls.top?.elim [] fun c => [.str c.procedure, .bool c.warp]
    (.ok (.done (.list (depths ++ innermost))), cx)
  | .redraw => (.ok (.done .null), cx.requestRedraw)

end Extension

namespace Body

/-- A command that has changed the context, or failed. -/
def command (cx : Context) : Except ExecError Context → Reply Flow
  | .ok cx => (.ok (.done .null), cx)
  | .error e => (.error e, cx)

/-- A report that has been read, or failed. -/
def report (cx : Context) : Except ExecError Value → Reply Flow
  | .ok v => (.ok (.done v), cx)
  | .error e => (.error e, cx)

/-- Runs a body on evaluated inputs. -/
def run (body : Body) (opcode : String) (args : Args) (cx : Context) : Reply Flow :=
  match body with
  | .idle => (.ok (.done .null), cx)
  | .binary op left right => (.ok (.done (op.apply (args.value left) (args.value right))), cx)
  | .unary op operand => (.ok (.done (op.apply (args.value operand))), cx)
  | .wait =>
    let (awaitable, cx) := cx.delay (waitNanos (args.number "DURATION"))
    (.ok (.await awaitable), cx)
  | .stop =>
    let option := args.text "STOP_OPTION"
    if option = "all" then (.ok .quit, cx.post .stopAll)
    else if option = "this script" then (.ok .quit, cx)
    else if option = "other scripts in sprite" ∨ option = "other scripts in stage" then
      (.ok (.done .null), cx.post (.stopOthers cx.target cx.thread))
    else (.error (.block "control_stop" ("unknown stop option `" ++ option ++ "`")), cx)
  | .timerAbove =>
    let reading : Float :=
      if Text.eqIgnoringCase (args.text "WHENGREATERTHANMENU") "TIMER" then cx.timerSeconds else 0
    (.ok (.done (.bool (args.number "VALUE" < reading))), cx)
  | .broadcast =>
    (.ok (.done .null), cx.post (.broadcast (.broadcast (args.text "BROADCAST_INPUT")) none))
  | .broadcastAndWait =>
    let (token, cx) := cx.freshSignal
    (.ok (.await (.waiting token)),
      cx.post (.broadcast (.broadcast (args.text "BROADCAST_INPUT")) (some token)))
  | .getVariable => report cx (cx.getVariable (args.text "VARIABLE"))
  | .setVariable => command cx (cx.setVariable (args.text "VARIABLE") (args.value "VALUE"))
  | .changeVariable =>
    let name := args.text "VARIABLE"
    command cx do
      let current ← cx.getVariable name
      cx.setVariable name (.num (current.toNumber + args.number "VALUE"))
  | .addToList =>
    let name := args.text "LIST"
    command cx do
      let items ← cx.getList name
      cx.setList name (items ++ [args.value "ITEM"])
  | .itemOfList =>
    report cx do
      let items ← cx.getList (args.text "LIST")
      let item := (listIndex? (args.value "INDEX") items.length).bind fun i => items[i]?
      pure (item.getD (.str ""))
  | .lengthOfList =>
    report cx do
      let items ← cx.getList (args.text "LIST")
      pure (.num (doubleOfNat items.length))
  | .clearList => command cx (cx.setList (args.text "LIST") [])
  | .motion m => (.ok (.done .null), (cx.modifySelf (m.apply args)).redrawIfVisible)
  | .reading r => (.ok (.done (.num (r.apply cx.self))), cx)
  | .reveal =>
    (.ok (.done .null), (cx.modifySelf fun t => { t with visible := true }).requestRedraw)
  | .hide =>
    (.ok (.done .null), (cx.modifySelf fun t => { t with visible := false }).requestRedraw)
  | .switchCostume =>
    (.ok (.done .null), (cx.modifySelf (Target.switchCostume (args.value "COSTUME"))).redrawIfVisible)
  | .nextCostume => (.ok (.done .null), (cx.modifySelf Target.nextCostume).redrawIfVisible)
  | .costumeInfo =>
    let option := args.text "NUMBER_NAME"
    if option = "number" then (.ok (.done (.num (doubleOfNat cx.self.costume + 1))), cx)
    else if option = "name" then (.ok (.done (.str (cx.self.costumeName?.getD ""))), cx)
    else (.error (.block "looks_costumenumbername" ("unknown option `" ++ option ++ "`")), cx)
  | .timer => (.ok (.done (.num cx.timerSeconds)), cx)
  | .resetTimer => (.ok (.done .null), cx.resetTimer)
  | .parameter => (.ok (.done ((cx.argument? (args.text "VALUE")).getD (.num 0))), cx)
  | .extended e => e.run opcode args cx

end Body

end Blockwork
