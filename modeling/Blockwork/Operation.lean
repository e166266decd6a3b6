import Blockwork.Value.Basic

/-!
Operations: what blocks do, as data.

A block either runs a body once its inputs are evaluated, or drives its own evaluation: loops,
branches and calls of custom blocks do that.  What each operation means is said where threads run;
here it is only named, so that programs can be compared, stored and reasoned about.
-/

namespace Blockwork

/-- Reporters of two operands that look at nothing else. -/
inductive BinaryOp where
  | add
  | subtract
  | multiply
  | divide
  | modulo
  | less
  | greater
  | equals
  | both
  | either
  | join
  deriving DecidableEq, Repr

/-- Reporters of one operand that look at nothing else. -/
inductive UnaryOp where
  | negation
  | length
  | round
  deriving DecidableEq, Repr

/-- Commands that move or turn the running target. -/
inductive Motion where
  | moveSteps
  | goTo
  | changeX
  | changeY
  | setX
  | setY
  | turnRight
  | turnLeft
  | pointIn
  deriving DecidableEq, Repr

/-- Readings of the running target. -/
inductive Reading where
  | x
  | y
  | direction
  deriving DecidableEq, Repr

/-- Bodies that a host adds to the library. -/
inductive Extension where
  /-- Reports a fixed value. -/
  | constant (value : Value)
  /-- Reports one of its inputs. -/
  | echo (input : String)
  /-- Reports its inputs as a list of names and values. -/
  | inputs
  /-- Reports the casts of an input, and how many inputs there are. -/
  | casts (input : String)
  /-- Reports the payload that the thread was started with. -/
  | payload
  /-- Reports the thread, the target and the number of targets. -/
  | whereabouts
  /-- Gives way to the other threads once. -/
  | pause
  /-- Ends the script. -/
  | quit
  /-- Fails with a text. -/
  | fail (text : String)
  /-- Asks for the evaluation of a fixed value. -/
  | evaluateConstant (value : Value)
  /-- Waits for a value that the host supplies. -/
  | awaitHost
  /-- Waits for a value that is there already. -/
  | awaitReady (value : Value)
  /-- Waits for a value that never comes. -/
  | awaitNothing
  /-- Reports a parameter of the innermost call. -/
  | argument (name : String)
  /-- Reports the depth of calls and the innermost call. -/
  | calls
  /-- Asks for a redraw. -/
  | redraw
  deriving Inhabited

/-- Bodies that run once, on evaluated inputs. -/
inductive Body where
  /-- Does nothing: event hats that are reached. -/
  | idle
  | binary (op : BinaryOp) (left right : String)
  | unary (op : UnaryOp) (operand : String)
  | wait
  | stop
  | timerAbove
  | broadcast
  | broadcastAndWait
  | getVariable
  | setVariable
  | changeVariable
  | addToList
  | itemOfList
  | lengthOfList
  | clearList
  | motion (m : Motion)
  | reading (r : Reading)
  | reveal
  | hide
  | switchCostume
  | nextCostume
  | costumeInfo
  | timer
  | resetTimer
  | parameter
  | extended (e : Extension)
  deriving Inhabited

/-- A custom block as declared: its identity, the opcode of its call block, its parameters, and
whether its body runs without giving way. -/
structure Declaration where
  id : String
  signature : String
  params : List String
  warp : Bool
  deriving DecidableEq, Repr, Inhabited

/-- What a block does. -/
inductive Operation where
  /-- Evaluate the inputs in order, then run the body. -/
  | eager (body : Body)
  | repeatTimes
  | forever
  /-- Run a stack if a condition holds, and perhaps another one if not. -/
  | branch (hasElse : Bool)
  /-- Test a condition until it holds, perhaps with a stack run after each failed test. -/
  | repeatUntil (hasBody : Bool)
  /-- Call a custom block. -/
  | call (declaration : Declaration)
  /-- Ask for an input to be evaluated, and report its value. -/
  | evaluateInput (input : String)
  /-- Evaluate an input at once, without suspension, and report its value. -/
  | evaluateAtOnce (input : String)
  /-- Fail before anything is evaluated. -/
  | refuse (text : String)
  deriving Inhabited

end Blockwork
