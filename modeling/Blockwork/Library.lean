import Blockwork.Block.Registry
import Blockwork.Block.Trigger

/-!
The standard library of blocks.
-/

namespace Blockwork.Library

/-- Input slots of one shape. -/
def slots (names : List String) (shape : Shape) : Table Shape := names.map (·, shape)

/-- A command that runs a body on evaluated inputs. -/
def command (opcode : String) (inputs : Table Shape) (body : Body) : Prototype :=
  { opcode, inputs, operation := .eager body, returns := none, isPure := false, hat := none }

/-- A block that drives its own evaluation. -/
def control (opcode : String) (inputs : Table Shape) (operation : Operation) : Prototype :=
  { opcode, inputs, operation, returns := none, isPure := false, hat := none }

/-- A reporter that looks at the world. -/
def reporter (opcode : String) (inputs : Table Shape) (returns : List Kind) (body : Body) :
    Prototype :=
  { opcode, inputs, operation := .eager body, returns := some returns, isPure := false, hat := none }

/-- A pure reporter of two operands. -/
def binary (opcode left right : String) (shape : Shape) (returns : Kind) (op : BinaryOp) :
    Prototype :=
  { reporter opcode (slots [left, right] shape) [returns] (.binary op left right) with
    isPure := true }

/-- A pure reporter of one operand. -/
def unary (opcode operand : String) (shape : Shape) (returns : Kind) (op : UnaryOp) : Prototype :=
  { reporter opcode (slots [operand] shape) [returns] (.unary op operand) with isPure := true }

/-- An event hat. -/
def eventHat (opcode : String) (inputs : Table Shape) (hat : Hat) : Prototype :=
  { command opcode inputs .idle with hat := some hat }

/-- What a variable or a list item may be. -/
def storable : List Kind := [.boolean, .number, .string]

def controlBlocks : List Prototype := [
  command "control_wait" [("DURATION", .slot .number)] .wait,
  control "control_repeat" [("TIMES", .slot .number), ("SUBSTACK", .substack)] .repeatTimes,
  control "control_forever" [("SUBSTACK", .substack)] .forever,
  control "control_if" [("CONDITION", .condition), ("SUBSTACK", .substack)] (.branch false),
  control "control_if_else"
    [("CONDITION", .condition), ("SUBSTACK", .substack), ("SUBSTACK2", .substack)] (.branch true),
  control "control_wait_until" [("CONDITION", .condition)] (.repeatUntil false),
  control "control_repeat_until" [("CONDITION", .condition), ("SUBSTACK", .substack)]
    (.repeatUntil true),
  command "control_stop" [("STOP_OPTION", .field)] .stop]

def eventBlocks : List Prototype := [
  eventHat "event_whenflagclicked" [] ((Hat.event Trigger.flagEvent).restarting true),
  eventHat "event_whenbroadcastreceived" [("BROADCAST_OPTION", .field)]
    (((Hat.event Trigger.broadcastEvent).restarting true).keyedBy "BROADCAST_OPTION"),
  eventHat "event_whenkeypressed" [("KEY_OPTION", .field)]
    ((Hat.event Trigger.keyEvent).keyedBy "KEY_OPTION"),
  -- only the stopwatch is read; other menu options never fire
  { reporter "event_whengreaterthan" [("WHENGREATERTHANMENU", .field), ("VALUE", .slot .number)]
      [.boolean] .timerAbove with
    hat := some .edge },
  command "event_broadcast" [("BROADCAST_INPUT", .slot .string)] .broadcast,
  command "event_broadcastandwait" [("BROADCAST_INPUT", .slot .string)] .broadcastAndWait]

def operatorBlocks : List Prototype := [
  binary "operator_add" "NUM1" "NUM2" (.slot .number) .number .add,
  binary "operator_subtract" "NUM1" "NUM2" (.slot .number) .number .subtract,
  binary "operator_multiply" "NUM1" "NUM2" (.slot .number) .number .multiply,
  binary "operator_divide" "NUM1" "NUM2" (.slot .number) .number .divide,
  binary "operator_mod" "NUM1" "NUM2" (.slot .number) .number .modulo,
  binary "operator_lt" "OPERAND1" "OPERAND2" .any .boolean .less,
  binary "operator_gt" "OPERAND1" "OPERAND2" .any .boolean .greater,
  binary "operator_equals" "OPERAND1" "OPERAND2" .any .boolean .equals,
  binary "operator_and" "OPERAND1" "OPERAND2" .condition .boolean .both,
  binary "operator_or" "OPERAND1" "OPERAND2" .condition .boolean .either,
  unary "operator_not" "OPERAND" .condition .boolean .negation,
  binary "operator_join" "STRING1" "STRING2" .any .string .join,
  unary "operator_length" "STRING" .any .number .length,
  unary "operator_round" "NUM" (.slot .number) .number .round]

def dataBlocks : List Prototype := [
  reporter "data_variable" [("VARIABLE", .field)] storable .getVariable,
  command "data_setvariableto" [("VARIABLE", .field), ("VALUE", .any)] .setVariable,
  command "data_changevariableby" [("VARIABLE", .field), ("VALUE", .slot .number)] .changeVariable,
  command "data_addtolist" [("LIST", .field), ("ITEM", .any)] .addToList,
  reporter "data_itemoflist" [("LIST", .field), ("INDEX", .slot .number)] storable .itemOfList,
  reporter "data_lengthoflist" [("LIST", .field)] [.number] .lengthOfList,
  command "data_deletealloflist" [("LIST", .field)] .clearList]

/-- A command that moves or turns the running target. -/
def motion (opcode : String) (inputs : List String) (m : Motion) : Prototype :=
  command opcode (slots inputs (.slot .number)) (.motion m)

def motionBlocks : List Prototype := [
  motion "motion_movesteps" ["STEPS"] .moveSteps,
  motion "motion_gotoxy" ["X", "Y"] .goTo,
  motion "motion_changexby" ["DX"] .changeX,
  motion "motion_changeyby" ["DY"] .changeY,
  motion "motion_setx" ["X"] .setX,
  motion "motion_sety" ["Y"] .setY,
  motion "motion_turnright" ["DEGREES"] .turnRight,
  motion "motion_turnleft" ["DEGREES"] .turnLeft,
  motion "motion_pointindirection" ["DIRECTION"] .pointIn,
  reporter "motion_xposition" [] [.number] (.reading .x),
  reporter "motion_yposition" [] [.number] (.reading .y),
  reporter "motion_direction" [] [.number] (.reading .direction)]

def looksBlocks : List Prototype := [
  command "looks_show" [] .reveal,
  command "looks_hide" [] .hide,
  command "looks_switchcostumeto" [("COSTUME", .any)] .switchCostume,
  command "looks_nextcostume" [] .nextCostume,
  reporter "looks_costumenumbername" [("NUMBER_NAME", .field)] [.number, .string] .costumeInfo]

def sensingBlocks : List Prototype := [
  reporter "sensing_timer" [] [.number] .timer,
  command "sensing_resettimer" [] .resetTimer]

def procedureBlocks : List Prototype := [
  reporter "argument_reporter_string_number" [("VALUE", .field)] [.number, .string] .parameter]

/-- Every block of the standard library. -/
def blocks : List Prototype :=
  controlBlocks ++ eventBlocks ++ operatorBlocks ++ dataBlocks ++ motionBlocks ++ looksBlocks ++
    sensingBlocks ++ procedureBlocks

/-- The registry of the standard library. -/
def registry : Registry := ⟨blocks.map fun p => (p.opcode, p)⟩

end Blockwork.Library
