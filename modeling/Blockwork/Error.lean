/-!
What can go wrong: while a scene is built, and while its threads run.
-/

namespace Blockwork

/-- Faults in definitions.  They show before any thread runs. -/
inductive DefinitionError where
  | malformedDescriptor (opcode input reason : String)
  | duplicateOpcode (opcode : String)
  | unknownOpcode (opcode : String)
  | missingExecute (opcode : String)
  | unexpectedInput (block opcode input : String)
  | missingInput (block opcode input : String)
  | invalidInput (block opcode input : String)
  | emptyScript
  | misplacedHat (block : String)
  | duplicateStage (existing name : String)
  | missingBody (signature : String)
  | bodyAlreadyDefined (signature : String)
  deriving DecidableEq, Repr

namespace DefinitionError

def message : DefinitionError → String
  | malformedDescriptor opcode input reason =>
    "malformed input descriptor for `" ++ input ++ "` on `" ++ opcode ++ "`: " ++ reason
  | duplicateOpcode opcode => "opcode `" ++ opcode ++ "` is already defined"
  | unknownOpcode opcode => "unknown opcode `" ++ opcode ++ "`"
  | missingExecute opcode => "block `" ++ opcode ++ "` has no execute body"
  | unexpectedInput block opcode input =>
    "block `" ++ block ++ "` (" ++ opcode ++ ") has no input named `" ++ input ++ "`"
  | missingInput block opcode input =>
    "block `" ++ block ++ "` (" ++ opcode ++ ") is missing required input `" ++ input ++ "`"
  | invalidInput block opcode input =>
    "block `" ++ block ++ "` (" ++ opcode ++ "): input `" ++ input ++
      "` does not match its declared shape"
  | emptyScript => "scripts must contain at least one block"
  | misplacedHat block => "hat block `" ++ block ++ "` must be the first block of its script"
  | duplicateStage existing name =>
    "scene already has a stage (`" ++ existing ++ "`), cannot add `" ++ name ++ "`"
  | missingBody signature => "custom block `" ++ signature ++ "` has no body"
  | bodyAlreadyDefined signature => "custom block `" ++ signature ++ "` already has a body"

end DefinitionError

/-- Faults while threads run. -/
inductive ExecError where
  /-- An evaluation that must not suspend reached a point of suspension. -/
  | protocolViolation (opcode reason : String)
  | block (opcode text : String)
  | unknownVariable (name : String)
  | unknownList (name : String)
  | missingBody (signature : String)
  | unknownTarget (index : Nat)
  deriving DecidableEq, Repr

namespace ExecError

def isProtocolViolation : ExecError → Bool
  | protocolViolation .. => true
  | _ => false

def message : ExecError → String
  | protocolViolation opcode reason => "protocol violation in `" ++ opcode ++ "`: " ++ reason
  | block opcode text => "block `" ++ opcode ++ "` failed: " ++ text
  | unknownVariable name => "unknown variable `" ++ name ++ "`"
  | unknownList name => "unknown list `" ++ name ++ "`"
  | missingBody signature => "custom block `" ++ signature ++ "` has no body"
  | unknownTarget index => "target #" ++ toString index ++ " is not part of this scene"

end ExecError

end Blockwork
