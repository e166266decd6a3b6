import Blockwork.Block.Trigger
import Blockwork.Engine.Signal

/-!
Effects on other threads.  A running block never touches the list of threads: what is to start or
stop threads is put in the outbox, and carried out right after the turn of the thread that asked.
-/

namespace Blockwork

/-- Something that starts or stops threads. -/
inductive Effect where
  /-- Send a trigger.  If a token is given, its signal is settled once every thread that the trigger
  started has finished. -/
  | broadcast (trigger : Trigger) (completion : Option Token)
  /-- Stop every thread. -/
  | stopAll
  /-- Stop every thread of a target but one. -/
  | stopOthers (target : Nat) (except : Option Nat)
  deriving Inhabited

namespace Effect

/-- The token that an effect holds. -/
def token? : Effect → Option Token
  | .broadcast _ completion => completion
  | _ => none

end Effect

/-- Effects in the order in which they were asked for. -/
abbrev Outbox := List Effect

/-- The tokens that an outbox holds. -/
def Outbox.tokens (o : Outbox) : List Token := o.filterMap Effect.token?

end Blockwork
