import Blockwork.Block.Basic

/-!
Triggers: the events that start scripts, and the hats they fire.
-/

namespace Blockwork

/-- An event sent by the host or by a running block. -/
structure Trigger where
  event : String
  key : Option String := none
  payload : Option Value := none
  deriving Inhabited

namespace Trigger

def flagEvent : String := "flag"

def broadcastEvent : String := "broadcast"

def keyEvent : String := "key"

def greenFlag : Trigger := { event := flagEvent }

def broadcast (text : String) : Trigger := { event := broadcastEvent, key := some text }

def keyPressed (key : String) : Trigger := { event := keyEvent, key := some key }

end Trigger

/-- Whether a trigger fires the hat on the block that wears it.  The literal `any` in the key input
fits every key; letter case is ignored. -/
def Hat.isFiredBy (h : Hat) (b : Block) (t : Trigger) : Bool :=
  match h.kind with
  | .edge => false
  | .event name keyInput =>
    name = t.event &&
      match keyInput with
      | none => true
      | some input =>
        match Table.get? input b.inputs with
        | some (.literal expected) =>
          Text.eqIgnoringCase expected.text "any" ||
            match t.key with
            | some key => Text.eqIgnoringCase key expected.text
            | none => false
        | _ => false

end Blockwork
