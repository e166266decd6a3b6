/-!
Tokens of YAML documents.  Block structure, which a document shows by indentation, is explicit in the
tokens: every block has a token that starts it and one that ends it, and every key of a mapping has a
token in front of it.
-/

namespace Blockwork.Yaml

/-- What a token says. -/
inductive TokenKind where
  /-- A directive that says what a tag handle stands for. -/
  | tagDirective (handle expansion : String)
  | versionDirective
  | documentStart
  | documentEnd
  | blockSequenceStart
  | blockMappingStart
  | blockEnd
  | flowSequenceStart
  | flowSequenceEnd
  | flowMappingStart
  | flowMappingEnd
  /-- The dash of an item of a block sequence. -/
  | blockEntry
  /-- The comma in a flow collection. -/
  | flowEntry
  /-- What follows is a key. -/
  | key
  /-- What follows is the value of a key. -/
  | value
  /-- The node that an anchor names. -/
  | reference (name : String)
  | anchor (name : String)
  | tag (handle rest : String)
  /-- A text; a plain one has no quotes and is no block. -/
  | scalar (plain : Bool) (text : String)
  deriving DecidableEq, Repr

/-- A token, and the column in which it starts. -/
structure Token where
  kind : TokenKind
  col : Nat
  deriving DecidableEq, Repr

namespace TokenKind

/-- Whether a token says how a node is to be taken. -/
def isProperty : TokenKind → Bool
  | anchor _ | tag _ _ => true
  | _ => false

/-- Whether a token can stand between two documents. -/
def isBetweenDocuments : TokenKind → Bool
  | tagDirective _ _ | versionDirective | documentStart | documentEnd => true
  | _ => false

end TokenKind

end Blockwork.Yaml
