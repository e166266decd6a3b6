import Blockwork.Number.Decimal
import Blockwork.Settings.Datum
import Blockwork.Json.Reader
import Blockwork.Yaml.Scan

/-!
The values of YAML documents.  Plain texts stand for numbers, truth values and null where they look
like them; a tag may say for what.  A reference stands for the node that its anchor names.
-/

namespace Blockwork.Yaml

/-! ### Scalars -/

/-- A whole number of 64 bits in a base of at most sixteen, with an optional sign. -/
def wholeIn? (base : Nat) (cs : List Char) : Option Int := do
  let (negative, ds) := readSign cs
  let n ← ds.foldlM (fun n c =>
    (Json.hexDigit? c).bind fun d => if d < base then some (n * base + d) else none) 0
  let value : Int := if negative then -(n : Int) else n
  if ds.isEmpty || !fitsInt64 value then none else some value

/-- A whole number: with a base mark, with a plus sign, or as it is. -/
def whole? (cs : List Char) : Option Int :=
  let based := match cs with
    | '0' :: 'x' :: ds => wholeIn? 16 ds
    | '0' :: 'o' :: ds => wholeIn? 8 ds
    | '+' :: ds => readInt64 ds
    | _ => none
  based.or (readInt64 cs)

/-- The words for numbers that are not finite.  They are not read. -/
def isUnbounded (text : String) : Bool :=
  text ∈ [".inf", ".Inf", ".INF", "+.inf", "+.Inf", "+.INF", "-.inf", "-.Inf", "-.INF", ".nan",
    ".NaN", ".NAN"]

/-- A number with a digit in it that is not whole. -/
def real? (text : String) : Option Float :=
  if text.toList.any Char.isDigit then readDouble text.toList else none

/-- What a plain text stands for. -/
def ofPlain? (text : String) : Option Datum :=
  if text = "~" || text = "null" then some .null
  else if text = "true" then some (.bool true)
  else if text = "false" then some (.bool false)
  else if isUnbounded text then none
  else
    match whole? text.toList, real? text with
    | some n, _ => some (.int n)
    | none, some x => some (.float x)
    | none, none => some (.str text)

/-- A tag after its handle is replaced. -/
structure Tag where
  base : String
  name : String

/-- The base of the tags that name the usual types. -/
def usualBase : String := "tag:yaml.org,2002:"

/-- What a plain text with a tag stands for.  A text that is not of the type that its tag names is
null. -/
def ofTagged? (tag : Tag) (text : String) : Option Datum :=
  if tag.base ≠ usualBase then some (.str text)
  else if tag.name = "bool" then
    some (if text = "true" then .bool true else if text = "false" then .bool false else .null)
  else if tag.name = "int" then some ((readInt64 text.toList).elim .null .int)
  else if tag.name = "float" then
    if isUnbounded text then none else some ((real? text).elim .null .float)
  else if tag.name = "null" then some .null
  else some (.str text)

/-- What a text stands for. -/
def ofScalar? (plain : Bool) (tag : Option Tag) (text : String) : Option Datum :=
  if !plain then some (.str text)
  else
    match tag with
    | some tag => ofTagged? tag text
    | none => ofPlain? text

/-! ### Reading tokens -/

/-- What is left of the tokens, and what the tokens before said. -/
structure Reading where
  tokens : List Token
  /-- What the tag handles stand for. -/
  handles : Table String := []
  /-- The numbers of the anchored nodes, by name. -/
  anchors : Table Nat := []
  /-- The anchored nodes by number; one that is not finished is null. -/
  nodes : List Datum := []

abbrev Reader := StateT Reading Option

/-- The next token, which stays. -/
def peek : Reader (Option TokenKind) := do return (← get).tokens.head?.map Token.kind

/-- Over the next token. -/
def advance : Reader Unit := modify fun r => { r with tokens := r.tokens.drop 1 }

/-- Over the next token, if it is the given one. -/
def accept (kind : TokenKind) : Reader Bool := do
  if (← peek) = some kind then
    advance
    return true
  else return false

/-- Names the node that begins here. -/
def nameNode (name : String) : Reader Nat := do
  let r ← get
  let number := r.nodes.length
  set { r with anchors := Table.insert name number r.anchors, nodes := r.nodes ++ [Datum.null] }
  return number

/-- Replaces the handle of a tag.  A handle between two exclamation marks must be declared. -/
def resolve (handle name : String) : Reader Tag := do
  match Table.get? handle (← get).handles with
  | some base => return ⟨base, name⟩
  | none =>
    if handle = "!!" then return ⟨usualBase, name⟩
    else if 2 ≤ handle.length then failure
    else return ⟨handle, name⟩

/-- The anchor and the tag in front of a node, in any order. -/
def properties : Reader (Option Nat × Option Tag) := do
  match ← peek with
  | some (.anchor name) =>
    advance
    let number ← nameNode name
    match ← peek with
    | some (.tag handle rest) =>
      advance
      return (some number, some (← resolve handle rest))
    | _ => return (some number, none)
  | some (.tag handle rest) =>
    advance
    let tag ← resolve handle rest
    match ← peek with
    | some (.anchor name) =>
      advance
      return (some (← nameNode name), some tag)
    | _ => return (none, some tag)
  | _ => return (none, none)

/-- The name of an entry: a text or a whole number. -/
def keyName? : Datum → Option String
  | .str s => some s
  | .int n => some (toString n)
  | _ => none

/-- The node that a reference stands for. -/
def referent (name : String) : Reader Datum := do
  let r ← get
  match Table.get? name r.anchors with
  | some number => return r.nodes[number]?.getD .null
  | none => failure

/-- Keeps a node that has an anchor. -/
def keep (number : Option Nat) (d : Datum) : Reader Datum := do
  if let some i := number then modify fun r => { r with nodes := r.nodes.set i d }
  return d

/-- Whether the next token is one of the given ones. -/
def isNext (kinds : List TokenKind) : Reader Bool := do return (← peek).any kinds.contains

/-- One entry, if its key can be its name. -/
def entry (key value : Datum) : Reader (String × Datum) := do
  match keyName? key with
  | some name => return (name, value)
  | none => failure

mutual

/-- A node; block collections are read where `inBlock` holds, and sequences that are not indented
where `flush` holds. -/
def node : Nat → (inBlock flush : Bool) → Reader Datum
  | 0, _, _ => failure
  | fuel + 1, inBlock, flush => do
    if let some (.reference name) ← peek then
      advance
      referent name
    else
      let (number, tag) ← properties
      let d ← content fuel inBlock flush number.isSome tag
      keep number d

/-- The content of a node.  It may be missing after an anchor or a tag. -/
def content : Nat → (inBlock flush anchored : Bool) → Option Tag → Reader Datum
  | 0, _, _, _, _ => failure
  | fuel + 1, inBlock, flush, anchored, tag => do
    match ← peek with
    | some (.scalar plain text) =>
      advance
      liftM (ofScalar? plain tag text)
    | some .flowSequenceStart =>
      advance
      return .arr (← flowItems fuel true)
    | some .flowMappingStart =>
      advance
      return .table (Table.ofList (← flowEntries fuel true))
    | kind =>
      if kind = some .blockEntry && flush then return .arr (← flushItems fuel)
      else if kind = some .blockSequenceStart && inBlock then
        advance
        return .arr (← blockItems fuel)
      else if kind = some .blockMappingStart && inBlock then
        advance
        return .table (Table.ofList (← blockEntries fuel))
      else if anchored || tag.isSome then liftM (ofScalar? true tag "")
      else failure

/-- The items of a flow sequence, up to its end.  An item may be a single entry. -/
def flowItems : Nat → (first : Bool) → Reader (List Datum)
  | 0, _ => failure
  | fuel + 1, first => do
    if ← accept .flowSequenceEnd then return []
    else if !(← pure first <||> accept .flowEntry) then failure
    else if ← accept .flowSequenceEnd then return []
    else if ← accept .key then
      let name ←
        if ← isNext [.value, .flowEntry, .flowSequenceEnd] then pure .null
        else node fuel false false
      let e ← entry name (← flowValue fuel)
      return .table [e] :: (← flowItems fuel false)
    else
      let d ← node fuel false false
      return d :: (← flowItems fuel false)

/-- The entries of a flow mapping, up to its end. -/
def flowEntries : Nat → (first : Bool) → Reader (List (String × Datum))
  | 0, _ => failure
  | fuel + 1, first => do
    if ← accept .flowMappingEnd then return []
    else if !(← pure first <||> accept .flowEntry) then failure
    else if ← accept .flowMappingEnd then return []
    else
      let marked ← accept .key
      let name ←
        if ← isNext [.value] then pure .null
        else if ← pure marked <&&> isNext [.flowEntry, .flowMappingEnd] then pure .null
        else node fuel false false
      let e ← entry name (← flowValue fuel)
      return e :: (← flowEntries fuel false)

/-- The value after a key in a flow collection, which may be missing. -/
def flowValue : Nat → Reader Datum
  | 0 => failure
  | fuel + 1 => do
    if !(← accept .value) then return .null
    else if ← isNext [.flowEntry, .flowMappingEnd, .flowSequenceEnd] then return .null
    else node fuel false false

/-- The items of a block sequence, up to its end. -/
def blockItems : Nat → Reader (List Datum)
  | 0 => failure
  | fuel + 1 => do
    if ← accept .blockEnd then return []
    else if !(← accept .blockEntry) then failure
    else
      let d ← if ← isNext [.blockEntry, .blockEnd] then pure .null else node fuel true false
      return d :: (← blockItems fuel)

/-- The items of a sequence that is indented no more than the mapping around it. -/
def flushItems : Nat → Reader (List Datum)
  | 0 => failure
  | fuel + 1 => do
    if !(← accept .blockEntry) then return []
    else
      let d ←
        if ← isNext [.blockEntry, .key, .value, .blockEnd] then pure .null
        else node fuel true false
      return d :: (← flushItems fuel)

/-- The entries of a block mapping, up to its end. -/
def blockEntries : Nat → Reader (List (String × Datum))
  | 0 => failure
  | fuel + 1 => do
    if ← accept .blockEnd then return []
    else
      let marked ← accept .key
      let name ←
        if ← isNext [.value] then pure .null
        else if !marked then failure
        else if ← isNext [.key, .blockEnd] then pure .null
        else node fuel true true
      let e ← entry name (← blockValue fuel)
      return e :: (← blockEntries fuel)

/-- The value after a key in a block mapping, which may be missing. -/
def blockValue : Nat → Reader Datum
  | 0 => failure
  | fuel + 1 => do
    if !(← accept .value) then return .null
    else if ← isNext [.key, .value, .blockEnd] then return .null
    else node fuel true true

end

/-! ### Documents -/

/-- The directives in front of a document.  There is at most one version. -/
def directives : Nat → (versioned : Bool) → Reader Unit
  | 0, _ => failure
  | fuel + 1, versioned => do
    match ← peek with
    | some .versionDirective =>
      if versioned then failure
      else
        advance
        directives fuel true
    | some (.tagDirective handle expansion) =>
      advance
      modify fun r => { r with handles := Table.insert handle expansion r.handles }
      directives fuel versioned
    | _ => return ()

/-- A document with its start mark, which may have no content. -/
def markedDocument (fuel : Nat) : Reader Datum := do
  directives fuel false
  if !(← accept .documentStart) then failure
  else
    match ← peek with
    | none => return .null
    | some kind => if kind.isBetweenDocuments then return .null else node fuel true false

/-- The documents from here on.  Only the first one, and one after an end mark, may go without its
start mark. -/
def documents : Nat → (bare : Bool) → Reader (List Datum)
  | 0, _ => failure
  | fuel + 1, bare => do
    if ← accept .documentEnd then documents fuel bare
    else
      match ← peek with
      | none => return []
      | some kind =>
        let d ← if bare && !kind.isBetweenDocuments then node fuel true false else markedDocument fuel
        let ended ← accept .documentEnd
        let directs := (← peek).any fun k => k.isBetweenDocuments && k ≠ .documentStart
        if !ended && directs then failure
        else
          modify fun r => { r with handles := [] }
          return d :: (← documents fuel ended)

/-- Reads a text that holds at most one document.  A text without any is an empty table. -/
def parse? (text : String) : Option Datum := do
  let tokens ← scan text
  let (ds, _) ← (documents (8 * tokens.length + 8) true).run { tokens }
  match ds with
  | [] => some (.table [])
  | [d] => some d
  | _ => none

end Blockwork.Yaml
