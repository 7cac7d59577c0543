import Bulletin.Yaml.Tag
import Bulletin.Yaml.Token.Lexer

/-! The node graph of a document, and how it is read from a list of tokens: one document, perhaps
with directives before it and markers around it. Nodes refer to one another by their number, so that
an alias is the number of the node it names, and a collection may contain itself. -/

namespace Bulletin.Yaml

inductive Content where
  | scalar (text : RawText)
  | sequence (items : List Nat)
  | mapping (entries : List (Nat × Nat))
deriving Repr

structure Node where
  tag : Tag
  content : Content
deriving Repr

/-- A document: its nodes, the number of the outermost one, and the version of its rules. An empty
document has no root. -/
structure Document where
  nodes : Array Node
  root : Option Nat
  legacy : Bool
deriving Repr

structure Reader where
  tokens : List Token
  nodes : Array Node := #[]
  anchors : List (Text × Nat) := []
  handles : List (Text × Text)
  major : Nat := 1
  minor : Nat := 2

abbrev Parsing := StateT Reader (Except Fault)

namespace Parsing

/-- The handles that need no directive. -/
def standardHandles : List (Text × Text) := [(['!'], ['!']), (['!', '!'], Tag.standard)]

/-- The next token. A fault among the tokens is raised when it is reached. -/
def peek : Parsing Token := do
  match (← get).tokens with
  | [] => return .finish
  | .fault f :: _ => throw f
  | t :: _ => return t

def drop : Parsing Unit := modify fun r => { r with tokens := r.tokens.drop 1 }

def accept (t : Token) : Parsing Bool := do
  if (← peek) = t then drop; return true else return false

def isLegacy : Parsing Bool := do return (← get).major = 1 && (← get).minor = 1

def allowsEmptyKey : Parsing Bool := do
  let r ← get
  return 1 < r.major || (r.major = 1 && 1 < r.minor)

def plainTag (text : Text) : Parsing Tag := do
  let r ← get
  match r.major, r.minor with
  | 1, 2 => return .ofPlain .current text
  | 1, 1 => return .ofPlain .legacy text
  | major, minor => throw (.unsupportedVersion major minor)

def add (anchor : Option Text) (node : Node) : Parsing Nat := do
  let r ← get
  let id := r.nodes.size
  set { r with
    nodes := r.nodes.push node
    anchors := match anchor with | some a => (a, id) :: r.anchors | none => r.anchors }
  return id

def fill (id : Nat) (tag : Tag) (content : Content) : Parsing Unit :=
  modify fun r => { r with nodes := r.nodes.setIfInBounds id ⟨tag, content⟩ }

def addEmpty : Parsing Nat := do add none ⟨← plainTag [], .scalar (.text [])⟩

/-- The text of a tag; its escapes stand for single characters. -/
def unescape : Text → Text
  | '%' :: a :: b :: r => Char.ofNat (Number.ofDigits 16 [a, b]) :: unescape r
  | c :: r => c :: unescape r
  | [] => []

def resolve (handle : Option Text) (suffix : Text) : Parsing Text := do
  match handle with
  | none => return unescape suffix
  | some h => match (← get).handles.lookup h with
    | some start => return start ++ unescape suffix
    | none => throw (.undefinedHandle h)

def properties : Parsing (Option Text × Option Text) := do
  match ← peek with
  | .anchor a =>
    drop
    match ← peek with
    | .tag h s => drop; return (some a, some (← resolve h s))
    | _ => return (some a, none)
  | .tag h s =>
    drop
    match ← peek with
    | .anchor a => drop; return (some a, some (← resolve h s))
    | _ => return (none, some (← resolve h s))
  | _ => return (none, none)

def collectionTag (tag : Option Text) (standard : Tag) : Tag :=
  match tag with
  | none => standard
  | some t => if t = ['!'] then standard else .ofText t

/-- The tag of a scalar. The open tag makes a quoted scalar count as plain. -/
def scalarTag (tag : Option Text) (text : Text) (plain : Bool) : Parsing Tag :=
  match tag with
  | none => if plain then plainTag text else return .str
  | some t => if t = ['!'] then plainTag text else return .ofText t

/-- Whether a token ends a value in a block, so that nothing is written there. -/
def endsBlockValue : Token → Bool
  | .key | .value | .blockEnd => true
  | _ => false

def endsFlowValue : Token → Bool
  | .flowEntry | .flowMappingEnd => true
  | _ => false

def endsFlowItem : Token → Bool
  | .flowEntry | .flowSequenceEnd => true
  | _ => false

mutual

/-- Reads a node, in a block or a flow collection. A list without indentation of its own is allowed
only as the value of a block mapping. -/
def node (block unindented : Bool) : Nat → Parsing Nat
  | 0 => throw .malformed
  | fuel + 1 => do
    match ← peek with
    | .alias name =>
      drop
      match (← get).anchors.lookup name with
      | some id => return id
      | none => throw (.undefinedAlias name)
    | _ =>
    let (anchor, tag) ← properties
    let sequence := collectionTag tag .seq
    let mapping := collectionTag tag .map
    match ← peek with
    | .entry =>
      if unindented then
        let id ← add anchor ⟨sequence, .sequence []⟩
        fill id sequence (.sequence (← unindentedItems fuel))
        return id
      else empty anchor tag
    | .scalar text plain =>
      drop
      let t ← scalarTag tag text.form plain
      add anchor ⟨t, .scalar text⟩
    | .flowSequenceStart =>
      drop
      let id ← add anchor ⟨sequence, .sequence []⟩
      fill id sequence (.sequence (← flowItems true fuel))
      return id
    | .flowMappingStart =>
      drop
      let id ← add anchor ⟨mapping, .mapping []⟩
      fill id mapping (.mapping (← flowEntries true fuel))
      return id
    | .sequenceStart =>
      if block then
        drop
        let id ← add anchor ⟨sequence, .sequence []⟩
        fill id sequence (.sequence (← blockItems fuel))
        return id
      else empty anchor tag
    | .mappingStart =>
      if block then
        drop
        let id ← add anchor ⟨mapping, .mapping []⟩
        fill id mapping (.mapping (← blockEntries fuel))
        return id
      else empty anchor tag
    | _ => empty anchor tag

/-- The node of properties that nothing follows. -/
def empty (anchor tag : Option Text) : Parsing Nat := do
  if anchor = none ∧ tag = none then throw .malformed
  add anchor ⟨← scalarTag tag [] true, .scalar (.text [])⟩

def blockItems : Nat → Parsing (List Nat)
  | 0 => throw .malformed
  | fuel + 1 => do
    if ← accept .entry then
      let next ← peek
      let item ← if next = .entry || next = .blockEnd then addEmpty else node true false fuel
      return item :: (← blockItems fuel)
    else if ← accept .blockEnd then return []
    else throw .malformed

def unindentedItems : Nat → Parsing (List Nat)
  | 0 => throw .malformed
  | fuel + 1 => do
    if ← accept .entry then
      let next ← peek
      let item ← if next = .entry || endsBlockValue next then addEmpty else node true false fuel
      return item :: (← unindentedItems fuel)
    else return []

def blockEntries : Nat → Parsing (List (Nat × Nat))
  | 0 => throw .malformed
  | fuel + 1 => do
    if ← accept .key then
      let key ← if endsBlockValue (← peek) then addEmpty else node true true fuel
      let value ← blockValue fuel
      return (key, value) :: (← blockEntries fuel)
    else if (← peek) = .value && (← allowsEmptyKey) then
      let key ← addEmpty
      let value ← blockValue fuel
      return (key, value) :: (← blockEntries fuel)
    else if ← accept .blockEnd then return []
    else throw .malformed

def blockValue : Nat → Parsing Nat
  | 0 => throw .malformed
  | fuel + 1 => do
    if ← accept .value then
      if endsBlockValue (← peek) then addEmpty else node true true fuel
    else addEmpty

/-- Reads the items of a flow sequence. A single entry of a mapping may stand as an item. -/
def flowItems (first : Bool) : Nat → Parsing (List Nat)
  | 0 => throw .malformed
  | fuel + 1 => do
    if ← accept .flowSequenceEnd then return []
    unless first do
      unless ← accept .flowEntry do throw .malformed
    if ← accept .key then
      let id ← add none ⟨.map, .mapping []⟩
      let key ← if (← peek) = .value || endsFlowItem (← peek) then addEmpty
        else node false false fuel
      let value ←
        if ← accept .value then
          if endsFlowItem (← peek) then addEmpty else node false false fuel
        else addEmpty
      fill id .map (.mapping [(key, value)])
      return id :: (← flowItems false fuel)
    else if ← accept .flowSequenceEnd then return []
    else
      let item ← node false false fuel
      return item :: (← flowItems false fuel)

def flowEntries (first : Bool) : Nat → Parsing (List (Nat × Nat))
  | 0 => throw .malformed
  | fuel + 1 => do
    if ← accept .flowMappingEnd then return []
    unless first do
      unless ← accept .flowEntry do throw .malformed
    if ← accept .key then
      let key ← if (← peek) = .value || endsFlowValue (← peek) then addEmpty
        else node false false fuel
      let value ← flowValue fuel
      return (key, value) :: (← flowEntries false fuel)
    else if (← peek) = .value && (← allowsEmptyKey) then
      let key ← addEmpty
      let value ← flowValue fuel
      return (key, value) :: (← flowEntries false fuel)
    else if ← accept .flowMappingEnd then return []
    else
      let key ← node false false fuel
      let value ← addEmpty
      return (key, value) :: (← flowEntries false fuel)

def flowValue : Nat → Parsing Nat
  | 0 => throw .malformed
  | fuel + 1 => do
    if ← accept .value then
      if endsFlowValue (← peek) then addEmpty else node false false fuel
    else addEmpty

end

/-- Reads the directives before a document: a version at most once, and every handle at most
once. -/
def directives (versioned : Bool) (handles : List (Text × Text)) :
    Nat → Parsing (List (Text × Text))
  | 0 => return handles
  | fuel + 1 => do
    match ← peek with
    | .directive d =>
      drop
      match d with
      | .version major minor =>
        if versioned || major ≠ 1 then throw .malformed
        modify fun r => { r with major, minor }
        directives true handles fuel
      | .tag handle start =>
        if (handles.lookup handle).isSome then throw .malformed
        directives versioned ((handle, start) :: handles) fuel
      | .other => directives versioned handles fuel
    | _ => return handles

def endsDocument : Token → Bool
  | .directive _ | .documentStart | .documentEnd | .finish => true
  | _ => false

def root? (fuel : Nat) : Parsing (Option Nat) := do
  match ← peek with
  | .finish => return none
  | .directive _ | .documentStart =>
    let handles ← directives false [] fuel
    modify fun r => { r with handles := handles ++ standardHandles }
    unless ← accept .documentStart do throw .malformed
    if endsDocument (← peek) then some <$> addEmpty else some <$> node true false fuel
  | _ => some <$> node true false fuel

/-- Drops the markers at the end of a document: one, or any number under the older rules. -/
def endMarkers : Nat → Parsing Unit
  | 0 => return
  | fuel + 1 => do
    if ← accept .documentEnd then
      if ← isLegacy then endMarkers fuel

def document (fuel : Nat) : Parsing Document := do
  let root ← root? fuel
  if root.isSome then
    endMarkers fuel
    unless (← peek) = .finish do throw .secondDocument
  return ⟨(← get).nodes, root, ← isLegacy⟩

end Parsing

namespace Document

/-- The document that a list of tokens writes. Every step of the grammar that does not end uses up a
token, and at most four steps share one. -/
def ofTokens (tokens : List Token) : Except Fault Document :=
  Prod.fst <$> (Parsing.document (4 * tokens.length + 8)).run
    { tokens, handles := Parsing.standardHandles }

def ofText (t : Text) : Except Fault Document := ofTokens (Token.scan t)

end Document
end Bulletin.Yaml
