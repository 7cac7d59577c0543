import Bulletin.Yaml.Scalar
import Bulletin.Yaml.Token

/-! The tokens of a YAML text. Indentation opens and closes blocks. A node that could be a key is
remembered until its line ends or a value indicator follows; then the key, and the start of the
mapping it belongs to, are put before it. -/

namespace Bulletin.Yaml

/-- A node that may turn out to be a key. -/
structure PendingKey where
  /-- The number of tokens before the node. -/
  position : Nat
  /-- Whether nothing but a key can stand there. -/
  required : Bool
  index : Nat
  line : Nat
  column : Nat

inductive FlowKind where
  | sequence
  | mapping
deriving DecidableEq

structure Lexer where
  cursor : Cursor
  /-- The tokens so far, the last one first. -/
  tokens : List Token := []
  count : Nat := 0
  /-- The column of the innermost block, and of the blocks around it. -/
  indent : Int := -1
  indents : List Int := []
  /-- The open flow collections, the innermost first. -/
  flow : List FlowKind := []
  /-- Whether a key may start here. -/
  allowKey : Bool := true
  /-- The pending keys, by the number of flow collections around them. -/
  keys : List (Nat × PendingKey) := []
  /-- Whether the rules of version 1.1 hold. -/
  legacy : Bool := false
  finished : Bool := false

abbrev Lexing := StateT Lexer (Except Fault)

namespace Lexing

def read {α : Type} (step : Reading α) : Lexing α := do
  let l ← get
  let (a, cursor) ← step l.cursor
  set { l with cursor }
  return a

def peek (distance : Nat := 0) : Lexing (Option Char) := do return (← get).cursor.peek distance

def push (t : Token) : Lexing Unit :=
  modify fun l => { l with tokens := t :: l.tokens, count := l.count + 1 }

/-- Puts a token after the first `position` tokens. -/
def insert (position : Nat) (t : Token) : Lexing Unit :=
  modify fun l =>
    let after := l.count - position
    { l with tokens := l.tokens.take after ++ t :: l.tokens.drop after, count := l.count + 1 }

def inFlow : Lexing Bool := do return !(← get).flow.isEmpty

/-- Opens a block at a column, if it is further in than the blocks so far. -/
def openBlock (column : Int) : Lexing Bool := do
  let l ← get
  if l.indent < column then
    set { l with indents := l.indent :: l.indents, indent := column }
    return true
  else return false

def closeBlocksFrom (column : Int) : Nat → Lexing Unit
  | 0 => return
  | fuel + 1 => do
    let l ← get
    if column < l.indent then
      set { l with indent := l.indents.head?.getD (-1), indents := l.indents.drop 1 }
      push .blockEnd
      closeBlocksFrom column fuel

/-- Closes blocks, unless a flow collection is open. -/
def closeBlocks (column : Int) : Lexing Unit := do
  unless ← inFlow do closeBlocksFrom column ((← get).indents.length + 1)

/-- Gives up the pending key at the current depth. A key that is required cannot be given up. -/
def dropKey : Lexing Unit := do
  let l ← get
  match l.keys.lookup l.flow.length with
  | none => return
  | some k =>
    if k.required then throw .malformed
    set { l with keys := l.keys.filter (·.1 ≠ l.flow.length) }

/-- Gives up the keys that are not on the current line, or too far back on it. -/
def dropStaleKeys : Lexing Unit := do
  let l ← get
  let stale := fun (k : PendingKey) =>
    k.line ≠ l.cursor.line || 1024 < l.cursor.index - k.index
  if l.keys.any fun k => stale k.2 && k.2.required then throw .malformed
  set { l with keys := l.keys.filter fun k => !stale k.2 }

/-- Remembers that the next token may be a key, where a key is allowed. -/
def noteKey : Lexing Unit := do
  if (← get).allowKey then
    dropKey
    modify fun l =>
      let c := l.cursor
      let required := l.flow.isEmpty && l.indent = (c.column : Int)
      { l with keys := (l.flow.length, ⟨l.count, required, c.index, c.line, c.column⟩) :: l.keys }

def allowKey (allowed : Bool) : Lexing Unit := modify fun l => { l with allowKey := allowed }

/-- Skips blanks, comments and line breaks. Tabs count as blanks in flow collections only. A line
break outside of them allows a key. -/
def skipBlanks : Nat → Lexing Unit
  | 0 => return
  | fuel + 1 => do
    let flow ← inFlow
    let _ ← read (Reading.takeWhile fun c => c = ' ' || (flow && c = '\t'))
    read Reading.comment
    if (← read Reading.lineBreak) ≠ [] then
      unless flow do allowKey true
      skipBlanks fuel

/-- A directive or document marker ends every block. -/
def outermost : Lexing Unit := do
  closeBlocks (-1)
  dropKey
  allowKey false

def mark (t : Token) : Lexing Unit := do
  read Reading.skip
  push t

def openFlow (kind : FlowKind) : Lexing Unit := do
  noteKey
  modify fun l => { l with flow := kind :: l.flow }
  allowKey true
  mark (match kind with | .sequence => .flowSequenceStart | .mapping => .flowMappingStart)

/-- Ends a flow collection. Whether the kinds match is not decided here. -/
def closeFlow (kind : FlowKind) : Lexing Unit := do
  dropKey
  modify fun l => { l with flow := l.flow.drop 1 }
  allowKey false
  mark (match kind with | .sequence => .flowSequenceEnd | .mapping => .flowMappingEnd)

/-- Reads the indicator of a block entry or of an explicit key, which opens a block of its own. -/
def blockIndicator (start indicator : Token) : Lexing Unit := do
  let flow ← inFlow
  unless flow do
    unless (← get).allowKey do throw .malformed
    if ← openBlock (← get).cursor.column then push start
  allowKey (indicator = .entry || !flow)
  dropKey
  mark indicator

/-- Reads a value indicator. If a key is pending, it is put in its place now. -/
def valueIndicator : Lexing Unit := do
  let l ← get
  match l.keys.lookup l.flow.length with
  | some k =>
    set { l with keys := l.keys.filter (·.1 ≠ l.flow.length) }
    insert k.position .key
    if l.flow.isEmpty then
      if ← openBlock k.column then insert k.position .mappingStart
    allowKey false
  | none =>
    let flow ← inFlow
    unless flow do
      unless l.allowKey do throw .malformed
      if ← openBlock l.cursor.column then push .mappingStart
    allowKey (!flow)
    dropKey
  mark .value

def keyLike (step : Lexing Token) : Lexing Unit := do
  noteKey
  allowKey false
  let t ← step
  push t

/-- Whether a colon at the current place is a value indicator. In a flow mapping, a colon directly
after a value indicator is not, as long as a key is pending. -/
def isValue (pending : Bool) : Lexing Bool := do
  let l ← get
  let ends := endsWord (← peek 1)
  match l.flow with
  | [] => return ends
  | kind :: _ =>
    if l.legacy then return true
    else if kind = .sequence then return ends
    else return ends || !(pending && l.tokens.head? = some .value)

def plainPlace : Lexing Plain.Place := do
  let l ← get
  return ⟨!l.flow.isEmpty, l.indent + 1, l.legacy⟩

/-- Reads a plain scalar. Whether a key may follow depends on a line break after it. -/
def plain : Lexing Unit := do
  noteKey
  allowKey false
  let place ← plainPlace
  let (text, ended) ← read (Plain.read place)
  allowKey ended
  push (.scalar (.text text) true)

/-- Reads a directive. The version directive sets the rules for what follows. -/
def directive : Lexing Unit := do
  outermost
  let d ← read (Property.directive (← get).legacy)
  match d with
  | .version major minor => modify fun l => { l with legacy := major = 1 && minor = 1 }
  | _ => pure ()
  push (.directive d)

def token (c : Char) (pending : Bool) : Lexing Unit := do
  let l ← get
  let block := l.flow.isEmpty
  let atStart := l.cursor.column = 0
  let ends := endsWord (← peek 1)
  if c = '%' && atStart then directive
  else if atStart && l.cursor.atMarker '-' then
    outermost
    read (Reading.skip 3)
    push .documentStart
  else if atStart && l.cursor.atMarker '.' then
    outermost
    read (Reading.skip 3)
    push .documentEnd
  else if c = '[' then openFlow .sequence
  else if c = '\x7b' then openFlow .mapping
  else if c = ']' then closeFlow .sequence
  else if c = '\x7d' then closeFlow .mapping
  else if c = ',' then
    allowKey true
    dropKey
    mark .flowEntry
  else if c = '-' && ends then blockIndicator .sequenceStart .entry
  else if c = '?' && (!block || ends) then blockIndicator .mappingStart .key
  else if c = ':' && (← isValue pending) then valueIndicator
  else if c = '*' then keyLike (.alias <$> read Property.name)
  else if c = '&' then keyLike (.anchor <$> read Property.name)
  else if c = '!' then keyLike (read (Property.tag l.legacy))
  else if (c = '|' || c = '>') && block then
    allowKey true
    dropKey
    push (.scalar (.text (← read (Literal.read (l.indent + 1).toNat))) false)
  else if c = '\'' || c = '"' then keyLike do return .scalar (.ofPoints (← read Quoted.read)) false
  else if Plain.startsAt (← plainPlace) l.cursor then plain
  else throw .malformed

/-- Reads the next token, with the tokens of the blocks that end before it. -/
def step : Lexing Unit := do
  let pending := !(← get).keys.isEmpty
  if (← get).cursor.index = 0 && (← peek) = some byteOrderMark then read Reading.skip
  skipBlanks ((← get).cursor.rest.length + 1)
  dropStaleKeys
  closeBlocks (← get).cursor.column
  match ← peek with
  | none =>
    outermost
    modify fun l => { l with keys := [], finished := true }
    push .finish
  | some c => token c pending
  dropStaleKeys

end Lexing

namespace Token

def scanFrom (l : Lexer) : Nat → List Token
  | 0 => (.fault .malformed :: l.tokens).reverse
  | fuel + 1 =>
    match Lexing.step.run l with
    | .error f => (.fault f :: l.tokens).reverse
    | .ok ((), l) => if l.finished then l.tokens.reverse else scanFrom l fuel

/-- The tokens of a text. Every token but the last is at least one character long. -/
def scan (t : Text) : List Token :=
  match t.find? fun c => !isAllowed c with
  | some c => [.fault (.forbiddenCharacter c)]
  | none => scanFrom { cursor := { rest := t } } (t.length + 2)

end Token
end Bulletin.Yaml
