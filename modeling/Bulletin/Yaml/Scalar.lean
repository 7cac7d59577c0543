import Bulletin.Number.Digits
import Bulletin.Yaml.Cursor

/-! How scalars are read. A plain scalar is text without quotes, ended by the indicators around it.
A quoted one ends with its quote: in single quotes only the quote itself is written twice, in double
quotes a backslash starts an escape. Lines of both are folded into one another, and an empty line
becomes a line break. A block scalar is indented lines after a header that says whether lines are
kept or folded, what becomes of the line breaks at the end, and how far the lines are indented. -/

namespace Bulletin.Yaml.Plain

structure Place where
  inFlow : Bool
  /-- The least column of a line that continues the scalar. -/
  indent : Int
  /-- Whether the rules of version 1.1 hold. -/
  legacy : Bool

/-- The length of the text up to the first character that ends a piece of a plain scalar. -/
def pieceLength (p : Place) : Text → Nat
  | [] => 0
  | c :: r =>
    let open_ := !endsWord r.head?
    if (c = ':' && open_) || (c = '?' && !p.legacy) then 1 + pieceLength p r
    else if endsWord (some c) || (c = ':' && !p.inFlow)
        || (p.inFlow && ",:?[]\x7b\x7d".toList.contains c) then 0
    else 1 + pieceLength p r

/-- Reads the breaks and indentation after a line; nothing is left of them before a document
marker. -/
def breaks : Nat → Reading (Option Text)
  | 0 => return some []
  | fuel + 1 => do
    let _ ← Reading.spaces
    let line ← Reading.lineBreak
    if line = [] then return some []
    else if (← get).atAnyMarker then return none
    else return (← breaks fuel).map (line ++ ·)

/-- Reads what stands between two pieces: the text it folds to, empty if the scalar ends here, and
whether a line ended. -/
def gap : Reading (Text × Bool) := do
  let blanks ← Reading.spaces
  let line ← Reading.lineBreak
  if line = [] then return (blanks, false)
  else if (← get).atAnyMarker then return ([], true)
  else match ← breaks (← get).rest.length with
    | none => return ([], true)
    | some more =>
      let folded := if line ≠ ['\n'] then line else if more = [] then [' '] else []
      return (folded ++ more, true)

/-- Reads pieces after the text `before`, which stands between the last piece and the next. The flag
says whether the last line ended. -/
def pieces (p : Place) (before : Text) (ended : Bool) : Nat → Reading (Text × Bool)
  | 0 => return ([], ended)
  | fuel + 1 => do
    if (← Reading.peek) = some '#' then return ([], ended)
    let length := pieceLength p (← get).rest
    if length = 0 then return ([], ended)
    let piece ← Reading.take length
    let (between, lineEnded) ← gap
    let column := (← get).column
    if between = [] || (← Reading.peek) = some '#' || (!p.inFlow && (column : Int) < p.indent) then
      return (before ++ piece, lineEnded)
    let (after, lineEnded) ← pieces p between lineEnded fuel
    return (before ++ piece ++ after, lineEnded)

def read (p : Place) : Reading (Text × Bool) := do pieces p [] false ((← get).rest.length + 1)

def startsAt (p : Place) (c : Cursor) : Bool :=
  match c.peek 0 with
  | none => false
  | some x =>
    let next := c.peek 1
    !isIndicator x || (x = '-' && !endsWord next)
      || (x = ':' && p.inFlow && !p.legacy && next ≠ some ' ' && next ≠ some '\t')
      || ((x = '?' || x = ':') && !p.inFlow && !endsWord next)

end Bulletin.Yaml.Plain

/-! ### Quoted scalars

An escape may write any code point, a surrogate as well as a character, so a quoted scalar is read
as a list of code points. Two escapes that write a surrogate pair are two surrogates. -/

namespace Bulletin.Yaml.Quoted

def simpleEscape? : Char → Option Char
  | '0' => some '\x00'
  | 'a' => some '\x07'
  | 'b' => some '\x08'
  | 't' => some '\t'
  | '\t' => some '\t'
  | 'n' => some '\n'
  | 'v' => some '\x0b'
  | 'f' => some '\x0c'
  | 'r' => some '\r'
  | 'e' => some '\x1b'
  | ' ' => some ' '
  | '"' => some '"'
  | '/' => some '/'
  | '\\' => some '\\'
  | 'N' => some '\u0085'
  | '_' => some '\u00a0'
  | 'L' => some '\u2028'
  | 'P' => some '\u2029'
  | _ => none

def digitCount? : Char → Option Nat
  | 'x' => some 2
  | 'u' => some 4
  | 'U' => some 8
  | _ => none

def points (t : Text) : List Nat := t.map Char.toNat

def codePoint (count : Nat) : Reading Nat := do
  let digits ← Reading.take count
  if digits.length < count || !digits.all (Number.isDigit 16) then throw .malformed
  let n := Number.ofDigits 16 digits
  if 0x7fffffff < n then throw .outOfRange
  if 0x10ffff < n then throw .badValue
  return n

def breaks : Nat → Reading Text
  | 0 => return []
  | fuel + 1 => do
    if (← get).atAnyMarker then throw .malformed
    let _ ← Reading.takeWhile fun c => c = ' ' || c = '\t'
    let line ← Reading.lineBreak
    if line = [] then return []
    return line ++ (← breaks fuel)

def allBreaks : Reading Text := do breaks ((← get).rest.length + 1)

/-- Reads the blanks and line breaks between two pieces: the text they fold to. -/
def gap : Reading Text := do
  let blanks ← Reading.takeWhile fun c => c = ' ' || c = '\t'
  if (← Reading.peek).isNone then throw .malformed
  let line ← Reading.lineBreak
  if line = [] then return blanks
  let more ← allBreaks
  let folded := if line ≠ ['\n'] then line else if more = [] then [' '] else []
  return folded ++ more

def escape : Reading (List Nat) := do
  match ← Reading.peek with
  | none => throw .malformed
  | some c =>
    match simpleEscape? c, digitCount? c with
    | some x, _ => Reading.skip; return points [x]
    | none, some count => Reading.skip; return [← codePoint count]
    | none, none =>
      if isBreak c then
        let _ ← Reading.lineBreak
        return points (← allBreaks)
      else throw .malformed

def isSpecial (c : Char) : Bool :=
  c = ' ' || c = '\t' || c = '\'' || c = '"' || c = '\\' || isBreak c

def piece (double : Bool) : Nat → Reading (List Nat)
  | 0 => return []
  | fuel + 1 => do
    let run := points (← Reading.takeWhile fun c => !isSpecial c)
    match ← Reading.peek with
    | some '\'' =>
      if double then
        Reading.skip
        return run ++ points ['\''] ++ (← piece double fuel)
      else if (← Reading.peek 1) = some '\'' then
        Reading.skip 2
        return run ++ points ['\''] ++ (← piece double fuel)
      else return run
    | some '"' =>
      if double then return run
      else
        Reading.skip
        return run ++ points ['"'] ++ (← piece double fuel)
    | some '\\' =>
      Reading.skip
      if double then
        let x ← escape
        return run ++ x ++ (← piece double fuel)
      else return run ++ points ['\\'] ++ (← piece double fuel)
    | _ => return run

def pieces (double : Bool) : Nat → Reading (List Nat)
  | 0 => throw .malformed
  | fuel + 1 => do
    let first ← piece double ((← get).rest.length + 1)
    if (← Reading.peek) = some (if double then '"' else '\'') then
      Reading.skip
      return first
    let between ← gap
    return first ++ points between ++ (← pieces double fuel)

def read : Reading (List Nat) := do
  let double := (← Reading.peek) = some '"'
  Reading.skip
  pieces double ((← get).rest.length + 1)

end Bulletin.Yaml.Quoted

/-! ### Block scalars -/

namespace Bulletin.Yaml.Literal

/-- What becomes of the line breaks at the end of a block scalar. -/
inductive Chomping where
  | strip
  | clip
  | keep
deriving DecidableEq

structure Header where
  folded : Bool
  chomping : Chomping := .clip
  /-- The indentation, relative to the block around it. -/
  increment : Option Nat := none

def chomping? : Option Char → Option Chomping
  | some '+' => some .keep
  | some '-' => some .strip
  | _ => none

/-- Reads an indentation digit, if there is one. It cannot be zero. -/
def increment? : Reading (Option Nat) := do
  match (← Reading.peek).bind (Number.digitValue? 10) with
  | none => return none
  | some 0 => throw .malformed
  | some n => Reading.skip; return some n

def header : Reading Header := do
  let folded := (← Reading.peek) = some '>'
  Reading.skip
  let result ← match chomping? (← Reading.peek) with
    | some c =>
      Reading.skip
      pure { folded, chomping := c, increment := ← increment? }
    | none =>
      let increment ← increment?
      match increment, chomping? (← Reading.peek) with
      | some _, some c =>
        Reading.skip
        pure { folded, chomping := c, increment }
      | _, _ => pure { folded, increment }
  Reading.require endsItem
  Reading.finishLine
  return result

/-- Reads the empty lines before the first line with text: their breaks, the deepest indentation,
and the column of the first break. -/
def leading (deepest : Nat) (first : Option Nat) : Nat → Reading (Text × Nat × Option Nat)
  | 0 => return ([], deepest, first)
  | fuel + 1 => do
    match ← Reading.peek with
    | some ' ' =>
      Reading.skip
      leading (max deepest (← get).column) first fuel
    | _ =>
      let column := (← get).column
      let line ← Reading.lineBreak
      if line = [] then return ([], deepest, first)
      let (more, deepest, first) ← leading deepest (first.orElse fun _ => some column) fuel
      return (line ++ more, deepest, first)

def indentation (indent : Nat) : Nat → Reading Unit
  | 0 => return
  | fuel + 1 => do
    if (← get).column < indent && (← Reading.peek) = some ' ' then
      Reading.skip
      indentation indent fuel

def breaks (indent : Nat) : Nat → Reading Text
  | 0 => return []
  | fuel + 1 => do
    indentation indent (indent + 1)
    let line ← Reading.lineBreak
    if line = [] then return []
    return line ++ (← breaks indent fuel)

def allBreaks (indent : Nat) : Reading Text := do breaks indent ((← get).rest.length + 1)

/-- Reads the lines of a block scalar. The text `before` stands between the line before and the next
line. The result is the text, the last line break, and the breaks after it. -/
def lines (h : Header) (indent : Nat) (top : Bool) (before : Text) :
    Nat → Reading (Text × Text × Text)
  | 0 => return ([], [], [])
  | fuel + 1 => do
    let bare := (← Reading.peek) ≠ some ' ' && (← Reading.peek) ≠ some '\t'
    let content ← Reading.takeWhile fun c => !isNewline c
    let line ← Reading.lineBreak
    let more ← allBreaks indent
    let c ← get
    if (top && c.column = 0 && c.atAnyMarker) || c.column ≠ indent || c.rest = [] then
      return (before ++ content, line, more)
    let next := c.peek 0
    let folded :=
      if h.folded && line = ['\n'] && bare && next ≠ some ' ' && next ≠ some '\t' then
        if more = [] then [' '] else []
      else line
    let (text, last, after) ← lines h indent top (folded ++ more) fuel
    return (before ++ content ++ text, last, after)

def ending (c : Chomping) (last after : Text) : Text :=
  match c with
  | .strip => []
  | .clip => last
  | .keep => last ++ after

/-- Reads a block scalar, from its indicator on. The least indentation is that of the block around
it; zero stands for the top of the document. -/
def read (least : Nat) : Reading Text := do
  let h ← header
  let fuel := (← get).rest.length + 1
  let (before, indent) ← match h.increment with
    | none => do
      let (before, deepest, first) ← leading 0 none fuel
      if (first.any fun column => 0 < column && column < deepest) then throw .malformed
      pure (before, max least deepest)
    | some n => do
      let indent := max least 1 + n - 1
      pure (← allBreaks indent, indent)
  let c ← get
  if c.column = indent && c.rest ≠ [] then
    let (text, last, after) ← lines h indent (least = 0 && h.increment.isNone) before fuel
    return text ++ ending h.chomping last after
  else return ending h.chomping [] before

end Bulletin.Yaml.Literal
