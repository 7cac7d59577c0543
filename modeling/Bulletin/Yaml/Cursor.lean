import Bulletin.Text.Basic

/-! A place in a YAML text: what is still to be read, and its index, line and column. Reading is a
state over the place that may stop with a fault. Classes of what may follow a token are predicates
on an optional character, where `none` is the end of the text. -/

namespace Bulletin.Yaml

inductive Fault where
  /-- A character that may not occur in a YAML text. -/
  | forbiddenCharacter (c : Char)
  /-- The text does not follow the grammar. -/
  | malformed
  /-- A second document follows the first. -/
  | secondDocument
  /-- A reference to an anchor that was not set before it. -/
  | undefinedAlias (name : Text)
  /-- A tag with a handle that no directive defines. -/
  | undefinedHandle (handle : Text)
  /-- A tag for which there is no kind of value. -/
  | unknownTag (tag : Text)
  /-- A node of another shape than its tag asks for. -/
  | wrongShape
  /-- A key that occurs twice in a mapping. -/
  | duplicateKey
  /-- A collection used as a key. -/
  | collectionKey
  /-- A key that holds a collection, or a collection as the key of an ordered mapping. -/
  | incomparableKey
  /-- A key that occurs twice in an ordered mapping. -/
  | repeatedEntry
  /-- The value of a merge key is not a mapping or a list of mappings. -/
  | badMerge
  /-- Text that is no number, no date or no character of the kind that is asked for. -/
  | badValue
  /-- A number without any digit or sign. -/
  | emptyNumber
  /-- A word that is neither true nor false. -/
  | notBoolean (word : Text)
  /-- A time or character beyond the last one. -/
  | outOfRange
  /-- A version of YAML for which no rules are known. -/
  | unsupportedVersion (major minor : Nat)
deriving DecidableEq, Repr

def byteOrderMark : Char := '\ufeff'

def isAllowed (c : Char) : Bool :=
  let n := c.toNat
  n = 9 || n = 10 || n = 13 || (32 ≤ n && n ≤ 126) || n = 0x85 || (0xa0 ≤ n && n ≤ 0xd7ff)
    || (0xe000 ≤ n && n ≤ 0xfffd) || (0x10000 ≤ n && n ≤ 0x10ffff)

/-- Line breaks, the two Unicode separators among them. -/
def isBreak (c : Char) : Bool :=
  c = '\n' || c = '\r' || c = '\u0085' || c = '\u2028' || c = '\u2029'

/-- Line breaks that count as one newline. -/
def isNewline (c : Char) : Bool := c = '\n' || c = '\r' || c = '\u0085'

def endsLine : Option Char → Bool
  | none => true
  | some c => isNewline c

def endsWord : Option Char → Bool
  | none => true
  | some c => isNewline c || c = ' ' || c = '\t'

/-- What may follow a tag or a directive: the end, a space, or any line break. -/
def endsItem : Option Char → Bool
  | none => true
  | some c => isBreak c || c = ' '

def endsAnchor : Option Char → Bool
  | none => true
  | some c => isBreak c || c = ' ' || c = '\t' || "?:,[]\x7b\x7d%@`".toList.contains c

def isAnchorChar (c : Char) : Bool :=
  let n := c.toNat
  !",[]\x7b\x7d".toList.contains c &&
    ((0x21 ≤ n && n ≤ 0x7e) || (0xa0 ≤ n && n ≤ 0xd7ff) ||
      (0xe000 ≤ n && n ≤ 0xfffd && c ≠ byteOrderMark) || 0x10000 ≤ n)

def isAsciiWord (c : Char) : Bool := c.isAlphanum

/-- The characters of a tag handle between its exclamation marks. -/
def isHandleChar (c : Char) : Bool := isAsciiWord c || c = '-' || c = '_'

def isDirectiveChar (c : Char) : Bool := isHandleChar c || c = ':' || c = '.'

/-- The characters of a tag or a tag prefix; the number sign only in the later version. -/
def isUriChar (legacy : Bool) (c : Char) : Bool :=
  isAsciiWord c || "-;/?:@&=+$,_.!~*'()[]%".toList.contains c || (c = '#' && !legacy)

/-- The characters that cannot start a plain scalar without a closer look. -/
def isIndicator (c : Char) : Bool :=
  isBreak c || " \t-?:,[]\x7b\x7d#&*!|>'\"%@`".toList.contains c

structure Cursor where
  rest : Text
  index : Nat := 0
  line : Nat := 0
  column : Nat := 0

namespace Cursor

/-- The place after the next character. Only the newline starts a line, and the byte order mark has
no width. -/
def next (c : Cursor) : Cursor :=
  match c.rest with
  | [] => c
  | x :: r =>
    if x = '\n' then ⟨r, c.index + 1, c.line + 1, 0⟩
    else if x = byteOrderMark then ⟨r, c.index + 1, c.line, c.column⟩
    else ⟨r, c.index + 1, c.line, c.column + 1⟩

def advance (c : Cursor) : Nat → Cursor
  | 0 => c
  | n + 1 => c.next.advance n

def peek (c : Cursor) (distance : Nat) : Option Char := c.rest[distance]?

/-- Whether a document marker made of three equal characters stands at the place. -/
def atMarker (c : Cursor) (x : Char) : Bool :=
  [x, x, x].isPrefixOf c.rest && endsWord (c.peek 3)

def atAnyMarker (c : Cursor) : Bool := c.atMarker '-' || c.atMarker '.'

end Cursor

abbrev Reading := StateT Cursor (Except Fault)

namespace Reading

def peek (distance : Nat := 0) : Reading (Option Char) := do return (← get).peek distance

def skip (n : Nat := 1) : Reading Unit := modify (·.advance n)

def takeWhile (p : Char → Bool) : Reading Text := do
  let t := (← get).rest.takeWhile p
  skip t.length
  return t

/-- Reads exactly `n` characters, or fewer at the end. -/
def take (n : Nat) : Reading Text := do
  let t := (← get).rest.take n
  skip n
  return t

def spaces : Reading Text := takeWhile (· = ' ')

/-- Stops unless the next character satisfies the condition. -/
def require (p : Option Char → Bool) : Reading Unit := do
  unless p (← peek) do throw .malformed

/-- Reads a line break, if there is one: the text it stands for. -/
def lineBreak : Reading Text := do
  match ← peek with
  | some c =>
    if isNewline c then
      skip (if c = '\r' && (← peek 1) = some '\n' then 2 else 1)
      return ['\n']
    else if isBreak c then skip; return [c]
    else return []
  | none => return []

def comment : Reading Unit := do
  if (← peek) = some '#' then
    let _ ← takeWhile fun c => !isNewline c

/-- Reads the rest of a line that may hold only spaces and a comment. -/
def finishLine : Reading Unit := do
  let _ ← spaces
  comment
  require endsLine
  let _ ← lineBreak

end Reading
end Bulletin.Yaml
