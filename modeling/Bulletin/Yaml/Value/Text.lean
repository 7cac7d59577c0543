import Bulletin.Number.Digits
import Bulletin.Text.Printable
import Bulletin.Yaml.Cursor
import Bulletin.Yaml.Value

/-! The text of a value. A text is its own text; inside a collection it is quoted. A collection that
is met again inside itself is written as dots. An integer of too many digits has no text, and
neither has a value whose collections stand too deep in one another: the parts of a collection are
written by calls inside the call that writes it, and only so many calls may be nested. -/

namespace Bulletin.Yaml

inductive TextFault where
  /-- An integer has too many decimal digits. -/
  | tooLong
  /-- Too many calls would be nested. -/
  | tooDeep
deriving DecidableEq, Repr

def TextFault.message : TextFault → Text
  | .tooLong => "Exceeds the limit (4300 digits) for integer string conversion; use sys.set_int_max_str_digits() to increase the limit"
  | .tooDeep => "maximum recursion depth exceeded while getting the repr of an object"

/-- What the text of a value depends on beside the value. -/
structure Writer where
  /-- How many calls may be nested in the one that writes a whole collection. -/
  room : Nat := 990
  /-- The characters that stand in a text for lone surrogates. -/
  standIn : Nat → Char := fun _ => '\ufffd'

def Writer.outer (how : Writer) : Writer := { how with room := how.room + 1 }

/-- The quote around a text: the single one, unless the text has single quotes and no double
ones. -/
def quoteFor (t : Text) : Char := if '\'' ∈ t ∧ '"' ∉ t then '"' else '\''

def quotedChar (quote c : Char) : Text :=
  let n := c.toNat
  if c = quote ∨ c = '\\' then ['\\', c]
  else if c = '\t' then ['\\', 't']
  else if c = '\n' then ['\\', 'n']
  else if c = '\r' then ['\\', 'r']
  else if Text.isPrintable c then [c]
  else if n < 0x100 then '\\' :: 'x' :: Number.paddedHex 2 n
  else if n < 0x10000 then '\\' :: 'u' :: Number.paddedHex 4 n
  else '\\' :: 'U' :: Number.paddedHex 8 n

def quoted (t : Text) : Text :=
  let q := quoteFor t
  q :: t.flatMap (quotedChar q) ++ [q]

/-- Bytes between quotes, after a letter. Bytes outside ASCII are escaped. -/
def quotedBytes (bs : List UInt8) : Text :=
  let t := bs.map fun b => Char.ofNat b.toNat
  let q := quoteFor t
  let byte := fun (c : Char) =>
    if c.toNat < 0x7f then quotedChar q c else '\\' :: 'x' :: Number.paddedHex 2 c.toNat
  'b' :: q :: t.flatMap byte ++ [q]

def commaSeparated (parts : List Text) : Text := [',', ' '].intercalate parts

def call (name : Text) (parts : List Text) : Text := name ++ '(' :: commaSeparated parts ++ [')']

/-- An offset from universal time, as a difference of times with a name. -/
def zoneCall (z : Zone) : Text :=
  let days := z.minutes / (24 * 60)
  let seconds := z.minutes % (24 * 60) * 60
  let field := fun (name : Text) (n : Int) =>
    if n = 0 then [] else [name ++ '=' :: (if n < 0 then '-' :: Number.decimal n.natAbs
      else Number.decimal n.natAbs)]
  let parts := field "days" days ++ field "seconds" seconds
  call "datetime.timezone"
    [call "datetime.timedelta" (if parts = [] then [['0']] else parts), quoted z.name]

/-- A time as a call; seconds and microseconds of zero are left out at the end. -/
def timeCall (t : Timestamp) : Text :=
  let fields := [t.date.year, t.date.month, t.date.day, t.hour, t.minute] ++
    (if t.micro ≠ 0 then [t.second, t.micro] else if t.second ≠ 0 then [t.second] else [])
  call "datetime.datetime" (fields.map Number.decimal ++
    (t.zone.map fun z => "tzinfo=".toList ++ zoneCall z).toList)

/-- A text with lone surrogates between quotes. They have no visible form. -/
def quotedPoints (points : List Nat) : Text :=
  let q := quoteFor (Text.ofPoints (fun _ => '\ufffd') points)
  let point := fun n =>
    if Text.isSurrogate n then '\\' :: 'u' :: Number.paddedHex 4 n else quotedChar q (Char.ofNat n)
  q :: points.flatMap point ++ [q]

def plainScalar (standIn : Nat → Char) (s : Scalar) : Except TextFault Text :=
  match s with
  | .null => return "None"
  | .bool b => return (if b then "True" else "False")
  | .int n => match Number.integerText? n with
    | some t => return t
    | none => throw .tooLong
  | .float x => return x.text
  | .text t => return t
  | .unpaired points => return Text.ofPoints standIn points
  | .bytes bs => return quotedBytes bs
  | .date d => return d.text
  | .time t => return t.text

def nestedScalar (standIn : Nat → Char) (s : Scalar) : Except TextFault Text :=
  match s with
  | .text t => return quoted t
  | .unpaired points => return quotedPoints points
  | .date d => return call "datetime.date" ([d.year, d.month, d.day].map Number.decimal)
  | .time t => return timeCall t
  | s => plainScalar standIn s

/-- The calls nested in the one that writes a scalar. An offset is written inside its time, and its
difference inside the offset. -/
def Scalar.calls : Scalar → Nat
  | .time t => if t.zone.isSome then 2 else 0
  | _ => 0

/-- The text of a tuple of parts; a single part is followed by a comma. -/
def tupleText (parts : List Text) : Text :=
  match parts with
  | [p] => '(' :: p ++ [',', ')']
  | ps => '(' :: commaSeparated ps ++ [')']

namespace Collection

/-- What is written where a collection is met again inside itself. -/
def dots : Collection → Text
  | .list _ => "[...]"
  | .map false _ => "\x7b...\x7d"
  | .map true _ => "..."
  | .set _ => "set(...)"

/-- The calls between the one that writes a collection and those that write its parts. The members
of a set are written as a list, and the entries of an ordered mapping as a list of tuples. -/
def toll : Collection → Nat
  | .list _ => 0
  | .map false _ => 0
  | .map true _ => 2
  | .set _ => 1

def textBy (part : Value → Except TextFault Text) : Collection → Except TextFault Text
  | .list items => do return '[' :: commaSeparated (← items.mapM part) ++ [']']
  | .map false es => do
    let parts ← es.mapM fun e => do return (← part e.1) ++ ':' :: ' ' :: (← part e.2)
    return '\x7b' :: commaSeparated parts ++ ['\x7d']
  | .map true es => do
    let parts ← es.mapM fun e => do return tupleText [← part e.1, ← part e.2]
    return call "ordereddict" (if parts = [] then [] else ['[' :: commaSeparated parts ++ [']']])
  | .set members => do
    let parts ← members.mapM part
    return if parts = [] then "set()" else '\x7b' :: commaSeparated parts ++ ['\x7d']

end Collection

/-- The text of a value inside a collection. The collections in `around` are the ones it is in, and
`toll` calls come before the one that writes the value. -/
def nested (s : Store) (standIn : Nat → Char) (around : List Nat) (toll : Nat) (v : Value) :
    Nat → Except TextFault Text
  | 0 => throw .tooDeep
  | room + 1 =>
    match toll, v with
    | toll + 1, v => nested s standIn around toll v room
    | 0, .scalar a => if room < a.calls then throw .tooDeep else nestedScalar standIn a
    | 0, .tuple items => do
      return tupleText (← items.mapM fun x => nested s standIn around 0 x room)
    | 0, .ref id =>
      match s[id]? with
      | none => return []
      | some c =>
        if id ∈ around then return c.dots
        else c.textBy fun x => nested s standIn (id :: around) c.toll x room

def Store.text (s : Store) (how : Writer) (v : Value) : Except TextFault Text :=
  match v with
  | .scalar a => plainScalar how.standIn a
  | v => nested s how.standIn [] 0 v (how.room + 1)

end Bulletin.Yaml
