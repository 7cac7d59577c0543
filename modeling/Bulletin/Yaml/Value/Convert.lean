import Bulletin.Yaml.Tag
import Bulletin.Yaml.Token
import Bulletin.Yaml.Value

/-! Scalars from their text, one conversion for each tag of a scalar. Underscores in numbers are
ignored. Bytes in base 64 are read leniently: characters outside the alphabet are skipped, reading
stops at the padding that completes a group of four, and an incomplete group is an error. -/

namespace Bulletin.Base64

def value? (c : Char) : Option Nat :=
  let n := c.toNat
  if 65 ≤ n ∧ n ≤ 90 then some (n - 65)
  else if 97 ≤ n ∧ n ≤ 122 then some (n - 71)
  else if 48 ≤ n ∧ n ≤ 57 then some (n + 4)
  else if c = '+' then some 62
  else if c = '/' then some 63
  else none

/-- A group of up to three characters of the alphabet, not yet complete. -/
structure Group where
  size : Nat := 0
  bits : Nat := 0
  padding : Nat := 0

/-- The bytes of the rest of a text, after the characters of an open group. Characters that follow
padding count again as soon as the padding did not complete the group. -/
def decodeFrom (g : Group) : Text → Option (List UInt8)
  | [] => if g.size = 0 then some [] else none
  | c :: r =>
    if c = '=' then
      if 2 ≤ g.size ∧ 4 ≤ g.size + g.padding + 1 then some []
      else decodeFrom { g with padding := g.padding + 1 } r
    else match value? c with
      | none => decodeFrom g r
      | some v =>
        let bits := g.bits * 64 + v
        match g.size with
        | 0 => decodeFrom ⟨1, v, 0⟩ r
        | 1 => (decodeFrom ⟨2, bits % 16, 0⟩ r).map (UInt8.ofNat (bits / 16) :: ·)
        | 2 => (decodeFrom ⟨3, bits % 4, 0⟩ r).map (UInt8.ofNat (bits / 4) :: ·)
        | _ => (decodeFrom {} r).map (UInt8.ofNat bits :: ·)

def decode? (t : Text) : Option (List UInt8) := decodeFrom {} t

end Bulletin.Base64

namespace Bulletin.Yaml.Convert

def magnitude (t : Text) : Except Fault (Bool × Text) :=
  match t.filter (· ≠ '_') with
  | [] => throw .emptyNumber
  | c :: r =>
    if c = '-' then return (true, r)
    else if c = '+' then return (false, r)
    else return (false, c :: r)

/-- The number of a list of groups in base sixty, the last group first. -/
def sexagesimal (groups : List Int) : Int := groups.foldr (fun digit n => digit + 60 * n) 0

/-- The absolute value of an integer, without its sign. Under the older rules a leading zero means
base eight and colons mean base sixty. -/
def unsignedInt? (legacy : Bool) (r : Text) : Option Int :=
  match r with
  | ['0'] => some 0
  | '0' :: 'b' :: d => Number.readInteger? 2 d
  | '0' :: 'x' :: d => Number.readInteger? 16 d
  | '0' :: 'o' :: d => Number.readInteger? 8 d
  | _ =>
    if legacy && r.head? = some '0' then Number.readInteger? 8 r
    else if legacy && ':' ∈ r then
      ((r.splitOn ':').mapM (Number.readInteger? 10)).map fun gs => sexagesimal gs.reverse
    else Number.readInteger? 10 r

def int (legacy : Bool) (t : Text) : Except Fault Scalar := do
  let (negative, r) ← magnitude t
  if legacy ∧ r = [] then throw .emptyNumber
  match unsignedInt? legacy r with
  | some n => return .int (if negative then -n else n)
  | none => throw .badValue

/-- The number of a list of groups in base sixty, the last group first. Every step rounds. -/
def sexagesimalFloat (groups : List Number.Binary64) : Number.Binary64 :=
  (groups.foldl
    (fun (sum, base) g => (sum.add (g.mul (.ofNat base)), base * 60))
    (Number.Binary64.zero false, 1)).1

def float (legacy : Bool) (t : Text) : Except Fault Scalar := do
  let (negative, r) ← magnitude (t.map Char.toLower)
  let sign := fun (x : Number.Binary64) => Scalar.float (if negative then x.neg else x)
  if r = ".inf".toList then return sign (.infinite false)
  else if r = ".nan".toList then return .float .nan
  else if legacy ∧ ':' ∈ r then
    match (r.splitOn ':').mapM Number.Binary64.read? with
    | some gs => return sign (sexagesimalFloat gs.reverse)
    | none => throw .badValue
  else match Number.Binary64.read? r with
    | some x => return sign x
    | none => throw .badValue

def truthWords : List (Text × Bool) :=
  [("yes", true), ("no", false), ("y", true), ("n", false), ("true", true), ("false", false),
    ("on", true), ("off", false)]

def bool (t : Text) : Except Fault Scalar :=
  match truthWords.lookup (t.map Char.toLower) with
  | some b => return .bool b
  | none => throw (.notBoolean t)

def str : RawText → Scalar
  | .text t => .text t
  | .unpaired points => .unpaired points

def binary (t : Text) : Except Fault Scalar :=
  if t.all fun c => c.toNat < 128 then
    match Base64.decode? t with
    | some bs => return .bytes bs
    | none => throw .wrongShape
  else throw .wrongShape

/-- The fraction of a second in microseconds, from its first six digits, rounded up by the seventh
if that is five or more. -/
def micro (fraction : Text) : Nat :=
  let six := fraction.take 6
  let n := Number.ofDigits 10 (six ++ List.replicate (6 - six.length) '0')
  match fraction[6]? with
  | some c => if 4 < (Number.digitValue? 10 c).getD 0 then n + 1 else n
  | none => n

def zone? (t : Text) : Option Zone :=
  match t with
  | [] => none
  | c :: r =>
    let (hours, rest) := (r.takeWhile Tag.isDecimal, r.dropWhile Tag.isDecimal)
    let n : Int := Number.ofDigits 10 hours * 60 + Number.ofDigits 10 (rest.drop 1)
    some ⟨if c = '-' then -n else n, t⟩

def ofFields (f : Tag.TimeFields) : Except Fault Scalar :=
  let date : Date :=
    ⟨Number.ofDigits 10 f.year, Number.ofDigits 10 f.month, Number.ofDigits 10 f.day⟩
  match f.clock with
  | none => if date.isValid then return .date date else throw .badValue
  | some (hour, minute, second) =>
    let micro := micro f.fraction
    let time : Timestamp := {
      date
      hour := Number.ofDigits 10 hour
      minute := Number.ofDigits 10 minute
      second := Number.ofDigits 10 second
      micro := if micro < 1000000 then micro else 0
      zone := zone? f.zone }
    if !time.isValid then throw .badValue
    else if micro < 1000000 then return .time time
    else
      let next := time.nextSecond
      if next.date.isValid then return .time next else throw .outOfRange

def timestamp (t : Text) : Except Fault Scalar :=
  let t := if t.getLast? = some '\n' then t.dropLast else t
  match Tag.timeFields? t with
  | some f => ofFields f
  | none => throw .wrongShape

end Bulletin.Yaml.Convert
