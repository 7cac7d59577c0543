import Bulletin.Number.Digits

/-! The tags of nodes: the kinds of value that the standard tag set names, and all others by their
text; and the tag of a plain scalar, by the form of its text. -/

namespace Bulletin.Yaml

inductive Tag where
  | null
  | bool
  | int
  | float
  | binary
  | timestamp
  | str
  | seq
  | map
  | set
  | pairs
  | omap
  | merge
  | value
  | other (text : Text)
deriving DecidableEq, Repr

namespace Tag

def standard : Text := "tag:yaml.org,2002:"

def names : List (Text × Tag) :=
  [("null", .null), ("bool", .bool), ("int", .int), ("float", .float), ("binary", .binary),
    ("timestamp", .timestamp), ("str", .str), ("seq", .seq), ("map", .map), ("set", .set),
    ("pairs", .pairs), ("omap", .omap), ("merge", .merge), ("value", .value)]

def ofText (t : Text) : Tag :=
  if standard.isPrefixOf t then
    (names.lookup (t.drop standard.length)).getD (.other t)
  else .other t

end Tag
end Bulletin.Yaml

/-! ### Plain scalars

The forms of numbers and truth values depend on the version. A form also fits a text with one line
break after it. -/

namespace Bulletin.Yaml.Tag

inductive Schema where
  /-- Version 1.2. -/
  | current
  /-- Version 1.1. -/
  | legacy
deriving DecidableEq, Repr

def run (p : Char → Bool) (t : Text) : Bool := t ≠ [] && t.all p

def isDecimal (c : Char) : Bool := Number.isDigit 10 c
def isDecimalOrLow (c : Char) : Bool := isDecimal c || c = '_'

def unsigned (t : Text) : Text := (Number.takeSign t).2

def after? (token t : Text) : Option Text :=
  if token.isPrefixOf t then some (t.drop token.length) else none

/-- A group of base sixty: at most two digits, the first of two below six. -/
def isSixtieth : Text → Bool
  | [a] => isDecimal a
  | [a, b] => Number.isDigit 6 a && isDecimal b
  | _ => false

/-- Digits that do not start with zero, and then groups of base sixty. -/
def isSexagesimal (t : Text) : Bool :=
  match t.splitOn ':' with
  | first :: second :: rest =>
    (first.head?.any fun c => isDecimal c && c ≠ '0') && first.all isDecimalOrLow &&
      (second :: rest).all isSixtieth
  | _ => false

def isInt (s : Schema) (t : Text) : Bool :=
  let r := unsigned t
  let inBase (mark : Text) (digit : Char → Bool) :=
    (after? mark r).any (run fun c => digit c || c = '_')
  inBase "0b" (Number.isDigit 2) || inBase "0x" (Number.isDigit 16) ||
  match s with
  | .current => inBase "0o" (Number.isDigit 8) || run isDecimalOrLow r
  | .legacy =>
    run (fun c => Number.isDigit 8 c || c = '_') r ||
      ((r.head?.any fun c => isDecimal c && c ≠ '0') && r.all isDecimalOrLow) || isSexagesimal r

def isExponent (needsSign : Bool) : Text → Bool
  | c :: r => (c = 'e' || c = 'E') &&
    run isDecimal (if needsSign then r.drop 1 else unsigned r) &&
    (!needsSign || r.head? = some '+' || r.head? = some '-')
  | [] => false

def isWholeDecimal (t : Text) : Bool :=
  let rest := t.dropWhile isDecimalOrLow
  (t.head?.any isDecimal) &&
    match rest with
    | '.' :: r =>
      let tail := r.dropWhile isDecimalOrLow
      tail = [] || isExponent false tail
    | r => isExponent false r

def isFraction : Text → Bool
  | '.' :: r =>
    let tail := r.dropWhile isDecimalOrLow
    (r.head?.any isDecimalOrLow) && (tail = [] || isExponent true tail)
  | _ => false

def isSexagesimalFraction (t : Text) : Bool :=
  match t.cut? ['.'] with
  | none => false
  | some (whole, fraction) =>
    fraction.all isDecimalOrLow &&
    match whole.splitOn ':' with
    | first :: second :: rest =>
      (first.head?.any isDecimal) && first.all isDecimalOrLow && (second :: rest).all isSixtieth
    | _ => false

def infinities : List Text := [".inf", ".Inf", ".INF"]
def notNumbers : List Text := [".nan", ".NaN", ".NAN"]

def isFloat (s : Schema) (t : Text) : Bool :=
  let r := unsigned t
  isWholeDecimal r || infinities.contains r || notNumbers.contains t ||
  match s with
  | .current => isFraction r
  | .legacy => isFraction t || isSexagesimalFraction r

def truthValues : List Text := ["true", "True", "TRUE", "false", "False", "FALSE"]
def legacyTruthValues : List Text :=
  ["y", "Y", "yes", "Yes", "YES", "n", "N", "no", "No", "NO",
    "on", "On", "ON", "off", "Off", "OFF"]

def isBool (s : Schema) (t : Text) : Bool :=
  truthValues.contains t || (s = .legacy && legacyTruthValues.contains t)

def nulls : List Text := ["~", "null", "Null", "NULL"]

def isNull (t : Text) : Bool := t = [] || nulls.contains t

/-- A run of digits, by its least and greatest length, and the rest. -/
def digits? (least most : Nat) (t : Text) : Option (Text × Text) :=
  let d := (t.take most).takeWhile isDecimal
  if d.length < least then none else some (d, t.drop d.length)

def skip? (c : Char) : Text → Option Text
  | [] => none
  | x :: r => if x = c then some r else none

structure TimeFields where
  year : Text
  month : Text
  day : Text
  /-- Hour, minute and second. -/
  clock : Option (Text × Text × Text) := none
  fraction : Text := []
  zone : Text := []
deriving Repr

/-- The zone at the end of a time: nothing, `Z`, or a sign, hours and minutes. -/
def zone? (t : Text) : Option Text :=
  match t with
  | [] => some []
  | ['Z'] => some t
  | c :: r =>
    if c = '+' ∨ c = '-' then
      match digits? 1 2 r with
      | none => none
      | some (_, []) => some t
      | some (_, r) => do
        let r ← skip? ':' r
        let (_, r) ← digits? 2 2 r
        if r = [] then some t else none
    else none

def clock? (f : TimeFields) (t : Text) : Option TimeFields := do
  let (hour, r) ← digits? 1 2 t
  let r ← skip? ':' r
  let (minute, r) ← digits? 2 2 r
  let r ← skip? ':' r
  let (second, r) ← digits? 2 2 r
  let (fraction, r) := match r with
    | '.' :: r => (r.takeWhile isDecimal, r.dropWhile isDecimal)
    | r => ([], r)
  let blank := fun (c : Char) => c = ' ' || c = '\t'
  let rest := r.dropWhile blank
  if rest = [] ∧ r ≠ [] then none
  let zone ← zone? rest
  return { f with clock := some (hour, minute, second), fraction, zone }

/-- The fields of a date, and of a time after `T` or blanks. -/
def timeFields? (t : Text) : Option TimeFields := do
  let (year, r) ← digits? 4 4 t
  let r ← skip? '-' r
  let (month, r) ← digits? 1 2 r
  let r ← skip? '-' r
  let (day, r) ← digits? 1 2 r
  let f : TimeFields := { year, month, day }
  let blank := fun (c : Char) => c = ' ' || c = '\t'
  match r with
  | [] => some f
  | 'T' :: r => clock? f r
  | 't' :: r => clock? f r
  | c :: r => if blank c then clock? f (r.dropWhile blank) else none

/-- The form of a date or time; a date alone has all its digits. -/
def isTimestamp (t : Text) : Bool :=
  (timeFields? t).any fun f => f.clock.isSome || t.length = 10

/-- Texts that are indicators where they are not quoted. -/
def indicatorTexts : List Text := ["!", "&", "*"]

def formOf? (s : Schema) (t : Text) : Option Tag :=
  if isBool s t then some .bool
  else if isFloat s t then some .float
  else if isInt s t then
    -- an underscore alone cannot start a number
    if t.head? = some '_' then none else some .int
  else if t = "<<".toList then some .merge
  else if isNull t then some .null
  else if isTimestamp t then some .timestamp
  else if t = ['='] then some .value
  else if indicatorTexts.contains t then some (.other (standard ++ "yaml".toList))
  else none

def ofPlain (s : Schema) (t : Text) : Tag :=
  match formOf? s t with
  | some tag => tag
  | none =>
    if t.getLast? = some '\n' ∧ t.dropLast ≠ [] then (formOf? s t.dropLast).getD .str else .str

end Bulletin.Yaml.Tag
