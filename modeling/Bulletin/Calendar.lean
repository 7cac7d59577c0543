import Bulletin.Number.Digits

/-! Dates and times of the Gregorian calendar, with an optional offset from universal time. Two
times with offsets are the same where they name the same instant. -/

namespace Bulletin

structure Date where
  year : Nat
  month : Nat
  day : Nat
deriving DecidableEq, Repr

/-- An offset from universal time in minutes, with the name it was written by. -/
structure Zone where
  minutes : Int
  name : Text
deriving DecidableEq, Repr

/-- A time of day on a date, to the microsecond. -/
structure Timestamp where
  date : Date
  hour : Nat
  minute : Nat
  second : Nat
  micro : Nat
  zone : Option Zone
deriving DecidableEq, Repr

namespace Date

def isLeap (year : Nat) : Bool := year % 4 = 0 && (year % 100 ≠ 0 || year % 400 = 0)

def monthLength (year month : Nat) : Nat :=
  if month = 2 then if isLeap year then 29 else 28
  else if month = 4 ∨ month = 6 ∨ month = 9 ∨ month = 11 then 30
  else 31

/-- Whether the date exists, in the years 1 to 9999. -/
def isValid (d : Date) : Bool :=
  1 ≤ d.year && d.year ≤ 9999 && 1 ≤ d.month && d.month ≤ 12 && 1 ≤ d.day &&
    d.day ≤ monthLength d.year d.month

def daysBefore (year : Nat) : Nat → Nat
  | 0 => 0
  | month + 1 => if month = 0 then 0 else daysBefore year month + monthLength year month

/-- The number of a day, counted from the first day of year 1. -/
def ordinal (d : Date) : Nat :=
  let y := d.year - 1
  365 * y + y / 4 - y / 100 + y / 400 + daysBefore d.year d.month + d.day

def next (d : Date) : Date :=
  if d.day < monthLength d.year d.month then ⟨d.year, d.month, d.day + 1⟩
  else if d.month < 12 then ⟨d.year, d.month + 1, 1⟩
  else ⟨d.year + 1, 1, 1⟩

def text (d : Date) : Text :=
  Number.padded 4 d.year ++ '-' :: Number.padded 2 d.month ++ '-' :: Number.padded 2 d.day

end Date

namespace Zone

def isValid (z : Zone) : Bool := z.minutes.natAbs < 24 * 60

def text (z : Zone) : Text :=
  let n := z.minutes.natAbs
  (if z.minutes < 0 then '-' else '+') ::
    (Number.padded 2 (n / 60) ++ ':' :: Number.padded 2 (n % 60))

end Zone

namespace Timestamp

def isValid (t : Timestamp) : Bool :=
  t.date.isValid && t.hour < 24 && t.minute < 60 && t.second < 60 && t.micro < 1000000 &&
    (t.zone.all Zone.isValid)

def nextSecond (t : Timestamp) : Timestamp :=
  if t.second < 59 then { t with second := t.second + 1 }
  else if t.minute < 59 then { t with second := 0, minute := t.minute + 1 }
  else if t.hour < 23 then { t with second := 0, minute := 0, hour := t.hour + 1 }
  else { t with second := 0, minute := 0, hour := 0, date := t.date.next }

def seconds (t : Timestamp) : Int :=
  (((t.date.ordinal * 24 + t.hour) * 60 + t.minute) * 60 + t.second : Nat)

/-- Whether two times are the same: the same instant, or both without an offset and equal. -/
def same (a b : Timestamp) : Bool :=
  match a.zone, b.zone with
  | none, none => a.seconds = b.seconds && a.micro = b.micro
  | some z, some w =>
    a.seconds - 60 * z.minutes = b.seconds - 60 * w.minutes && a.micro = b.micro
  | _, _ => false

/-- Date, time and offset, with six digits of a fraction that is not zero. -/
def text (t : Timestamp) : Text :=
  t.date.text ++ ' ' :: Number.padded 2 t.hour ++ ':' :: Number.padded 2 t.minute ++
    ':' :: Number.padded 2 t.second ++
    (if t.micro = 0 then [] else '.' :: Number.padded 6 t.micro) ++
    (t.zone.map Zone.text).getD []

end Timestamp
end Bulletin
