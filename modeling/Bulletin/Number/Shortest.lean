import Bulletin.Number.Binary64

/-! The shortest decimal text of a binary number: the fewest digits that read back as the same
number, and of those the nearest to it. Reading is here too, because it fixes what reading back
means. -/

namespace Bulletin.Number.Binary64

/-- Whether `a · 10^p` is less than, equal to or greater than `b · 2^q`. -/
def compareScaled (a : Nat) (p : Int) (b : Nat) (q : Int) : Ordering :=
  let left := a * tenPow p.toNat * twoPow (-q).toNat
  let right := b * twoPow q.toNat * tenPow (-p).toNat
  compare left right

/-- The numbers that round to a finite number, as multiples of a quarter of its unit: the two ends,
and whether they belong to the range. -/
structure Range where
  low : Nat
  high : Nat
  closed : Bool

/-- The range of `mantissa · 2^exponent`. Below a power of two the neighbour is half as far. -/
def range (mantissa : Nat) (exponent : Int) : Range :=
  ⟨if mantissa = twoPow 52 ∧ minExponent < exponent then 4 * mantissa - 1 else 4 * mantissa - 2,
    4 * mantissa + 2, mantissa % 2 = 0⟩

/-- Whether `digits · 10^place` lies in a range whose unit is `2^exponent`. -/
def Range.contains (r : Range) (exponent : Int) (digits : Nat) (place : Int) : Bool :=
  let below := compareScaled digits place r.low (exponent - 2)
  let above := compareScaled digits place r.high (exponent - 2)
  if r.closed then below != .lt && above != .gt else below == .gt && above == .lt

/-- The number of decimal digits before the point; zero or less for numbers below one tenth. -/
def magnitude (mantissa : Nat) (exponent : Int) : Int :=
  let shifted := mantissa * tenPow 400 * twoPow exponent.toNat / twoPow (-exponent).toNat
  ((decimal shifted).length : Int) - 400

/-- The neighbour of the number on the grid of `count` digits that reads back as it: the nearer one
where both do, the even one where they are equally near. -/
def onGrid? (mantissa : Nat) (exponent : Int) (size : Int) (count : Nat) : Option Nat :=
  let place := size - count
  let floor := mantissa * twoPow exponent.toNat * tenPow (-place).toNat
    / (twoPow (-exponent).toNat * tenPow place.toNat)
  let r := range mantissa exponent
  match r.contains exponent floor place, r.contains exponent (floor + 1) place with
  | false, false => none
  | true, false => some floor
  | false, true => some (floor + 1)
  | true, true =>
    match compareScaled (2 * floor + 1) place (2 * mantissa) exponent with
    | .gt => some floor
    | .lt => some (floor + 1)
    | .eq => some (if floor % 2 = 0 then floor else floor + 1)

/-- The digits of the shortest decimal from `count` digits on, and the place of the point. -/
def shortestFrom (mantissa : Nat) (exponent : Int) (size : Int) : Nat → Nat → Text × Int
  | count, left + 1 =>
    match onGrid? mantissa exponent size count with
    | some n =>
      let digits := decimal n
      ((digits.reverse.dropWhile (· = '0')).reverse, size + digits.length - count)
    | none => shortestFrom mantissa exponent size (count + 1) left
  | count, 0 => (decimal mantissa, size + count)

/-- The digits `d₁d₂…` and the place of the point `p` of the shortest decimal `0.d₁d₂… · 10^p` of a
number that is not zero. Seventeen digits always suffice. -/
def shortest (mantissa : Nat) (exponent : Int) : Text × Int :=
  shortestFrom mantissa exponent (magnitude mantissa exponent) 1 17

structure Layout where
  /-- Numbers whose point is to the right of this place have an exponent. -/
  lastPlace : Int
  /-- Numbers whose point is to the left of this place have an exponent. -/
  firstPlace : Int
  /-- The least number of digits of an exponent. -/
  exponentDigits : Nat

/-- Decimals have an exponent of at least two digits from 10^16 on and below one ten-thousandth;
whole numbers keep a zero after the point. -/
def standardLayout : Layout := ⟨16, -3, 2⟩

def Layout.write (l : Layout) (digits : Text) (place : Int) : Text :=
  if l.lastPlace < place ∨ place < l.firstPlace then
    let e := place - 1
    let tail := digits.drop 1
    digits.take 1 ++ (if tail = [] then [] else '.' :: tail) ++
      ['e', if e < 0 then '-' else '+'] ++ padded l.exponentDigits e.natAbs
  else if place ≤ 0 then ['0', '.'] ++ List.replicate place.natAbs '0' ++ digits
  else
    let whole := place.toNat
    digits.take whole ++ List.replicate (whole - digits.length) '0' ++ ['.'] ++
      (if digits.drop whole = [] then ['0'] else digits.drop whole)

def text : Binary64 → Text
  | .nan => "nan"
  | .infinite s => if s then "-inf" else "inf"
  | .finite s m e =>
    let body : Text := if m = 0 then "0.0" else
      let (digits, place) := shortest m e
      standardLayout.write digits place
    if s then '-' :: body else body

/-- The exponent part of a decimal: nothing, or a letter, a sign and digits. -/
def readExponent? : Text → Option Int
  | [] => some 0
  | c :: r =>
    let (negative, digits) := takeSign r
    if (c = 'e' ∨ c = 'E') ∧ digits ≠ [] ∧ digits.all (isDigit 10) then
      let n : Int := ofDigits 10 digits
      some (if negative then -n else n)
    else none

/-- A decimal without sign: digits with at most one point among them, and an exponent. -/
def readDecimal? (negative : Bool) (t : Text) : Option Binary64 :=
  let whole := t.takeWhile (isDigit 10)
  let r := t.drop whole.length
  let fraction := if r.head? = some '.' then (r.drop 1).takeWhile (isDigit 10) else []
  let r := if r.head? = some '.' then r.drop (fraction.length + 1) else r
  if whole ++ fraction = [] then none
  else (readExponent? r).map fun e =>
    ofDecimal negative (ofDigits 10 (whole ++ fraction)) (e - fraction.length)

/-- The number that a text writes: a decimal, or the name of an infinity or of `nan`, with a sign
before it and padding around it. Letters must be in lower case. -/
def read? (t : Text) : Option Binary64 :=
  let (negative, r) := takeSign (unpad t)
  if r = "inf".toList ∨ r = "infinity".toList then some (.infinite negative)
  else if r = "nan".toList then some .nan
  else readDecimal? negative r

end Bulletin.Number.Binary64
