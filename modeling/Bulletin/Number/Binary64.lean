import Bulletin.Number.Digits

/-! Binary floating-point numbers with 53 significant bits, kept exactly: a finite number is a
mantissa times a power of two. Every operation computes the exact result as a quotient of natural
numbers and rounds once, to the nearest number, a tie to the even mantissa. -/

namespace Bulletin.Number

/-- A number of double precision. A finite one has a mantissa below 2^53 and an exponent from -1074
to 971; a mantissa below 2^52 occurs only at the least exponent. -/
inductive Binary64 where
  | nan
  | infinite (negative : Bool)
  | finite (negative : Bool) (mantissa : Nat) (exponent : Int)
deriving DecidableEq, Repr

namespace Binary64

def minExponent : Int := -1074
def maxExponent : Int := 971

def zero (negative : Bool) : Binary64 := .finite negative 0 minExponent

def scale (num den : Nat) (exponent : Int) : Nat × Nat :=
  if exponent < 0 then (num * twoPow exponent.natAbs, den) else (num, den * twoPow exponent.natAbs)

def roundHalfEven (num den : Nat) : Nat :=
  let q := num / den
  let r := num % den
  if den < 2 * r || (2 * r == den && q % 2 == 1) then q + 1 else q

/-- The number nearest to a quotient with a positive denominator. -/
def ofQuotient (negative : Bool) (num den : Nat) : Binary64 :=
  if num = 0 then zero negative
  else
    let low := max ((num.log2 : Int) - (den.log2 : Int) - 53) minExponent
    let (a, b) := scale num den low
    let exponent := if twoPow 53 ≤ a / b then low + 1 else low
    let (a, b) := scale num den exponent
    let m := roundHalfEven a b
    let (m, exponent) := if m = twoPow 53 then (twoPow 52, exponent + 1) else (m, exponent)
    if maxExponent < exponent then .infinite negative else .finite negative m exponent

def ofNat (n : Nat) : Binary64 := ofQuotient false n 1

/-- The number nearest to `digits` times a power of ten. Far outside the range no power is
computed. -/
def ofDecimal (negative : Bool) (digits : Nat) (exponent : Int) : Binary64 :=
  if digits = 0 then zero negative
  else
    let size : Int := (decimal digits).length + exponent
    if 400 < size then .infinite negative
    else if size < -400 then zero negative
    else if exponent < 0 then ofQuotient negative digits (tenPow exponent.natAbs)
    else ofQuotient negative (digits * tenPow exponent.natAbs) 1

def isZero : Binary64 → Bool
  | .finite _ 0 _ => true
  | _ => false

def neg : Binary64 → Binary64
  | .nan => .nan
  | .infinite s => .infinite (!s)
  | .finite s m e => .finite (!s) m e

/-- The number nearest to an integer times a power of two. A zero has the given sign. -/
def ofScaled (zeroSign : Bool) (n : Int) (exponent : Int) : Binary64 :=
  if n = 0 then zero zeroSign
  else
    let (a, b) := scale n.natAbs 1 (-exponent)
    ofQuotient (n < 0) a b

def signed (negative : Bool) (m : Nat) : Int := if negative then -(m : Int) else m

def mul : Binary64 → Binary64 → Binary64
  | .finite s m e, .finite s' m' e' => ofScaled (s != s') (signed (s != s') (m * m')) (e + e')
  | .infinite s, .infinite s' => .infinite (s != s')
  | .infinite s, .finite s' m _ => if m = 0 then .nan else .infinite (s != s')
  | .finite s m _, .infinite s' => if m = 0 then .nan else .infinite (s != s')
  | _, _ => .nan

def add : Binary64 → Binary64 → Binary64
  | .finite s m e, .finite s' m' e' =>
    let low := min e e'
    ofScaled (s && s') (signed s m * twoPow (e - low).toNat + signed s' m' * twoPow (e' - low).toNat) low
  | .infinite s, .infinite s' => if s = s' then .infinite s else .nan
  | .infinite s, .finite .. => .infinite s
  | .finite .., .infinite s => .infinite s
  | _, _ => .nan

/-- Equality of values: zeros are equal whatever their sign, and nothing equals `nan`. -/
def equals : Binary64 → Binary64 → Bool
  | .finite s m e, .finite s' m' e' => (m = 0 && m' = 0) || (s = s' && m = m' && e = e')
  | .infinite s, .infinite s' => s = s'
  | _, _ => false

def equalsInt : Binary64 → Int → Bool
  | .finite s m e, n =>
    if e < 0 then signed s m = n * twoPow e.natAbs else signed s m * twoPow e.natAbs = n
  | _, _ => false

end Binary64
end Bulletin.Number
