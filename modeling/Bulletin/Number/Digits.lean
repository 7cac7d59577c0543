import Bulletin.Text.Basic

/-! Digits and the numbers they write, in any base up to sixteen; the decimal digits of all scripts,
which count as decimal digits where a number is converted; and the integers that texts write. -/

namespace Bulletin.Number

def digitValue? (base : Nat) (c : Char) : Option Nat :=
  let n := c.toNat
  let v := if 48 ≤ n && n ≤ 57 then n - 48
    else if 97 ≤ n && n ≤ 102 then n - 87
    else if 65 ≤ n && n ≤ 70 then n - 55
    else base
  if v < base then some v else none

def isDigit (base : Nat) (c : Char) : Bool := (digitValue? base c).isSome

def ofDigits (base : Nat) (digits : Text) : Nat :=
  digits.foldl (fun n c => n * base + (digitValue? base c).getD 0) 0

@[simp] theorem ofDigits_nil (base : Nat) : ofDigits base [] = 0 := rfl

def decimal (n : Nat) : Text := Nat.toDigits 10 n

/-- A number in decimal digits, with zeros before it up to the given width. -/
def padded (width n : Nat) : Text :=
  let digits := decimal n
  List.replicate (width - digits.length) '0' ++ digits

def paddedHex (width n : Nat) : Text :=
  let digits := Nat.toDigits 16 n
  List.replicate (width - digits.length) '0' ++ digits

def twoPow (n : Nat) : Nat := Nat.pow 2 n

def tenPow (n : Nat) : Nat := Nat.pow 10 n

/-- The code points of the digit zero in the scripts that have decimal digits. -/
def scriptZeros : List Nat :=
  [0x660, 0x6f0, 0x7c0, 0x966, 0x9e6, 0xa66, 0xae6, 0xb66, 0xbe6, 0xc66, 0xce6, 0xd66, 0xde6,
    0xe50, 0xed0, 0xf20, 0x1040, 0x1090, 0x17e0, 0x1810, 0x1946, 0x19d0, 0x1a80, 0x1a90, 0x1b50,
    0x1bb0, 0x1c40, 0x1c50, 0xa620, 0xa8d0, 0xa900, 0xa9d0, 0xa9f0, 0xaa50, 0xabf0, 0xff10,
    0x104a0, 0x10d30, 0x11066, 0x110f0, 0x11136, 0x111d0, 0x112f0, 0x11450, 0x114d0, 0x11650,
    0x116c0, 0x11730, 0x118e0, 0x11950, 0x11c50, 0x11d50, 0x11da0, 0x16a60, 0x16ac0, 0x16b50,
    0x1d7ce, 0x1d7d8, 0x1d7e2, 0x1d7ec, 0x1d7f6, 0x1e140, 0x1e2f0, 0x1e950, 0x1fbf0]

/-- The ASCII form of a character in a number: a decimal digit of any script becomes its ASCII
digit, a blank character outside ASCII becomes a space. -/
def asciiForm (c : Char) : Char :=
  let n := c.toNat
  if n < 128 then c
  else if Text.isBlank c then ' '
  else match scriptZeros.find? fun first => first ≤ n && n ≤ first + 9 with
    | some first => Char.ofNat (48 + (n - first))
    | none => c

def isPadding (c : Char) : Bool := c = ' ' || (9 ≤ c.toNat && c.toNat ≤ 13)

def unpad (t : Text) : Text :=
  let r := (t.map asciiForm).dropWhile isPadding
  (r.reverse.dropWhile isPadding).reverse

def takeSign : Text → Bool × Text
  | '-' :: r => (true, r)
  | '+' :: r => (false, r)
  | r => (false, r)

/-! ### Integers in text

Reading allows padding, a sign, and the prefix of the base; reading and writing in base ten stop at
a fixed number of digits. -/

/-- The most decimal digits that an integer may be read from or written with. -/
def digitLimit : Nat := 4300

/-- The letter after a zero that announces a base. -/
def prefixLetters (base : Nat) : Text :=
  if base = 16 then ['x', 'X'] else if base = 8 then ['o', 'O'] else if base = 2 then ['b', 'B']
  else []

def dropBase (base : Nat) : Text → Text
  | '0' :: c :: r => if c ∈ prefixLetters base then r else '0' :: c :: r
  | r => r

def readInteger? (base : Nat) (t : Text) : Option Int :=
  let (negative, r) := takeSign (unpad t)
  let digits := dropBase base r
  if digits = [] || !digits.all (isDigit base) then none
  else if base = 10 && digitLimit < digits.length then none
  else
    let n : Int := ofDigits base digits
    some (if negative then -n else n)

/-- The decimal text of an integer, unless it has too many digits. -/
def integerText? (n : Int) : Option Text :=
  let digits := decimal n.natAbs
  if digitLimit < digits.length then none
  else some (if n < 0 then '-' :: digits else digits)

end Bulletin.Number
