import Bulletin.Html.Entity.Table
import Bulletin.Number.Digits

/-! The plain text of a title: tags and comments removed, blank runs collapsed to one space, and
character references replaced by the characters they stand for, in this order. A numeric reference
may be decimal or hexadecimal; a named one is the longest name of the table that the text starts
with. The semicolon at the end of a reference is optional for numbers and for some names. -/

namespace Bulletin.Html.Entity

def readEntry (entry : Text) : Text × Text :=
  match entry.cut? ['='] with
  | none => (entry, [])
  | some (name, codes) => (name, (codes.splitOn '+').map fun h => Char.ofNat (Number.ofDigits 16 h))

def entries : List (Text × Text) := (Text.words nameTable).map readEntry

/-- The names of the table that need no semicolon. -/
def bare : List Text := Text.words bareNames

def lookup? (name : Text) : Option Text := entries.lookup name

def lookupBare? (name : Text) : Option Text := if bare.contains name then lookup? name else none

/-- The characters that references to the numbers 128 to 159 stand for, in the place of control
characters. -/
def legacyControls : List Nat :=
  [0x20ac, 0x81, 0x201a, 0x192, 0x201e, 0x2026, 0x2020, 0x2021, 0x2c6, 0x2030, 0x160, 0x2039,
    0x152, 0x8d, 0x17d, 0x8f, 0x90, 0x2018, 0x2019, 0x201c, 0x201d, 0x2022, 0x2013, 0x2014,
    0x2dc, 0x2122, 0x161, 0x203a, 0x153, 0x9d, 0x17e, 0x178]

/-- Code points that a reference cannot produce: controls and noncharacters. -/
def isForbidden (n : Nat) : Bool :=
  (1 ≤ n && n ≤ 8) || n == 0xb || (0xe ≤ n && n ≤ 0x1f) || n == 0x7f
    || (0xfdd0 ≤ n && n ≤ 0xfdef) || n % 0x10000 == 0xfffe || n % 0x10000 == 0xffff

/-- The text of a numeric reference. A number that is no character gives the replacement
character, a forbidden one gives nothing. -/
def numeric (n : Nat) : Text :=
  if n = 0 then ['\ufffd']
  else if 0x80 ≤ n ∧ n ≤ 0x9f then [Char.ofNat (legacyControls.getD (n - 0x80) n)]
  else if (0xd800 ≤ n ∧ n ≤ 0xdfff) ∨ 0x10ffff < n then ['\ufffd']
  else if isForbidden n then []
  else [Char.ofNat n]

def withSemicolon (r : Text) (length : Nat) : Nat :=
  if (r.drop length).head? = some ';' then length + 1 else length

/-- The text and the length of a number in the given base; `skipped` characters precede it. -/
def number? (base skipped : Nat) (r : Text) : Option (Text × Nat) :=
  let digits := (r.drop skipped).takeWhile (Number.isDigit base)
  if digits = [] then none
  else some (numeric (Number.ofDigits base digits), withSemicolon r (skipped + digits.length))

def endsName (c : Char) : Bool := "\t\n\x0c <&#;".toList.contains c

/-- The longest beginning of a name, of at most `length` and at least two characters, that is known
without a semicolon. -/
def longestBare? (name : Text) : Nat → Option (Text × Nat)
  | n + 2 => match lookupBare? (name.take (n + 2)) with
    | some t => some (t, n + 2)
    | none => longestBare? name (n + 1)
  | _ => none

def named? (r : Text) : Option (Text × Nat) :=
  let name := (r.take 32).takeWhile (!endsName ·)
  let closed := (r.drop name.length).head? = some ';'
  match if closed then lookup? name else lookupBare? name with
  | some t => some (t, if closed then name.length + 1 else name.length)
  | none => longestBare? name (if closed then name.length else name.length - 1)

def reference? (r : Text) : Option (Text × Nat) :=
  match r with
  | '#' :: 'x' :: _ => number? 16 2 r
  | '#' :: 'X' :: _ => number? 16 2 r
  | '#' :: _ => number? 10 1 r
  | _ => named? r

/-- One pass from left to right. The count says how many characters belong to a reference that is
already replaced. -/
def decodeFrom : Nat → Text → Text
  | _, [] => []
  | replaced + 1, _ :: r => decodeFrom replaced r
  | 0, c :: r =>
    match if c = '&' then reference? r else none with
    | some (t, length) => t ++ decodeFrom length r
    | none => c :: decodeFrom 0 r

/-- Every reference replaced once; what is no reference stays. -/
def decode (t : Text) : Text := decodeFrom 0 t

theorem decode_eq_self {t : Text} (h : '&' ∉ t) : decode t = t := by
  unfold decode
  induction t with
  | nil => rfl
  | cons c r ih =>
    simp only [List.mem_cons, not_or] at h
    simp [decodeFrom, Ne.symm h.1, ih h.2]

/-- Whether a decimal reference has too many digits to be read as a number, so that the text cannot
be decoded. The digits of a hexadecimal reference are not limited. -/
def hasLong : Text → Bool
  | [] => false
  | '&' :: '#' :: r =>
    Number.digitLimit < (r.takeWhile (Number.isDigit 10)).length || hasLong ('#' :: r)
  | _ :: r => hasLong r

end Bulletin.Html.Entity

namespace Bulletin.Html

/-- The length of the comment or tag that `t` starts with; none where it is never closed. The end of
a comment is looked for after its four opening characters, so `<!-->` does not close itself; every
other opening bracket is closed by the next closing one. -/
def tagLength? (t : Text) : Option Nat :=
  if "<!--".toList.isPrefixOf t then
    (Text.cut? (t.drop 4) "-->").map fun p => p.1.length + 7
  else (t.cut? ['>']).map fun p => p.1.length + 1

/-- One pass from left to right, up to the first comment or tag that is not closed; that one and all
after it stay. The count says how many characters belong to a tag that is already removed. -/
def stripTagsFrom : Nat → Text → Text
  | _, [] => []
  | removed + 1, _ :: r => stripTagsFrom removed r
  | 0, c :: r =>
    if c = '<' then match tagLength? (c :: r) with
      | some n => stripTagsFrom (n - 1) r
      | none => c :: r
    else c :: stripTagsFrom 0 r

/-- The text without tags and comments. Releases of this filter differ in what they do with a text
that has `<!--` in it, where this is the latest; without comments they agree. -/
def stripTags (t : Text) : Text := stripTagsFrom 0 t

theorem stripTags_eq_self {t : Text} (h : '<' ∉ t) : stripTags t = t := by
  unfold stripTags
  induction t with
  | nil => rfl
  | cons c r ih =>
    simp only [List.mem_cons, not_or] at h
    simp [stripTagsFrom, Ne.symm h.1, ih h.2]

/-- The words of a text with one space between them. -/
def collapse (t : Text) : Text := [' '].intercalate t.words

def plainText (t : Text) : Text := Entity.decode (collapse (stripTags t))

/-- Whether the references of a title can be read. -/
def isReadable (title : Text) : Bool := !Entity.hasLong (collapse (stripTags title))

end Bulletin.Html
