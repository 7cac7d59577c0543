/-! Text as a list of characters, with the operations the rest of the library cuts it by: trimming
blank characters, splitting at a character, and cutting at the first occurrence of a token, in the
whole text or within one line. The lemmas say that a cut loses nothing but the token. -/

namespace Bulletin

/-- A text is the list of its characters. -/
abbrev Text := List Char

instance : Coe String Text := ⟨String.toList⟩

instance (t : Text) (p : Char → Prop) [DecidablePred p] : Decidable (∀ c ∈ t, p c) :=
  List.decidableBAll p t

namespace Text

/-- Whether a character is blank. One fixed set decides everywhere what is trimmed from a line, what
may stand on an empty line, and what separates words. It is the space separators of Unicode together
with the control characters that move the cursor or separate records; it is larger than the four
characters of `Char.isWhitespace`. -/
def isBlank (c : Char) : Bool :=
  let n := c.toNat
  (9 ≤ n && n ≤ 13) || (28 ≤ n && n ≤ 32) || n == 0x85 || n == 0xA0 || n == 0x1680
    || (0x2000 ≤ n && n ≤ 0x200A) || n == 0x2028 || n == 0x2029 || n == 0x202F
    || n == 0x205F || n == 0x3000

@[simp] theorem isBlank_newline : isBlank '\n' = true := by decide
@[simp] theorem isBlank_return : isBlank '\r' = true := by decide
@[simp] theorem isBlank_space : isBlank ' ' = true := by decide

def trimStart (t : Text) : Text := t.dropWhile isBlank
def trimEnd (t : Text) : Text := (t.reverse.dropWhile isBlank).reverse

def trim (t : Text) : Text := trimEnd (trimStart t)

@[simp] theorem trim_nil : trim [] = [] := rfl

/-- The pieces between the occurrences of `mark`, one more than there are marks. -/
def splitOn (mark : Char) : Text → List Text
  | [] => [[]]
  | c :: r =>
    if c = mark then [] :: splitOn mark r
    else match splitOn mark r with
      | [] => [[c]]
      | piece :: rest => (c :: piece) :: rest

theorem splitOn_ne_nil (mark : Char) (t : Text) : splitOn mark t ≠ [] := by
  cases t with
  | nil => simp [splitOn]
  | cons c r => simp only [splitOn]; split <;> (try split) <;> simp

@[simp] theorem splitOn_mark (mark : Char) (r : Text) :
    splitOn mark (mark :: r) = [] :: splitOn mark r := by simp [splitOn]

/-- The lines of a text. Only the newline character ends a line. -/
def lines (t : Text) : List Text := splitOn '\n' t

/-- The pieces of a text between blank characters, at least one and perhaps empty. -/
def blankPieces : Text → List Text
  | [] => [[]]
  | c :: r =>
    if isBlank c then [] :: blankPieces r
    else match blankPieces r with
      | [] => [[c]]
      | piece :: rest => (c :: piece) :: rest

theorem blankPieces_ne_nil (t : Text) : blankPieces t ≠ [] := by
  cases t with
  | nil => simp [blankPieces]
  | cons c r => simp only [blankPieces]; split <;> (try split) <;> simp

def words (t : Text) : List Text := (blankPieces t).filter (· ≠ [])

def cut? (t token : Text) : Option (Text × Text) :=
  match t with
  | [] => if token = [] then some ([], []) else none
  | c :: r =>
    if token.isPrefixOf (c :: r) then some ([], (c :: r).drop token.length)
    else (cut? r token).map fun p => (c :: p.1, p.2)

/-- What stands before and after the first occurrence of `token`, if it is on the first line. -/
def cutLine? (t token : Text) : Option (Text × Text) :=
  match t with
  | [] => if token = [] then some ([], []) else none
  | c :: r =>
    if token.isPrefixOf (c :: r) then some ([], (c :: r).drop token.length)
    else if c = '\n' then none
    else (cutLine? r token).map fun p => (c :: p.1, p.2)

theorem eq_append_of_cut? {token t before after : Text} (h : cut? t token = some (before, after)) :
    t = before ++ token ++ after := by
  induction t generalizing before with
  | nil =>
    simp only [cut?] at h
    split at h <;> simp_all
  | cons c r ih =>
    simp only [cut?] at h
    split at h
    case isTrue hp =>
      obtain ⟨s, hs⟩ := List.isPrefixOf_iff_prefix.mp hp
      simp only [Option.some.injEq, Prod.mk.injEq] at h
      obtain ⟨rfl, rfl⟩ := h
      simp [← hs]
    case isFalse =>
      obtain ⟨p, hp, hq⟩ := Option.map_eq_some_iff.mp h
      simp only [Prod.mk.injEq] at hq
      obtain ⟨rfl, rfl⟩ := hq
      simpa using ih hp

theorem eq_append_of_cutLine? {token t before after : Text}
    (h : cutLine? t token = some (before, after)) : t = before ++ token ++ after := by
  induction t generalizing before with
  | nil =>
    simp only [cutLine?] at h
    split at h <;> simp_all
  | cons c r ih =>
    simp only [cutLine?] at h
    split at h
    case isTrue hp =>
      obtain ⟨s, hs⟩ := List.isPrefixOf_iff_prefix.mp hp
      simp only [Option.some.injEq, Prod.mk.injEq] at h
      obtain ⟨rfl, rfl⟩ := h
      simp [← hs]
    case isFalse =>
      split at h
      · simp at h
      · obtain ⟨p, hp, hq⟩ := Option.map_eq_some_iff.mp h
        simp only [Prod.mk.injEq] at hq
        obtain ⟨rfl, rfl⟩ := hq
        simpa using ih hp

def orElse (t fallback : Text) : Text := if t = [] then fallback else t

@[simp] theorem orElse_nil (fallback : Text) : orElse [] fallback = fallback := rfl
@[simp] theorem orElse_cons (c : Char) (r fallback : Text) :
    orElse (c :: r) fallback = c :: r := rfl

def isSurrogate (n : Nat) : Bool := 0xd800 ≤ n && n ≤ 0xdfff

/-- Whether a code point is one of the surrogates that stand for a single byte in the name of a file
that is not UTF-8. -/
def isByteSurrogate (n : Nat) : Bool := 0xdc80 ≤ n && n ≤ 0xdcff

/-- Code points as a text, with a character in the place of every surrogate. -/
def ofPoints (standIn : Nat → Char) (points : List Nat) : Text :=
  points.map fun n => if isSurrogate n then standIn n else Char.ofNat n

/-- Line endings made uniform: a carriage return, alone or before a newline, becomes a newline. -/
def uniformLines : Text → Text
  | [] => []
  | '\r' :: '\n' :: r => '\n' :: uniformLines r
  | c :: r => (if c = '\r' then '\n' else c) :: uniformLines r

end Text
end Bulletin
