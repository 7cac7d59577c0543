import Bulletin.Text.Basic

/-! The markup of author text. A body has one block for each line that is not empty after trimming:
a line that is exactly the card token or the rule token stands for a card or a rule, and every other
line is a paragraph. Within texts, a span between two asterisk markers on one line becomes bold or
italic. -/

namespace Bulletin

/-- One line of the body. -/
inductive Block where
  | paragraph (text : Text)
  | separator
  | card
deriving DecidableEq, Repr

namespace Block

/-- The line at whose place the metric card is shown. -/
def cardToken : Text := "[METRIC_ATTACH_CARD]"

def separatorToken : Text := "---"

/-- The block of a line; a blank line has none. -/
def ofLine? (line : Text) : Option Block :=
  let t := line.trim
  if t = cardToken then some .card
  else if t = [] then none
  else if t = separatorToken then some .separator
  else some (.paragraph t)

@[simp] theorem ofLine?_nil : ofLine? [] = none := by decide

def ofText (body : Text) : List Block := body.lines.filterMap ofLine?

@[simp] theorem ofText_nil : ofText [] = [] := by decide

end Block
/-! ### Emphasis

A pass keeps a marker without a partner on its line as it is. Author text is trusted, so nothing is
escaped. -/

/-- A pair of equal markers in author text and the tags that replace them. -/
structure Marker where
  token : Text
  opening : Text
  closing : Text

namespace Marker

def bold : Marker := ⟨"**", "<b>", "</b>"⟩
def italic : Marker := ⟨"*", "<i>", "</i>"⟩

/-- The text between a marker at the start of `t` and the next marker on the same line. -/
def span? (m : Marker) (t : Text) : Option Text :=
  if m.token.isPrefixOf t then (Text.cutLine? (t.drop m.token.length) m.token).map (·.1) else none

/-- One pass from left to right. The count says how many characters belong to a span that is
already written. -/
def pass (m : Marker) : Nat → Text → Text
  | _, [] => []
  | written + 1, _ :: r => m.pass written r
  | 0, c :: r =>
    match m.span? (c :: r) with
    | some inner =>
      m.opening ++ inner ++ m.closing ++ m.pass (inner.length + 2 * m.token.length - 1) r
    | none => c :: m.pass 0 r

@[simp] theorem pass_nil (m : Marker) (n : Nat) : m.pass n [] = [] := by cases n <;> rfl
theorem pass_skip (m : Marker) (n : Nat) (t : Text) : m.pass n t = m.pass 0 (t.drop n) := by
  induction t generalizing n with
  | nil => simp
  | cons c r ih => cases n with
    | zero => rfl
    | succ n => simp [pass, ih]

/-- Every shortest span between two markers on one line, tagged. -/
def apply (m : Marker) (t : Text) : Text := m.pass 0 t

end Marker

namespace Emphasis

def bold (t : Text) : Text := Marker.bold.apply t

/-- Bold emphasis, then italic emphasis over the result. -/
def inline (t : Text) : Text := Marker.italic.apply (bold t)

@[simp] theorem bold_nil : bold [] = [] := rfl
@[simp] theorem inline_nil : inline [] = [] := rfl

end Emphasis
end Bulletin
