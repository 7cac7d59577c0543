import Bulletin.Text.Basic

/-! Markup as a tree of elements. `render` is the only place where a tree becomes text: attribute
values are escaped there, and text nodes are written as they are, because author text is trusted
markup. -/

namespace Bulletin.Html.Palette

/-! ### The colours of the brand, as they are written in style attributes -/

def magenta : Text := "#e20074"
def darkMagenta : Text := "#A3005A"
def lightPink : Text := "#fcf4f9"
def codePink : Text := "#FADDE7"

end Bulletin.Html.Palette

namespace Bulletin.Html

/-! ### Escaping for attribute values

The five characters that end or alter a quoted value are written as character references; every
other character stands for itself. -/

def escapeChar (c : Char) : Text :=
  if c = '&' then "&amp;"
  else if c = '<' then "&lt;"
  else if c = '>' then "&gt;"
  else if c = '\'' then "&#39;"
  else if c = '"' then "&#34;"
  else [c]

def escape (t : Text) : Text := t.flatMap escapeChar

@[simp] theorem escape_nil : escape [] = [] := rfl
@[simp] theorem escape_cons (c : Char) (r : Text) :
    escape (c :: r) = escapeChar c ++ escape r := rfl
@[simp] theorem escape_append (a b : Text) : escape (a ++ b) = escape a ++ escape b := by
  simp [escape]

/-- No character of a written form can end a quoted value or a tag. -/
theorem escapeChar_safe (c : Char) :
    ∀ x ∈ escapeChar c, x ≠ '"' ∧ x ≠ '\'' ∧ x ≠ '<' ∧ x ≠ '>' := by
  by_cases hc : c = '&' ∨ c = '<' ∨ c = '>' ∨ c = '\'' ∨ c = '"'
  · rcases hc with rfl | rfl | rfl | rfl | rfl <;> decide
  · simp only [not_or] at hc
    obtain ⟨hamp, hlt, hgt, hsingle, hdouble⟩ := hc
    simp [escapeChar, hamp, hlt, hgt, hsingle, hdouble]

theorem escape_safe (t : Text) (x : Char) (h : x ∈ escape t) :
    x ≠ '"' ∧ x ≠ '\'' ∧ x ≠ '<' ∧ x ≠ '>' := by
  obtain ⟨c, -, hx⟩ := List.mem_flatMap.mp h
  exact escapeChar_safe c x hx

/-! ### Nodes -/

abbrev Attributes := List (String × Text)

/-- A piece of markup. A void element has neither content nor a closing tag. -/
inductive Node where
  | text (content : Text)
  | comment (content : Text)
  | void (name : String) (attributes : Attributes)
  | element (name : String) (attributes : Attributes) (children : List Node)

def style (rules : Text) : Attributes := [("style", rules)]

def renderAttribute (a : String × Text) : Text :=
  ' ' :: a.1.toList ++ ['=', '"'] ++ escape a.2 ++ ['"']

def renderAttributes (as : Attributes) : Text := as.flatMap renderAttribute

def openTag (name : String) (as : Attributes) : Text :=
  '<' :: name.toList ++ renderAttributes as ++ ['>']

def closeTag (name : String) : Text := ['<', '/'] ++ name.toList ++ ['>']

mutual
def Node.render : Node → Text
  | .text content => content
  | .comment content => "<!-- ".toList ++ content ++ " -->".toList
  | .void name as => openTag name as
  | .element name as children => openTag name as ++ renderAll children ++ closeTag name

def renderAll : List Node → Text
  | [] => []
  | x :: xs => x.render ++ renderAll xs
end

@[simp] theorem renderAll_nil : renderAll [] = [] := rfl
@[simp] theorem renderAll_cons (x : Node) (xs : List Node) :
    renderAll (x :: xs) = x.render ++ renderAll xs := rfl
@[simp] theorem renderAll_append (xs ys : List Node) :
    renderAll (xs ++ ys) = renderAll xs ++ renderAll ys := by
  induction xs with
  | nil => simp
  | cons x xs ih => simp [ih]

theorem Node.render_text (content : Text) : (Node.text content).render = content := rfl
theorem Node.render_comment (content : Text) :
    (Node.comment content).render = "<!-- ".toList ++ content ++ " -->".toList := rfl
theorem Node.render_void (name : String) (as : Attributes) :
    (Node.void name as).render = openTag name as := rfl
theorem Node.render_element (name : String) (as : Attributes) (children : List Node) :
    (Node.element name as children).render =
      openTag name as ++ renderAll children ++ closeTag name := rfl

/-- A newline and the indentation of a line at `depth`. -/
def newline (depth : Nat) : Node := .text ('\n' :: List.replicate (4 * depth) ' ')

/-- Each node on a line of its own at `depth`, and the start of the line after them at `outer`. -/
def stack (depth outer : Nat) (xs : List Node) : List Node :=
  xs.flatMap (fun x => [newline depth, x]) ++ [newline outer]

/-- An element at `depth` whose children stand on lines of their own, one step further in. -/
def block (depth : Nat) (name : String) (as : Attributes) (children : List Node) : Node :=
  .element name as (stack (depth + 1) depth children)

def leaf (name : String) (as : Attributes) (content : Text) : Node :=
  .element name as [.text content]

end Bulletin.Html
