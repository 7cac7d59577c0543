import Bulletin.Html.Document

/-! The frame of a document. A document is what is written up to the cell of its body, the markup of
its body, and what is written from the end of that cell on. The first part knows the header of the
message only, the last one only its call to action and its footer. They are found by the address of
the cell: an address leads from a node to one inside it, and the text of the outer node is what is
written before the inner one, the inner one, and what is written after it. -/

namespace Bulletin.Html

/-- The way to a node inside another, as the numbers of the children it leads through. -/
abbrev Address := List Nat

namespace Node

def at? : Node → Address → Option Node
  | x, [] => some x
  | .element _ _ children, i :: rest => children[i]?.bind fun child => child.at? rest
  | _, _ :: _ => none

def before : Node → Address → Text
  | .element name as children, i :: rest =>
    openTag name as ++ renderAll (children.take i) ++
      (children[i]?.elim [] fun child => child.before rest)
  | _, _ => []

def after : Node → Address → Text
  | .element name _ children, i :: rest =>
    (children[i]?.elim [] fun child => child.after rest) ++
      renderAll (children.drop (i + 1)) ++ closeTag name
  | _, _ => []

theorem render_at {x y : Node} {address : Address} (h : x.at? address = some y) :
    x.render = x.before address ++ y.render ++ x.after address := by
  induction address generalizing x with
  | nil =>
    obtain rfl : x = y := by simpa [at?] using h
    simp [before, after]
  | cons i rest ih =>
    cases x with
    | text _ => simp [at?] at h
    | comment _ => simp [at?] at h
    | void _ _ => simp [at?] at h
    | element name as children =>
      obtain ⟨child, hchild, h⟩ := Option.bind_eq_some_iff.mp h
      obtain ⟨hi, hget⟩ := List.getElem?_eq_some_iff.mp hchild
      have hsplit : children = children.take i ++ child :: children.drop (i + 1) := by
        rw [← hget, List.getElem_cons_drop, List.take_append_drop]
      have hall : renderAll children =
          renderAll (children.take i) ++ (child.render ++ renderAll (children.drop (i + 1))) := by
        rw [← renderAll_cons, ← renderAll_append, ← hsplit]
      simp [render_element, before, after, hchild, hall, ih h]

theorem after_element (name : String) (as : Attributes) (children : List Node) (i : Nat)
    (rest : Address) : ∃ t, (element name as children).after (i :: rest) = t ++ closeTag name :=
  ⟨_, rfl⟩

end Node

/-! ### The cell of the body -/

def bodyAttributes : Attributes :=
  [("id", "body"), ("style", "padding: 0 30px; line-height: 1.6;")]

/-- The address of the cell of the body in a page. Every second child is the line before a node. -/
def bodyAddress : Address := [3, 1, 1, 1, 1, 9, 1]

theorem page_at_body (m : Message) (content : List Node) :
    (page m content).at? bodyAddress = some (.element "td" bodyAttributes content) := rfl

theorem before_body (m : Message) (content : List Node) :
    (page m content).before bodyAddress =
      (page { body := [], headerLogo := m.headerLogo, title := m.title, headline := m.headline }
        []).before bodyAddress := rfl

theorem after_body (m : Message) (content : List Node) :
    (page m content).after bodyAddress =
      (page { body := [], cta := m.cta, footer := m.footer } []).after bodyAddress := rfl

end Bulletin.Html

namespace Bulletin.Message
open Html

def firstLine : Text := "<!DOCTYPE html>\n"

def upToBody (headerLogo title headline : Text) : Text :=
  firstLine ++ (page { body := [], headerLogo, title, headline } []).before bodyAddress ++
    openTag "td" bodyAttributes

def fromBody (cta : CallToAction) (footer : Footer) : Text :=
  closeTag "td" ++ (page { body := [], cta, footer } []).after bodyAddress ++ ['\n']

/-- A document is the markup of its body in a frame. -/
theorem render_frame (m : Message) : m.render =
    upToBody m.headerLogo m.title m.headline ++ renderBody m.body m.metric m.defaults ++
      fromBody m.cta m.footer := by
  have hcell : (Node.element "td" bodyAttributes m.content).render =
      openTag "td" bodyAttributes ++ renderBody m.body m.metric m.defaults ++ closeTag "td" :=
    Node.render_element _ _ _
  have hpage := Node.render_at (page_at_body m m.content)
  rw [hcell, before_body, after_body] at hpage
  have hrender : m.render = firstLine ++ (page m m.content).render ++ ['\n'] := rfl
  rw [hrender, hpage, upToBody, fromBody]
  simp only [List.append_assoc]

/-- The frame begins its last part with the end of the cell, and ends with one newline after the
end of the page. -/
theorem fromBody_ends (cta : CallToAction) (footer : Footer) :
    ∃ t, fromBody cta footer = "</td>".toList ++ t ++ "</html>\n".toList := by
  obtain ⟨t, ht⟩ : ∃ t, (page { body := [], cta, footer } []).after bodyAddress =
      t ++ closeTag "html" := Node.after_element _ _ _ _ _
  refine ⟨t, ?_⟩
  rw [fromBody, ht]
  simp [closeTag]

end Bulletin.Message
