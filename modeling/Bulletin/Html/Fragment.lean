import Bulletin.Card
import Bulletin.Html.Tree
import Bulletin.Markup

/-! The two fragments that stand in a document or by themselves: the markup of a metric card, and
that of a body text. A card is a table with the heading, the sections, a row for the code segment,
and a table for the closing list; a body is the markup of its blocks, one after the other. -/

namespace Bulletin.Html

def lineBreaks : Text → Text
  | [] => []
  | c :: r => (if c = '\n' then "<br>".toList else [c]) ++ lineBreaks r

@[simp] theorem lineBreaks_nil : lineBreaks [] = [] := rfl
@[simp] theorem lineBreaks_append (a b : Text) :
    lineBreaks (a ++ b) = lineBreaks a ++ lineBreaks b := by
  induction a with
  | nil => rfl
  | cons c r ih => simp [lineBreaks, ih]

/-- The attributes every layout table starts with. -/
def spacing : Attributes := [("cellspacing", "0"), ("cellpadding", "0"), ("border", "0")]

def layout (width : Text) : Attributes := ("role", "presentation") :: ("width", width) :: spacing

def fullWidth : Attributes := layout "100%"

/-- A bullet list whose items carry bold emphasis. -/
def bullets (listStyle itemStyle : Text) (items : List Text) : Node :=
  .element "ul" (style listStyle)
    (items.map fun item => leaf "li" (style itemStyle) (Emphasis.bold item))

def cardSection : Section → Node
  | .list items =>
    bullets "list-style-type: disc; margin: 0 0 10px 0; padding-left: 20px; font-size: 16px; color: #333333;"
      "margin: 0 0 4px 0;" items
  | .paragraph text =>
    leaf "p" (style "color: #333333; line-height: 1.6; margin: 0 0 10px 0; padding-left: 8px;")
      (lineBreaks (Emphasis.bold text))

/-- The row of the code segment; an empty row keeps its place where there is none. -/
def codeRow : Option Text → Node
  | some code =>
    block 4 "tr" [] [block 5 "td" (style "padding-top: 0;") [
      leaf "div" (style ("padding: 12px; background-color: ".toList ++ Palette.codePink ++
        "; border-radius: 8px; font-size: 14px; color: #312e81; font-family: monospace; word-wrap: break-word; margin-bottom: 10px;".toList))
        (lineBreaks code)]]
  | none => .element "tr" [] [.element "td" (style "padding-top: 0;") []]

def closingRows : Option ClosingList → List Node
  | none => []
  | some list => [
      .comment "SOCs List",
      block 3 "table" (fullWidth ++ style "padding-top: 10px;") [
        block 4 "tr" [] [block 5 "td" (style "font-family: Arial, sans-serif;") [
          leaf "p" (style "font-size: 16px; font-weight: bold; color: #333333; margin: 0 0 8px 0; padding-left: 8px;")
            list.title,
          bullets "list-style-type: disc; margin: 0; padding-left: 30px; font-size: 16px; color: #333333;"
            "font-weight: bold;" list.items]]]]

def card (c : Card) : Node :=
  block 0 "table" (fullWidth ++ style ("background-color: ".toList ++ Palette.lightPink ++
      "; border-left: 4px solid ".toList ++ Palette.magenta ++
      "; padding: 20px 20px 20px 25px; border-radius: 8px; margin: 20px 0; box-shadow: 0 4px 6px -1px rgba(0, 0, 0, 0.1), 0 2px 4px -2px rgba(0, 0, 0, 0.1);".toList)) [
    block 1 "tr" [] [
      block 2 "td" (style "font-family: Arial, sans-serif;") (
        [leaf "h2" (style ("font-size: 24px; font-weight: bold; color: ".toList ++
            Palette.darkMagenta ++
            "; margin-top: 0; margin-bottom: 12px; padding-left: 8px;".toList)) c.title,
          .comment "Main Description Content"] ++
        c.sections.map cardSection ++
        [.comment "Code Block (if present)", block 3 "table" fullWidth [codeRow c.code]] ++
        closingRows c.closing)]]

def renderCard (t : CardText) (fallback : CardText := .standard) : Text :=
  (card (t.card fallback)).render

/-! ### Bodies

Nothing stands between the blocks, and the card is the same wherever it stands. -/

def separator : Node :=
  .element "div" (style "margin: 20px 0; border-top: 1px solid #e0e0e0;") []

/-- The markup of a block, given the card that is shown at the card lines. -/
def ofBlock (shown : Node) : Block → Node
  | .card => shown
  | .separator => separator
  | .paragraph text => leaf "p" (style "margin: 0 0 15px 0;") (Emphasis.inline text)

def blocks (shown : Node) (bs : List Block) : List Node := bs.map (ofBlock shown)

def renderBody (body : Text) (t : CardText) (fallback : CardText := .standard) : Text :=
  renderAll (blocks (card (t.card fallback)) (Block.ofText body))

end Bulletin.Html
