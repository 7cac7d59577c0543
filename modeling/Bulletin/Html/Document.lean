import Bulletin.Html.Fragment
import Bulletin.Html.PlainText
import Bulletin.Message.Load

/-! The document of a message: header, headline, body, call to action and footer in nested layout
tables. Logos, the call to action and its description are left out where they are empty. -/

namespace Bulletin.Html

def shownIf (condition : Text) (node : Node) : List Node := if condition = [] then [] else [node]

def head (title : Text) : Node :=
  block 0 "head" [] [
    .void "meta" [("charset", "utf-8")],
    .void "meta" [("name", "viewport"), ("content", "width=device-width, initial-scale=1")],
    leaf "title" [] (plainText title)]

def logo (identity source height : Text) : Node :=
  .void "img" [("id", identity), ("src", source), ("alt", []), ("height", height),
    ("style", "display: block; border: 0;")]

def headerRow (m : Message) : Node :=
  block 5 "tr" [] [
    block 6 "td" (style ("background-color: ".toList ++ Palette.magenta ++
        "; padding: 20px 30px;".toList)) (
      shownIf m.headerLogo (logo "header-logo" m.headerLogo "40") ++ [
      leaf "h1" [("id", "title"), ("style", "font-size: 28px; color: #ffffff; margin: 12px 0 0 0;")]
        m.title])]

def headlineRow (m : Message) : Node :=
  block 5 "tr" [] [
    block 6 "td" (style "padding: 30px 30px 0 30px;") [
      leaf "h2" [("id", "headline"), ("style", "font-size: 22px; color: ".toList ++
        Palette.darkMagenta ++ "; margin: 0 0 20px 0;".toList)] m.headline]]

def bodyRow (content : List Node) : Node :=
  block 5 "tr" [] [
    .element "td" [("id", "body"), ("style", "padding: 0 30px; line-height: 1.6;")] content]

def ctaRow (cta : CallToAction) : Node :=
  block 5 "tr" [] [
    block 6 "td" [("align", "center"), ("style", "padding: 20px 30px;")] (
      [leaf "a" [("id", "cta"), ("href", cta.link), ("style",
          "display: inline-block; background-color: ".toList ++ Palette.magenta ++
          "; color: #ffffff; font-weight: bold; text-decoration: none; padding: 12px 24px; border-radius: 6px;".toList)]
        cta.text] ++
      shownIf cta.description (leaf "p" [("id", "cta-description"),
        ("style", "font-size: 14px; color: #666666; margin: 12px 0 0 0;")] cta.description))]

def footerRow (f : Footer) : Node :=
  block 5 "tr" [] [
    block 6 "td" (style "padding: 20px 30px; border-top: 1px solid #e0e0e0;") [
      block 7 "table" (("role", "presentation") :: spacing) [
        block 8 "tr" [] (
          shownIf f.logo (.element "td" (style "padding-right: 12px;")
            [logo "footer-logo" f.logo "48"]) ++ [
          block 9 "td" (style "font-size: 14px; color: #333333;") [
            leaf "p" [("id", "footer-name"), ("style", "margin: 0; font-weight: bold;")] f.name,
            leaf "p" [("id", "footer-title"), ("style", "margin: 0;")] f.title,
            leaf "p" [("id", "footer-market"), ("style", "margin: 0; color: #666666;")]
              f.market]])]]]

/-- The rows of the document, with the given content in the place of the body. -/
def rows (m : Message) (content : List Node) : List Node :=
  [.comment "Header", headerRow m, headlineRow m, .comment "Body", bodyRow content] ++
    (if m.cta.text = [] then [] else [.comment "Call to Action", ctaRow m.cta]) ++
    [.comment "Footer", footerRow m.footer]

def page (m : Message) (content : List Node) : Node :=
  .element "html" [("lang", "en")] (stack 0 0 [
    head m.title,
    block 0 "body" (style "margin: 0; padding: 0; background-color: #f4f4f4;") [
      block 1 "table" (fullWidth ++ style "background-color: #f4f4f4;") [
        block 2 "tr" [] [
          block 3 "td" [("align", "center"), ("style", "padding: 20px 0;")] [
            block 4 "table" (layout "600" ++ style
                "background-color: #ffffff; font-family: Arial, sans-serif; font-size: 16px; color: #333333;")
              (rows m content)]]]]])

end Bulletin.Html

namespace Bulletin.Message

/-- The blocks of the message body, with the card of the message at every card line. -/
def content (m : Message) : List Html.Node :=
  Html.blocks (Html.card (m.metric.card m.defaults)) (Block.ofText m.body)

/-- The document of a message, which ends with one newline. -/
def render (m : Message) : Text :=
  "<!DOCTYPE html>\n".toList ++ (Html.page m m.content).render ++ ['\n']

/-- The document, if the title has a plain text. -/
def document? (m : Message) : Option Text := if Html.isReadable m.title then some m.render else none

theorem eq_render_of_document? {m : Message} {t : Text} (h : m.document? = some t) :
    t = m.render := by
  unfold document? at h
  split at h
  · exact (Option.some.inj h).symm
  · cases h

end Bulletin.Message
