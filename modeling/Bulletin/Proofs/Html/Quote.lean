import Bulletin.Proofs.Html.Frame

/-! Quoted values. The sources of the two logos and the target of the call to action are written at
one place each, between the quotes of an attribute, and the rest of the document does not depend on
them. A written value holds no character that ends the quotes or a tag, and the value can be read
back from it. -/

namespace Bulletin.Html

/-! ### Reading a written value back -/

/-- The text of a written value: the five references of `escapeChar` decoded, in one pass from left
to right. -/
def unescape : Text → Text
  | '&' :: 'a' :: 'm' :: 'p' :: ';' :: r => '&' :: unescape r
  | '&' :: 'l' :: 't' :: ';' :: r => '<' :: unescape r
  | '&' :: 'g' :: 't' :: ';' :: r => '>' :: unescape r
  | '&' :: '#' :: '3' :: '9' :: ';' :: r => '\'' :: unescape r
  | '&' :: '#' :: '3' :: '4' :: ';' :: r => '"' :: unescape r
  | c :: r => c :: unescape r
  | [] => []

theorem unescape_cons {c : Char} (h : c ≠ '&') (r : Text) : unescape (c :: r) = c :: unescape r := by
  simp [unescape, h]

theorem unescape_escapeChar_append (c : Char) (r : Text) :
    unescape (escapeChar c ++ r) = c :: unescape r := by
  by_cases hamp : c = '&'
  · simp [hamp, escapeChar, unescape]
  by_cases hlt : c = '<'
  · simp [hlt, escapeChar, unescape]
  by_cases hgt : c = '>'
  · simp [hgt, escapeChar, unescape]
  by_cases hsingle : c = '\''
  · simp [hsingle, escapeChar, unescape]
  by_cases hdouble : c = '"'
  · simp [hdouble, escapeChar, unescape]
  · have hself : escapeChar c = [c] := by
      simp only [escapeChar, if_neg hamp, if_neg hlt, if_neg hgt, if_neg hsingle, if_neg hdouble]
    rw [hself, List.singleton_append, unescape_cons hamp]

theorem unescape_escape (t : Text) : unescape (escape t) = t := by
  induction t with
  | nil => rfl
  | cons c r ih => rw [escape_cons, unescape_escapeChar_append, ih]

/-! ### One value in a document -/

/-- The documents of the values that are shown differ in this value only: it is written after
`opening`, and a quote ends it. -/
def Quoted (opening : Text) (shown : Text → Prop) (document : Text → Text) : Prop :=
  ∃ before after, ∀ u, shown u → document u = before ++ opening ++ escape u ++ '"' :: after

theorem openTag_value (name key : String) (as bs : Attributes) (value : Text) :
    openTag name (as ++ (key, value) :: bs) =
      '<' :: name.toList ++ renderAttributes as ++ ' ' :: key.toList ++ ['=', '"'] ++
        escape value ++ '"' :: (renderAttributes bs ++ ['>']) := by
  simp [openTag, renderAttributes, renderAttribute]

/-- A node that quotes the value is shown at the same address in every page, and the rest of the
page is as it is for the value `v`. -/
theorem quoted_of_at {opening rest : Text} {shown : Text → Prop} {f : Text → Message}
    (address : Address) (node : Text → Node) (v : Text)
    (hat : ∀ u, shown u → (page (f u) (f u).content).at? address = some (node u) ∧
      (page (f u) (f u).content).before address = (page (f v) (f v).content).before address ∧
      (page (f u) (f u).content).after address = (page (f v) (f v).content).after address)
    (hnode : ∀ u, (node u).render = opening ++ escape u ++ '"' :: rest) :
    Quoted opening shown fun u => (f u).render := by
  refine ⟨Message.firstLine ++ (page (f v) (f v).content).before address,
    rest ++ (page (f v) (f v).content).after address ++ ['\n'], fun u hu => ?_⟩
  obtain ⟨hshown, hbefore, hafter⟩ := hat u hu
  have hrender : (f u).render =
      Message.firstLine ++ (page (f u) (f u).content).render ++ ['\n'] := rfl
  refine hrender.trans ?_
  rw [Node.render_at hshown, hnode, hbefore, hafter]
  simp only [List.append_assoc, List.cons_append]

theorem render_logo (identity source height : Text) : (logo identity source height).render =
    "<img id=\"".toList ++ escape identity ++ "\" src=\"".toList ++ escape source ++
      '"' :: (renderAttributes [("alt", []), ("height", height),
        ("style", "display: block; border: 0;")] ++ ['>']) := by
  have htag := openTag_value "img" "src" [("id", identity)] [("alt", []), ("height", height),
    ("style", "display: block; border: 0;")] source
  rw [logo, Node.render_void]
  exact htag.trans (by simp [renderAttributes, renderAttribute])

/-! ### The three addresses -/

def headerLogoAddress : Address := [3, 1, 1, 1, 1, 3, 1, 1]

def linkAddress : Address := [3, 1, 1, 1, 1, 13, 1, 1]

def footerLogoAddress (cta : CallToAction) : Address :=
  [3, 1, 1, 1, 1, if cta.text = [] then 13 else 17, 1, 1, 1, 1, 0]

theorem quoted_headerLogo (m : Message) : Quoted "<img id=\"header-logo\" src=\"" (· ≠ [])
    fun u => ({ m with headerLogo := u } : Message).render := by
  refine quoted_of_at headerLogoAddress (fun u => logo "header-logo" u "40") "x"
    (fun u hu => ?_) fun u => render_logo "header-logo" u "40"
  obtain ⟨c, r, rfl⟩ := List.exists_cons_of_ne_nil hu
  exact ⟨rfl, rfl, rfl⟩

theorem render_link (target content rules : Text) :
    (leaf "a" [("id", "cta"), ("href", target), ("style", rules)] content).render =
      "<a id=\"cta\" href=\"".toList ++ escape target ++
        '"' :: (renderAttributes (style rules) ++ ['>'] ++ content ++ closeTag "a") := by
  have htag := openTag_value "a" "href" [("id", "cta")] (style rules) target
  have hopening : '<' :: "a".toList ++ renderAttributes [("id", "cta")] ++ ' ' :: "href".toList ++
      ['=', '"'] = "<a id=\"cta\" href=\"".toList := by decide
  rw [hopening] at htag
  rw [leaf, Node.render_element]
  refine (congrArg (· ++ _ ++ _) htag).trans ?_
  simp [Node.render_text]

theorem quoted_link (m : Message) (h : m.cta.text ≠ []) :
    Quoted "<a id=\"cta\" href=\"" (fun _ => True)
      fun u => ({ m with cta := { m.cta with link := u } } : Message).render := by
  obtain ⟨body, output, headerLogo, title, headline, metric, defaults, ⟨text, link, description⟩,
    footer⟩ := m
  obtain ⟨c, r, rfl⟩ := List.exists_cons_of_ne_nil h
  exact quoted_of_at linkAddress _ "x" (fun u _ => ⟨rfl, rfl, rfl⟩)
    fun u => render_link u (c :: r) _

theorem quoted_footerLogo (m : Message) : Quoted "<img id=\"footer-logo\" src=\"" (· ≠ [])
    fun u => ({ m with footer := { m.footer with logo := u } } : Message).render := by
  obtain ⟨body, output, headerLogo, title, headline, metric, defaults, ⟨text, link, description⟩,
    footer⟩ := m
  refine quoted_of_at (footerLogoAddress ⟨text, link, description⟩)
    (fun u => logo "footer-logo" u "48") "x"
    (fun u hu => ?_) fun u => render_logo "footer-logo" u "48"
  obtain ⟨c, r, rfl⟩ := List.exists_cons_of_ne_nil hu
  cases text with
  | nil => exact ⟨rfl, rfl, rfl⟩
  | cons d t => exact ⟨rfl, rfl, rfl⟩

end Bulletin.Html

namespace Bulletin.Message
open Html

/-- Each of the three addresses of a message is written between the quotes of its own attribute, and
the rest of the document does not depend on it. What is written there ends neither the quotes nor a
tag, and it is read back as the address. -/
theorem render_quotes (m : Message) :
    Quoted "<img id=\"header-logo\" src=\"" (· ≠ [])
      (fun u => ({ m with headerLogo := u } : Message).render) ∧
    Quoted "<img id=\"footer-logo\" src=\"" (· ≠ [])
      (fun u => ({ m with footer := { m.footer with logo := u } } : Message).render) ∧
    (m.cta.text ≠ [] → Quoted "<a id=\"cta\" href=\"" (fun _ => True)
      fun u => ({ m with cta := { m.cta with link := u } } : Message).render) ∧
    ∀ u : Text, (∀ c ∈ escape u, c ≠ '"' ∧ c ≠ '\'' ∧ c ≠ '<' ∧ c ≠ '>') ∧ unescape (escape u) = u :=
  ⟨quoted_headerLogo m, quoted_footerLogo m, quoted_link m,
    fun u => ⟨fun c hc => escape_safe u c hc, unescape_escape u⟩⟩

/-- An address that would end its attribute and its tag, and one that is written already, in the
place of each other and of an empty target. -/
theorem render_quotes_hostile :
    let m : Message := { body := "Hi", cta := ⟨"Go", [], []⟩ }
    let u : Text := "\"><b onload='x'>"
    let v : Text := "&#34;&amp;#34;"
    u ≠ [] ∧ v ≠ [] ∧ m.cta.text ≠ [] ∧
      (∃ before after,
        ({ m with headerLogo := u } : Message).render =
          before ++ "&#34;&gt;&lt;b onload=&#39;x&#39;&gt;".toList ++ '"' :: after ∧
        ({ m with headerLogo := v } : Message).render =
          before ++ "&amp;#34;&amp;amp;#34;".toList ++ '"' :: after) ∧
      (∃ before after, ({ m with cta := { m.cta with link := v } } : Message).render =
          before ++ escape v ++ '"' :: after ∧ m.render = before ++ '"' :: after) ∧
      unescape "&amp;#34;&amp;amp;#34;" = v := by
  intro m u v
  obtain ⟨⟨before, after, hlogo⟩, -, hlink, hback⟩ := render_quotes m
  obtain ⟨start, rest, hlink⟩ := hlink (by decide)
  have hu : u ≠ [] := by decide
  have hv : v ≠ [] := by decide
  exact ⟨hu, hv, by decide, ⟨_, after, hlogo u hu, hlogo v hv⟩,
    ⟨_, rest, hlink v trivial, by simpa using hlink [] trivial⟩, (hback v).2⟩

end Bulletin.Message
