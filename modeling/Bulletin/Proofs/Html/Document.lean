import Bulletin.Html.Document
import Bulletin.Proofs.Html.Body
import Bulletin.Proofs.Html.Nesting
import Bulletin.Proofs.Html.PlainText

/-! The document of a message. It depends on what it shows and on nothing else: on the card only if
a line of the body asks for it, and on the target of the call to action only if that has a text. The
layout around the author texts is well nested, so a document of plain texts is well nested exactly
where the emphasis in every paragraph of its body is. -/

namespace Bulletin

/-! ### What a document shows -/

/-- Messages that agree on what their documents show. -/
structure Message.SameShown (m m' : Message) : Prop where
  headerLogo : m.headerLogo = m'.headerLogo
  title : m.title = m'.title
  headline : m.headline = m'.headline
  ctaText : m.cta.text = m'.cta.text
  ctaRest : m.cta.text ≠ [] → m.cta.link = m'.cta.link ∧ m.cta.description = m'.cta.description
  footer : m.footer = m'.footer
  blocks : Block.ofText m.body = Block.ofText m'.body
  card : .card ∈ Block.ofText m.body → m.metric.card m.defaults = m'.metric.card m'.defaults

namespace Html

theorem blocks_congr {shown shown' : Node} {bs : List Block}
    (h : .card ∈ bs → shown = shown') : blocks shown bs = blocks shown' bs := by
  refine List.map_congr_left fun x hx => ?_
  cases x with
  | card => exact h hx
  | separator => rfl
  | paragraph t => rfl

theorem rows_congr {m m' : Message} (h : m.SameShown m') (content : List Node) :
    rows m content = rows m' content := by
  have hheader : headerRow m = headerRow m' := by simp only [headerRow, h.headerLogo, h.title]
  have hheadline : headlineRow m = headlineRow m' := by simp only [headlineRow, h.headline]
  have hcta : (if m.cta.text = [] then [] else [.comment "Call to Action", ctaRow m.cta]) =
      if m'.cta.text = [] then [] else [.comment "Call to Action", ctaRow m'.cta] := by
    by_cases hn : m.cta.text = []
    · rw [if_pos hn, if_pos (h.ctaText ▸ hn)]
    · obtain ⟨hlink, hdescription⟩ := h.ctaRest hn
      rw [if_neg hn, if_neg (h.ctaText ▸ hn)]
      simp only [ctaRow, h.ctaText, hlink, hdescription]
  rw [rows, rows, hheader, hheadline, hcta, h.footer]

theorem page_congr {m m' : Message} (h : m.SameShown m') (content : List Node) :
    page m content = page m' content := by
  rw [page, page, h.title, rows_congr h content]

end Html

namespace Message

theorem render_eq (m : Message) : m.render =
    "<!DOCTYPE html>\n".toList ++ (Html.page m m.content).render ++ ['\n'] := rfl

theorem content_congr {m m' : Message} (h : m.SameShown m') : m.content = m'.content := by
  rw [content, content, h.blocks]
  exact Html.blocks_congr fun hm => by rw [h.card (h.blocks ▸ hm)]

theorem render_congr {m m' : Message} (h : m.SameShown m') : m.render = m'.render := by
  rw [render_eq, render_eq, content_congr h, Html.page_congr h]

theorem render_output (m : Message) (output : Path) :
    ({ m with output } : Message).render = m.render :=
  render_congr ⟨rfl, rfl, rfl, rfl, fun _ => ⟨rfl, rfl⟩, rfl, rfl, fun _ => rfl⟩

/-- A document depends on what it shows and on nothing else. The output path is not shown, and the
texts of the card and its fallbacks are shown by the card lines alone. -/
theorem render_shows :
    (∀ m m' : Message, m.SameShown m' → m.render = m'.render) ∧
    (∀ (m : Message) (output : Path), ({ m with output } : Message).render = m.render) ∧
    ∀ (m : Message) (metric defaults : CardText), .card ∉ Block.ofText m.body →
      ({ m with metric, defaults } : Message).render = m.render := by
  refine ⟨fun m m' h => render_congr h, render_output, fun m metric defaults h => ?_⟩
  exact render_congr ⟨rfl, rfl, rfl, rfl, fun _ => ⟨rfl, rfl⟩, rfl, rfl, fun hm => absurd hm h⟩

/-- Messages with other card texts for the same card, another target of a call to action that has no
text, blank lines and another output; and a message without a card line. -/
theorem render_shows_same :
    let m : Message := { body := "Hi\n[METRIC_ATTACH_CARD]", cta := ⟨[], "a", "b"⟩ }
    let m' : Message :=
      { body := " Hi\n\n[METRIC_ATTACH_CARD]\t", output := .ofText "x",
        metric := ⟨"Metric Update", []⟩, defaults := ⟨"T", "Description not set."⟩,
        cta := ⟨[], [], "c"⟩ }
    let n : Message := { body := "[METRIC ATTACH CARD]" }
    m.SameShown m' ∧ m.render = m'.render ∧ .card ∉ Block.ofText n.body ∧
      ({ n with metric := ⟨"T", "D"⟩ } : Message).render = n.render := by
  intro m m' n
  have hsame : m.SameShown m' :=
    ⟨rfl, rfl, rfl, rfl, fun h => absurd rfl h, rfl, by decide, fun _ => by decide⟩
  have hnone : .card ∉ Block.ofText n.body := by decide
  exact ⟨hsame, render_shows.1 m m' hsame, hnone,
    render_shows.2.2 n ⟨"T", "D"⟩ n.defaults hnone⟩

end Message

/-! ### Nesting -/

/-- A message in whose shown texts no tag begins, and whose title has no character references. The
targets of logos and of the call to action are escaped, so they may be any text. -/
structure Message.PlainTexts (m : Message) : Prop where
  body : Html.Plain m.body
  metric : Html.Plain m.metric.title ∧ Html.Plain m.metric.description
  defaults : Html.Plain m.defaults.title ∧ Html.Plain m.defaults.description
  title : Html.Plain m.title
  headline : Html.Plain m.headline
  ctaText : Html.Plain m.cta.text
  ctaDescription : Html.Plain m.cta.description
  footerName : Html.Plain m.footer.name
  footerTitle : Html.Plain m.footer.title
  footerMarket : Html.Plain m.footer.market
  title_unreferenced : '&' ∉ m.title

namespace Html

theorem plain_plainText {t : Text} (h : Plain t) (hamp : '&' ∉ t) : Plain (plainText t) := by
  rw [plainText_of_unreferenced hamp, stripTags_eq_self h]
  exact fun hm => h ((mem_collapse_iff (by decide)).mp hm)

theorem nests_shownIf {condition : Text} {node : Node} (h : Nests node.render) :
    ∀ x ∈ shownIf condition node, Nests x.render := by
  intro x hx
  rw [shownIf] at hx
  split at hx
  · simp at hx
  · obtain rfl := List.mem_singleton.mp hx
    exact h

theorem nests_head {title : Text} (h : Plain title) (hamp : '&' ∉ title) :
    Nests (head title).render := by
  refine nests_block (isElement rfl) isAttributes_nil fun x hx => ?_
  simp only [List.mem_cons, List.not_mem_nil, or_false] at hx
  rcases hx with rfl | rfl | rfl
  · exact nests_void (by decide) (by decide) (isAttributes_cons (by decide) isAttributes_nil)
  · exact nests_void (by decide) (by decide)
      (isAttributes_cons (by decide) (isAttributes_cons (by decide) isAttributes_nil))
  · exact nests_leaf (isElement rfl) isAttributes_nil (plain_plainText h hamp).nests

theorem nests_logo (identity source height : Text) :
    Nests (logo identity source height).render :=
  nests_void (by decide) (by decide) (isAttributes_cons (by decide) (isAttributes_cons (by decide)
    (isAttributes_cons (by decide) (isAttributes_cons (by decide) (isAttributes_style _)))))

theorem nests_labelled {name : String} {identity rules content : Text} (h : IsElement name)
    (hc : Plain content) :
    Nests (leaf name [("id", identity), ("style", rules)] content).render :=
  nests_leaf h (isAttributes_cons (by decide) (isAttributes_style _)) hc.nests

variable {m : Message}

theorem nests_headerRow (h : m.PlainTexts) : Nests (headerRow m).render := by
  refine nestsIff_block_singleton (isElement rfl) isAttributes_nil ?_
  refine nests_block (isElement rfl) (isAttributes_style _) fun x hx => ?_
  rcases List.mem_append.mp hx with hx | hx
  · exact nests_shownIf (nests_logo _ _ _) x hx
  · obtain rfl := List.mem_singleton.mp hx
    exact nests_labelled (isElement rfl) h.title

theorem nests_headlineRow (h : m.PlainTexts) : Nests (headlineRow m).render := by
  refine nestsIff_block_singleton (isElement rfl) isAttributes_nil ?_
  refine nestsIff_block_singleton (isElement rfl) (isAttributes_style _) ?_
  exact nests_labelled (isElement rfl) h.headline

theorem nests_ctaRow (h : m.PlainTexts) : Nests (ctaRow m.cta).render := by
  refine nestsIff_block_singleton (isElement rfl) isAttributes_nil ?_
  refine nests_block (isElement rfl) (isAttributes_cons (by decide) (isAttributes_style _))
    fun x hx => ?_
  rcases List.mem_append.mp hx with hx | hx
  · obtain rfl := List.mem_singleton.mp hx
    exact nests_leaf (isElement rfl) (isAttributes_cons (by decide)
      (isAttributes_cons (by decide) (isAttributes_style _))) h.ctaText.nests
  · exact nests_shownIf (nests_labelled (isElement rfl) h.ctaDescription) x hx

theorem nests_footerRow (h : m.PlainTexts) : Nests (footerRow m.footer).render := by
  refine nestsIff_block_singleton (isElement rfl) isAttributes_nil ?_
  refine nestsIff_block_singleton (isElement rfl) (isAttributes_style _) ?_
  refine nestsIff_block_singleton (isElement rfl)
    (isAttributes_cons (by decide) (isAttributes_cons (by decide) (isAttributes_cons (by decide)
      (isAttributes_cons (by decide) isAttributes_nil)))) ?_
  refine nests_block (isElement rfl) isAttributes_nil fun x hx => ?_
  rcases List.mem_append.mp hx with hx | hx
  · refine nests_shownIf ?_ x hx
    refine nestsIff_element (isElement rfl) (isAttributes_style _) (nests_renderAll fun y hy => ?_)
    obtain rfl := List.mem_singleton.mp hy
    exact nests_logo _ _ _
  · obtain rfl := List.mem_singleton.mp hx
    refine nests_block (isElement rfl) (isAttributes_style _) fun y hy => ?_
    simp only [List.mem_cons, List.not_mem_nil, or_false] at hy
    rcases hy with rfl | rfl | rfl
    · exact nests_labelled (isElement rfl) h.footerName
    · exact nests_labelled (isElement rfl) h.footerTitle
    · exact nests_labelled (isElement rfl) h.footerMarket

/-- A table of the rows of a document nests exactly where the content of its body does. -/
theorem nestsIff_rows {P : Prop} {depth : Nat} {as : Attributes} {content : List Node}
    (h : m.PlainTexts) (ha : IsAttributes as) (hcontent : NestsIff P (renderAll content)) :
    NestsIff P (block depth "table" as (rows m content)).render := by
  have hsplit : rows m content =
      [.comment "Header", headerRow m, headlineRow m, .comment "Body"] ++ bodyRow content ::
        ((if m.cta.text = [] then [] else [.comment "Call to Action", ctaRow m.cta]) ++
          [.comment "Footer", footerRow m.footer]) := List.append_assoc _ _ _
  have hbody : NestsIff P (bodyRow content).render :=
    nestsIff_block_singleton (isElement rfl) isAttributes_nil
      (nestsIff_element (isElement rfl) (isAttributes_cons (by decide) (isAttributes_style _)) hcontent)
  rw [hsplit]
  refine nestsIff_block (isElement rfl) ha (fun x hx => ?_) hbody fun x hx => ?_
  · simp only [List.mem_cons, List.not_mem_nil, or_false] at hx
    rcases hx with rfl | rfl | rfl | rfl
    · exact nests_comment (by decide)
    · exact nests_headerRow h
    · exact nests_headlineRow h
    · exact nests_comment (by decide)
  · rcases List.mem_append.mp hx with hx | hx
    · split at hx
      · simp at hx
      · simp only [List.mem_cons, List.not_mem_nil, or_false] at hx
        rcases hx with rfl | rfl
        · exact nests_comment (by decide)
        · exact nests_ctaRow h
    · simp only [List.mem_cons, List.not_mem_nil, or_false] at hx
      rcases hx with rfl | rfl
      · exact nests_comment (by decide)
      · exact nests_footerRow h

theorem nestsIff_page {P : Prop} {content : List Node} (h : m.PlainTexts)
    (hcontent : NestsIff P (renderAll content)) : NestsIff P (page m content).render := by
  refine nestsIff_element (isElement rfl) (isAttributes_cons (by decide) isAttributes_nil) ?_
  refine @nestsIff_stack P 0 0 [head m.title] [] _ ?_ ?_ (by simp)
  · intro x hx
    obtain rfl := List.mem_singleton.mp hx
    exact nests_head h.title h.title_unreferenced
  · refine nestsIff_block_singleton (isElement rfl) (isAttributes_style _) ?_
    refine nestsIff_block_singleton (isElement rfl)
      ((isAttributes_layout _).append (isAttributes_style _)) ?_
    refine nestsIff_block_singleton (isElement rfl) isAttributes_nil ?_
    refine nestsIff_block_singleton (isElement rfl)
      (isAttributes_cons (by decide) (isAttributes_style _)) ?_
    exact nestsIff_rows h ((isAttributes_layout _).append (isAttributes_style _)) hcontent

theorem nestsIff_blocks {body : Text} {c : Card} (h : Plain body) (hc : PlainCard c) :
    NestsIff (∀ t, .paragraph t ∈ Block.ofText body → WellNested (Emphasis.inline t))
      (renderAll (blocks (card c) (Block.ofText body))) := by
  have hblock : ∀ x ∈ Block.ofText body,
      NestsIff (∀ t, x = .paragraph t → WellNested (Emphasis.inline t))
        (ofBlock (card c) x).render := by
    intro x hx
    cases x with
    | card => exact (nests_card hc).congr (by simp)
    | separator =>
      have hrule : Nests separator.render :=
        nestsIff_element (isElement rfl) (isAttributes_style _) (nests_renderAll (by simp))
      exact hrule.congr (by simp)
    | paragraph t =>
      have ht : Plain t := fun hm => h (Block.mem_of_mem_paragraph hx hm)
      have hleaf : NestsIff (WellNested (Emphasis.inline t))
          (ofBlock (card c) (.paragraph t)).render :=
        nestsIff_leaf (isElement rfl) (isAttributes_style _) (by decide) ht.marked_inline
      exact hleaf.congr (by simp)
  refine (nestsIff_renderAll hblock).congr ⟨fun hall t ht => hall _ ht t rfl, ?_⟩
  rintro hall x hx t rfl
  exact hall t hx

end Html

namespace Message

theorem nestsIff_render {m : Message} (h : m.PlainTexts) :
    Html.NestsIff (∀ t, .paragraph t ∈ Block.ofText m.body → Html.WellNested (Emphasis.inline t))
      m.render := by
  have hcard : Html.PlainCard (m.metric.card m.defaults) :=
    Html.plainCard_card h.metric.1 h.metric.2 h.defaults.1 h.defaults.2
  have hpage := Html.nestsIff_page h (Html.nestsIff_blocks h.body hcard)
  have hdoctype : Html.Nests "<!DOCTYPE html>\n" := by
    have htag : Html.Reads "<!DOCTYPE html>" [] :=
      Html.reads_tag (a := "!DOCTYPE html") (by decide) (by decide)
    exact Html.nests_of_reads (htag.append (Html.reads_char (c := '\n') (by decide)))
  have hend : Html.Nests ['\n'] := Html.nests_char (by decide)
  rw [render_eq]
  exact ((Html.NestsIff.append hdoctype hpage).append hend).congr (by simp)

/-- The markup of a card of plain texts is well nested, and so is the document of a message of plain
texts exactly where the emphasis in every paragraph of its body is. -/
theorem wellNested_render :
    (∀ t fallback : CardText, Html.Plain t.title → Html.Plain t.description →
      Html.Plain fallback.title → Html.Plain fallback.description →
      Html.WellNested (Html.renderCard t fallback)) ∧
    ∀ m : Message, m.PlainTexts →
      (Html.WellNested m.render ↔
        ∀ t, .paragraph t ∈ Block.ofText m.body → Html.WellNested (Emphasis.inline t)) ∧
      ('*' ∉ m.body → Html.WellNested m.render) := by
  refine ⟨fun t fallback ht hd ht' hd' => ?_, fun m h => ?_⟩
  · exact (Html.nests_card (Html.plainCard_card ht hd ht' hd')).wellNested
  · have hiff := (nestsIff_render h).wellNested_iff
    refine ⟨hiff, fun hstar => hiff.mpr fun t ht => ?_⟩
    -- a paragraph without an asterisk is its own markup
    have hunmarked : '*' ∉ t := fun hm => hstar (Block.mem_of_mem_paragraph ht hm)
    have hplain : Html.Plain t := fun hm => h.body (Block.mem_of_mem_paragraph ht hm)
    have hbold : Emphasis.bold t = t :=
      Marker.apply_of_unmarked Html.inline_bold.token_ne_nil (by
        simpa [Marker.bold] using hunmarked)
    have hitalic : Marker.italic.apply t = t :=
      Marker.apply_of_unmarked Html.inline_italic.token_ne_nil (by
        simpa [Marker.italic] using hunmarked)
    rw [Emphasis.inline, hbold, hitalic]
    exact hplain.nests.wellNested

/-- A card with a list, code and emphasis over a line end; a document whose only paragraph has
emphasis that overlaps, and one without emphasis whose targets hold tags. -/
theorem wellNested_render_overlap :
    let t : CardText := ⟨"T", "a **b | c** d\n\n**e\nf**\n\n[CODE]x > y[/CODE]\n\nS: p | q"⟩
    let m : Message := { body := "**a*b**c*" }
    let n : Message :=
      { body := "a > b\n---", headerLogo := "\"><b>", cta := ⟨"Go", "</a>", []⟩ }
    Html.WellNested (Html.renderCard t) ∧ m.PlainTexts ∧ ¬ Html.WellNested m.render ∧
      n.PlainTexts ∧ Html.WellNested n.render := by
  intro t m n
  have hm : m.PlainTexts := ⟨by decide, by decide, by decide, by decide, by decide, by decide,
    by decide, by decide, by decide, by decide, by decide⟩
  have hn : n.PlainTexts := ⟨by decide, by decide, by decide, by decide, by decide, by decide,
    by decide, by decide, by decide, by decide, by decide⟩
  obtain ⟨hcard, hdocument⟩ := wellNested_render
  refine ⟨hcard t .standard (by decide) (by decide) (by decide) (by decide), hm, fun h => ?_, hn,
    (hdocument n hn).2 (by decide)⟩
  have hoverlap : ¬ Html.WellNested (Emphasis.inline "**a*b**c*") := by decide
  exact hoverlap ((hdocument m hm).1.mp h _ (by decide))

end Message
end Bulletin
