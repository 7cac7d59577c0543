import Bulletin.Proofs.Card.LineEnding
import Bulletin.Proofs.Pairing
import Bulletin.Proofs.Html.Line
import Mathlib.Data.List.Forall2

/-! Markup of texts with line endings of two characters. Emphasis leaves a carriage return at the
end of its line, and nothing else in the markup of a text looks at it; so the markup of a body and
of its card differs from the markup with plain newlines in the carriage returns only. -/

namespace Bulletin

/-! ### Emphasis -/

namespace Marker
open Text

variable {mk : Marker}

theorem Single.concat {x : Char} {t : Text} (hne : mk.token ≠ []) (hx : x ∉ mk.token)
    (h : mk.Single t) : mk.Single (t ++ [x]) := by
  intro u inner after heq
  rcases List.eq_nil_or_concat after with rfl | ⟨after, y, rfl⟩
  · obtain ⟨z, hz⟩ : ∃ z, mk.token.getLast? = some z := ⟨_, List.getLast?_eq_some_getLast hne⟩
    have hlast := congrArg List.getLast? heq
    obtain rfl : x = z := by simpa [List.getLast?_append, hz] using hlast
    exact hx (List.mem_of_getLast? hz)
  · have heq' : t ++ [x] = u ++ (mk.token ++ (inner ++ (mk.token ++ after))) ++ [y] := by simp [heq]
    exact h u inner after (List.append_inj_left' heq' rfl)

theorem apply_concat (hmk : mk.OneLine) {x : Char} (hx : x ∉ mk.token) (hn : x ≠ '\n') {l : Text}
    (hl : '\n' ∉ l) : mk.apply (l ++ [x]) = mk.apply l ++ [x] := by
  refine pairing_induction hmk (P := fun l => mk.apply (l ++ [x]) = mk.apply l ++ [x])
    ?single ?pair hl
  case single =>
    intro l _ h
    rw [apply_of_single h, apply_of_single (h.concat hmk.token_ne_nil hx)]
  case pair =>
    intro l a r b s hl h hr ih
    have hline : '\n' ∉ l ++ [x] := by simp [hl, Ne.symm hn]
    rw [apply_of_cut? hmk hl h hr,
      apply_of_cut? hmk hline (cut?_append_right h [x]) (cut?_append_right hr [x]), ih]
    simp only [List.append_assoc]

theorem apply_crlf (hmk : mk.OneLine) (hr : '\r' ∉ mk.token) (t : Text) :
    mk.apply (crlf t) = crlf (mk.apply t) := by
  induction t using split_induction '\n' with
  | piece a ha => rw [crlf_of_line ha, crlf_of_line (line_apply hmk ha)]
  | cut a b ha ih =>
    have hend : '\n' ∉ a ++ ['\r'] := by simp [ha]
    calc mk.apply (crlf (a ++ '\n' :: b)) = mk.apply (a ++ ['\r'] ++ '\n' :: crlf b) := by
          rw [crlf_append_newline b ha]
      _ = mk.apply a ++ ['\r'] ++ '\n' :: crlf (mk.apply b) := by
          rw [apply_append_newline hmk _ hend, apply_concat hmk hr (by decide) ha, ih]
      _ = crlf (mk.apply (a ++ '\n' :: b)) := by
          rw [apply_append_newline hmk b ha, crlf_append_newline _ (line_apply hmk ha)]

end Marker

/-! ### Markup -/

namespace Html
open Text

theorem dropReturns_lineBreaks (t : Text) :
    dropReturns (lineBreaks t) = lineBreaks (dropReturns t) := by
  induction t with
  | nil => rfl
  | cons c t ih =>
    by_cases hn : c = '\n'
    · simp_all [lineBreaks, dropReturns]
    by_cases hr : c = '\r'
    · simp_all [lineBreaks, dropReturns]
    · simp_all [lineBreaks, dropReturns]

/-- The markup of `y` is that of `x` without its carriage returns. -/
def Drops (x y : Node) : Prop := dropReturns x.render = y.render

theorem drops_self_iff {x : Node} : Drops x x ↔ '\r' ∉ x.render := dropReturns_eq_self_iff

theorem Drops.right {x y : Node} (h : Drops x y) : Drops y y :=
  drops_self_iff.mpr (h ▸ return_notMem_dropReturns x.render)

theorem dropReturns_renderAll {xs ys : List Node} (h : List.Forall₂ Drops xs ys) :
    dropReturns (renderAll xs) = renderAll ys := by
  induction h with
  | nil => simp [dropReturns]
  | cons hx _ ih => rw [renderAll_cons, renderAll_cons, dropReturns_append, hx, ih]

def Unreturned (as : Attributes) : Prop := ∀ a ∈ as, '\r' ∉ a.1.toList ∧ '\r' ∉ a.2

variable {name : String} {as bs : Attributes} {xs ys : List Node}

theorem unreturned_nil : Unreturned [] := by simp [Unreturned]

theorem unreturned_style {rules : Text} (h : '\r' ∉ rules) : Unreturned (style rules) := by
  simpa [Unreturned, style] using h

theorem return_notMem_toList {l : List Char} (h : '\r' ∉ l) : '\r' ∉ (String.ofList l).toList := by
  rwa [String.toList_ofList]

theorem unreturned_rules {l : List Char} (h : '\r' ∉ l) :
    Unreturned (style (String.ofList l).toList) :=
  unreturned_style (return_notMem_toList h)

theorem Unreturned.append (ha : Unreturned as) (hb : Unreturned bs) : Unreturned (as ++ bs) :=
  fun a hm => (List.mem_append.mp hm).elim (ha a) (hb a)

theorem unreturned_fullWidth : Unreturned fullWidth := by
  simp [Unreturned, fullWidth, layout, spacing]

theorem return_notMem_escape {t : Text} (h : '\r' ∉ t) : '\r' ∉ escape t := by
  intro hm
  obtain ⟨c, hc, hm⟩ := List.mem_flatMap.mp hm
  have hself : c = '\r' := by
    by_contra hne
    unfold escapeChar at hm
    split_ifs at hm <;> simp [Ne.symm hne] at hm
  exact h (hself ▸ hc)

theorem return_notMem_openTag (hname : '\r' ∉ name.toList) (has : Unreturned as) :
    '\r' ∉ openTag name as := by
  have hvalues : '\r' ∉ renderAttributes as := by
    intro hm
    obtain ⟨a, ha, hm⟩ := List.mem_flatMap.mp hm
    simp [renderAttribute, has a ha, return_notMem_escape (has a ha).2] at hm
  simp [openTag, hname, hvalues]

theorem drops_element (hname : '\r' ∉ name.toList) (has : Unreturned as)
    (h : List.Forall₂ Drops xs ys) : Drops (.element name as xs) (.element name as ys) := by
  have hclosing : '\r' ∉ closeTag name := by simp [closeTag, hname]
  rw [Drops, Node.render_element, Node.render_element, dropReturns_append, dropReturns_append,
    dropReturns_eq_self_iff.mpr (return_notMem_openTag hname has),
    dropReturns_eq_self_iff.mpr hclosing, dropReturns_renderAll h]

theorem drops_leaf {m n : Text} (hname : '\r' ∉ name.toList) (has : Unreturned as)
    (h : dropReturns m = n) : Drops (leaf name as m) (leaf name as n) := by
  have htext : Drops (.text m) (.text n) := by rw [Drops, Node.render_text, Node.render_text, h]
  exact drops_element hname has (.cons htext .nil)

theorem drops_comment {content : Text} (h : '\r' ∉ content) :
    Drops (.comment content) (.comment content) := by
  rw [drops_self_iff, Node.render_comment]
  simp [h]

theorem drops_newline (depth : Nat) : Drops (newline depth) (newline depth) := by
  rw [drops_self_iff, newline, Node.render_text]
  simp

theorem drops_stack (depth outer : Nat) (h : List.Forall₂ Drops xs ys) :
    List.Forall₂ Drops (stack depth outer xs) (stack depth outer ys) := by
  induction h with
  | nil => exact .cons (drops_newline outer) .nil
  | cons hx _ ih => exact .cons (drops_newline depth) (.cons hx ih)

theorem drops_block (depth : Nat) (hname : '\r' ∉ name.toList) (has : Unreturned as)
    (h : List.Forall₂ Drops xs ys) : Drops (block depth name as xs) (block depth name as ys) :=
  drops_element hname has (drops_stack (depth + 1) depth h)

theorem drops_map {α : Type} {f g : α → Node} {zs : List α} (h : ∀ z ∈ zs, Drops (f z) (g z)) :
    List.Forall₂ Drops (zs.map f) (zs.map g) := by
  rw [List.forall₂_map_left_iff, List.forall₂_map_right_iff, List.forall₂_same]
  exact h

/-! ### The card -/

theorem return_notMem_bold {t : Text} (h : '\r' ∉ t) : '\r' ∉ Emphasis.bold t :=
  Marker.notMem_apply (by decide) (by decide) (by decide) h

theorem dropReturns_bold_crlf {t : Text} (h : '\r' ∉ t) :
    dropReturns (Emphasis.bold (crlf t)) = Emphasis.bold t := by
  have hbold : Emphasis.bold (crlf t) = crlf (Emphasis.bold t) :=
    Marker.apply_crlf Marker.oneLine_bold (by decide) t
  rw [hbold, dropReturns_crlf (return_notMem_bold h)]

theorem drops_bullets {listStyle itemStyle : Text} {xs : List Text} (hlist : '\r' ∉ listStyle)
    (hitem : '\r' ∉ itemStyle) (h : ∀ x ∈ xs, '\r' ∉ x) :
    Drops (bullets listStyle itemStyle (xs.map crlf)) (bullets listStyle itemStyle xs) := by
  rw [bullets, List.map_map]
  refine drops_element (by decide) (unreturned_style hlist) (drops_map fun x hx => ?_)
  exact drops_leaf (by decide) (unreturned_style hitem) (dropReturns_bold_crlf (h x hx))

theorem drops_cardSection {s : Section} (h : ∀ x ∈ s.texts, '\r' ∉ x) :
    Drops (cardSection (s.map crlf)) (cardSection s) := by
  cases s with
  | list xs =>
    exact drops_bullets (return_notMem_toList (by decide)) (return_notMem_toList (by decide)) h
  | paragraph t =>
    refine drops_leaf (by decide) (unreturned_rules (by decide)) ?_
    rw [dropReturns_lineBreaks, dropReturns_bold_crlf (h t (by simp [Section.texts]))]

set_option maxRecDepth 1000 in
theorem drops_codeRow {code : Option Text} (h : ∀ x ∈ code, '\r' ∉ x) :
    Drops (codeRow (code.map crlf)) (codeRow code) := by
  have hcell : Unreturned (style "padding-top: 0;") := unreturned_rules (by decide)
  cases code with
  | none =>
    refine drops_element (by decide) unreturned_nil (.cons ?_ .nil)
    exact drops_element (by decide) hcell .nil
  | some x =>
    refine drops_block 4 (by decide) unreturned_nil (.cons ?_ .nil)
    refine drops_block 5 (by decide) hcell (.cons ?_ .nil)
    refine drops_leaf (by decide) (unreturned_style ?_) ?_
    · simp only [List.mem_append, not_or]
      refine ⟨⟨?_, by decide⟩, ?_⟩ <;> exact return_notMem_toList (by decide)
    · rw [dropReturns_lineBreaks, dropReturns_crlf (h x rfl)]

theorem drops_closingRows {closing : Option ClosingList}
    (h : ∀ l, closing = some l → '\r' ∉ l.title ∧ ∀ x ∈ l.items, '\r' ∉ x) :
    List.Forall₂ Drops (closingRows (closing.map (ClosingList.map crlf))) (closingRows closing) := by
  cases closing with
  | none => exact .nil
  | some l =>
    obtain ⟨htitle, hitems⟩ := h l rfl
    have htable : Unreturned (fullWidth ++ style "padding-top: 10px;") :=
      unreturned_fullWidth.append (unreturned_rules (by decide))
    have hcell : Unreturned (style "font-family: Arial, sans-serif;") := unreturned_rules (by decide)
    refine .cons (drops_comment (by decide)) (.cons ?_ .nil)
    refine drops_block 3 (by decide) htable (.cons ?_ .nil)
    refine drops_block 4 (by decide) unreturned_nil (.cons ?_ .nil)
    refine drops_block 5 (by decide) hcell (.cons ?_ (.cons ?_ .nil))
    · exact drops_leaf (by decide) (unreturned_rules (by decide))
        (dropReturns_eq_self_iff.mpr htitle)
    · exact drops_bullets (return_notMem_toList (by decide)) (return_notMem_toList (by decide)) hitems

set_option maxRecDepth 1000 in
theorem drops_card {c : Card} (h : ∀ x ∈ c.texts, '\r' ∉ x) :
    Drops (card (c.map crlf)) (card c) := by
  simp only [Card.mem_texts_iff] at h
  have hsections : List.Forall₂ Drops ((c.sections.map (Section.map crlf)).map cardSection)
      (c.sections.map cardSection) := by
    rw [List.map_map]
    exact drops_map fun s hs => drops_cardSection fun x hx => h x (Or.inr (Or.inl ⟨s, hs, hx⟩))
  have hcode := drops_codeRow fun x hx => h x (Or.inr (Or.inr (Or.inl hx)))
  have hclosing := drops_closingRows fun l hl =>
    ⟨h _ (Or.inr (Or.inr (Or.inr ⟨l, hl, Or.inl rfl⟩))),
      fun x hx => h x (Or.inr (Or.inr (Or.inr ⟨l, hl, Or.inr hx⟩)))⟩
  have htitle : dropReturns c.title = c.title := dropReturns_eq_self_iff.mpr (h _ (Or.inl rfl))
  refine drops_block 0 (by decide) (unreturned_fullWidth.append (unreturned_style ?frame))
    (.cons ?_ .nil)
  case frame =>
    simp only [List.mem_append, not_or]
    refine ⟨⟨⟨⟨?_, by decide⟩, ?_⟩, by decide⟩, ?_⟩ <;>
      exact return_notMem_toList (by decide)
  refine drops_block 1 (by decide) unreturned_nil (.cons ?_ .nil)
  refine drops_block 2 (by decide) (unreturned_rules (by decide)) ?_
  -- the sections stand between the heading and the code, and the closing list after them
  refine List.rel_append (List.rel_append (List.rel_append ?heading hsections) ?code) hclosing
  case heading =>
    refine .cons (drops_leaf (by decide) (unreturned_style ?_) htitle)
      (.cons (drops_comment (return_notMem_toList (by decide))) .nil)
    simp only [List.mem_append, not_or]
    refine ⟨⟨?_, by decide⟩, ?_⟩ <;> exact return_notMem_toList (by decide)
  case code =>
    refine .cons (drops_comment (return_notMem_toList (by decide))) (.cons ?_ .nil)
    exact drops_block 3 (by decide) unreturned_fullWidth (.cons hcode .nil)

/-! ### The body -/

theorem return_notMem_inline {t : Text} (h : '\r' ∉ t) : '\r' ∉ Emphasis.inline t :=
  Marker.notMem_apply (by decide) (by decide) (by decide) (return_notMem_bold h)

theorem drops_ofBlock {shown shown' : Node} (hshown : Drops shown shown') {x : Block}
    (h : ∀ t, x = .paragraph t → '\r' ∉ t) : Drops (ofBlock shown x) (ofBlock shown' x) := by
  cases x with
  | paragraph t =>
    exact drops_leaf (by decide) (unreturned_rules (by decide))
      (dropReturns_eq_self_iff.mpr (return_notMem_inline (h t rfl)))
  | separator =>
    exact drops_element (by decide) (unreturned_rules (by decide)) .nil
  | card => exact hshown

theorem drops_card_crlf {title d : Text} {fallback : CardText} (ht : '\r' ∉ title) (hd : '\r' ∉ d)
    (ht' : '\r' ∉ fallback.title) (hd' : '\r' ∉ fallback.description) :
    Drops (card ((CardText.mk title (crlf d)).card fallback))
      (card ((CardText.mk title d).card fallback)) := by
  have hcard : Drops (card (((CardText.mk title d).card fallback).map crlf))
      (card ((CardText.mk title d).card fallback)) :=
    drops_card (CardText.notMem_card ht hd ht' hd' (by decide))
  by_cases hne : d = []
  · -- both cards show the fallback, which is written without carriage returns
    rw [hne]
    exact (hne ▸ hcard).right
  · rwa [CardText.card_crlf title hne]

theorem ofText_crlf (body : Text) : Block.ofText (crlf body) = Block.ofText body := by
  induction body using split_induction '\n' with
  | piece a ha => rw [crlf_of_line ha]
  | cut a b ha ih =>
    rw [crlf_append_newline b ha, Block.ofText_append_newline, Block.ofText_append_newline,
      Block.ofText_append_blank a (by simp), ih]

/-- Line endings of two characters change nothing that is rendered. The blocks of a body are the
same; a description that is not empty has the same card with these line endings in its texts; and
without its carriage returns, the markup is that of the texts with plain newlines. -/
theorem renderBody_crlf :
    (∀ body : Text, Block.ofText (crlf body) = Block.ofText body) ∧
    (∀ (title d : Text) (fallback : CardText), d ≠ [] →
      (CardText.mk title (crlf d)).card fallback =
        ((CardText.mk title d).card fallback).map crlf) ∧
    ∀ (body title d : Text) (fallback : CardText), '\r' ∉ body → '\r' ∉ title → '\r' ∉ d →
      '\r' ∉ fallback.title → '\r' ∉ fallback.description →
      dropReturns (renderBody (crlf body) ⟨title, crlf d⟩ fallback) =
        renderBody body ⟨title, d⟩ fallback := by
  refine ⟨ofText_crlf, fun title d fallback hd => CardText.card_crlf title hd fallback, ?_⟩
  intro body title d fallback hbody ht hd ht' hd'
  rw [renderBody, renderBody, ofText_crlf]
  refine dropReturns_renderAll (drops_map fun x hx => ?_)
  refine drops_ofBlock (drops_card_crlf ht hd ht' hd') ?_
  rintro t rfl hm
  exact hbody (Block.mem_of_mem_paragraph hx hm)

/-- A bold span at the end of a line, breaks of several newlines, and the ends of a list, of a code
segment and of a title. -/
theorem renderBody_crlf_mixed :
    let body : Text := "a **b**\n\n---\n[METRIC_ATTACH_CARD]\n*c*\n"
    let d : Text := "x **y**\nz\n\n\n| p\nq | r\n[CODE]\nk\nl\n[/CODE]\n\nS: S: a\n| b |\n"
    d ≠ [] ∧ '\r' ∉ body ∧ '\r' ∉ d ∧
      crlf body = "a **b**\r\n\r\n---\r\n[METRIC_ATTACH_CARD]\r\n*c*\r\n".toList ∧
      (CardText.mk [] (crlf d)).card = ⟨"Metric Update",
        [.paragraph "x **y**\r\nz", .list ["p\r\nq", "r"]], some "k\r\nl",
        some ⟨"S:", ["S: a", "b"]⟩⟩ ∧
      dropReturns (renderBody (crlf body) ⟨[], crlf d⟩) = renderBody body ⟨[], d⟩ := by
  intro body d
  obtain ⟨-, hcard, hrender⟩ := renderBody_crlf
  have hne : d ≠ [] := by decide
  have hbody : '\r' ∉ body := by decide
  have hd : '\r' ∉ d := by decide
  refine ⟨hne, hbody, hd, by decide, (hcard [] d .standard hne).trans (by decide), ?_⟩
  exact hrender body [] d .standard hbody (by decide) hd (by decide) (by decide)

end Html
end Bulletin
