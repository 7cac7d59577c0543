import Bulletin.Proofs.Card.Origin
import Bulletin.Proofs.Html.Marked
import Mathlib.Data.List.Forall2

/-! The markup of a card tells the card. Each part of a card is read off its markup together with
the place where that markup ends: an author text at its closing tag, a list of elements at the
first markup that is none of them, and a part that may be missing at the character where it and
what follows it differ. -/

namespace Bulletin.Html

theorem flatMap_unique {α β : Type} {R : α → β → Prop} {f : α → Text} {g : β → Text}
    {xs : List α} {ys : List β} {u v : Text}
    (hfg : ∀ x ∈ xs, ∀ y ∈ ys, ∀ u v, f x ++ u = g y ++ v → R x y ∧ u = v)
    (hf : ∀ x ∈ xs, ∀ w, f x ++ w ≠ v) (hg : ∀ y ∈ ys, ∀ w, g y ++ w ≠ u)
    (h : xs.flatMap f ++ u = ys.flatMap g ++ v) : List.Forall₂ R xs ys ∧ u = v := by
  induction xs generalizing ys with
  | nil =>
    cases ys with
    | nil => exact ⟨.nil, h⟩
    | cons y ys =>
      rw [List.flatMap_cons, List.append_assoc] at h
      exact absurd h.symm (hg y (by simp) _)
  | cons x xs ih =>
    rw [List.flatMap_cons, List.append_assoc] at h
    cases ys with
    | nil => exact absurd h (hf x (by simp) _)
    | cons y ys =>
      rw [List.flatMap_cons, List.append_assoc] at h
      obtain ⟨hxy, htail⟩ := hfg x (by simp) y (by simp) _ _ h
      obtain ⟨hxys, hu⟩ := ih (fun a ha b hb => hfg a (by simp [ha]) b (by simp [hb]))
        (fun a ha => hf a (by simp [ha])) (fun b hb => hg b (by simp [hb])) htail
      exact ⟨.cons hxy hxys, hu⟩

theorem renderAll_eq (xs : List Node) : renderAll xs = xs.flatMap Node.render := by
  induction xs with
  | nil => simp
  | cons x xs ih => simp [ih]

def Begins (c : Char) (t : Text) : Prop := ['<', c] <+: t

theorem Begins.append {c : Char} {t : Text} (h : Begins c t) (u : Text) : Begins c (t ++ u) :=
  h.trans (List.prefix_append t u)

theorem Begins.apart {c d : Char} {t t' : Text} (h : Begins c t) (h' : Begins d t') (hcd : c ≠ d) :
    t ≠ t' := by
  rintro rfl
  obtain ⟨r, rfl⟩ := h
  simp only [Begins, List.cons_append, List.cons_prefix_cons] at h'
  exact hcd h'.2.1.symm

theorem begins_openTag {name : String} {c : Char} {as : Attributes}
    (hc : name.toList.head? = some c) : Begins c (openTag name as) := by
  obtain ⟨r, hr⟩ := List.head?_eq_some_iff.mp hc
  simp [Begins, openTag, hr]

theorem begins_closeTag (name : String) : Begins '/' (closeTag name) := by
  simp [Begins, closeTag]

theorem begins_comment (content : Text) : Begins '!' (Node.comment content).render := by
  have h : Begins '!' "<!-- " := List.isPrefixOf_iff_prefix.mp (by decide)
  rw [Node.render_comment, List.append_assoc]
  exact h.append _

theorem begins_element {name : String} {c : Char} {as : Attributes} {xs : List Node}
    (hc : name.toList.head? = some c) : Begins c (Node.element name as xs).render := by
  rw [Node.render_element, List.append_assoc]
  exact (begins_openTag hc).append _

theorem render_leaf_append (name : String) (as : Attributes) (m u : Text) :
    (leaf name as m).render ++ u = openTag name as ++ (m ++ (closeTag name ++ u)) := by
  simp [leaf, Node.render_element, Node.render_text]

theorem render_block_append (depth : Nat) (name : String) (as : Attributes) (xs : List Node)
    (u : Text) : (block depth name as xs).render ++ u =
      openTag name as ++ (xs.flatMap (fun x => (newline (depth + 1)).render ++ x.render) ++
        ((newline depth).render ++ (closeTag name ++ u))) := by
  simp [block, stack, Node.render_element, renderAll_eq, List.flatMap_assoc]

theorem render_bullets_append (listStyle itemStyle : Text) (xs : List Text) (u : Text) :
    (bullets listStyle itemStyle xs).render ++ u = openTag "ul" (style listStyle) ++
      (xs.flatMap (fun x => (leaf "li" (style itemStyle) (Emphasis.bold x)).render) ++
        (closeTag "ul" ++ u)) := by
  simp [bullets, Node.render_element, renderAll_eq, List.flatMap_map]

theorem newline_not_begins {c : Char} (depth : Nat) (u : Text) :
    ¬ Begins c ((newline depth).render ++ u) := by
  simp [Begins, newline, Node.render_text]

theorem newline_apart {c : Char} {t : Text} (h : Begins c t) (r : Text) :
    (newline 2).render ++ t ≠ (newline 3).render ++ r := by
  obtain ⟨t, rfl⟩ := h
  simp [newline, Node.render_text]

theorem stop_closeTag : ∀ name ∈ ["p", "li", "div", "h2"], Stop (closeTag name) := by
  intro name hname
  refine ⟨rfl, ?_⟩
  revert name
  decide

theorem leaf_unique {name : String} {as : Attributes} {t t' m m' u u' : Text}
    (hs : Stop (closeTag name)) (h : Marked t m) (h' : Marked t' m')
    (he : (leaf name as m).render ++ u = (leaf name as m').render ++ u') : t = t' ∧ u = u' := by
  rw [render_leaf_append, render_leaf_append] at he
  exact h.unique hs h' (List.append_cancel_left he)

theorem bullets_unique {listStyle itemStyle : Text} {xs ys : List Text} {u v : Text}
    (hxs : ∀ x ∈ xs, Plain x) (hys : ∀ y ∈ ys, Plain y)
    (h : (bullets listStyle itemStyle xs).render ++ u =
      (bullets listStyle itemStyle ys).render ++ v) : xs = ys ∧ u = v := by
  rw [render_bullets_append, render_bullets_append] at h
  have hend : ∀ z w w', (leaf "li" (style itemStyle) (Emphasis.bold z)).render ++ w ≠
      closeTag "ul" ++ w' := by
    intro z w w'
    have hli : Begins 'l' (leaf "li" (style itemStyle) (Emphasis.bold z)).render :=
      begins_element (by decide)
    exact (hli.append w).apart ((begins_closeTag "ul").append w') (by decide)
  obtain ⟨hxy, hu⟩ := flatMap_unique (R := Eq)
    (fun x hx y hy _ _ he => leaf_unique (stop_closeTag "li" (by simp)) (hxs x hx).marked_bold
      (hys y hy).marked_bold he)
    (fun x _ w => hend x w v) (fun y _ w => hend y w u) (List.append_cancel_left h)
  rw [List.forall₂_eq_eq_eq] at hxy
  exact ⟨hxy, List.append_cancel_left hu⟩

def sectionMark : Section → Char
  | .list _ => 'u'
  | .paragraph _ => 'p'

theorem begins_cardSection (s : Section) : Begins (sectionMark s) (cardSection s).render := by
  cases s with
  | list xs => exact begins_element (c := 'u') (by decide)
  | paragraph x => exact begins_element (c := 'p') (by decide)

theorem cardSection_unique {s t : Section} {u v : Text} (hs : ∀ x ∈ s.texts, Plain x)
    (ht : ∀ x ∈ t.texts, Plain x) (h : (cardSection s).render ++ u = (cardSection t).render ++ v) :
    s = t ∧ u = v := by
  have hmark : sectionMark s = sectionMark t := by
    by_contra hne
    exact ((begins_cardSection s).append u).apart ((begins_cardSection t).append v) hne h
  cases s with
  | list xs =>
    cases t with
    | list ys =>
      obtain ⟨rfl, hu⟩ := bullets_unique hs ht h
      exact ⟨rfl, hu⟩
    | paragraph y => exact absurd hmark (by simp [sectionMark])
  | paragraph x =>
    cases t with
    | list ys => exact absurd hmark (by simp [sectionMark])
    | paragraph y =>
      have hx : Plain x := hs x (by simp [Section.texts])
      have hy : Plain y := ht y (by simp [Section.texts])
      obtain ⟨rfl, hu⟩ := leaf_unique (stop_closeTag "p" (by simp)) hx.marked_bold.lineBreaks
        hy.marked_bold.lineBreaks h
      exact ⟨rfl, hu⟩

/-- A row without code holds an empty cell right after its opening tag; a row with code holds a cell
on the next line. -/
theorem codeRow_none_ne_some (x u v : Text) :
    (codeRow none).render ++ u ≠ (codeRow (some x)).render ++ v := by
  intro h
  simp only [codeRow, render_block_append, List.flatMap_cons, List.append_assoc] at h
  simp only [Node.render_element, renderAll_cons, List.append_assoc,
    List.append_cancel_left_eq] at h
  exact newline_not_begins _ _ (h ▸ (begins_openTag (c := 't') (by decide)).append _)

theorem codeRow_unique {a b : Option Text} {u v : Text} (ha : ∀ x ∈ a, Plain x)
    (hb : ∀ x ∈ b, Plain x) (h : (codeRow a).render ++ u = (codeRow b).render ++ v) :
    a = b ∧ u = v := by
  cases a with
  | none =>
    cases b with
    | none => exact ⟨rfl, List.append_cancel_left h⟩
    | some y => exact absurd h (codeRow_none_ne_some y u v)
  | some x =>
    cases b with
    | none => exact absurd h.symm (codeRow_none_ne_some x v u)
    | some y =>
      have hx : Plain x := ha x rfl
      have hy : Plain y := hb y rfl
      simp only [codeRow, render_block_append, List.flatMap_cons, List.flatMap_nil,
        List.append_nil, List.append_assoc, List.append_cancel_left_eq] at h
      obtain ⟨rfl, hu⟩ := leaf_unique (stop_closeTag "div" (by simp)) hx.marked.lineBreaks
        hy.marked.lineBreaks h
      simp only [List.append_cancel_left_eq] at hu
      exact ⟨rfl, hu⟩

theorem closingRows_unique {a b : Option ClosingList} {u v : Text}
    (ha : ∀ l ∈ a, Plain l.title ∧ ∀ x ∈ l.items, Plain x)
    (hb : ∀ l ∈ b, Plain l.title ∧ ∀ x ∈ l.items, Plain x)
    (h : (closingRows a).flatMap (fun x => (newline 3).render ++ x.render) ++
        ((newline 2).render ++ (closeTag "td" ++ u)) =
      (closingRows b).flatMap (fun x => (newline 3).render ++ x.render) ++
        ((newline 2).render ++ (closeTag "td" ++ v))) : a = b ∧ u = v := by
  cases a with
  | none =>
    cases b with
    | none =>
      simp only [closingRows, List.append_cancel_left_eq] at h
      exact ⟨rfl, h⟩
    | some y =>
      simp only [closingRows, List.flatMap_cons, List.flatMap_nil, List.append_assoc] at h
      exact absurd h (newline_apart ((begins_closeTag "td").append u) _)
  | some x =>
    cases b with
    | none =>
      simp only [closingRows, List.flatMap_cons, List.flatMap_nil, List.append_assoc] at h
      exact absurd h.symm (newline_apart ((begins_closeTag "td").append v) _)
    | some y =>
      obtain ⟨htitle, hitems⟩ := ha x rfl
      obtain ⟨htitle', hitems'⟩ := hb y rfl
      simp only [closingRows, List.flatMap_cons, List.flatMap_nil, render_block_append,
        List.append_nil, List.append_assoc, List.append_cancel_left_eq] at h
      obtain ⟨ht, h⟩ := leaf_unique (stop_closeTag "p" (by simp)) htitle.marked htitle'.marked h
      obtain ⟨hi, hu⟩ := bullets_unique hitems hitems' (List.append_cancel_left h)
      simp only [List.append_cancel_left_eq] at hu
      obtain ⟨title, items⟩ := x
      obtain ⟨title', items'⟩ := y
      obtain rfl : title = title' := ht
      obtain rfl : items = items' := hi
      exact ⟨rfl, hu⟩

theorem sections_unique {ss ts : List Section} {u v : Text}
    (hss : ∀ s ∈ ss, ∀ x ∈ s.texts, Plain x) (hts : ∀ s ∈ ts, ∀ x ∈ s.texts, Plain x)
    (h : ss.flatMap (fun s => (newline 3).render ++ (cardSection s).render) ++
        ((newline 3).render ++ ((Node.comment "Code Block (if present)").render ++ u)) =
      ts.flatMap (fun s => (newline 3).render ++ (cardSection s).render) ++
        ((newline 3).render ++ ((Node.comment "Code Block (if present)").render ++ v))) :
    ss = ts ∧ u = v := by
  have hend : ∀ s w w', (newline 3).render ++ (cardSection s).render ++ w ≠
      (newline 3).render ++ ((Node.comment "Code Block (if present)").render ++ w') := by
    intro s w w' he
    rw [List.append_assoc] at he
    have hmark : sectionMark s ≠ '!' := by cases s <;> simp [sectionMark]
    exact ((begins_cardSection s).append w).apart ((begins_comment _).append w') hmark
      (List.append_cancel_left he)
  have hpart : ∀ s ∈ ss, ∀ t ∈ ts, ∀ u v, (newline 3).render ++ (cardSection s).render ++ u =
      (newline 3).render ++ (cardSection t).render ++ v → s = t ∧ u = v := by
    intro s hs t ht u v he
    rw [List.append_assoc, List.append_assoc] at he
    exact cardSection_unique (hss s hs) (hts t ht) (List.append_cancel_left he)
  obtain ⟨hst, hu⟩ := flatMap_unique (R := Eq) hpart (fun s _ w => hend s w v)
    (fun t _ w => hend t w u) h
  rw [List.forall₂_eq_eq_eq] at hst
  simp only [List.append_cancel_left_eq] at hu
  exact ⟨hst, hu⟩

/-- A card in whose texts no tag begins. -/
structure PlainCard (c : Card) : Prop where
  title : Plain c.title
  sections : ∀ s ∈ c.sections, ∀ x ∈ s.texts, Plain x
  code : ∀ x ∈ c.code, Plain x
  closing : ∀ l ∈ c.closing, Plain l.title ∧ ∀ x ∈ l.items, Plain x

theorem plainCard_of_texts {c : Card} (h : ∀ x ∈ c.texts, Plain x) : PlainCard c := by
  simp only [Card.mem_texts_iff] at h
  refine ⟨h _ (Or.inl rfl), fun s hs x hx => h x (Or.inr (Or.inl ⟨s, hs, hx⟩)),
    fun x hx => h x (Or.inr (Or.inr (Or.inl hx))), fun l hl => ?_⟩
  have hlist : ∀ x, x = l.title ∨ x ∈ l.items → Plain x :=
    fun x hx => h x (Or.inr (Or.inr (Or.inr ⟨l, hl, hx⟩)))
  exact ⟨hlist _ (Or.inl rfl), fun x hx => hlist x (Or.inr hx)⟩

theorem plainCard_card {t fallback : CardText} (ht : Plain t.title) (hd : Plain t.description)
    (ht' : Plain fallback.title) (hd' : Plain fallback.description) :
    PlainCard (t.card fallback) :=
  plainCard_of_texts (CardText.notMem_card ht hd ht' hd' (by decide))

/-- A card can be told from its markup. -/
theorem card_unique {c d : Card} {u v : Text} (hc : PlainCard c) (hd : PlainCard d)
    (h : (card c).render ++ u = (card d).render ++ v) : c = d ∧ u = v := by
  obtain ⟨title, sections, code, closing⟩ := c
  obtain ⟨title', sections', code', closing'⟩ := d
  simp only [card, render_block_append, List.flatMap_cons, List.flatMap_nil, List.flatMap_append,
    List.flatMap_map, List.append_nil, List.append_assoc, List.append_cancel_left_eq] at h
  obtain ⟨rfl, h⟩ := leaf_unique (stop_closeTag "h2" (by simp)) hc.title.marked hd.title.marked h
  simp only [List.append_cancel_left_eq] at h
  obtain ⟨rfl, h⟩ := sections_unique hc.sections hd.sections h
  simp only [List.append_cancel_left_eq] at h
  obtain ⟨rfl, h⟩ := codeRow_unique hc.code hd.code h
  simp only [List.append_cancel_left_eq] at h
  obtain ⟨rfl, h⟩ := closingRows_unique hc.closing hd.closing h
  simp only [List.append_cancel_left_eq] at h
  exact ⟨rfl, h⟩

end Bulletin.Html
